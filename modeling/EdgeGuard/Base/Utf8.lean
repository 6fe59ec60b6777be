import EdgeGuard.Base.CText

/-!
# UTF-8 validity of byte buffers

`valid` is `g_utf8_validate` called with an explicit length: the well-formed
byte sequences of RFC 3629 (no overlong form, no surrogate, nothing above
U+10FFFF), with NUL refused because the length says the text goes on.

The validator is an automaton over single bytes.  Its state is the number of
continuation bytes still owed and the range of the next one, which only the
first continuation byte of a character narrows.  Facts about valid buffers are
inductions over the buffer for an arbitrary state in which a byte is owed only
above ASCII (`Owed`).

## Main results

* `valid_append` — validity of `s ++ t` for valid `s` is validity of `t`.
* `valid_of_ascii` — nonzero bytes below `0x80` are always valid.
* `not_mem_nul_of_valid` — a valid buffer holds no NUL byte.
* `valid_take_iff` — where valid text may be cut.
* `controlFree_of_unichars` — text without control characters has no control
  bytes.
-/

namespace EdgeGuard.Base.Utf8

open EdgeGuard.Base.CText

/-- The lead byte of a character: how many continuation bytes it owes, and the
range of the first of them. -/
def lead (b : UInt8) : Option (Nat × UInt8 × UInt8) :=
  if b == 0 then none
  else if b < 0x80 then some (0, 0x80, 0xbf)
  else if b < 0xc2 then none
  else if b < 0xe0 then some (1, 0x80, 0xbf)
  else if b == 0xe0 then some (2, 0xa0, 0xbf)
  else if b == 0xed then some (2, 0x80, 0x9f)
  else if b < 0xf0 then some (2, 0x80, 0xbf)
  else if b == 0xf0 then some (3, 0x90, 0xbf)
  else if b < 0xf4 then some (3, 0x80, 0xbf)
  else if b == 0xf4 then some (3, 0x80, 0x8f)
  else none

/-- The validator, with `owed` continuation bytes missing and the next one in
`lo` to `hi`. -/
def validFrom (owed : Nat) (lo hi : UInt8) : Bytes → Bool
  | [] => owed == 0
  | b :: rest =>
      match owed with
      | 0 =>
          match lead b with
          | none => false
          | some (owed, lo, hi) => validFrom owed lo hi rest
      | owed + 1 => lo ≤ b && b ≤ hi && validFrom owed 0x80 0xbf rest

/-- `g_utf8_validate(text, length, NULL)`. -/
def valid (s : Bytes) : Bool := validFrom 0 0x80 0xbf s

/-! ## Reading one byte -/

/-- Only bytes above ASCII can be owed. -/
def Owed (owed : Nat) (lo : UInt8) : Prop := owed = 0 ∨ 0x80 ≤ lo

/-- Between characters the range is irrelevant. -/
theorem validFrom_zero (lo hi : UInt8) (s : Bytes) : validFrom 0 lo hi s = valid s := by
  cases s <;> rfl

theorem valid_cons_ascii {b : UInt8} (hz : b ≠ 0) (hb : b < 0x80) (s : Bytes) :
    valid (b :: s) = valid s := by
  simp [valid, validFrom, lead, hz, hb]

theorem owed_of_lead {b : UInt8} {owed : Nat} {lo hi : UInt8}
    (h : lead b = some (owed, lo, hi)) : Owed owed lo := by
  unfold lead at h
  repeat' split at h
  all_goals cases h
  all_goals first
    | exact .inl rfl
    | exact .inr (by decide)

/-- What one accepted byte is: an ASCII byte between characters, or a byte
above ASCII. -/
theorem validFrom_cons {owed : Nat} {lo hi : UInt8} (ho : Owed owed lo) {b : UInt8}
    {s : Bytes} (h : validFrom owed lo hi (b :: s) = true) :
    (owed = 0 ∧ b ≠ 0 ∧ b < 0x80 ∧ valid s = true) ∨
      (0x80 ≤ b ∧ ∃ owed' lo' hi', Owed owed' lo' ∧ validFrom owed' lo' hi' s = true ∧
        ∀ t, validFrom owed lo hi (b :: t) = validFrom owed' lo' hi' t) := by
  cases owed with
  | zero =>
      cases hl : lead b with
      | none => simp [validFrom, hl] at h
      | some next =>
          obtain ⟨owed', lo', hi'⟩ := next
          simp only [validFrom, hl] at h
          by_cases hb : b < 0x80
          · have hz : b ≠ 0 := by
              rintro rfl
              simp [lead] at hl
            have hzero : owed' = 0 := by
              simp [lead, hz, hb] at hl
              exact hl.1.symm
            rw [hzero, validFrom_zero] at h
            exact .inl ⟨rfl, hz, hb, h⟩
          · refine .inr ⟨by grind, owed', lo', hi', owed_of_lead hl, h, fun t => ?_⟩
            simp only [validFrom, hl]
  | succ owed =>
      simp only [validFrom, Bool.and_eq_true, decide_eq_true_eq] at h
      have hlo : 0x80 ≤ lo := by
        rcases ho with ho | ho
        · omega
        · exact ho
      refine .inr ⟨by grind, owed, 0x80, 0xbf, .inr (by decide), h.2, fun t => ?_⟩
      simp [validFrom, h.1.1, h.1.2]

/-! ## Buffers -/

/-- A valid text may be followed by another. -/
private theorem validFrom_append {owed : Nat} {lo hi : UInt8} {s : Bytes}
    (h : validFrom owed lo hi s = true) (t : Bytes) :
    validFrom owed lo hi (s ++ t) = valid t := by
  induction s generalizing owed lo hi with
  | nil =>
      have : owed = 0 := by simpa [validFrom] using h
      rw [this]
      exact validFrom_zero lo hi t
  | cons b s ih =>
      cases owed with
      | zero =>
          cases hl : lead b with
          | none => simp [validFrom, hl] at h
          | some next =>
              simp only [validFrom, hl] at h
              simp only [List.cons_append, validFrom, hl]
              exact ih h
      | succ owed =>
          simp only [validFrom, Bool.and_eq_true, decide_eq_true_eq] at h
          simp only [List.cons_append, validFrom, h.1.1, h.1.2, decide_true,
            Bool.true_and]
          exact ih h.2

/-- Validity of a concatenation is decided by the rest. -/
theorem valid_append {s : Bytes} (h : valid s = true) (t : Bytes) :
    valid (s ++ t) = valid t :=
  validFrom_append h t

/-- Nonzero bytes below `0x80` always form valid text. -/
theorem valid_of_ascii {s : Bytes} (h : ∀ b ∈ s, b ≠ 0 ∧ b < 0x80) :
    valid s = true := by
  induction s with
  | nil => rfl
  | cons b s ih =>
      obtain ⟨hz, hb⟩ := h b (by simp)
      rw [valid_cons_ascii hz hb]
      exact ih fun c hc => h c (by simp [hc])

/-- What is owed to a lead byte is no NUL. -/
private theorem not_mem_nul_of_validFrom {owed : Nat} {lo hi : UInt8}
    (ho : Owed owed lo) {s : Bytes} (h : validFrom owed lo hi s = true) :
    (0 : UInt8) ∉ s := by
  induction s generalizing owed lo hi with
  | nil => simp
  | cons b s ih =>
      rcases validFrom_cons ho h with ⟨-, hz, -, hs⟩ | ⟨hb, owed', lo', hi', ho', hs, -⟩
      · have hrest := ih (.inl rfl) hs
        simp [hz.symm, hrest]
      · have hrest := ih ho' hs
        have hz : (0 : UInt8) ≠ b := by grind
        simp [hz, hrest]

/-- A valid buffer holds no NUL byte. -/
theorem not_mem_nul_of_valid {s : Bytes} (h : valid s = true) : (0 : UInt8) ∉ s :=
  not_mem_nul_of_validFrom (.inl rfl) h

/-! ## Cutting text -/

/-- A byte inside a character. -/
def isContinuation (b : UInt8) : Bool := 0x80 ≤ b && b < 0xc0

/-- What is owed is in the range of the continuation bytes. -/
private def Ranged (owed : Nat) (lo hi : UInt8) : Prop := owed = 0 ∨ (0x80 ≤ lo ∧ hi ≤ 0xbf)

private theorem ranged_of_lead {b : UInt8} {owed : Nat} {lo hi : UInt8}
    (h : lead b = some (owed, lo, hi)) : Ranged owed lo hi ∧ isContinuation b = false := by
  unfold lead at h
  unfold Ranged isContinuation
  repeat' split at h
  all_goals cases h
  all_goals grind

/-- A cut is valid where no character is torn. -/
private theorem validFrom_take_iff {owed : Nat} {lo hi : UInt8} (hr : Ranged owed lo hi)
    {s : Bytes} (h : validFrom owed lo hi s = true) (n : Nat) :
    validFrom owed lo hi (s.take n) = true ↔ ∀ b, s[n]? = some b → isContinuation b = false := by
  induction n generalizing owed lo hi s with
  | zero =>
      -- the cut is here: nothing may be owed, and what is owed is a continuation byte
      cases s with
      | nil => simpa using h
      | cons b s =>
          cases owed with
          | zero =>
              cases hl : lead b with
              | none => simp [validFrom, hl] at h
              | some next =>
                  obtain ⟨owed', lo', hi'⟩ := next
                  simpa [validFrom] using (ranged_of_lead hl).2
          | succ owed =>
              simp only [validFrom, Bool.and_eq_true, decide_eq_true_eq] at h
              have hrange : 0x80 ≤ lo ∧ hi ≤ 0xbf := by
                rcases hr with hr | hr
                · omega
                · exact hr
              have hinside : isContinuation b = true := by
                unfold isContinuation
                grind
              simp [validFrom, hinside]
  | succ n ih =>
      cases s with
      | nil => simpa using h
      | cons b s =>
          simp only [List.take_succ_cons, List.getElem?_cons_succ]
          cases owed with
          | zero =>
              cases hl : lead b with
              | none => simp [validFrom, hl] at h
              | some next =>
                  obtain ⟨owed', lo', hi'⟩ := next
                  simp only [validFrom, hl] at h ⊢
                  exact ih (ranged_of_lead hl).1 h
          | succ owed =>
              simp only [validFrom, Bool.and_eq_true, decide_eq_true_eq] at h
              simp only [validFrom, h.1.1, h.1.2, decide_true, Bool.true_and]
              exact ih (.inr (by decide)) h.2

/-- Valid text may be cut in front of every byte that is not inside a character. -/
theorem valid_take_iff {s : Bytes} (h : valid s = true) (n : Nat) :
    valid (s.take n) = true ↔ ∀ b, s[n]? = some b → isContinuation b = false :=
  validFrom_take_iff (.inl rfl) h n

/-! ## Characters -/

/-- The part of the code point that a lead byte carries. -/
def leadBits (owed : Nat) (b : UInt8) : Nat :=
  match owed with
  | 1 => b.toNat % 32
  | 2 => b.toNat % 16
  | _ => b.toNat % 8

/-- The code points of valid text, with `owed` bytes of a character missing and
its bits so far in `bits`. -/
def unicharsFrom (owed bits : Nat) : Bytes → List Nat
  | [] => []
  | b :: rest =>
      match owed with
      | 0 =>
          match lead b with
          | some (owed + 1, _, _) => unicharsFrom (owed + 1) (leadBits (owed + 1) b) rest
          | _ => b.toNat :: unicharsFrom 0 0 rest
      | 1 => (bits * 64 + b.toNat % 64) :: unicharsFrom 0 0 rest
      | owed + 2 => unicharsFrom (owed + 1) (bits * 64 + b.toNat % 64) rest

/-- The code points that `g_utf8_get_char` and `g_utf8_next_char` visit. -/
def unichars (s : Bytes) : List Nat := unicharsFrom 0 0 s

/-- `g_unichar_iscntrl`: the category Cc. -/
def unicharIsCntrl (ch : Nat) : Bool := ch < 0x20 || (0x7f ≤ ch && ch ≤ 0x9f)

/-- `g_unichar_isspace`: four controls and the separators Zs, Zl and Zp. -/
def unicharIsSpace (ch : Nat) : Bool :=
  ch == 0x09 || ch == 0x0a || ch == 0x0c || ch == 0x0d || ch == 0x20 || ch == 0xa0 ||
    ch == 0x1680 || (0x2000 ≤ ch && ch ≤ 0x200a) || ch == 0x2028 || ch == 0x2029 ||
    ch == 0x202f || ch == 0x205f || ch == 0x3000

theorem unicharsFrom_ascii {b : UInt8} (hz : b ≠ 0) (hb : b < 0x80) (bits : Nat)
    (s : Bytes) : unicharsFrom 0 bits (b :: s) = b.toNat :: unichars s := by
  simp [unicharsFrom, unichars, lead, hz, hb]

/-- ASCII text is its own list of code points. -/
theorem unichars_of_ascii {s : Bytes} (h : ∀ b ∈ s, b ≠ 0 ∧ b < 0x80) :
    unichars s = s.map UInt8.toNat := by
  induction s with
  | nil => rfl
  | cons b s ih =>
      obtain ⟨hz, hb⟩ := h b (by simp)
      rw [unichars, unicharsFrom_ascii hz hb, List.map_cons,
        ih fun c hc => h c (by simp [hc])]

private theorem isControl_high {b : UInt8} (h : 0x80 ≤ b) : isControl b = false := by
  unfold isControl
  grind

/-- A control byte is a control character. -/
private theorem isControl_of_unichar {b : UInt8}
    (h : unicharIsCntrl b.toNat = false) : isControl b = false := by
  simp only [unicharIsCntrl, Bool.or_eq_false_iff, decide_eq_false_iff_not,
    Bool.and_eq_false_iff] at h
  have hlow : ¬ b < 0x20 := by
    intro hb
    exact h.1 (UInt8.lt_iff_toNat_lt.mp hb)
  have hdel : b ≠ 0x7f := by
    rintro rfl
    exact absurd h.2 (by decide)
  simp [isControl, hlow, hdel]

/-- The characters still to come after one accepted byte. -/
private theorem unicharsFrom_cons {owed : Nat} {lo hi : UInt8} {b : UInt8} {s : Bytes}
    (h : validFrom owed lo hi (b :: s) = true) (bits : Nat) :
    ∃ owed' lo' hi' bits', Owed owed' lo' ∧ validFrom owed' lo' hi' s = true ∧
      ∀ ch ∈ unicharsFrom owed' bits' s, ch ∈ unicharsFrom owed bits (b :: s) := by
  cases owed with
  | zero =>
      cases hl : lead b with
      | none => simp [validFrom, hl] at h
      | some next =>
          obtain ⟨owed', lo', hi'⟩ := next
          simp only [validFrom, hl] at h
          cases owed' with
          | zero =>
              refine ⟨0, lo', hi', 0, .inl rfl, h, ?_⟩
              intro ch hch
              simp [unicharsFrom, hl, hch]
          | succ owed' =>
              refine ⟨owed' + 1, lo', hi', leadBits (owed' + 1) b, owed_of_lead hl, h, ?_⟩
              intro ch hch
              simpa [unicharsFrom, hl] using hch
  | succ owed =>
      simp only [validFrom, Bool.and_eq_true] at h
      refine ⟨owed, 0x80, 0xbf, bits * 64 + b.toNat % 64, .inr (by decide), h.2, ?_⟩
      intro ch hch
      cases owed with
      | zero =>
          cases s with
          | nil => simp [unicharsFrom] at hch
          | cons c s =>
              simp only [unicharsFrom, List.mem_cons] at hch ⊢
              exact .inr hch
      | succ owed => simpa [unicharsFrom] using hch

/-- A text without control characters has no control byte. -/
private theorem controlFree_of_unicharsFrom {owed : Nat} (bits : Nat) {lo hi : UInt8}
    (ho : Owed owed lo) {s : Bytes} (h : validFrom owed lo hi s = true)
    (hch : ∀ ch ∈ unicharsFrom owed bits s, unicharIsCntrl ch = false) :
    controlFree s = true := by
  induction s generalizing owed bits lo hi with
  | nil => rfl
  | cons b s ih =>
      rcases validFrom_cons ho h with ⟨rfl, hz, hb, hs⟩ | ⟨hb, -⟩
      · rw [unicharsFrom_ascii hz hb] at hch
        have hrest := ih 0 (.inl rfl) hs fun ch hmem => hch ch (by
          simp only [List.mem_cons]
          exact .inr hmem)
        simp [isControl_of_unichar (hch b.toNat (by simp)), hrest]
      · obtain ⟨owed', lo', hi', bits', ho', hs, hsub⟩ := unicharsFrom_cons h bits
        have hrest := ih bits' ho' hs fun ch hmem => hch ch (hsub ch hmem)
        simp [isControl_high hb, hrest]

/-- Text without control characters has no control bytes. -/
theorem controlFree_of_unichars {s : Bytes} (h : valid s = true)
    (hch : (unichars s).all (fun ch => !unicharIsCntrl ch) = true) :
    controlFree s = true := by
  refine controlFree_of_unicharsFrom 0 (.inl rfl) h fun ch hmem => ?_
  simpa using List.all_eq_true.mp hch ch hmem

end EdgeGuard.Base.Utf8
