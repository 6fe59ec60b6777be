import EdgeGuard.Agent.ManifestLexer

/-!
# The tokens of a manifest

The token functions of the lexical guard held to the grammar of RFC 8259: each takes
exactly the texts of its kind, whatever stands behind them, and refuses every other
text without reading past its end.

## Main results

* `stringToken_sound`, `stringToken_complete` — the strings whose surrogates are paired.
* `numberToken_sound`, `numberToken_complete` — the numbers, and the digits of an integer.
-/

namespace EdgeGuard.Agent.ManifestTokens

open EdgeGuard.Base.CText EdgeGuard.Base.Utf8 EdgeGuard.Base.JsonGrammar
open EdgeGuard.Agent.Model EdgeGuard.Agent.ManifestLexer

/-! ## Results -/

/-- A sequence of readers succeeds when each does on what the one before left. -/
theorem bind_eq_ok {α β : Type} {x : Lexed α} {f : α → Lexed β} {b : β} :
    x >>= f = .ok b ↔ ∃ a, x = .ok a ∧ f a = .ok b := by
  cases x with
  | error e =>
      constructor
      · intro h
        cases h
      · rintro ⟨a, ha, -⟩
        cases ha
  | ok a =>
      constructor
      · intro h
        exact ⟨a, rfl, h⟩
      · rintro ⟨a', ha, h⟩
        cases ha
        exact h

@[simp] theorem deref_cons {α : Type} (b : UInt8) (tail : Bytes) (k : UInt8 → Bytes → Lexed α) :
    deref (b :: tail) k = k b tail := rfl

/-- The only failure is that the text is refused. -/
def Clean {α : Type} (x : Lexed α) : Prop := ∀ e, x = .error e → e = .invalid

theorem clean_ok {α : Type} (a : α) : Clean (.ok a : Lexed α) := by
  intro e h
  cases h

theorem clean_invalid {α : Type} : Clean (.error .invalid : Lexed α) := by
  intro e h
  cases h
  rfl

theorem Clean.bind {α β : Type} {x : Lexed α} {f : α → Lexed β} (hx : Clean x)
    (hf : ∀ a, x = .ok a → Clean (f a)) : Clean (x >>= f) := by
  cases x with
  | error e =>
      intro e' h
      cases h
      exact hx e rfl
  | ok a => exact hf a rfl

theorem Clean.ite {α : Type} {p : Prop} [Decidable p] {x y : Lexed α} (hx : p → Clean x)
    (hy : ¬ p → Clean y) : Clean (if p then x else y) := by
  by_cases h : p
  · rw [if_pos h]
    exact hx h
  · rw [if_neg h]
    exact hy h

/-- A read behind the test for the end. -/
theorem clean_read {α : Type} {rest : Bytes} {k : UInt8 → Bytes → Lexed α}
    (h : ∀ b tail, rest = b :: tail → Clean (k b tail)) :
    Clean (if rest.isEmpty then .error .invalid else deref rest k) := by
  cases rest with
  | nil => exact clean_invalid
  | cons b tail => exact h b tail rfl

/-- What a successful read behind the test for the end has seen. -/
theorem read_eq_ok {α : Type} {rest : Bytes} {k : UInt8 → Bytes → Lexed α} {a : α}
    (h : (if rest.isEmpty then .error .invalid else deref rest k) = .ok a) :
    ∃ b tail, rest = b :: tail ∧ k b tail = .ok a := by
  cases rest with
  | nil => cases h
  | cons b tail => exact ⟨b, tail, rfl, h⟩

/-- Bytes on either side of a test differ. -/
theorem ne_of_test {p : UInt8 → Bool} {b c : UInt8} (hb : p b = true) (hc : p c = false) :
    b ≠ c := by
  intro h
  rw [h, hc] at hb
  cases hb

/-! ## White space -/

theorem strchr_ws {b : UInt8} (h : b ≠ 0) : strchrTest (ascii " \t\r\n") b = isWs b := by
  have hset : ascii " \t\r\n" = [0x20, 0x09, 0x0d, 0x0a] := rfl
  have hzero : (b == 0) = false := beq_false_of_ne h
  simp only [strchrTest, hset, hzero, isWs, List.contains_cons, List.contains_nil, Bool.or_false]
  cases b == 0x20 <;> cases b == 0x09 <;> cases b == 0x0d <;> cases b == 0x0a <;> rfl

theorem strchr_of_isWs {b : UInt8} (h : isWs b = true) :
    strchrTest (ascii " \t\r\n") b = true := by
  by_cases hzero : b = 0
  · subst hzero
    cases h
  · rw [strchr_ws hzero, h]

/-- White space is skipped, whatever follows. -/
theorem ws_append (space : Space) (rest : Bytes) : ws (space.1 ++ rest) = ws rest :=
  List.dropWhile_append_of_pos fun b hb => strchr_of_isWs (space.2 b hb)

theorem ws_cons {b : UInt8} (h : strchrTest (ascii " \t\r\n") b = false) (rest : Bytes) :
    ws (b :: rest) = b :: rest := by
  unfold ws
  rw [List.dropWhile_cons, if_neg (by simp [h])]

/-- What is skipped is white space. -/
theorem ws_split {rest : Bytes} (hzero : 0 ∉ rest) :
    ∃ space : Space, rest = space.1 ++ ws rest := by
  induction rest with
  | nil => exact ⟨Space.none, rfl⟩
  | cons b rest ih =>
      have hb : b ≠ 0 := fun h => hzero (by simp [h])
      by_cases hws : isWs b = true
      · obtain ⟨space, hrest⟩ := ih fun h => hzero (by simp [h])
        have hspace : ∀ x ∈ b :: space.1, isWs x = true := by
          intro x hx
          rcases List.mem_cons.mp hx with rfl | hx
          · exact hws
          · exact space.2 x hx
        refine ⟨⟨b :: space.1, hspace⟩, ?_⟩
        have hskip : ws (b :: rest) = ws rest := by
          unfold ws
          rw [List.dropWhile_cons, if_pos (strchr_of_isWs hws)]
        rw [hskip, List.cons_append, ← hrest]
      · refine ⟨Space.none, ?_⟩
        rw [ws_cons (by rw [strchr_ws hb]; simpa using hws)]
        rfl

theorem ws_zero {rest : Bytes} (hzero : 0 ∉ rest) : 0 ∉ ws rest :=
  fun hmem => hzero ((List.dropWhile_sublist _).subset hmem)

theorem length_ws_le (rest : Bytes) : (ws rest).length ≤ rest.length :=
  (List.dropWhile_sublist _).length_le

theorem ws_ws (rest : Bytes) : ws (ws rest) = ws rest := by
  induction rest with
  | nil => rfl
  | cons b rest ih =>
      unfold ws at ih ⊢
      rw [List.dropWhile_cons]
      split
      · exact ih
      · rename_i h
        rw [List.dropWhile_cons, if_neg h]

/-! ## Hexadecimal digits -/

/-- The loop reads the digits of a hexadecimal number. -/
theorem hexLoop_sound {count u v : Nat} {rest rest' : Bytes}
    (h : hexLoop count u rest = .ok (v, rest')) :
    ∃ hex : Bytes, rest = hex ++ rest' ∧ hex.length = count ∧
      (∀ b ∈ hex, isXDigit b = true) ∧ v = hex.foldl (fun u b => u * 16 + xdigitValue b) u := by
  induction count generalizing u rest with
  | zero =>
      cases h
      exact ⟨[], rfl, rfl, by simp, rfl⟩
  | succ count ih =>
      unfold hexLoop at h
      obtain ⟨b, tail, rfl, hread⟩ := read_eq_ok h
      by_cases hx : isXDigit b = true
      · rw [if_neg (by simp [hx])] at hread
        obtain ⟨hex, rfl, hlength, hdigits, hvalue⟩ := ih hread
        refine ⟨b :: hex, rfl, by simp [hlength], ?_, hvalue⟩
        intro c hc
        rcases List.mem_cons.mp hc with rfl | hc
        · exact hx
        · exact hdigits c hc
      · rw [if_pos (by simpa using hx)] at hread
        cases hread

theorem hexLoop_complete (hex : Bytes) (hdigits : ∀ b ∈ hex, isXDigit b = true) (u : Nat)
    (rest : Bytes) : hexLoop hex.length u (hex ++ rest) =
      .ok (hex.foldl (fun u b => u * 16 + xdigitValue b) u, rest) := by
  induction hex generalizing u with
  | nil => rfl
  | cons b hex ih =>
      have hb : isXDigit b = true := hdigits b (by simp)
      rw [List.length_cons, hexLoop, List.cons_append, List.isEmpty_cons, if_neg (by simp),
        deref_cons, if_neg (by simp [hb])]
      exact ih (fun c hc => hdigits c (by simp [hc])) _

theorem hex4_sound {u : Nat} {rest rest' : Bytes} (h : hex4 rest = .ok (u, rest')) :
    ∃ hex : Hex, rest = hex.1 ++ rest' ∧ u = hexValue hex.1 := by
  obtain ⟨hex, hrest, hlength, hdigits, hvalue⟩ := hexLoop_sound h
  exact ⟨⟨hex, hlength, hdigits⟩, hrest, hvalue⟩

theorem hex4_complete (hex : Hex) (rest : Bytes) :
    hex4 (hex.1 ++ rest) = .ok (hexValue hex.1, rest) := by
  have h := hexLoop_complete hex.1 hex.2.2 0 rest
  rw [hex.2.1] at h
  exact h

theorem clean_hexLoop (count u : Nat) (rest : Bytes) : Clean (hexLoop count u rest) := by
  induction count generalizing u rest with
  | zero => exact clean_ok _
  | succ count ih =>
      unfold hexLoop
      exact clean_read fun b tail _ => .ite (fun _ => clean_invalid) fun _ => ih _ _

/-! ## Escapes of characters -/

theorem isHigh_eq (u : Nat) : isHigh u = (decide (0xd800 ≤ u) && decide (u ≤ 0xdbff)) := rfl

theorem isLow_eq (u : Nat) : isLow u = (decide (0xdc00 ≤ u) && decide (u ≤ 0xdfff)) := rfl

theorem combine_eq (high : Nat) {low : Nat} (h : 0xdc00 ≤ low) :
    0x10000 + (high - 0xd800) * 1024 + low - 0xdc00 = combine high low := by
  unfold combine
  exact Nat.add_sub_assoc h _

/-- One escape, or a pair of surrogates. -/
inductive Escaped (rest rest' : Bytes) (u : Nat) : Prop
  | single (hex : Hex) (text : rest = hex.1 ++ rest') (high : isHigh (hexValue hex.1) = false)
      (low : isLow (hexValue hex.1) = false) (value : u = hexValue hex.1)
  | pair (first second : Hex) (text : rest = first.1 ++ 0x5c :: 0x75 :: (second.1 ++ rest'))
      (high : isHigh (hexValue first.1) = true) (low : isLow (hexValue second.1) = true)
      (value : u = combine (hexValue first.1) (hexValue second.1))

theorem Escaped.length {rest rest' : Bytes} {u : Nat} (h : Escaped rest rest' u) :
    rest'.length < rest.length := by
  cases h with
  | single hex text =>
      have hlength := hex.2.1
      rw [text, List.length_append]
      omega
  | pair first second text =>
      have hlength := first.2.1
      rw [text, List.length_append, List.length_cons, List.length_cons, List.length_append]
      omega

theorem Escaped.zero {rest rest' : Bytes} {u : Nat} (h : Escaped rest rest' u)
    (hzero : 0 ∉ rest) : 0 ∉ rest' := by
  intro hmem
  apply hzero
  cases h with
  | single hex text =>
      rw [text]
      exact List.mem_append_right _ hmem
  | pair first second text =>
      rw [text]
      simp [hmem]

/-- A pair of surrogates is not U+0000, nor is one of its escapes. -/
theorem hasZero_pair {first second : Hex} (high : isHigh (hexValue first.1) = true)
    (low : isLow (hexValue second.1) = true) (ps : List Piece) :
    hasZero (.unicode first :: .unicode second :: ps) =
      (combine (hexValue first.1) (hexValue second.1) == 0 || hasZero ps) := by
  have hescapes : ((Piece.unicode first).isZero || (Piece.unicode second).isZero) = false := by
    simp only [isHigh_eq, isLow_eq, Bool.and_eq_true, decide_eq_true_eq] at high low
    simp only [Piece.isZero, Bool.or_eq_false_iff, beq_eq_false_iff_ne]
    omega
  show ((Piece.unicode first).isZero || ((Piece.unicode second).isZero || hasZero ps)) = _
  rw [← Bool.or_assoc, hescapes, beq_false_of_ne (Nat.ne_of_gt (combine_pos _ _))]

/-- Behind a high surrogate the reader takes a low one only. -/
theorem lowSurrogate_sound {high u : Nat} {rest rest' : Bytes}
    (h : lowSurrogate high rest = .ok (u, rest')) :
    ∃ second : Hex, rest = 0x5c :: 0x75 :: (second.1 ++ rest') ∧
      isLow (hexValue second.1) = true ∧ u = combine high (hexValue second.1) := by
  unfold lowSurrogate at h
  split at h
  · cases h
  · rename_i hlong
    cases rest with
    | nil => simp at hlong
    | cons a rest =>
        cases rest with
        | nil => simp at hlong
        | cons b rest =>
            rw [deref_cons, deref_cons] at h
            by_cases hab : (a != 0x5c || b != 0x75) = true
            · rw [if_pos hab] at h
              cases h
            · rw [if_neg hab] at h
              simp only [Bool.or_eq_true, bne_iff_ne, ne_eq, not_or, not_not] at hab
              obtain ⟨rfl, rfl⟩ := hab
              obtain ⟨⟨v, tail⟩, hhex, h⟩ := bind_eq_ok.mp h
              obtain ⟨second, htext, hv⟩ := hex4_sound hhex
              simp only at h hv
              split at h
              · cases h
              · rename_i hrange
                simp only [Bool.or_eq_true, decide_eq_true_eq, not_or, Nat.not_lt] at hrange
                have hpair := Except.ok.inj h
                obtain ⟨hu, hrest⟩ := Prod.mk.inj hpair
                refine ⟨second, by rw [htext, hrest], ?_, ?_⟩
                · rw [isLow_eq, ← hv]
                  simp [hrange.1, hrange.2]
                · rw [← hu, ← hv]
                  exact combine_eq high hrange.1

/-- The reader takes every low surrogate. -/
theorem lowSurrogate_complete (high : Nat) {second : Hex} (rest : Bytes)
    (hlow : isLow (hexValue second.1) = true) :
    lowSurrogate high (0x5c :: 0x75 :: (second.1 ++ rest)) =
      .ok (combine high (hexValue second.1), rest) := by
  have hlong : ¬ (0x5c :: 0x75 :: (second.1 ++ rest)).length < 6 := by
    have hlength := second.2.1
    simp only [List.length_cons, List.length_append]
    omega
  simp only [isLow_eq, Bool.and_eq_true, decide_eq_true_eq] at hlow
  have hrange : ¬ (decide (hexValue second.1 < 0xdc00) ||
      decide (0xdfff < hexValue second.1)) = true := by
    simp only [Bool.or_eq_true, decide_eq_true_eq, not_or, Nat.not_lt]
    exact hlow
  unfold lowSurrogate
  rw [if_neg hlong, deref_cons, deref_cons, if_neg (by decide), hex4_complete]
  show (if _ then _ else _) = _
  rw [if_neg hrange]
  exact congrArg (fun u => Except.ok (u, rest)) (combine_eq high hlow.1)

/-- An escape that is read is that of one character. -/
theorem unicodeEscape_sound {u : Nat} {rest rest' : Bytes}
    (h : unicodeEscape rest = .ok (u, rest')) : Escaped rest rest' u := by
  unfold unicodeEscape at h
  obtain ⟨⟨v, tail⟩, hhex, h⟩ := bind_eq_ok.mp h
  obtain ⟨hex, rfl, rfl⟩ := hex4_sound hhex
  simp only at h
  by_cases hhigh : isHigh (hexValue hex.1) = true
  · rw [if_pos (by rw [← isHigh_eq]; exact hhigh)] at h
    obtain ⟨second, rfl, hlow, hvalue⟩ := lowSurrogate_sound h
    exact .pair hex second rfl hhigh hlow hvalue
  · rw [if_neg (by rw [← isHigh_eq]; exact hhigh)] at h
    by_cases hlow : isLow (hexValue hex.1) = true
    · rw [if_pos (by rw [← isLow_eq]; exact hlow)] at h
      cases h
    · rw [if_neg (by rw [← isLow_eq]; exact hlow)] at h
      cases h
      exact .single hex rfl (by simpa using hhigh) (by simpa using hlow) rfl

/-- The escape of a character is read as this character. -/
theorem unicodeEscape_complete {u : Nat} {rest rest' : Bytes} (h : Escaped rest rest' u) :
    unicodeEscape rest = .ok (u, rest') := by
  unfold unicodeEscape
  cases h with
  | single hex text high low value =>
      rw [text, hex4_complete]
      show (if _ then _ else if _ then _ else _) = _
      rw [if_neg (by rw [← isHigh_eq, high]; decide), if_neg (by rw [← isLow_eq, low]; decide),
        value]
  | pair first second text high low value =>
      rw [text, hex4_complete]
      show (if _ then _ else _) = _
      rw [if_pos (by rw [← isHigh_eq]; exact high), lowSurrogate_complete _ _ low, value]

theorem clean_unicodeEscape (rest : Bytes) : Clean (unicodeEscape rest) := by
  unfold unicodeEscape
  refine (clean_hexLoop 4 0 rest).bind fun r _ => .ite (fun _ => ?_) fun _ => .ite
    (fun _ => clean_invalid) fun _ => clean_ok r
  unfold lowSurrogate
  refine .ite (fun _ => clean_invalid) fun hlong => ?_
  cases hrest : r.2 with
  | nil => simp [hrest] at hlong
  | cons a tail =>
      cases tail with
      | nil => simp [hrest] at hlong
      | cons b tail =>
          exact .ite (fun _ => clean_invalid) fun _ => (clean_hexLoop 4 0 tail).bind fun r _ =>
            .ite (fun _ => clean_invalid) fun _ => clean_ok _

/-! ## Strings -/

/-- What `strchr` and `chars` make of the character behind a backslash. -/
theorem escape_of_found {c : UInt8} (hzero : c ≠ 0) (h : strchrTest esc c = true) :
    ∃ value, (chars.drop (esc.idxOf c)).head? = some value ∧ (c, value) ∈ escapes := by
  have hall : esc.all (fun c => chars.any fun value =>
      (chars.drop (esc.idxOf c)).head? == some value && escapes.contains (c, value)) = true := by
    decide
  simp only [strchrTest, Bool.or_eq_true, List.contains_iff_mem, beq_iff_eq] at h
  obtain ⟨value, -, hvalue⟩ :=
    List.any_eq_true.mp (List.all_eq_true.mp hall c (h.resolve_right hzero))
  obtain ⟨hhead, hmem⟩ := Bool.and_eq_true_iff.mp hvalue
  exact ⟨value, beq_iff_eq.mp hhead, List.contains_iff_mem.mp hmem⟩

theorem escape_of_mem (e : UInt8 × UInt8) (he : e ∈ escapes) : strchrTest esc e.1 = true ∧
    e.1 ≠ 0x75 ∧ (chars.drop (esc.idxOf e.1)).head? = some e.2 := by
  have hall : escapes.all (fun e => strchrTest esc e.1 && (e.1 != 0x75 &&
      (chars.drop (esc.idxOf e.1)).head? == some e.2)) = true := by decide
  have hmem := List.all_eq_true.mp hall e he
  simp only [Bool.and_eq_true, bne_iff_ne, ne_eq, beq_iff_eq] at hmem
  exact hmem

theorem isUnescaped_iff {b : UInt8} :
    isUnescaped b = true ↔ ¬ (b == 0x22) = true ∧ ¬ b < 0x20 ∧ (b != 0x5c) = true := by
  simp only [isUnescaped, Bool.and_eq_true, decide_eq_true_eq, bne_iff_ne, ne_eq, beq_iff_eq,
    UInt8.not_lt]
  tauto

/-- The pieces in front of the quotation mark, and what they stand for. -/
structure Spells (rest rest' : Bytes) (ps : List Piece) (value : Bytes) : Prop where
  text : rest = ps.flatMap Piece.text ++ 0x22 :: rest'
  value : decode ps = some value

theorem Spells.cons_plain {rest rest' value : Bytes} {ps : List Piece}
    (h : Spells rest rest' ps value) {b : UInt8} (ok : isUnescaped b = true) :
    Spells (b :: rest) rest' (.plain b ok :: ps) (b :: value) :=
  ⟨by rw [h.text]; rfl, by rw [decode, h.value]; rfl⟩

theorem Spells.cons_escape {rest rest' value : Bytes} {ps : List Piece}
    (h : Spells rest rest' ps value) {e : UInt8 × UInt8} (ok : e ∈ escapes) :
    Spells (0x5c :: e.1 :: rest) rest' (.escape e ok :: ps) (e.2 :: value) :=
  ⟨by rw [h.text]; rfl, by rw [decode, h.value]; rfl⟩

/-- The pieces of one escape with hexadecimal digits. -/
theorem Spells.cons_unicode {rest tail rest' value : Bytes} {ps : List Piece} {u : Nat}
    (h : Spells tail rest' ps value) (hu : Escaped rest tail u) :
    ∃ qs, Spells (0x5c :: 0x75 :: rest) rest' (qs ++ ps) (encode u ++ value) ∧
      hasZero (qs ++ ps) = (u == 0 || hasZero ps) := by
  cases hu with
  | single hex text high low hvalue =>
      refine ⟨[.unicode hex], ⟨?_, ?_⟩, ?_⟩
      · rw [text, h.text, List.cons_append, List.flatMap_cons, Piece.text, List.nil_append]
        simp only [List.cons_append, List.append_assoc]
      · show decode (.unicode hex :: ps) = _
        rw [decode_single high low, h.value, hvalue]
        rfl
      · rw [hvalue]
        rfl
  | pair first second text high low hvalue =>
      refine ⟨[.unicode first, .unicode second], ⟨?_, ?_⟩, ?_⟩
      · rw [text, h.text]
        simp only [List.cons_append, List.nil_append, List.flatMap_cons, Piece.text,
          List.append_assoc]
      · show decode (.unicode first :: .unicode second :: ps) = _
        rw [decode_pair high low, h.value, hvalue]
        rfl
      · rw [hvalue]
        exact hasZero_pair high low ps

/-- What the loop reads decodes to what it returns. -/
theorem stringLoop_sound {fuel : Nat} {decoded value : Bytes} {nul zero : Bool}
    {rest rest' : Bytes} (h : stringLoop fuel decoded nul rest = .ok (value, zero, rest'))
    (hzero : 0 ∉ rest) :
    ∃ ps own, Spells rest rest' ps own ∧ value = decoded ++ own ∧
      zero = (nul || hasZero ps) := by
  induction fuel generalizing decoded nul rest with
  | zero => cases h
  | succ fuel ih =>
      unfold stringLoop at h
      obtain ⟨c, tail, rfl, hread⟩ := read_eq_ok h
      have htail : 0 ∉ tail := fun hmem => hzero (by simp [hmem])
      by_cases hquote : (c == 0x22) = true
      · rw [if_pos hquote] at hread
        cases hread
        refine ⟨[], [], ⟨?_, rfl⟩, (List.append_nil _).symm, (Bool.or_false _).symm⟩
        rw [beq_iff_eq.mp hquote]
        rfl
      · rw [if_neg hquote] at hread
        by_cases hcontrol : c < 0x20
        · rw [if_pos hcontrol] at hread
          cases hread
        · rw [if_neg hcontrol] at hread
          by_cases hplain : (c != 0x5c) = true
          · rw [if_pos hplain] at hread
            obtain ⟨ps, own, hspells, rfl, rfl⟩ := ih hread htail
            have ok := isUnescaped_iff.mpr ⟨hquote, hcontrol, hplain⟩
            exact ⟨_, _, hspells.cons_plain ok, by rw [List.append_assoc]; rfl, rfl⟩
          · rw [if_neg hplain] at hread
            obtain rfl : c = 0x5c := by simpa using hplain
            obtain ⟨e, behind, rfl, hnext⟩ := read_eq_ok hread
            have hbehind : 0 ∉ behind := fun hmem => htail (by simp [hmem])
            by_cases hunicode : (e == 0x75) = true
            · rw [if_pos hunicode] at hnext
              obtain rfl : e = 0x75 := by simpa using hunicode
              obtain ⟨⟨u, left⟩, hescape, hnext⟩ := bind_eq_ok.mp hnext
              have hescaped := unicodeEscape_sound hescape
              obtain ⟨ps, own, hspells, rfl, rfl⟩ := ih hnext (hescaped.zero hbehind)
              obtain ⟨qs, hall, hall'⟩ := hspells.cons_unicode hescaped
              refine ⟨qs ++ ps, _, hall, by rw [List.append_assoc], ?_⟩
              rw [hall', Bool.or_assoc]
            · rw [if_neg hunicode] at hnext
              have he : e ≠ 0 := fun he => htail (by simp [he])
              by_cases hfound : strchrTest esc e = true
              · obtain ⟨character, hhead, hmem⟩ := escape_of_found he hfound
                rw [if_neg (by simp [hfound])] at hnext
                cases hchars : chars.drop (esc.idxOf e) with
                | nil => simp [hchars] at hhead
                | cons x xs =>
                    rw [hchars] at hhead hnext
                    cases hhead
                    obtain ⟨ps, own, hspells, rfl, rfl⟩ := ih hnext hbehind
                    exact ⟨_, _, hspells.cons_escape hmem, by rw [List.append_assoc]; rfl, rfl⟩
              · rw [if_pos (by simpa using hfound)] at hnext
                cases hnext

/-- A decoded string begins with a whole escape. -/
theorem escaped_of_decode {hex : Hex} {ps : List Piece} {own : Bytes}
    (h : decode (.unicode hex :: ps) = some own) (behind : Bytes) :
    ∃ qs u value, decode qs = some value ∧ own = encode u ++ value ∧
      hasZero (.unicode hex :: ps) = (u == 0 || hasZero qs) ∧
      Escaped (hex.1 ++ (ps.flatMap Piece.text ++ behind)) (qs.flatMap Piece.text ++ behind) u := by
  by_cases high : isHigh (hexValue hex.1) = true
  · have hpair : ∃ second qs, ps = .unicode second :: qs ∧ isLow (hexValue second.1) = true := by
      rw [decode.eq_def] at h
      simp only at h
      rw [if_pos high] at h
      split at h
      · rename_i second qs
        by_cases low : isLow (hexValue second.1) = true
        · exact ⟨second, qs, rfl, low⟩
        · rw [if_neg low] at h
          cases h
      · cases h
    obtain ⟨second, qs, rfl, low⟩ := hpair
    rw [decode_pair high low, Option.map_eq_some_iff] at h
    obtain ⟨value, hvalue, rfl⟩ := h
    have htext : (Piece.unicode second :: qs).flatMap Piece.text ++ behind =
        0x5c :: 0x75 :: (second.1 ++ (qs.flatMap Piece.text ++ behind)) := by
      simp only [List.flatMap_cons, Piece.text, List.cons_append, List.append_assoc]
    exact ⟨qs, _, value, hvalue, rfl, hasZero_pair high low qs,
      .pair hex second (by rw [htext]) high low rfl⟩
  · have high' : isHigh (hexValue hex.1) = false := by simpa using high
    have low : isLow (hexValue hex.1) = false := by
      by_contra hlow
      rw [decode.eq_def] at h
      simp only at h
      rw [if_neg high, if_pos (by simpa using hlow)] at h
      cases h
    rw [decode_single high' low, Option.map_eq_some_iff] at h
    obtain ⟨value, hvalue, rfl⟩ := h
    exact ⟨ps, _, value, hvalue, rfl, rfl, .single hex rfl high' low rfl⟩

/-- A text that decodes is read up to its quote. -/
theorem stringLoop_complete {fuel : Nat} {ps : List Piece} {own rest' : Bytes}
    (h : decode ps = some own) (decoded : Bytes) (nul : Bool)
    (hfuel : (ps.flatMap Piece.text ++ 0x22 :: rest').length < fuel) :
    stringLoop fuel decoded nul (ps.flatMap Piece.text ++ 0x22 :: rest') =
      .ok (decoded ++ own, nul || hasZero ps, rest') := by
  induction fuel generalizing ps own decoded nul with
  | zero => exact absurd hfuel (Nat.not_lt_zero _)
  | succ fuel ih =>
      cases ps with
      | nil =>
          cases h
          rw [List.append_nil]
          show Except.ok (decoded, nul, rest') = _
          rw [show hasZero [] = false from rfl, Bool.or_false]
      | cons piece ps =>
          cases piece with
          | plain b ok =>
              obtain ⟨hquote, hcontrol, hplain⟩ := isUnescaped_iff.mp ok
              rw [decode, Option.map_eq_some_iff] at h
              obtain ⟨value, hvalue, rfl⟩ := h
              rw [List.flatMap_cons] at hfuel ⊢
              simp only [Piece.text, List.cons_append, List.nil_append, List.length_cons] at hfuel ⊢
              rw [stringLoop, List.isEmpty_cons, if_neg (by simp), deref_cons, if_neg hquote,
                if_neg hcontrol, if_pos hplain, ih hvalue _ _ (by omega), List.append_assoc]
              rfl
          | escape e ok =>
              obtain ⟨hfound, hunicode, hhead⟩ := escape_of_mem e ok
              rw [decode, Option.map_eq_some_iff] at h
              obtain ⟨value, hvalue, rfl⟩ := h
              rw [List.flatMap_cons] at hfuel ⊢
              simp only [Piece.text, List.cons_append, List.nil_append, List.length_cons] at hfuel ⊢
              cases hchars : chars.drop (esc.idxOf e.1) with
              | nil => simp [hchars] at hhead
              | cons x xs =>
                  rw [hchars] at hhead
                  cases hhead
                  rw [stringLoop, List.isEmpty_cons, if_neg (by simp), deref_cons,
                    if_neg (by decide), if_neg (by decide), if_neg (by decide), List.isEmpty_cons,
                    if_neg (by simp), deref_cons, if_neg (by simpa using hunicode),
                    if_neg (by simp [hfound]), hchars, deref_cons, ih hvalue _ _ (by omega),
                    List.append_assoc]
                  rfl
          | unicode hex =>
              obtain ⟨qs, u, value, hvalue, rfl, hzero, hescaped⟩ :=
                escaped_of_decode h (0x22 :: rest')
              have hlength := hescaped.length
              rw [List.flatMap_cons] at hfuel ⊢
              simp only [Piece.text, List.cons_append, List.append_assoc, List.length_cons]
                at hfuel ⊢
              rw [stringLoop, List.isEmpty_cons, if_neg (by simp), deref_cons,
                if_neg (by decide), if_neg (by decide), if_neg (by decide), List.isEmpty_cons,
                if_neg (by simp), deref_cons, if_pos (by decide), unicodeEscape_complete hescaped]
              show stringLoop fuel (decoded ++ encode u) (nul || u == 0)
                (qs.flatMap Piece.text ++ 0x22 :: rest') = _
              rw [ih hvalue _ _ (by omega), hzero, List.append_assoc, Bool.or_assoc]

/-- The loop needs no more fuel than bytes. -/
theorem clean_stringLoop {fuel : Nat} {rest : Bytes} (decoded : Bytes) (nul : Bool)
    (hzero : 0 ∉ rest) (hfuel : rest.length < fuel) :
    Clean (stringLoop fuel decoded nul rest) := by
  induction fuel generalizing rest decoded nul with
  | zero => exact absurd hfuel (Nat.not_lt_zero _)
  | succ fuel ih =>
      unfold stringLoop
      refine clean_read fun c tail hrest => ?_
      have htail : 0 ∉ tail := fun hmem => hzero (by simp [hrest, hmem])
      rw [hrest, List.length_cons] at hfuel
      refine .ite (fun _ => clean_ok _) fun _ => .ite (fun _ => clean_invalid) fun _ =>
        .ite (fun _ => ih _ _ htail (by omega)) fun _ => clean_read fun e behind hbehind => ?_
      have hbehind' : 0 ∉ behind := fun hmem => htail (by simp [hbehind, hmem])
      have hlength : tail.length = behind.length + 1 := by rw [hbehind, List.length_cons]
      refine .ite (fun _ => ?_) fun _ => ?_
      · refine (clean_unicodeEscape behind).bind fun r hr => ?_
        have hescaped : Escaped behind r.2 r.1 := unicodeEscape_sound hr
        have hless := hescaped.length
        exact ih _ _ (hescaped.zero hbehind') (by omega)
      · refine .ite (fun _ => clean_invalid) fun hfound => ?_
        have he : e ≠ 0 := fun he => htail (by simp [hbehind, he])
        obtain ⟨character, hhead, -⟩ := escape_of_found he (by simpa using hfound)
        cases hchars : chars.drop (esc.idxOf e) with
        | nil => simp [hchars] at hhead
        | cons x xs => exact ih _ _ hbehind' (by omega)

/-- `string_token` takes the strings of the grammar whose surrogates are paired. -/
theorem stringToken_sound {fuel : Nat} {value : Bytes} {zero : Bool} {rest rest' : Bytes}
    (h : stringToken fuel rest = .ok (value, zero, rest')) (hzero : 0 ∉ rest) :
    ∃ ps, rest = stringText ps ++ rest' ∧ decode ps = some value ∧ zero = hasZero ps := by
  unfold stringToken at h
  obtain ⟨c, tail, rfl, hread⟩ := read_eq_ok h
  by_cases hquote : (c != 0x22) = true
  · rw [if_pos hquote] at hread
    cases hread
  · rw [if_neg hquote] at hread
    obtain rfl : c = 0x22 := by simpa using hquote
    obtain ⟨ps, own, ⟨htext, hvalue⟩, hown, hflag⟩ :=
      stringLoop_sound hread fun hmem => hzero (by simp [hmem])
    refine ⟨ps, ?_, ?_, ?_⟩
    · rw [htext, stringText, List.cons_append, List.append_assoc]
      rfl
    · rw [hvalue, hown, List.nil_append]
    · rw [hflag, Bool.false_or]

theorem stringToken_complete {fuel : Nat} {ps : List Piece} {value : Bytes}
    (h : decode ps = some value) (rest : Bytes) (hfuel : (stringText ps ++ rest).length ≤ fuel) :
    stringToken fuel (stringText ps ++ rest) = .ok (value, hasZero ps, rest) := by
  have htext : stringText ps ++ rest = 0x22 :: (ps.flatMap Piece.text ++ 0x22 :: rest) := by
    rw [stringText, List.cons_append, List.append_assoc]
    rfl
  rw [htext, List.length_cons] at hfuel
  rw [htext, stringToken, List.isEmpty_cons, if_neg (by simp), deref_cons, if_neg (by decide),
    stringLoop_complete h [] false (by omega), List.nil_append, Bool.false_or]

theorem clean_stringToken {fuel : Nat} {rest : Bytes} (hzero : 0 ∉ rest)
    (hfuel : rest.length ≤ fuel) : Clean (stringToken fuel rest) := by
  unfold stringToken
  refine clean_read fun c tail hrest => .ite (fun _ => clean_invalid) fun _ => ?_
  rw [hrest, List.length_cons] at hfuel
  exact clean_stringLoop [] false (fun hmem => hzero (by simp [hrest, hmem])) hfuel

/-! ## Numbers -/

theorem dropWhile_digits {ds rest : Bytes} (hds : ∀ b ∈ ds, isDigit b = true)
    (hrest : ∀ b, rest.head? = some b → isDigit b = false) :
    (ds ++ rest).dropWhile isDigit = rest := by
  rw [List.dropWhile_append_of_pos hds]
  cases rest with
  | nil => rfl
  | cons b rest => rw [List.dropWhile_cons, if_neg (by simp [hrest b rfl])]

/-- The digits at the front of a text. -/
theorem digits_of_cons {b : UInt8} (hb : isDigit b = true) (tail : Bytes) :
    ∃ ds : Digits, b :: tail = ds.1 ++ (b :: tail).dropWhile isDigit ∧ ds.1.head? = some b := by
  have htake : (b :: tail).takeWhile isDigit = b :: tail.takeWhile isDigit := by
    rw [List.takeWhile_cons, if_pos hb]
  have hdigits : ∀ c ∈ (b :: tail).takeWhile isDigit, isDigit c = true := by
    intro c hc
    exact List.mem_takeWhile_imp hc
  refine ⟨⟨_, by rw [htake]; exact List.cons_ne_nil _ _, hdigits⟩, ?_, ?_⟩
  · exact List.takeWhile_append_dropWhile.symm
  · show ((b :: tail).takeWhile isDigit).head? = some b
    rw [htake]
    rfl

/-- The reader of digits passes over digits, one at least. -/
theorem digitsEnd_sound {rest rest' : Bytes} (h : digitsEnd rest = .ok rest') :
    ∃ ds : Digits, rest = ds.1 ++ rest' := by
  unfold digitsEnd at h
  obtain ⟨b, tail, rfl, hread⟩ := read_eq_ok h
  by_cases hb : isDigit b = true
  · rw [if_neg (by simp [hb])] at hread
    cases hread
    obtain ⟨ds, htext, -⟩ := digits_of_cons hb tail
    exact ⟨ds, htext⟩
  · rw [if_pos (by simpa using hb)] at hread
    cases hread

/-- All digits are passed over. -/
theorem digitsEnd_complete (ds : Digits) {rest : Bytes}
    (hrest : ∀ b, rest.head? = some b → isDigit b = false) :
    digitsEnd (ds.1 ++ rest) = .ok rest := by
  obtain ⟨ds, hne, hds⟩ := ds
  cases ds with
  | nil => exact absurd rfl hne
  | cons b ds =>
      have hdrop := dropWhile_digits hds hrest
      have hb : isDigit b = true := hds b (by simp)
      simp only [List.cons_append] at hdrop ⊢
      rw [digitsEnd, List.isEmpty_cons, if_neg (by simp), deref_cons, if_neg (by simp [hb]), hdrop]

/-- The whole part has no leading zero. -/
theorem wholeEnd_sound {rest rest' : Bytes} (h : wholeEnd rest = .ok rest') :
    ∃ ds : Digits, (ds.1.head? = some 0x30 → ds.1 = [0x30]) ∧ rest = ds.1 ++ rest' := by
  unfold wholeEnd at h
  obtain ⟨b, tail, rfl, hread⟩ := read_eq_ok h
  by_cases hb : isDigit b = true
  · rw [if_neg (by simp [hb])] at hread
    by_cases hzero : (b == 0x30) = true
    · rw [if_pos hzero] at hread
      cases hread
      obtain rfl : b = 0x30 := by simpa using hzero
      exact ⟨⟨[0x30], by simp, by simpa using hb⟩, fun _ => rfl, rfl⟩
    · rw [if_neg hzero] at hread
      cases hread
      obtain ⟨ds, htext, hhead⟩ := digits_of_cons hb tail
      refine ⟨ds, fun h => ?_, htext⟩
      rw [hhead] at h
      exact absurd (by simpa using Option.some.inj h) hzero
  · rw [if_pos (by simpa using hb)] at hread
    cases hread

/-- A whole part without a leading zero is passed over. -/
theorem wholeEnd_complete (ds : Digits) (canonical : ds.1.head? = some 0x30 → ds.1 = [0x30])
    {rest : Bytes} (hrest : ∀ b, rest.head? = some b → isDigit b = false) :
    wholeEnd (ds.1 ++ rest) = .ok rest := by
  obtain ⟨ds, hne, hds⟩ := ds
  cases ds with
  | nil => exact absurd rfl hne
  | cons b ds =>
      have hdrop := dropWhile_digits hds hrest
      have hb : isDigit b = true := hds b (by simp)
      simp only [List.cons_append] at hdrop ⊢
      rw [wholeEnd, List.isEmpty_cons, if_neg (by simp), deref_cons, if_neg (by simp [hb])]
      by_cases hzero : (b == 0x30) = true
      · obtain rfl : b = 0x30 := by simpa using hzero
        obtain rfl : ds = [] := (List.cons.inj (canonical rfl)).2
        rw [if_pos (by simp)]
        rfl
      · rw [if_neg hzero, hdrop]

theorem fractionEnd_sound {rest rest' : Bytes} (h : fractionEnd rest = .ok rest') :
    ∃ fraction, rest = fractionText fraction ++ rest' := by
  unfold fractionEnd at h
  cases rest with
  | nil =>
      cases h
      exact ⟨none, rfl⟩
  | cons b tail =>
      rw [List.isEmpty_cons, if_neg (by simp), deref_cons] at h
      by_cases hpoint : (b == 0x2e) = true
      · rw [if_pos hpoint] at h
        obtain ⟨ds, rfl⟩ := digitsEnd_sound h
        obtain rfl : b = 0x2e := by simpa using hpoint
        exact ⟨some ds, rfl⟩
      · rw [if_neg hpoint] at h
        cases h
        exact ⟨none, rfl⟩

theorem signEnd_sound {rest rest' : Bytes} (h : signEnd rest = .ok rest') :
    ∃ sign ∈ [[], ascii "+", ascii "-"], rest = sign ++ rest' := by
  unfold signEnd at h
  cases rest with
  | nil =>
      cases h
      exact ⟨[], by simp, rfl⟩
  | cons b tail =>
      rw [List.isEmpty_cons, if_neg (by simp), deref_cons] at h
      by_cases hplus : b = 0x2b
      · subst hplus
        cases h
        exact ⟨ascii "+", by simp, rfl⟩
      · by_cases hminus : b = 0x2d
        · subst hminus
          cases h
          exact ⟨ascii "-", by simp, rfl⟩
        · rw [if_neg (by simp [hplus, hminus])] at h
          cases h
          exact ⟨[], by simp, rfl⟩

theorem exponentEnd_sound {rest rest' : Bytes} (h : exponentEnd rest = .ok rest') :
    ∃ exponent, rest = exponentText exponent ++ rest' := by
  have hmarks : (ascii "eE").all (fun b => [[], ascii "+", ascii "-"].all fun sign =>
      marks.contains (b :: sign)) = true := by decide
  unfold exponentEnd at h
  cases rest with
  | nil =>
      cases h
      exact ⟨none, rfl⟩
  | cons b tail =>
      rw [List.isEmpty_cons, if_neg (by simp), deref_cons] at h
      by_cases he : (b == 0x65 || b == 0x45) = true
      · rw [if_pos he] at h
        obtain ⟨behind, hsign, hdigits⟩ := bind_eq_ok.mp h
        obtain ⟨sign, hmem, rfl⟩ := signEnd_sound hsign
        obtain ⟨ds, rfl⟩ := digitsEnd_sound hdigits
        have hb : b ∈ ascii "eE" := by simpa [ascii] using he
        have hmark := List.all_eq_true.mp (List.all_eq_true.mp hmarks b hb) sign hmem
        refine ⟨some (⟨b :: sign, List.contains_iff_mem.mp hmark⟩, ds), ?_⟩
        rw [exponentText, List.cons_append, List.cons_append, List.append_assoc]
      · rw [if_neg he] at h
        cases h
        exact ⟨none, rfl⟩

/-- What is passed over is a number of the grammar. -/
theorem numberEnd_sound {start rest : Bytes} (h : numberEnd start = .ok rest) :
    ∃ n : Number, start = n.text ++ rest := by
  unfold numberEnd at h
  cases start with
  | nil => cases h
  | cons b tail =>
      rw [deref_cons] at h
      obtain ⟨behind, h, hexponent⟩ := bind_eq_ok.mp h
      obtain ⟨digits, hwhole, hfraction⟩ := bind_eq_ok.mp h
      obtain ⟨whole, canonical, hsplit⟩ := wholeEnd_sound hwhole
      obtain ⟨fraction, rfl⟩ := fractionEnd_sound hfraction
      obtain ⟨exponent, rfl⟩ := exponentEnd_sound hexponent
      refine ⟨⟨b == 0x2d, whole, canonical, fraction, exponent⟩, ?_⟩
      show _ = (if b == 0x2d then [0x2d] else []) ++ whole.1 ++ fractionText fraction ++
        exponentText exponent ++ rest
      by_cases hminus : (b == 0x2d) = true
      · rw [if_pos hminus] at hsplit ⊢
        rw [hsplit, beq_iff_eq.mp hminus]
        simp only [List.cons_append, List.nil_append, List.append_assoc]
      · rw [if_neg hminus] at hsplit ⊢
        rw [hsplit]
        simp only [List.nil_append, List.append_assoc]

/-- The text does not continue a number. -/
def Stops (rest : Bytes) : Prop :=
  ∀ b, rest.head? = some b → isDigit b = false ∧ b ≠ 0x2e ∧ b ≠ 0x65 ∧ b ≠ 0x45

theorem signEnd_complete {sign : Bytes} (hsign : sign ∈ [[], ascii "+", ascii "-"]) (ds : Digits)
    (rest : Bytes) : signEnd (sign ++ (ds.1 ++ rest)) = .ok (ds.1 ++ rest) := by
  obtain ⟨ds, hne, hds⟩ := ds
  cases ds with
  | nil => exact absurd rfl hne
  | cons b ds =>
      have hb : isDigit b = true := hds b (by simp)
      have hplus : b ≠ 0x2b := ne_of_test hb (by decide)
      have hminus : b ≠ 0x2d := ne_of_test hb (by decide)
      have hsigns : ¬ (b == 0x2b || b == 0x2d) = true := by simp [hplus, hminus]
      simp only [List.mem_cons, List.not_mem_nil, or_false] at hsign
      rcases hsign with rfl | rfl | rfl
      · show Except.ok (if b == 0x2b || b == 0x2d then _ else _) = _
        rw [if_neg hsigns]
        rfl
      · rfl
      · rfl

theorem exponentEnd_complete (exponent : Option ({ mark : Bytes // mark ∈ marks } × Digits))
    {rest : Bytes} (hrest : Stops rest) :
    exponentEnd (exponentText exponent ++ rest) = .ok rest := by
  cases exponent with
  | none =>
      cases rest with
      | nil => rfl
      | cons b rest =>
          obtain ⟨-, -, he, hE⟩ := hrest b rfl
          show (if b == 0x65 || b == 0x45 then _ else _) = _
          rw [if_neg (by simp [he, hE])]
          rfl
  | some e =>
      obtain ⟨⟨mark, hmark⟩, ds⟩ := e
      have hsplit : ∃ b, ∃ sign ∈ [[], ascii "+", ascii "-"], mark = b :: sign ∧
          (b == 0x65 || b == 0x45) = true := by
        simp only [marks, List.mem_cons, List.not_mem_nil, or_false] at hmark
        rcases hmark with rfl | rfl | rfl | rfl | rfl | rfl
        · exact ⟨0x65, [], by simp, rfl, rfl⟩
        · exact ⟨0x45, [], by simp, rfl, rfl⟩
        · exact ⟨0x65, ascii "+", by simp, rfl, rfl⟩
        · exact ⟨0x45, ascii "+", by simp, rfl, rfl⟩
        · exact ⟨0x65, ascii "-", by simp, rfl, rfl⟩
        · exact ⟨0x45, ascii "-", by simp, rfl, rfl⟩
      obtain ⟨b, sign, hsign, rfl, hb⟩ := hsplit
      rw [exponentText, List.cons_append, List.cons_append, List.append_assoc, exponentEnd,
        List.isEmpty_cons, if_neg (by simp), deref_cons, if_pos hb, signEnd_complete hsign]
      exact digitsEnd_complete ds fun c hc => (hrest c hc).1

/-- What begins behind a fraction does not continue it. -/
theorem exponent_head (exponent : Option ({ mark : Bytes // mark ∈ marks } × Digits))
    {rest : Bytes} (hrest : Stops rest) (b : UInt8)
    (h : (exponentText exponent ++ rest).head? = some b) : isDigit b = false ∧ b ≠ 0x2e := by
  cases exponent with
  | none => exact ⟨(hrest b h).1, (hrest b h).2.1⟩
  | some e =>
      obtain ⟨⟨mark, hmark⟩, ds⟩ := e
      have hheads : marks.all (fun mark => mark.head?.any fun c => !isDigit c && c != 0x2e) =
          true := by decide
      have hhead := List.all_eq_true.mp hheads mark hmark
      cases mark with
      | nil => cases hhead
      | cons x mark =>
          cases h
          simpa using hhead

theorem fractionEnd_complete (fraction : Option Digits) {rest : Bytes}
    (hrest : ∀ b, rest.head? = some b → isDigit b = false ∧ b ≠ 0x2e) :
    fractionEnd (fractionText fraction ++ rest) = .ok rest := by
  cases fraction with
  | none =>
      cases rest with
      | nil => rfl
      | cons b rest =>
          show (if b == 0x2e then _ else _) = _
          rw [if_neg (by simp [(hrest b rfl).2])]
          rfl
  | some ds => exact digitsEnd_complete ds fun b hb => (hrest b hb).1

theorem fraction_head (fraction : Option Digits) {rest : Bytes}
    (hrest : ∀ b, rest.head? = some b → isDigit b = false ∧ b ≠ 0x2e) (b : UInt8)
    (h : (fractionText fraction ++ rest).head? = some b) : isDigit b = false := by
  cases fraction with
  | none => exact (hrest b h).1
  | some ds =>
      cases h
      rfl

/-- A number of the grammar is passed over as a whole. -/
theorem numberEnd_complete (n : Number) {rest : Bytes} (hrest : Stops rest) :
    numberEnd (n.text ++ rest) = .ok rest := by
  have hexponent := exponent_head n.exponent hrest
  have hfraction := fraction_head n.fraction hexponent
  have hwhole := wholeEnd_complete n.whole n.canonical hfraction
  have hends : (wholeEnd (n.whole.1 ++ (fractionText n.fraction ++
      (exponentText n.exponent ++ rest))) >>= fractionEnd >>= exponentEnd) = .ok rest := by
    rw [hwhole]
    show (fractionEnd _ >>= exponentEnd) = _
    rw [fractionEnd_complete n.fraction hexponent]
    exact exponentEnd_complete n.exponent hrest
  by_cases hminus : n.minus = true
  · rw [Number.text, if_pos hminus]
    simp only [List.cons_append, List.nil_append, List.append_assoc]
    exact hends
  · rw [Number.text, if_neg hminus]
    simp only [List.nil_append, List.append_assoc]
    cases hdigits : n.whole.1 with
    | nil => exact absurd hdigits n.whole.2.1
    | cons b ds =>
        have hb : isDigit b = true := n.whole.2.2 b (by rw [hdigits]; simp)
        have hminus : b ≠ 0x2d := ne_of_test hb (by decide)
        have hsign : ¬ (b == 0x2d) = true := by simpa using hminus
        rw [hdigits] at hends
        rw [List.cons_append, numberEnd, deref_cons, if_neg hsign]
        exact hends

theorem clean_digitsEnd (rest : Bytes) : Clean (digitsEnd rest) := by
  unfold digitsEnd
  exact clean_read fun b tail _ => .ite (fun _ => clean_invalid) fun _ => clean_ok _

theorem clean_wholeEnd (rest : Bytes) : Clean (wholeEnd rest) := by
  unfold wholeEnd
  exact clean_read fun b tail _ => .ite (fun _ => clean_invalid) fun _ =>
    .ite (fun _ => clean_ok _) fun _ => clean_ok _

/-- A look at what stands at the front of a text, if anything does. -/
theorem clean_peek {rest : Bytes} {k : UInt8 → Bytes → Lexed Bytes}
    (h : ∀ b tail, Clean (k b tail)) :
    Clean (if rest.isEmpty then .ok rest else deref rest k) := by
  cases rest with
  | nil => exact clean_ok _
  | cons b tail => exact h b tail

theorem clean_fractionEnd (rest : Bytes) : Clean (fractionEnd rest) := by
  unfold fractionEnd
  exact clean_peek fun b tail => .ite (fun _ => clean_digitsEnd tail) fun _ => clean_ok _

theorem clean_exponentEnd (rest : Bytes) : Clean (exponentEnd rest) := by
  have hsign : ∀ rest, Clean (signEnd rest) := by
    intro rest
    unfold signEnd
    exact clean_peek fun b tail => clean_ok _
  unfold exponentEnd
  exact clean_peek fun b tail => .ite (fun _ => (hsign tail).bind fun rest _ =>
    clean_digitsEnd rest) fun _ => clean_ok _

theorem clean_numberEnd {start : Bytes} (h : start ≠ []) : Clean (numberEnd start) := by
  cases start with
  | nil => exact absurd rfl h
  | cons b tail =>
      exact ((clean_wholeEnd _).bind fun rest _ => clean_fractionEnd rest).bind fun rest _ =>
        clean_exponentEnd rest

/-! ## Integers -/

/-- The token of an integer of the root. -/
def IntegerText (token : Bytes) : Prop :=
  (∀ b ∈ token, isDigit b = true) ∧ decimalValue 0 token ≤ int64Max

/-- An integer member is digits alone, in the range of 64 bits. -/
theorem integerToken_iff (token : Bytes) (n : Nat) (hn : n ≤ int64Max) :
    integerToken n token = true ↔
      (∀ b ∈ token, isDigit b = true) ∧ decimalValue n token ≤ int64Max := by
  induction token generalizing n with
  | nil => simp [integerToken, decimalValue, hn]
  | cons b token ih =>
      have hvalue : decimalValue n (b :: token) = decimalValue (n * 10 + digitOf b) token := rfl
      rw [hvalue, integerToken]
      by_cases hb : isDigit b = true
      · have hdigit := digitOf_le hb
        have hlimit : int64Max = 9223372036854775807 := rfl
        by_cases hover : n * 10 + digitOf b ≤ int64Max
        · have hguard : ¬ (!isDigit b || decide ((int64Max - digitOf b) / 10 < n)) = true := by
            simp only [hb, Bool.not_true, Bool.false_or, decide_eq_true_eq]
            omega
          rw [if_neg hguard, ih _ hover]
          simp [hb]
        · have hguard : (!isDigit b || decide ((int64Max - digitOf b) / 10 < n)) = true := by
            simp only [hb, Bool.not_true, Bool.false_or, decide_eq_true_eq]
            omega
          have hle := le_decimalValue token (n * 10 + digitOf b)
          rw [if_pos hguard]
          constructor
          · intro h
            cases h
          · rintro ⟨-, h⟩
            omega
      · rw [if_pos (by simp [hb])]
        simp [hb]

/-- What `value_token` asks of a number at a member of the root. -/
def IntegerMember (rootKey : Option Bytes) (n : Number) : Prop :=
  ∀ key ∈ rootKey, key ∈ integerKeys → IntegerText n.text

/-- The guard of `number_token` for the text of a number. -/
theorem integerMember_iff (rootKey : Option Bytes) (n : Number) (rest : Bytes) :
    (rootKey.any integerKeys.contains && !integerToken 0 ((n.text ++ rest).take
      ((n.text ++ rest).length - rest.length))) = false ↔ IntegerMember rootKey n := by
  have htoken : (n.text ++ rest).take ((n.text ++ rest).length - rest.length) = n.text := by
    rw [List.length_append, Nat.add_sub_cancel, List.take_left]
  have hinteger := integerToken_iff n.text 0 (Nat.zero_le _)
  rw [htoken]
  cases rootKey with
  | none => simp [IntegerMember]
  | some key =>
      simp only [Option.any_some, Bool.and_eq_false_iff, Bool.not_eq_false', hinteger,
        IntegerMember, Option.mem_some_iff, forall_eq', IntegerText]
      rw [← Bool.not_eq_true, List.contains_iff_mem]
      tauto

/-- A number that is taken is one, and an integer where one is asked for. -/
theorem numberToken_sound {rootKey : Option Bytes} {start rest : Bytes}
    (h : numberToken rootKey start = .ok rest) :
    ∃ n : Number, start = n.text ++ rest ∧ IntegerMember rootKey n := by
  unfold numberToken at h
  obtain ⟨behind, hend, hguard⟩ := bind_eq_ok.mp h
  obtain ⟨n, rfl⟩ := numberEnd_sound hend
  have hmember := integerMember_iff rootKey n behind
  split at hguard
  · cases hguard
  · rename_i hpass
    cases hguard
    exact ⟨n, rfl, hmember.mp (by simpa using hpass)⟩

/-- A number that ends where it stops is read to its end, or refused. -/
theorem numberToken_ok_iff {rootKey : Option Bytes} {n : Number} {rest left : Bytes}
    (hrest : Stops rest) : numberToken rootKey (n.text ++ rest) = .ok left ↔
      IntegerMember rootKey n ∧ left = rest := by
  have hguard := integerMember_iff rootKey n rest
  rw [numberToken, numberEnd_complete n hrest, ← hguard]
  show (if _ then _ else _) = _ ↔ _
  generalize (rootKey.any integerKeys.contains && _) = refused
  cases refused with
  | true =>
      constructor
      · intro h
        cases h
      · rintro ⟨h, -⟩
        cases h
  | false =>
      constructor
      · intro h
        cases h
        exact ⟨rfl, rfl⟩
      · rintro ⟨-, rfl⟩
        rfl

theorem numberToken_complete {rootKey : Option Bytes} {n : Number} (h : IntegerMember rootKey n)
    {rest : Bytes} (hrest : Stops rest) : numberToken rootKey (n.text ++ rest) = .ok rest :=
  (numberToken_ok_iff hrest).mpr ⟨h, rfl⟩

theorem clean_numberToken (rootKey : Option Bytes) {start : Bytes} (h : start ≠ []) :
    Clean (numberToken rootKey start) :=
  (clean_numberEnd h).bind fun _ _ => .ite (fun _ => clean_invalid) fun _ => clean_ok _

end EdgeGuard.Agent.ManifestTokens
