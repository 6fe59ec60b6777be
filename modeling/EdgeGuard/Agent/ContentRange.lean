import EdgeGuard.Agent.Download

/-!
# What a `Content-Range` denotes

The numbers that `decimal` reads, and the `Content-Range` texts that
`exact_range` takes.

## Main results

* `decimalNumber_eq_some_iff` — `decimal` reads a whole run of digits, up to `INT64_MAX`.
* `exactRange_iff` — the texts that describe the requested tail.
-/

namespace EdgeGuard.Agent.ContentRange

open EdgeGuard.Base.CText EdgeGuard.Agent.Model EdgeGuard.Agent.Download

/-- A run of digits for a number up to `INT64_MAX`. -/
structure Denotes (ds : Bytes) (n : Nat) : Prop where
  nonempty : ds ≠ []
  digits : ∀ b ∈ ds, isDigit b = true
  value : decimalValue 0 ds = n
  le : n ≤ int64Max

theorem denotes_decimal {n : Nat} (h : n ≤ int64Max) : Denotes (decimal n) n :=
  ⟨decimal_ne_nil n, isDigit_of_mem_decimal n, decimalValue_decimal n, h⟩

/-- The digits of a number end the text or stand in front of something else. -/
def Ends (rest : Bytes) : Prop := ∀ b, rest.head? = some b → isDigit b = false

theorem ends_nil : Ends [] := by
  intro b hb
  cases hb

theorem ends_cons {b : UInt8} {rest : Bytes} (h : isDigit b = false) : Ends (b :: rest) := by
  intro c hc
  cases hc
  exact h

/-- Digits that end are read with the value they have. -/
theorem decimalDigits_append {rest : Bytes} (hends : Ends rest) (ds : Bytes)
    (hdigits : ∀ b ∈ ds, isDigit b = true) (acc : Nat)
    (hmax : decimalValue acc ds ≤ int64Max) :
    decimalDigits acc (ds ++ rest) = some (decimalValue acc ds, rest) := by
  induction ds generalizing acc with
  | nil =>
      cases rest with
      | nil => rfl
      | cons b rest =>
          rw [List.nil_append, decimalDigits, if_neg (by simp [hends b rfl])]
          rfl
  | cons b ds ih =>
      have hmax' : decimalValue (acc * 10 + digitOf b) ds ≤ int64Max := hmax
      have hle := le_decimalValue ds (acc * 10 + digitOf b)
      have hsmall : ¬ (int64Max - digitOf b) / 10 < acc := by omega
      rw [List.cons_append, decimalDigits, if_pos (hdigits b (by simp)), if_neg hsmall]
      exact ih (fun x hx => hdigits x (by simp [hx])) _ hmax'

/-- What is read is a run of digits and its value. -/
theorem decimalDigits_split {text rest : Bytes} {acc n : Nat} (hacc : acc ≤ int64Max)
    (h : decimalDigits acc text = some (n, rest)) :
    ∃ ds, text = ds ++ rest ∧ (∀ b ∈ ds, isDigit b = true) ∧ decimalValue acc ds = n ∧
      n ≤ int64Max ∧ Ends rest := by
  induction text generalizing acc with
  | nil =>
      cases h
      exact ⟨[], rfl, by simp, rfl, hacc, ends_nil⟩
  | cons b text ih =>
      unfold decimalDigits at h
      by_cases hdigit : isDigit b = true
      · rw [if_pos hdigit] at h
        by_cases hover : (int64Max - digitOf b) / 10 < acc
        · rw [if_pos hover] at h
          cases h
        · rw [if_neg hover] at h
          have hle := digitOf_le hdigit
          have hmax : 9 ≤ int64Max := by decide
          obtain ⟨ds, rfl, hdigits, hvalue, hn, hends⟩ := ih (by omega) h
          refine ⟨b :: ds, rfl, ?_, hvalue, hn, hends⟩
          intro c hc
          rcases List.mem_cons.mp hc with rfl | hc
          · exact hdigit
          · exact hdigits c hc
      · rw [if_neg hdigit] at h
        cases h
        exact ⟨[], rfl, by simp, rfl, hacc, ends_cons (by simpa using hdigit)⟩

/-- A number is read exactly when digits that denote it stand in front. -/
theorem decimalNumber_eq_some_iff {text rest : Bytes} {n : Nat} :
    decimalNumber text = some (n, rest) ↔
      ∃ ds, text = ds ++ rest ∧ Denotes ds n ∧ Ends rest := by
  constructor
  · intro h
    unfold decimalNumber at h
    by_cases hhead : text.head?.any isDigit = true
    · rw [if_pos hhead] at h
      obtain ⟨ds, rfl, hdigits, hvalue, hn, hends⟩ := decimalDigits_split (Nat.zero_le _) h
      refine ⟨ds, rfl, ⟨?_, hdigits, hvalue, hn⟩, hends⟩
      rintro rfl
      cases rest with
      | nil => cases hhead
      | cons b rest =>
          have hdigit : isDigit b = true := hhead
          rw [hends b rfl] at hdigit
          cases hdigit
    · rw [if_neg hhead] at h
      cases h
  · rintro ⟨ds, rfl, hds, hends⟩
    have hhead : (ds ++ rest).head?.any isDigit = true := by
      cases hcons : ds with
      | nil => exact absurd hcons hds.nonempty
      | cons b ds' => exact hds.digits b (by simp [hcons])
    have hvalue := hds.value
    unfold decimalNumber
    rw [if_pos hhead, decimalDigits_append hends ds hds.digits 0 (by rw [hvalue]; exact hds.le),
      hvalue]

/-- So it is with the separator behind it. -/
theorem decimalThen_eq_some_iff {separator : UInt8} (hseparator : isDigit separator = false)
    {text rest : Bytes} {n : Nat} :
    decimalThen separator text = some (n, rest) ↔
      ∃ ds, text = ds ++ separator :: rest ∧ Denotes ds n := by
  unfold decimalThen
  constructor
  · intro h
    obtain ⟨⟨number, behind⟩, hnumber, hbehind⟩ := Option.bind_eq_some_iff.mp h
    obtain ⟨ds, rfl, hds, _⟩ := decimalNumber_eq_some_iff.mp hnumber
    by_cases hhead : behind.head? == some separator
    · simp only [hhead, if_true] at hbehind
      cases hbehind
      cases behind with
      | nil => cases hhead
      | cons b behind =>
          have hb : b = separator := by simpa using hhead
          rw [hb]
          exact ⟨ds, rfl, hds⟩
    · simp only [hhead] at hbehind
      cases hbehind
  · rintro ⟨ds, rfl, hds⟩
    have hnumber : decimalNumber (ds ++ separator :: rest) = some (n, separator :: rest) :=
      decimalNumber_eq_some_iff.mpr ⟨ds, rfl, hds, ends_cons hseparator⟩
    rw [hnumber]
    simp

/-- The text of a range: unit, first and last position, and the complete length. -/
def rangeText (start finish total : Bytes) : Bytes :=
  ascii "bytes " ++ (start ++ 0x2d :: (finish ++ 0x2f :: total))

/-- A header is taken exactly when it spells three numbers in the form of RFC 7233. -/
theorem contentRange_eq_some_iff {text : Bytes} {start finish total : Nat} :
    contentRange text = some (start, finish, total) ↔
      ∃ a b c, text = rangeText a b c ∧ Denotes a start ∧ Denotes b finish ∧ Denotes c total := by
  unfold contentRange
  constructor
  · intro h
    by_cases hunit : (ascii "bytes ").isPrefixOf text = true
    · rw [if_pos hunit] at h
      obtain ⟨rest, rfl⟩ := List.isPrefixOf_iff_prefix.mp hunit
      obtain ⟨⟨_, rest₁⟩, hstart, h⟩ := Option.bind_eq_some_iff.mp h
      obtain ⟨⟨_, rest₂⟩, hfinish, h⟩ := Option.bind_eq_some_iff.mp h
      obtain ⟨⟨_, rest₃⟩, htotal, h⟩ := Option.bind_eq_some_iff.mp h
      by_cases hempty : rest₃.isEmpty = true
      · simp only [hempty, if_true, Option.some.injEq, Prod.mk.injEq] at h
        obtain ⟨rfl, rfl, rfl⟩ := h
        obtain ⟨a, ha, hastart⟩ := (decimalThen_eq_some_iff (by decide)).mp hstart
        obtain ⟨b, hb, hbfinish⟩ := (decimalThen_eq_some_iff (by decide)).mp hfinish
        obtain ⟨c, hc, hctotal, _⟩ := decimalNumber_eq_some_iff.mp htotal
        have hrest : rest = a ++ 0x2d :: rest₁ := ha
        rw [List.isEmpty_iff.mp hempty, List.append_nil] at hc
        refine ⟨a, b, c, ?_, hastart, hbfinish, hctotal⟩
        rw [rangeText, hrest, hb, hc]
      · simp only [hempty] at h
        cases h
    · rw [if_neg hunit] at h
      cases h
  · rintro ⟨a, b, c, rfl, ha, hb, hc⟩
    have hunit : (ascii "bytes ").isPrefixOf (rangeText a b c) = true :=
      List.isPrefixOf_iff_prefix.mpr ⟨_, rfl⟩
    have hdrop : (rangeText a b c).drop 6 = a ++ 0x2d :: (b ++ 0x2f :: c) := rfl
    have hstart : decimalThen 0x2d (a ++ 0x2d :: (b ++ 0x2f :: c)) =
        some (start, b ++ 0x2f :: c) :=
      (decimalThen_eq_some_iff (by decide)).mpr ⟨a, rfl, ha⟩
    have hfinish : decimalThen 0x2f (b ++ 0x2f :: c) = some (finish, c) :=
      (decimalThen_eq_some_iff (by decide)).mpr ⟨b, rfl, hb⟩
    have htotal : decimalNumber c = some (total, []) :=
      decimalNumber_eq_some_iff.mpr ⟨c, (List.append_nil c).symm, hc, ends_nil⟩
    rw [if_pos hunit, hdrop, hstart, Option.bind_eq_bind, Option.bind_some]
    simp only [hfinish, Option.bind_some, htotal, List.isEmpty_nil, if_true]

/-- `exact_range` takes the texts that denote the tail from `partialSize` on. -/
theorem exactRange_iff {text : Bytes} {partialSize expected : Nat} (hlt : partialSize < expected) :
    exactRange text partialSize expected = true ↔
      ∃ a b c, text = rangeText a b c ∧ Denotes a partialSize ∧ Denotes b (expected - 1) ∧
        Denotes c expected := by
  rw [← contentRange_eq_some_iff]
  unfold exactRange
  constructor
  · intro h
    cases hrange : contentRange text with
    | none =>
        rw [hrange] at h
        cases h
    | some range =>
        obtain ⟨start, finish, total⟩ := range
        rw [hrange] at h
        simp only [Bool.and_eq_true, beq_iff_eq, decide_eq_true_eq] at h
        obtain ⟨⟨⟨rfl, _⟩, rfl⟩, rfl⟩ := h
        rfl
  · intro h
    rw [h]
    simp only [beq_self_eq_true, Bool.and_true, Bool.true_and, decide_eq_true_eq]
    omega

end EdgeGuard.Agent.ContentRange
