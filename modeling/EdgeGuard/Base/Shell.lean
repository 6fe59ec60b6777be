import EdgeGuard.Base.CText
import Mathlib.Data.List.DropRight

/-!
# Expansions of a POSIX shell

A string of the shell holds no NUL.  A command substitution captures an output
without its trailing newlines, and an unquoted expansion is split into fields at
the bytes of `IFS`, here white space throughout.

POSIX leaves open what becomes of a NUL in a captured output; the shells in use as
`sh` drop it, and so does `captured`.

## Main results

* `captured_concat` — a sentinel behind the output keeps its newlines.
* `fields_iff` — the fields of a text.
* `fields_pair_iff` — the texts of two fields.
-/

namespace EdgeGuard.Base.Shell

open EdgeGuard.Base.CText

/-! ## Commands -/

/-- An argument or the value of a variable. -/
structure Text where
  bytes : Bytes
  noNul : (0 : UInt8) ∉ bytes
  deriving DecidableEq

/-- What a command leaves behind. -/
structure Outcome where
  status : Nat
  output : Bytes

/-- The bytes of an output that a shell string can hold. -/
def visible (output : Bytes) : Bytes := output.filter (· != 0)

/-- `$(command)`. -/
def captured (output : Bytes) : Bytes := (visible output).rdropWhile (· == 0x0a)

/-- `$(command && printf sentinel)`, without a value where its status is not 0. -/
def guarded (sentinel : UInt8) (r : Outcome) : Option Bytes :=
  if r.status = 0 then some (captured (r.output ++ [sentinel])) else none

theorem visible_of_noNul {output : Bytes} (h : (0 : UInt8) ∉ output) :
    visible output = output := by
  refine List.filter_eq_self.mpr fun b hb => ?_
  rw [bne_iff_ne]
  rintro rfl
  exact h hb

theorem captured_concat (output : Bytes) {sentinel : UInt8} (hnul : sentinel ≠ 0)
    (hnewline : sentinel ≠ 0x0a) :
    captured (output ++ [sentinel]) = visible output ++ [sentinel] := by
  have hvisible : visible (output ++ [sentinel]) = visible output ++ [sentinel] := by
    simp [visible, hnul]
  rw [captured, hvisible]
  exact List.rdropWhile_concat_neg _ _ _ (by simpa using hnewline)

theorem guarded_eq_some_iff {sentinel : UInt8} (hnul : sentinel ≠ 0)
    (hnewline : sentinel ≠ 0x0a) {r : Outcome} {text : Bytes} :
    guarded sentinel r = some (text ++ [sentinel]) ↔ r.status = 0 ∧ visible r.output = text := by
  unfold guarded
  split
  · rename_i hstatus
    rw [captured_concat r.output hnul hnewline]
    simp [hstatus]
  · rename_i hstatus
    simp [hstatus]

/-! ## Fields -/

variable (ifs : UInt8 → Bool)

/-- Field splitting at the white space of `IFS`. -/
def fields (s : Bytes) : List Bytes := (s.splitOnP ifs).filter (!·.isEmpty)

/-- A field: bytes without white space, and at least one. -/
structure Word (word : Bytes) : Prop where
  nonempty : word ≠ []
  solid : ∀ b ∈ word, ifs b = false

/-- The text is white space, words, and white space between them. -/
inductive Splits : Bytes → List Bytes → Prop
  | blank {s : Bytes} (h : s.all ifs = true) : Splits s []
  | word {lead word rest : Bytes} {words : List Bytes} (hlead : lead.all ifs = true)
      (hword : Word ifs word) (hends : ∀ b, rest.head? = some b → ifs b = true)
      (hrest : Splits rest words) : Splits (lead ++ word ++ rest) (word :: words)

variable {ifs}

theorem fields_cons_of_blank {b : UInt8} (h : ifs b = true) (s : Bytes) :
    fields ifs (b :: s) = fields ifs s := by
  simp [fields, List.splitOnP_cons_eq_if_modifyHead, h]

theorem fields_append_of_blank {lead : Bytes} (h : lead.all ifs = true) (s : Bytes) :
    fields ifs (lead ++ s) = fields ifs s := by
  induction lead with
  | nil => rfl
  | cons b lead ih =>
      simp only [List.all_cons, Bool.and_eq_true] at h
      rw [List.cons_append, fields_cons_of_blank h.1, ih h.2]

theorem fields_of_blank {s : Bytes} (h : s.all ifs = true) : fields ifs s = [] := by
  have hs := fields_append_of_blank h []
  rw [List.append_nil] at hs
  rw [hs]
  rfl

/-- A word that ends is one field. -/
theorem fields_append_of_word {word rest : Bytes} (hword : Word ifs word)
    (hends : ∀ b, rest.head? = some b → ifs b = true) :
    fields ifs (word ++ rest) = word :: fields ifs rest := by
  have hne : word.isEmpty = false := by simpa using hword.nonempty
  cases rest with
  | nil =>
      rw [List.append_nil, fields, List.splitOnP_eq_singleton hword.solid]
      simp [fields, hne]
  | cons b rest =>
      have hb := hends b rfl
      rw [fields_cons_of_blank hb, fields,
        List.splitOnP_append_cons_of_forall_mem hword.solid b hb]
      simp [fields, hne]

theorem Splits.fields_eq {s : Bytes} {words : List Bytes} (h : Splits ifs s words) :
    fields ifs s = words := by
  induction h with
  | blank h => exact fields_of_blank h
  | word hlead hword hends _ ih =>
      rw [List.append_assoc, fields_append_of_blank hlead, fields_append_of_word hword hends, ih]

private theorem head_dropWhile {p : UInt8 → Bool} {s : Bytes} {b : UInt8}
    (h : (s.dropWhile p).head? = some b) : p b = false := by
  have hhead := List.head?_dropWhile_not p s
  rw [h] at hhead
  simpa using hhead

/-- The fields of the shell split a text. -/
theorem splits_fields (s : Bytes) : Splits ifs s (fields ifs s) := by
  induction hn : s.length using Nat.strongRecOn generalizing s with
  | ind n ih =>
      have hlead : (s.takeWhile ifs).all ifs = true := List.all_takeWhile
      have hs : s.takeWhile ifs ++ s.dropWhile ifs = s := List.takeWhile_append_dropWhile
      generalize s.takeWhile ifs = lead at hlead hs
      generalize htail : s.dropWhile ifs = tail at hs
      cases tail with
      | nil =>
          rw [List.append_nil] at hs
          subst hs
          rw [fields_of_blank hlead]
          exact .blank hlead
      | cons b back =>
          have hb : ifs b = false := head_dropWhile (by rw [htail]; rfl)
          have hback : back.takeWhile (!ifs ·) ++ back.dropWhile (!ifs ·) = back :=
            List.takeWhile_append_dropWhile
          have hends : ∀ c, (back.dropWhile (!ifs ·)).head? = some c → ifs c = true := by
            intro c hc
            simpa using head_dropWhile hc
          have hword : Word ifs (b :: back.takeWhile (!ifs ·)) := by
            refine ⟨by simp, fun c hc => ?_⟩
            rcases List.mem_cons.mp hc with rfl | hc
            · exact hb
            · simpa using List.mem_takeWhile_imp hc
          have hlength : (back.dropWhile (!ifs ·)).length < n := by
            have hle := (List.dropWhile_suffix (!ifs ·) (l := back)).length_le
            rw [← hn, ← hs]
            simp only [List.length_append, List.length_cons]
            omega
          have hrest := ih _ hlength _ rfl
          have htext : lead ++ (b :: back.takeWhile (!ifs ·)) ++ back.dropWhile (!ifs ·) = s := by
            rw [List.append_assoc, List.cons_append, hback, hs]
          rw [← htext, List.append_assoc, fields_append_of_blank hlead,
            fields_append_of_word hword hends, ← List.append_assoc]
          exact .word hlead hword hends hrest

theorem fields_iff {s : Bytes} {words : List Bytes} :
    fields ifs s = words ↔ Splits ifs s words := by
  constructor
  · rintro rfl
    exact splits_fields s
  · exact Splits.fields_eq

/-- The texts that split into two words. -/
theorem fields_pair_iff {s first second : Bytes} :
    fields ifs s = [first, second] ↔
      Word ifs first ∧ Word ifs second ∧
        ∃ lead mid trail : Bytes, lead.all ifs = true ∧ mid.all ifs = true ∧
          trail.all ifs = true ∧ mid ≠ [] ∧ s = lead ++ first ++ mid ++ second ++ trail := by
  rw [fields_iff]
  constructor
  · intro h
    cases h with
    | word hlead hfirst hends hrest =>
        cases hrest with
        | word hmid hsecond hlast hrest =>
            cases hrest with
            | blank htrail =>
                rename_i lead mid trail
                refine ⟨hfirst, hsecond, lead, mid, trail, hlead, hmid, htrail, ?_, by simp⟩
                rintro rfl
                -- the first word would run on into the second
                obtain ⟨b, second, rfl⟩ := List.exists_cons_of_ne_nil hsecond.nonempty
                have hblank := hends b rfl
                rw [hsecond.solid b List.mem_cons_self] at hblank
                cases hblank
  · rintro ⟨hfirst, hsecond, lead, mid, trail, hlead, hmid, htrail, hne, rfl⟩
    have hlast : ∀ b, trail.head? = some b → ifs b = true := fun b hb =>
      List.all_eq_true.mp htrail b (List.mem_of_head? hb)
    have hends : ∀ b, (mid ++ second ++ trail).head? = some b → ifs b = true := by
      intro b hb
      obtain ⟨m, mid, rfl⟩ := List.exists_cons_of_ne_nil hne
      cases hb
      exact List.all_eq_true.mp hmid b List.mem_cons_self
    have hsplits := Splits.word hlead hfirst hends
      (.word hmid hsecond hlast (.blank htrail))
    simpa using hsplits

end EdgeGuard.Base.Shell
