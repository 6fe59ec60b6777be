import EdgeGuard.Base.JsonObject

/-!
# The size of an object's text

The text of an object is as long as its members are, each on its own, so a bound for
an object whose parts may be missing is the sum of bounds for the parts.

## Main results

* `length_generate_members` — the exact length.
* `MembersFit.text` — members within bounds make a text within bounds, in UTF-8.
-/

namespace EdgeGuard.Base.JsonSize

open EdgeGuard.Base.CText EdgeGuard.Base.Utf8 EdgeGuard.Base.Json EdgeGuard.Base.JsonObject

/-! ## Sizes -/

/-- What the members take, each with its colon and the comma or brace in front of it. -/
def membersSize : List (Bytes × Value) → Nat
  | [] => 0
  | (k, v) :: rest => (quote k).length + (generate v).length + 2 + membersSize rest

theorem membersSize_append (l m : List (Bytes × Value)) :
    membersSize (l ++ m) = membersSize l + membersSize m := by
  induction l with
  | nil => simp [membersSize]
  | cons p l ih =>
      simp only [List.cons_append, membersSize]
      omega

theorem length_generateMembers (l : List (Bytes × Value)) :
    (generateMembers (members l)).length = membersSize l + 1 := by
  induction l with
  | nil => rfl
  | cons p l ih =>
      obtain ⟨k, v⟩ := p
      simp only [members_cons, generateMembers, membersSize, List.length_cons, List.length_append]
      omega

theorem length_generate_members {l : List (Bytes × Value)} (hne : l ≠ []) :
    (generate (.obj (members l))).length = membersSize l + 1 := by
  cases l with
  | nil => exact absurd rfl hne
  | cons p l =>
      obtain ⟨k, v⟩ := p
      rw [← length_generateMembers]
      simp only [members_cons, generate, generateMembers, List.length_cons]

theorem generate_object_ne_nil (ms : Members) : generate (.obj ms) ≠ [] := by
  cases ms with
  | nil => simp [generate]
  | cons k v rest => simp [generate]

/-! ## Values -/

/-- Printable, and neither the quote nor the backslash. -/
def isSimple (b : UInt8) : Bool := 0x20 ≤ b && b ≤ 0x7e && isPlain b

theorem isSimple_iff {b : UInt8} :
    isSimple b = true ↔ (0x20 ≤ b.toNat ∧ b.toNat ≤ 0x7e) ∧ b.toNat ≠ 0x22 ∧ b.toNat ≠ 0x5c := by
  simp only [isSimple, isPlain, isControl, Bool.and_eq_true, Bool.not_eq_true',
    Bool.or_eq_false_iff, decide_eq_true_eq, decide_eq_false_iff_not, beq_eq_false_iff_ne,
    bne_iff_ne, ne_eq, UInt8.le_iff_toNat_le, UInt8.lt_iff_toNat_lt, ← UInt8.toNat_inj,
    UInt8.reduceToNat]
  omega

theorem simple_of_word {s : Bytes} (h : isWord s = true) : s.all isSimple = true := by
  refine List.all_eq_true.mpr fun b hb => ?_
  have hword := List.all_eq_true.mp h b hb
  simp only [isAlnum, isDigit, Bool.or_eq_true, Bool.and_eq_true, decide_eq_true_eq, beq_iff_eq,
    UInt8.le_iff_toNat_le, ← UInt8.toNat_inj, UInt8.reduceToNat] at hword
  rw [isSimple_iff]
  omega

theorem escape_of_simple {s : Bytes} (h : s.all isSimple = true) : escape s = s := by
  induction s with
  | nil => rfl
  | cons b s ih =>
      simp only [List.all_cons, Bool.and_eq_true] at h
      have hb : isPlain b = true := by
        have hsimple := h.1
        simp only [isSimple, Bool.and_eq_true] at hsimple
        exact hsimple.2
      rw [escape_plain_cons hb, ih h.2]

theorem textOk_of_simple {s : Bytes} (h : s.all isSimple = true) : TextOk s := by
  apply textOk_of_printable
  intro b hb
  have hsimple := List.all_eq_true.mp h b hb
  simp only [isSimple, Bool.and_eq_true, decide_eq_true_eq] at hsimple
  exact hsimple.1

/-- A value that may be written, and takes at most `n` bytes. -/
structure ValueFits (v : Value) (n : Nat) : Prop where
  writable : Writable v
  size : (generate v).length ≤ n

theorem ValueFits.mono {v : Value} {n m : Nat} (h : ValueFits v n) (hnm : n ≤ m) :
    ValueFits v m := ⟨h.writable, Nat.le_trans h.size hnm⟩

theorem valueFits_true : ValueFits (.bool true) 4 := ⟨trivial, by decide⟩

theorem valueFits_bool (b : Bool) : ValueFits (.bool b) 5 := by
  cases b with
  | false => exact ⟨trivial, by decide⟩
  | true => exact valueFits_true.mono (by decide)

theorem valueFits_one : ValueFits (.int 1) 1 := ⟨(by decide : (0 : Int) ≤ 1), by decide⟩

theorem valueFits_nat {n k : Nat} (hk : 0 < k) (h : n < 10 ^ k) : ValueFits (.int n) k := by
  refine ⟨Int.natCast_nonneg n, ?_⟩
  rw [generate, intText_of_nonneg (Int.natCast_nonneg n), Int.toNat_natCast]
  exact length_decimal_le hk h

/-- A text that is written as it is. -/
theorem valueFits_simple {s : Bytes} {n : Nat} (h : s.all isSimple = true) (hn : s.length ≤ n) :
    ValueFits (.str s) (n + 2) := by
  refine ⟨textOk_of_simple h, ?_⟩
  rw [generate, quote, escape_of_simple h, List.length_cons, List.length_append,
    List.length_singleton]
  omega

/-- A text that may consist of quotes and backslashes. -/
theorem valueFits_printable {s : Bytes} {n : Nat} (h : ∀ b ∈ s, 0x20 ≤ b ∧ b ≤ 0x7e)
    (hn : s.length ≤ n) : ValueFits (.str s) (2 * n + 2) := by
  have htext := textOk_of_printable h
  refine ⟨htext, ?_⟩
  have hquote := length_quote_le htext
  rw [generate]
  omega

/-! ## Members -/

/-- Members that may be written, and take at most `n` bytes. -/
structure MembersFit (l : List (Bytes × Value)) (n : Nat) : Prop where
  writable : ∀ m ∈ l, TextOk m.1 ∧ Writable m.2
  size : membersSize l ≤ n

theorem membersFit_nil : MembersFit [] 0 := ⟨by simp, Nat.le_refl 0⟩

/-- The bounds of members add up. -/
theorem membersFit_cons {k : Bytes} {v : Value} {rest : List (Bytes × Value)} {n m : Nat}
    (hk : k.all isSimple = true) (hv : ValueFits v n) (hrest : MembersFit rest m) :
    MembersFit ((k, v) :: rest) (k.length + 4 + n + m) := by
  constructor
  · intro p hp
    rcases List.mem_cons.mp hp with rfl | hp
    · exact ⟨textOk_of_simple hk, hv.writable⟩
    · exact hrest.writable p hp
  · have hname := (valueFits_simple hk (Nat.le_refl k.length)).size
    have hvalue := hv.size
    have hsize := hrest.size
    rw [generate] at hname
    rw [membersSize]
    omega

theorem MembersFit.append {l l' : List (Bytes × Value)} {n m : Nat} (hl : MembersFit l n)
    (hl' : MembersFit l' m) : MembersFit (l ++ l') (n + m) := by
  constructor
  · intro p hp
    rcases List.mem_append.mp hp with hp | hp
    · exact hl.writable p hp
    · exact hl'.writable p hp
  · have hsize := hl.size
    have hsize' := hl'.size
    rw [membersSize_append]
    omega

theorem MembersFit.mono {l : List (Bytes × Value)} {n m : Nat} (h : MembersFit l n)
    (hnm : n ≤ m) : MembersFit l m := ⟨h.writable, Nat.le_trans h.size hnm⟩

/-- Members of texts are generated as valid UTF-8. -/
theorem valid_generateMembers {l : List (Bytes × Value)}
    (h : ∀ m ∈ l, TextOk m.1 ∧ Writable m.2) (rest : Bytes) :
    valid (generateMembers (members l) ++ rest) = valid rest := by
  induction l with
  | nil => exact valid_append (by decide) rest
  | cons p l ih =>
      obtain ⟨hk, hv⟩ := h p List.mem_cons_self
      obtain ⟨k, v⟩ := p
      simp only [members_cons, generateMembers, List.cons_append, List.append_assoc]
      rw [valid_cons_ascii (by decide) (by decide), valid_quote hk,
        valid_cons_ascii (by decide) (by decide), valid_generate_append _ _ hv,
        ih fun q hq => h q (List.mem_cons_of_mem _ hq)]

/-- The text of an object of such members; no name has to be new. -/
theorem MembersFit.text {l : List (Bytes × Value)} {n : Nat} (h : MembersFit l n)
    (hne : l ≠ []) :
    valid (generate (.obj (members l))) = true ∧
      (generate (.obj (members l))).length ≤ n + 1 := by
  constructor
  · have hvalid := valid_generateMembers h.writable []
    rw [List.append_nil] at hvalid
    cases l with
    | nil => exact absurd rfl hne
    | cons p l =>
        obtain ⟨k, v⟩ := p
        simp only [members_cons, generate, generateMembers] at hvalid ⊢
        rw [valid_cons_ascii (by decide) (by decide)] at hvalid ⊢
        exact hvalid
  · rw [length_generate_members hne]
    exact Nat.succ_le_succ h.size

theorem names_members (l : List (Bytes × Value)) : (members l).names = l.map Prod.fst := by
  induction l with
  | nil => rfl
  | cons p l ih => rw [members_cons, Members.names, ih, List.map_cons]

/-- With new names throughout, they make an object that may be written. -/
theorem MembersFit.writableMembers {l : List (Bytes × Value)} {n : Nat} (h : MembersFit l n)
    (hnames : (l.map Prod.fst).Nodup) : WritableMembers (members l) := by
  have hall := h.writable
  clear h
  induction l with
  | nil => trivial
  | cons p l ih =>
      obtain ⟨hk, hv⟩ := hall p List.mem_cons_self
      rw [List.map_cons, List.nodup_cons] at hnames
      refine ⟨hk, ?_, hv, ih hnames.2 fun q hq => hall q (List.mem_cons_of_mem _ hq)⟩
      rw [names_members]
      exact hnames.1

end EdgeGuard.Base.JsonSize
