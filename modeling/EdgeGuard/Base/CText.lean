import Mathlib.Algebra.Group.Int.Defs
import Mathlib.Algebra.Group.Nat.Defs
import Mathlib.Data.List.DropRight
import Mathlib.Data.List.Infix

/-!
# C strings as byte lists

Every text the modelled programs handle is a NUL-terminated `char` array or
a byte buffer with a length.  Both are a `List UInt8` here: a C string is the
list of its bytes up to the terminating NUL, so `strcmp` is list equality,
`strlen` is `List.length`, and a buffer of capacity `n` holds a terminated
string exactly when the list is shorter than `n`.

The character classes are GLib's `g_ascii_*` family, restricted to what the
programs use, and `occursIn` is `strstr` / `g_strstr_len` read as a yes/no
question.  `decimal` is what `printf("%lld")` prints for a nonnegative number.

## Main results

* `occursIn_iff` — `occursIn` decides the infix relation.
* `occursIn_append_cons` — a separator byte that the needle does not contain
  cannot lie inside an occurrence, so the search splits there.
* `decimalValue_decimal`, `decimal_leading`, `decimal_decimalValue` — the
  printed digits denote the number, and are the only ones that do so without a
  leading zero.
* `pathGetDirname_child`, `buildFilename_child` — a directory and a name in it.
-/

namespace EdgeGuard.Base.CText

abbrev Bytes := List UInt8

/-- The bytes of an ASCII literal. -/
def ascii (s : String) : Bytes := s.toList.map fun c => c.toNat.toUInt8

/-! ## Character classes -/

/-- `g_ascii_isdigit`. -/
def isDigit (b : UInt8) : Bool := 0x30 ≤ b && b ≤ 0x39

/-- A digit or one of `a` to `f`, the lower-case hexadecimal digits. -/
def isLowerHex (b : UInt8) : Bool := isDigit b || (0x61 ≤ b && b ≤ 0x66)

/-- `g_ascii_isxdigit`. -/
def isXDigit (b : UInt8) : Bool := isLowerHex b || (0x41 ≤ b && b ≤ 0x46)

/-- `g_ascii_isalnum`. -/
def isAlnum (b : UInt8) : Bool :=
  isDigit b || (0x61 ≤ b && b ≤ 0x7a) || (0x41 ≤ b && b ≤ 0x5a)

/-- The bytes C code here calls control characters: below space, or DEL. -/
def isControl (b : UInt8) : Bool := b < 0x20 || b == 0x7f

/-- No byte of the text is a control character. -/
def controlFree (s : Bytes) : Bool := s.all fun b => !isControl b

@[simp] theorem controlFree_nil : controlFree [] = true := rfl

@[simp] theorem controlFree_cons (b : UInt8) (s : Bytes) :
    controlFree (b :: s) = (!isControl b && controlFree s) := rfl

@[simp] theorem controlFree_append (s t : Bytes) :
    controlFree (s ++ t) = (controlFree s && controlFree t) := by
  simp [controlFree]

/-- The text holds one of the listed bytes: `strpbrk(s, set)`. -/
def hasAny (set s : Bytes) : Bool := s.any fun b => set.contains b

/-! ## Substring search -/

/-- `strstr(hay, needle) != NULL`. -/
def occursIn (needle : Bytes) : Bytes → Bool
  | [] => needle.isEmpty
  | b :: rest => needle.isPrefixOf (b :: rest) || occursIn needle rest

theorem occursIn_iff (needle hay : Bytes) :
    occursIn needle hay = true ↔ needle <:+: hay := by
  induction hay with
  | nil => simp [occursIn]
  | cons b rest ih =>
      simp [occursIn, ih, List.infix_cons_iff]

/-- A prefix of `a ++ c :: b` that avoids `c` is a prefix of `a`. -/
private theorem prefix_append_cons {needle a b : Bytes} {c : UInt8}
    (hc : c ∉ needle) :
    needle <+: a ++ c :: b ↔ needle <+: a := by
  induction needle generalizing a with
  | nil => simp
  | cons x needle ih =>
      have hx : x ≠ c := fun h => hc (by simp [h])
      have hrest : c ∉ needle := fun h => hc (by simp [h])
      cases a with
      | nil => simp [List.cons_prefix_cons, hx]
      | cons y a => simp [List.cons_prefix_cons, ih hrest]

/-- A byte outside the needle separates the two halves of the search. -/
theorem occursIn_append_cons {needle : Bytes} {c : UInt8}
    (hne : needle ≠ []) (hc : c ∉ needle) (a b : Bytes) :
    occursIn needle (a ++ c :: b) = (occursIn needle a || occursIn needle b) := by
  have hnil : ¬ needle <+: [] := by simpa using hne
  induction a with
  | nil =>
      have hp : ¬ needle <+: c :: b := fun h =>
        hnil ((prefix_append_cons (a := []) hc).mp h)
      rw [Bool.eq_iff_iff]
      simp [occursIn, hne, hp]
  | cons x a ih =>
      have hp := prefix_append_cons (a := x :: a) (b := b) hc
      rw [Bool.eq_iff_iff]
      simp only [List.cons_append, occursIn, ih, Bool.or_eq_true,
        List.isPrefixOf_iff_prefix]
      rw [← List.cons_append, hp]
      tauto

/-- A text without the needle's first byte cannot contain the needle. -/
theorem occursIn_eq_false_of_not_mem {x : UInt8} {needle hay : Bytes}
    (hx : x ∉ hay) : occursIn (x :: needle) hay = false := by
  rw [Bool.eq_false_iff]
  intro h
  obtain ⟨s, t, rfl⟩ := (occursIn_iff _ _).mp h
  exact hx (by simp)

/-- The text split around the first occurrence of the needle, as a caller of
`strstr` does it. -/
def breakOn (needle : Bytes) : Bytes → Option (Bytes × Bytes)
  | [] => if needle.isEmpty then some ([], []) else none
  | b :: rest =>
      if needle.isPrefixOf (b :: rest) then some ([], (b :: rest).drop needle.length)
      else (breakOn needle rest).map fun (front, back) => (b :: front, back)

/-! ## Case -/

def toLower (b : UInt8) : UInt8 := if 0x41 ≤ b && b ≤ 0x5a then b + 0x20 else b

/-- `g_ascii_strdown`. -/
def strdown (s : Bytes) : Bytes := s.map toLower

theorem toNat_toLower (b : UInt8) :
    (toLower b).toNat = if 0x41 ≤ b.toNat ∧ b.toNat ≤ 0x5a then b.toNat + 0x20 else b.toNat := by
  have hb := b.toNat_lt
  by_cases h : 0x41 ≤ b.toNat ∧ b.toNat ≤ 0x5a
  · simp only [toLower, UInt8.le_iff_toNat_le, UInt8.reduceToNat, h, decide_true, Bool.and_self,
      if_true, and_self, UInt8.toNat_add]
    omega
  · have hupper : (0x41 ≤ b && b ≤ 0x5a) = false := by
      simpa [UInt8.le_iff_toNat_le] using h
    rw [if_neg h]
    simp [toLower, hupper]

/-- A byte that is no letter is the lower case of itself alone. -/
theorem toLower_eq_iff {b c : UInt8} (hc : c < 0x41 ∨ 0x5a < c ∧ c < 0x61) :
    toLower b = c ↔ b = c := by
  have hnat := toNat_toLower b
  simp only [UInt8.lt_iff_toNat_lt, UInt8.reduceToNat] at hc
  rw [← UInt8.toNat_inj, ← UInt8.toNat_inj, hnat]
  split <;> omega

theorem strdown_strdown (s : Bytes) : strdown (strdown s) = strdown s := by
  have htwice : ∀ b, toLower (toLower b) = toLower b := by
    intro b
    have hnat := toNat_toLower b
    rw [← UInt8.toNat_inj, toNat_toLower (toLower b), hnat]
    by_cases hupper : 0x41 ≤ b.toNat ∧ b.toNat ≤ 0x5a
    · rw [if_pos hupper, if_neg (by omega)]
    · rw [if_neg hupper, if_neg hupper]
  simp [strdown, htwice]

/-- Lowering commutes with splitting at a byte without case. -/
theorem splitOn_strdown {c : UInt8} (hc : c < 0x41 ∨ 0x5a < c ∧ c < 0x61) (s : Bytes) :
    (strdown s).splitOn c = (s.splitOn c).map strdown := by
  induction s with
  | nil => rfl
  | cons b s ih =>
      have hbyte : (toLower b == c) = (b == c) := by
        rw [Bool.eq_iff_iff, beq_iff_eq, beq_iff_eq]
        exact toLower_eq_iff hc
      rw [strdown, List.map_cons, ← strdown, List.splitOn_cons_eq_if_modifyHead,
        List.splitOn_cons_eq_if_modifyHead, ih, hbyte]
      split
      · rfl
      · cases s.splitOn c with
        | nil => rfl
        | cons part parts => rfl

/-- A byte of joined parts is the separator or lies in a part. -/
theorem mem_intercalate {b sep : UInt8} {parts : List Bytes} (h : b ∈ [sep].intercalate parts) :
    b = sep ∨ ∃ part ∈ parts, b ∈ part := by
  induction parts with
  | nil => cases h
  | cons part parts ih =>
      cases parts with
      | nil => exact .inr ⟨part, by simp, by simpa [List.intercalate] using h⟩
      | cons next parts =>
          have hparts : b ∈ part ++ sep :: [sep].intercalate (next :: parts) := by
            simpa [List.intercalate] using h
          rcases List.mem_append.mp hparts with hmem | hmem
          · exact .inr ⟨part, by simp, hmem⟩
          · rcases List.mem_cons.mp hmem with rfl | hmem
            · exact .inl rfl
            · rcases ih hmem with rfl | ⟨p, hp, hb⟩
              · exact .inl rfl
              · exact .inr ⟨p, by simp [hp], hb⟩

/-- A byte is a separator or stands in one of the parts. -/
theorem mem_splitOn (sep : UInt8) {b : UInt8} {s : Bytes} (h : b ∈ s) :
    b = sep ∨ ∃ part ∈ s.splitOn sep, b ∈ part := by
  apply mem_intercalate
  rwa [List.intercalate_splitOn]

/-- The text in front of a byte it does not contain is determined. -/
theorem append_cons_inj {c : UInt8} {a a' b b' : Bytes} (ha : c ∉ a) (ha' : c ∉ a')
    (h : a ++ c :: b = a' ++ c :: b') : a = a' ∧ b = b' := by
  induction a generalizing a' with
  | nil =>
      cases a' with
      | nil => exact ⟨rfl, (List.cons.inj h).2⟩
      | cons x a' => exact absurd (List.cons.inj h).1 (fun hx => ha' (by simp [hx]))
  | cons x a ih =>
      cases a' with
      | nil => exact absurd (List.cons.inj h).1 (fun hx => ha (by simp [hx]))
      | cons x' a' =>
          obtain ⟨rfl, hrest⟩ := List.cons.inj h
          obtain ⟨rfl, hb⟩ := ih (fun hm => ha (by simp [hm])) (fun hm => ha' (by simp [hm]))
            hrest
          exact ⟨rfl, hb⟩

theorem breakOn_byte {c : UInt8} {a : Bytes} (ha : c ∉ a) (b : Bytes) :
    breakOn [c] (a ++ c :: b) = some (a, b) := by
  induction a with
  | nil => simp [breakOn]
  | cons x a ih =>
      have hx : (c == x) = false := by
        rw [beq_eq_false_iff_ne]
        exact fun h => ha (by simp [h])
      have hrest := ih fun hm => ha (by simp [hm])
      simp [breakOn, List.isPrefixOf_cons_cons, hx, hrest]

/-- What `strchr` finds. -/
theorem breakOn_byte_some {c : UInt8} {s a b : Bytes} (h : breakOn [c] s = some (a, b)) :
    s = a ++ c :: b ∧ c ∉ a := by
  induction s generalizing a with
  | nil => simp [breakOn] at h
  | cons x s ih =>
      simp only [breakOn, List.isPrefixOf_cons_cons, List.isPrefixOf_nil_left, Bool.and_true,
        beq_iff_eq] at h
      split at h
      · rename_i hx
        simp only [Option.some.injEq, Prod.mk.injEq] at h
        obtain ⟨rfl, rfl⟩ := h
        simp [hx]
      · rename_i hx
        obtain ⟨⟨front, back⟩, hbreak, heq⟩ := Option.map_eq_some_iff.mp h
        obtain ⟨rfl, rfl⟩ := Prod.mk.inj heq
        obtain ⟨rfl, hfront⟩ := ih hbreak
        exact ⟨rfl, by simp [hx, hfront]⟩

/-! ## Blanks and lines -/

/-- `g_ascii_isspace`. -/
def isSpace (b : UInt8) : Bool :=
  b == 0x20 || b == 0x09 || b == 0x0a || b == 0x0c || b == 0x0d

/-- `g_strstrip`. -/
def strstrip (s : Bytes) : Bytes := (s.dropWhile isSpace).rdropWhile isSpace

/-- `g_strsplit(s, "\n", -1)`. -/
def lines (s : Bytes) : List Bytes := s.splitOn 0x0a

/-! ## File names -/

/-- `g_build_filename(dir, name, NULL)` for a name without a slash. -/
def buildFilename (dir name : Bytes) : Bytes :=
  let leading := dir.takeWhile (· == 0x2f)
  let core := (dir.dropWhile (· == 0x2f)).rdropWhile (· == 0x2f)
  leading ++ core ++ (if core.isEmpty then name else 0x2f :: name)

/-- `g_path_get_dirname`. -/
def pathGetDirname (path : Bytes) : Bytes :=
  if path.contains 0x2f then
    -- the slashes in front of the last component go, but for one at the start
    match (path.rdropWhile (· != 0x2f)).rdropWhile (· == 0x2f) with
    | [] => [0x2f]
    | b :: dir => b :: dir
  else ascii "."

/-- The parts of a text between slashes are nonempty only when no slash begins
or ends it. -/
private theorem slash_ends {s : Bytes}
    (h : (s.splitOn 0x2f).all (fun part => !part.isEmpty) = true) :
    (∀ rest, s ≠ 0x2f :: rest) ∧ (∀ front, s ≠ front ++ [0x2f]) := by
  constructor
  · rintro rest rfl
    have hsplit : (0x2f :: rest : Bytes).splitOn 0x2f = [[]] ++ rest.splitOn 0x2f :=
      List.splitOn_append_cons_self [] rest
    simp [hsplit] at h
  · rintro front rfl
    have hsplit : (front ++ [0x2f] : Bytes).splitOn 0x2f = front.splitOn 0x2f ++ [[]] :=
      List.splitOn_append_cons_self front []
    simp [hsplit] at h

private theorem rdropWhile_slash {s : Bytes} (h : ∀ front, s ≠ front ++ [0x2f]) :
    s.rdropWhile (· == 0x2f) = s := by
  refine List.rdropWhile_eq_self_iff.mpr fun hne hlast => h s.dropLast ?_
  have hslash : s.getLast hne = 0x2f := by simpa using hlast
  rw [← hslash, List.dropLast_append_getLast hne]

theorem buildFilename_child {rest : Bytes} (hne : rest ≠ [])
    (h : (rest.splitOn 0x2f).all (fun part => !part.isEmpty) = true) (name : Bytes) :
    buildFilename (0x2f :: rest) name = 0x2f :: rest ++ 0x2f :: name := by
  obtain ⟨hfirst, hlast⟩ := slash_ends h
  have htake : rest.takeWhile (· == 0x2f) = [] ∧ rest.dropWhile (· == 0x2f) = rest := by
    cases rest with
    | nil => exact ⟨rfl, rfl⟩
    | cons b rest =>
        have hb : (b == 0x2f) = false := by
          rw [beq_eq_false_iff_ne]
          exact fun heq => hfirst rest (by rw [heq])
        simp [hb]
  simp [buildFilename, htake.1, htake.2, rdropWhile_slash hlast, hne]

/-- The directory of a child is its parent. -/
theorem pathGetDirname_child {rest name : Bytes}
    (h : (rest.splitOn 0x2f).all (fun part => !part.isEmpty) = true) (hne : rest ≠ [])
    (hname : 0x2f ∉ name) : pathGetDirname (0x2f :: rest ++ 0x2f :: name) = 0x2f :: rest := by
  have hfront : (0x2f :: rest ++ 0x2f :: name : Bytes).rdropWhile (· != 0x2f) =
      0x2f :: rest ++ [0x2f] := by
    rw [List.rdropWhile, List.reverse_append, List.reverse_cons, List.append_assoc,
      List.dropWhile_append_of_pos]
    · simp
    · intro b hb
      simp only [bne_iff_ne, ne_eq]
      rintro rfl
      exact hname (List.mem_reverse.mp hb)
  have hdir : (0x2f :: rest : Bytes).rdropWhile (· == 0x2f) = 0x2f :: rest := by
    refine rdropWhile_slash fun front heq => ?_
    cases front with
    | nil => exact hne (List.cons.inj heq).2
    | cons b front => exact (slash_ends h).2 front (List.cons.inj heq).2
  have hmem : (0x2f :: rest ++ 0x2f :: name : Bytes).contains 0x2f = true := by simp
  rw [pathGetDirname, if_pos hmem, hfront, List.rdropWhile_concat_pos _ _ _ (by decide), hdir]

/-! ## Decimal numbers -/

/-- The digit byte of `d < 10`. -/
def digitByte (d : Nat) : UInt8 := (Nat.digitChar d).toNat.toUInt8

/-- The decimal text of a number. -/
def decimal (n : Nat) : Bytes := (Nat.toDigits 10 n).map fun c => c.toNat.toUInt8

/-- The number a digit byte stands for: `*p - '0'`. -/
def digitOf (b : UInt8) : Nat := b.toNat - 0x30

/-- The number denoted by a run of digits, read from `acc` on. -/
def decimalValue (acc : Nat) (ds : Bytes) : Nat :=
  ds.foldl (fun n b => n * 10 + digitOf b) acc

theorem digitOf_le {b : UInt8} (h : isDigit b = true) : digitOf b ≤ 9 := by
  simp only [isDigit, Bool.and_eq_true, decide_eq_true_eq, UInt8.le_iff_toNat_le] at h
  have hlast : b.toNat ≤ 0x39 := h.2
  unfold digitOf
  omega

theorem decimal_of_lt {n : Nat} (h : n < 10) : decimal n = [digitByte n] := by
  simp [decimal, Nat.toDigits_of_lt_base h, digitByte]

theorem decimal_of_ge {n : Nat} (h : 10 ≤ n) :
    decimal n = decimal (n / 10) ++ [digitByte (n % 10)] := by
  simp [decimal, Nat.toDigits_of_base_le (by decide) h, digitByte]

private theorem digitByte_spec : ∀ d, d < 10 →
    isDigit (digitByte d) = true ∧ digitOf (digitByte d) = d := by decide

theorem decimal_ne_nil (n : Nat) : decimal n ≠ [] := by
  simp [decimal, Nat.toDigits_ne_nil]

/-- A number is printed in digits. -/
theorem isDigit_of_mem_decimal (n : Nat) : ∀ b ∈ decimal n, isDigit b = true := by
  induction n using Nat.strongRecOn with
  | ind n ih =>
      rcases Nat.lt_or_ge n 10 with h | h
      · rw [decimal_of_lt h]
        simpa using (digitByte_spec n h).1
      · rw [decimal_of_ge h]
        intro b hb
        rcases List.mem_append.mp hb with hb | hb
        · exact ih (n / 10) (by omega) b hb
        · rw [List.mem_singleton.mp hb]
          exact (digitByte_spec _ (Nat.mod_lt _ (by decide))).1

@[simp] theorem decimalValue_append (acc : Nat) (xs ys : Bytes) :
    decimalValue acc (xs ++ ys) = decimalValue (decimalValue acc xs) ys := by
  simp [decimalValue]

theorem le_decimalValue (ds : Bytes) (acc : Nat) : acc ≤ decimalValue acc ds := by
  induction ds generalizing acc with
  | nil => simp [decimalValue]
  | cons b ds ih =>
      have := ih (acc * 10 + digitOf b)
      simp only [decimalValue, List.foldl_cons] at this ⊢
      omega

@[simp] theorem decimalValue_decimal (n : Nat) : decimalValue 0 (decimal n) = n := by
  induction n using Nat.strongRecOn with
  | ind n ih =>
      rcases Nat.lt_or_ge n 10 with h | h
      · rw [decimal_of_lt h]
        simp [decimalValue, (digitByte_spec n h).2]
      · rw [decimal_of_ge h, decimalValue_append, ih (n / 10) (by omega)]
        simp only [decimalValue, List.foldl_cons, List.foldl_nil,
          (digitByte_spec _ (Nat.mod_lt n (by decide : 10 > 0))).2]
        omega

/-- Only the number zero prints a leading zero, and then nothing follows. -/
theorem decimal_leading (n : Nat) {rest : Bytes}
    (h : decimal n = 0x30 :: rest) : rest = [] := by
  induction n using Nat.strongRecOn generalizing rest with
  | ind n ih =>
      rcases Nat.lt_or_ge n 10 with hn | hn
      · rw [decimal_of_lt hn] at h
        exact (List.cons.inj h).2.symm
      · rw [decimal_of_ge hn] at h
        cases hd : decimal (n / 10) with
        | nil => exact absurd hd (decimal_ne_nil _)
        | cons x xs =>
            rw [hd, List.cons_append] at h
            obtain ⟨rfl, rfl⟩ := List.cons.inj h
            -- a two-digit number with a zero in front would denote zero
            have hxs : xs = [] := ih (n / 10) (by omega) hd
            have hval := decimalValue_decimal (n / 10)
            rw [hd, hxs] at hval
            simp [decimalValue, digitOf] at hval
            omega

private theorem digitByte_digitOf {b : UInt8} (h : isDigit b = true) :
    digitOf b < 10 ∧ digitByte (digitOf b) = b := by
  have hrange : 0x30 ≤ b.toNat ∧ b.toNat ≤ 0x39 := by
    simp only [isDigit, Bool.and_eq_true, decide_eq_true_eq, UInt8.le_iff_toNat_le] at h
    exact h
  have hbyte : ∀ d, d < 10 → digitByte d = UInt8.ofNat (d + 0x30) := by decide
  have hd : digitOf b < 10 := by unfold digitOf; omega
  refine ⟨hd, ?_⟩
  rw [hbyte _ hd, digitOf, Nat.sub_add_cancel hrange.1, UInt8.ofNat_toNat]

/-- Digits without a leading zero are the text of the number they denote. -/
theorem decimal_decimalValue {ds : Bytes} (hne : ds ≠ []) (hdigits : ds.all isDigit = true)
    (hzero : ds.head? ≠ some 0x30) :
    1 ≤ decimalValue 0 ds ∧ decimal (decimalValue 0 ds) = ds := by
  induction ds using List.reverseRecOn with
  | nil => exact absurd rfl hne
  | append_singleton ds b ih =>
      simp only [List.all_append, Bool.and_eq_true, List.all_cons, List.all_nil, and_true]
        at hdigits
      obtain ⟨hlt, hbyte⟩ := digitByte_digitOf hdigits.2
      have hvalue : decimalValue 0 (ds ++ [b]) = decimalValue 0 ds * 10 + digitOf b := by
        rw [decimalValue_append]
        rfl
      rw [hvalue]
      cases ds with
      | nil =>
          have hb : digitOf b ≠ 0 := by
            intro h0
            rw [h0] at hbyte
            exact hzero (by rw [← hbyte]; rfl)
          simp only [decimalValue, List.foldl_nil, Nat.zero_mul, Nat.zero_add, List.nil_append]
          exact ⟨by omega, by rw [decimal_of_lt hlt, hbyte]⟩
      | cons d ds =>
          obtain ⟨hpos, hfront⟩ := ih (by simp) hdigits.1 (by simpa using hzero)
          refine ⟨by omega, ?_⟩
          have hdiv : (decimalValue 0 (d :: ds) * 10 + digitOf b) / 10 =
              decimalValue 0 (d :: ds) := by omega
          have hmod : (decimalValue 0 (d :: ds) * 10 + digitOf b) % 10 = digitOf b := by omega
          rw [decimal_of_ge (by omega), hdiv, hmod, hfront, hbyte]

theorem length_decimal_le {n k : Nat} (hk : 0 < k) (h : n < 10 ^ k) :
    (decimal n).length ≤ k := by
  simpa [decimal] using (Nat.length_toDigits_le_iff (by decide) hk).mpr h

end EdgeGuard.Base.CText
