import EdgeGuard.Base.CText

/-!
# Lines and fields by the C library

`fgets` cuts a text into the pieces that its buffer can hold, and `sscanf` takes
numbers and words from the front of a string.

## Main results

* `fgetsLines_flatten` — lines that fit into the buffer come out whole.
* `skipUnsigned_decimal`, `scanWord_word` — what is taken of a text that was written
  field by field.
-/

namespace EdgeGuard.Base.Scan

open EdgeGuard.Base.CText

/-- `isspace` in the C locale. -/
def isspace (b : UInt8) : Bool := isSpace b || b == 0x0b

/-- The string at the front of a buffer. -/
def cString (buffer : Bytes) : Bytes := buffer.takeWhile (· != 0)

theorem cString_of_noNul {s : Bytes} (h : (0 : UInt8) ∉ s) : cString s = s := by
  refine List.takeWhile_eq_self_iff.mpr fun b hb => ?_
  rw [bne_iff_ne]
  rintro rfl
  exact h hb

/-! ## Lines -/

/-- What `fgets` leaves in the buffer, call after call, where it has taken `line` of a
piece: a piece ends behind a newline, or where the buffer is full. -/
def fgetsFrom (size : Nat) (line : Bytes) : Bytes → List Bytes
  | [] => if line.isEmpty then [] else [line]
  | b :: rest =>
      if b = 0x0a ∨ line.length + 2 = size then (line ++ [b]) :: fgetsFrom size [] rest
      else fgetsFrom size (line ++ [b]) rest

def fgetsLines (size : Nat) (text : Bytes) : List Bytes := fgetsFrom size [] text

/-- A line within the buffer is read up to its end. -/
theorem fgetsFrom_line (size : Nat) (taken : Bytes) {line : Bytes} (rest : Bytes)
    (hnewline : (0x0a : UInt8) ∉ line) (hfit : taken.length + line.length + 2 ≤ size) :
    fgetsFrom size taken (line ++ 0x0a :: rest) =
      (taken ++ line ++ [0x0a]) :: fgetsLines size rest := by
  induction line generalizing taken with
  | nil => simp [fgetsFrom, fgetsLines]
  | cons b line ih =>
      obtain ⟨hb, hline⟩ := List.ne_and_not_mem_of_not_mem_cons hnewline
      rw [List.length_cons] at hfit
      have hroom : ¬ (b = 0x0a ∨ taken.length + 2 = size) := by
        rintro (rfl | hfull)
        · exact hb rfl
        · omega
      rw [List.cons_append, fgetsFrom, if_neg hroom, ih _ hline]
      · simp
      · rw [List.length_append, List.length_singleton]
        omega

/-- A line with its newline, for a buffer of `size` bytes. -/
structure Line (size : Nat) (line : Bytes) : Prop where
  newline : (0x0a : UInt8) ∉ line
  fits : line.length + 2 ≤ size

theorem fgetsLines_flatten {size : Nat} {lines : List Bytes} (h : ∀ line ∈ lines, Line size line) :
    fgetsLines size (lines.map (· ++ [0x0a])).flatten = lines.map (· ++ [0x0a]) := by
  induction lines with
  | nil => rfl
  | cons line lines ih =>
      obtain ⟨hline, hlines⟩ := List.forall_mem_cons.mp h
      rw [List.map_cons, List.flatten_cons, List.append_assoc, List.singleton_append, fgetsLines,
        fgetsFrom_line size [] _ hline.newline (by simpa using hline.fits), ih hlines]
      rfl

/-! ## Fields -/

theorem takeWhile_exact {p : UInt8 → Bool} {body rest : Bytes} (hbody : ∀ b ∈ body, p b = true)
    (hends : ∀ b, rest.head? = some b → p b = false) :
    (body ++ rest).takeWhile p = body ∧ (body ++ rest).dropWhile p = rest := by
  rw [List.takeWhile_append_of_pos hbody, List.dropWhile_append_of_pos hbody]
  cases rest with
  | nil => simp
  | cons b rest => simp [hends b rfl]

/-- `%*u`: what is left of the string. -/
def skipUnsigned (s : Bytes) : Option Bytes :=
  let s := s.dropWhile isspace
  let s := if s.head? = some 0x2b ∨ s.head? = some 0x2d then s.tail else s
  if (s.takeWhile isDigit).isEmpty then none else some (s.dropWhile isDigit)

/-- `%<width>s`: the word, and what is left of the string. -/
def scanWord (width : Nat) (s : Bytes) : Option (Bytes × Bytes) :=
  let s := s.dropWhile isspace
  let word := (s.takeWhile (!isspace ·)).take width
  if word.isEmpty then none else some (word, s.drop word.length)

theorem dropWhile_blank {s : Bytes} (h : ∀ b, s.head? = some b → isspace b = false) :
    (0x20 :: s).dropWhile isspace = s ∧ s.dropWhile isspace = s := by
  have hs : s.dropWhile isspace = s := by
    cases s with
    | nil => rfl
    | cons b s => simp [h b rfl]
  exact ⟨(List.dropWhile_cons_of_pos (by decide)).trans hs, hs⟩

theorem isspace_of_isDigit {b : UInt8} (h : isDigit b = true) :
    isspace b = false ∧ b ≠ 0x2b ∧ b ≠ 0x2d := by
  have hrange : 0x30 ≤ b.toNat ∧ b.toNat ≤ 0x39 := by
    simpa [isDigit, UInt8.le_iff_toNat_le] using h
  have hne : ∀ c : UInt8, c.toNat < 0x30 → b ≠ c := by
    rintro c hc rfl
    omega
  refine ⟨?_, hne _ (by decide), hne _ (by decide)⟩
  simp [isspace, isSpace, hne 0x20 (by decide), hne 0x09 (by decide), hne 0x0a (by decide),
    hne 0x0c (by decide), hne 0x0d (by decide), hne 0x0b (by decide)]

/-- A number in front of a blank, with or without a blank before it. -/
theorem skipUnsigned_decimal (n : Nat) (rest : Bytes) :
    skipUnsigned (decimal n ++ 0x20 :: rest) = some (0x20 :: rest) ∧
      skipUnsigned (0x20 :: (decimal n ++ 0x20 :: rest)) = some (0x20 :: rest) := by
  have hdigits := isDigit_of_mem_decimal n
  obtain ⟨htake, hdrop⟩ := @takeWhile_exact isDigit _ (0x20 :: rest) hdigits (by simp; decide)
  have hhead : ∀ b, (decimal n ++ 0x20 :: rest).head? = some b → isDigit b = true := by
    intro b hb
    cases hn : decimal n with
    | nil => exact absurd hn (decimal_ne_nil n)
    | cons d ds =>
        rw [hn] at hb hdigits
        obtain rfl : d = b := Option.some.inj hb
        exact hdigits d List.mem_cons_self
  obtain ⟨hblank, hnone⟩ := dropWhile_blank fun b hb => (isspace_of_isDigit (hhead b hb)).1
  have hsign : ¬ ((decimal n ++ 0x20 :: rest).head? = some 0x2b ∨
      (decimal n ++ 0x20 :: rest).head? = some 0x2d) := by
    rintro (h | h)
    · exact (isspace_of_isDigit (hhead _ h)).2.1 rfl
    · exact (isspace_of_isDigit (hhead _ h)).2.2 rfl
  have hne : (decimal n).isEmpty = false := by simpa using decimal_ne_nil n
  simp only [skipUnsigned, hblank, hnone, if_neg hsign, htake, hdrop, hne, Bool.false_eq_true,
    if_false, and_self]

/-- A word of at most `width` bytes. -/
structure Field (width : Nat) (word : Bytes) : Prop where
  nonempty : word ≠ []
  solid : ∀ b ∈ word, isspace b = false
  fits : word.length ≤ width

/-- A word of the field is read with the white space in front. -/
theorem scanWord_word {width : Nat} {word : Bytes} (h : Field width word) {rest : Bytes}
    (hends : ∀ b, rest.head? = some b → isspace b = true) :
    scanWord width (0x20 :: (word ++ rest)) = some (word, rest) := by
  have hhead : ∀ b, (word ++ rest).head? = some b → isspace b = false := by
    intro b hb
    cases hw : word with
    | nil => exact absurd hw h.nonempty
    | cons c cs =>
        rw [hw] at hb
        cases hb
        exact h.solid b (by rw [hw]; exact List.mem_cons_self)
  obtain ⟨htake, -⟩ := @takeWhile_exact (!isspace ·) word rest
    (fun b hb => by simp [h.solid b hb]) (fun b hb => by simp [hends b hb])
  have hne : word.isEmpty = false := by simpa using h.nonempty
  simp only [scanWord, (dropWhile_blank hhead).1, htake, List.take_of_length_le h.fits, hne,
    Bool.false_eq_true, if_false, List.drop_left]

end EdgeGuard.Base.Scan
