import EdgeGuard.Base.Json

/-!
# A reader of generated JSON

`JsonParser` is an interface with a law; this module shows that the law can be
met, by a recursive-descent reader of the generator's own output.  It knows the
two escapes that written strings contain and reads no floating point and no
arrays, which written trees do not contain either.  `fuel` bounds the number of
nested calls; the length of the text is always enough.

## Main results

* `readValue_generate` — reading undoes generation in front of any rest that
  does not continue a number.
* `referenceParser` — the resulting instance of the interface.
-/

namespace EdgeGuard.Base.JsonReader

open EdgeGuard.Base.CText EdgeGuard.Base.Json

/-- The rest of a string, after its opening quote. -/
def readString : Bytes → Option (Bytes × Bytes)
  | [] => none
  | b :: rest =>
      if b == 0x22 then some ([], rest)
      else if b == 0x5c then
        match rest with
        | [] => none
        | c :: rest =>
            if c == 0x22 || c == 0x5c then
              (readString rest).map fun (s, rest) => (c :: s, rest)
            else none
      else (readString rest).map fun (s, rest) => (b :: s, rest)

/-- `name:` of a member, up to and including the colon. -/
def readName : Bytes → Option (Bytes × Bytes)
  | [] => none
  | b :: rest =>
      if b == 0x22 then
        match readString rest with
        | some (name, c :: rest) => if c == 0x3a then some (name, rest) else none
        | _ => none
      else none

/-- A literal in front of the text. -/
def readLiteral (literal text : Bytes) : Option Bytes :=
  if literal.isPrefixOf text then some (text.drop literal.length) else none

mutual

def readValue : Nat → Bytes → Option (Value × Bytes)
  | 0, _ => none
  | _ + 1, [] => none
  | fuel + 1, b :: rest =>
      if b == 0x22 then (readString rest).map fun (s, rest) => (.str s, rest)
      else if b == 0x7b then readObject fuel rest
      else if isDigit b then
        some (.int (decimalValue 0 ((b :: rest).takeWhile isDigit)),
          (b :: rest).dropWhile isDigit)
      else if b == 0x74 then
        (readLiteral (ascii "true") (b :: rest)).map fun rest => (.bool true, rest)
      else if b == 0x66 then
        (readLiteral (ascii "false") (b :: rest)).map fun rest => (.bool false, rest)
      else (readLiteral (ascii "null") (b :: rest)).map fun rest => (.null, rest)

/-- An object, after its opening brace. -/
def readObject : Nat → Bytes → Option (Value × Bytes)
  | 0, _ => none
  | _ + 1, [] => none
  | fuel + 1, b :: rest =>
      if b == 0x7d then some (.obj .nil, rest)
      else
        match readName (b :: rest) with
        | none => none
        | some (name, rest) =>
            match readValue fuel rest with
            | none => none
            | some (value, rest) =>
                (readMembers fuel rest).map fun (ms, rest) =>
                  (.obj (.cons name value ms), rest)

/-- The members after the first, and the closing brace. -/
def readMembers : Nat → Bytes → Option (Members × Bytes)
  | 0, _ => none
  | _ + 1, [] => none
  | fuel + 1, b :: rest =>
      if b == 0x7d then some (.nil, rest)
      else if b == 0x2c then
        match readName rest with
        | none => none
        | some (name, rest) =>
            match readValue fuel rest with
            | none => none
            | some (value, rest) =>
                (readMembers fuel rest).map fun (ms, rest) =>
                  (.cons name value ms, rest)
      else none

end

/-- The reader applied to a whole buffer. -/
def readBack (text : Bytes) : Option Value :=
  match readValue (text.length + 1) text with
  | some (v, []) => some v
  | _ => none

/-! ## Reading undoes generation -/

/-- A text is read as it was escaped. -/
theorem readString_escape {s : Bytes} (h : Written s) (rest : Bytes) :
    readString (escape s ++ 0x22 :: rest) = some (s, rest) := by
  induction h with
  | nil =>
      rw [escape_nil, List.nil_append, readString.eq_def]
      simp
  | @plain b s hb _ ih =>
      obtain ⟨h1, h2⟩ := beq_of_plain hb
      rw [escape_plain_cons hb, List.cons_append, readString.eq_def]
      simp [h1, h2, ih]
  | quote _ ih => simp [readString, ih]
  | backslash _ ih => simp [readString, ih]

theorem readName_quote {k : Bytes} (h : Written k) (rest : Bytes) :
    readName (quote k ++ 0x3a :: rest) = some (k, rest) := by
  simp [quote, readName, readString_escape h]

/-- The text does not go on with a digit. -/
def noDigit (rest : Bytes) : Prop := ∀ b ∈ rest.head?, isDigit b = false

private theorem takeWhile_decimal (n : Nat) {rest : Bytes} (h : noDigit rest) :
    (decimal n ++ rest).takeWhile isDigit = decimal n ∧
      (decimal n ++ rest).dropWhile isDigit = rest := by
  have hd := isDigit_of_mem_decimal n
  have hstop : rest.takeWhile isDigit = [] ∧ rest.dropWhile isDigit = rest := by
    cases rest with
    | nil => simp
    | cons b rest => simp [h b (by simp)]
  rw [List.takeWhile_append_of_pos hd, List.dropWhile_append_of_pos hd]
  simp [hstop]

private theorem noDigit_generateMembers (ms : Members) (rest : Bytes) :
    noDigit (generateMembers ms ++ rest) := by
  cases ms <;> simp [noDigit, generateMembers, isDigit]

/-- An integer is read as it was printed. -/
private theorem readValue_int {n : Int} (hn : 0 ≤ n) (fuel : Nat) {rest : Bytes}
    (hrest : noDigit rest) :
    readValue (fuel + 1) (generate (.int n) ++ rest) = some (.int n, rest) := by
  rw [generate, intText_of_nonneg hn]
  obtain ⟨htake, hdrop⟩ := takeWhile_decimal n.toNat hrest
  have hmem := isDigit_of_mem_decimal n.toNat
  have hval := decimalValue_decimal n.toNat
  cases hd : decimal n.toNat with
  | nil => exact absurd hd (decimal_ne_nil _)
  | cons b ds =>
      rw [hd] at htake hdrop hmem hval
      have hb := hmem b (by simp)
      have h1 : (b == 0x22) = false := by
        rw [beq_eq_false_iff_ne]; rintro rfl; simp [isDigit] at hb
      have h2 : (b == 0x7b) = false := by
        rw [beq_eq_false_iff_ne]; rintro rfl; simp [isDigit] at hb
      rw [List.cons_append] at htake hdrop ⊢
      simp only [readValue, h1, h2, hb, htake, hdrop, hval, if_true,
        Bool.false_eq_true, if_false, Int.toNat_of_nonneg hn]

/-- What one call of `readValue` makes of an opening byte. -/
private theorem readValue_brace (fuel : Nat) (rest : Bytes) :
    readValue (fuel + 1) (0x7b :: rest) = readObject fuel rest := by
  simp [readValue]

mutual

/-- Every value is read as it was generated, with enough fuel. -/
theorem readValue_generate : ∀ (v : Value) (fuel : Nat) (rest : Bytes),
    Writable v → noDigit rest → (generate v).length < fuel →
      readValue fuel (generate v ++ rest) = some (v, rest)
  | .null, fuel + 1, rest, _, _, _ => by
      simp [generate, ascii, readValue, readLiteral, isDigit]
  | .bool true, fuel + 1, rest, _, _, _ => by
      simp [generate, ascii, readValue, readLiteral, isDigit]
  | .bool false, fuel + 1, rest, _, _, _ => by
      simp [generate, ascii, readValue, readLiteral, isDigit]
  | .int n, fuel + 1, rest, h, hrest, _ => readValue_int h fuel hrest
  | .str s, fuel + 1, rest, h, _, _ => by
      simp [generate, quote, readValue, readString_escape (TextOk.written h)]
  | .obj .nil, fuel + 1, rest, _, _, hf => by
      obtain ⟨fuel, rfl⟩ : ∃ n, fuel = n + 1 := ⟨fuel - 1, by
        simp [generate] at hf; omega⟩
      simp [generate, readValue, readObject]
  | .obj (.cons k v ms), fuel + 1, rest, ⟨hk, _, hv, hms⟩, hrest, hf => by
      simp only [generate, List.length_cons, List.length_append] at hf
      obtain ⟨fuel, rfl⟩ : ∃ n, fuel = n + 1 := ⟨fuel - 1, by omega⟩
      have hname := readName_quote hk.written
        (generate v ++ (generateMembers ms ++ rest))
      have hvalue := readValue_generate v fuel (generateMembers ms ++ rest) hv
        (noDigit_generateMembers ms rest) (by omega)
      have htail := readMembers_generate ms fuel rest hms (by omega)
      simp only [generate, List.cons_append, List.append_assoc]
      rw [readValue_brace]
      simp only [quote, List.cons_append, List.append_assoc, List.nil_append] at hname ⊢
      rw [readObject]
      simp [hname, hvalue, htail]

/-- Members are read as they were generated. -/
theorem readMembers_generate : ∀ (ms : Members) (fuel : Nat) (rest : Bytes),
    WritableMembers ms → (generateMembers ms).length < fuel →
      readMembers fuel (generateMembers ms ++ rest) = some (ms, rest)
  | .nil, fuel + 1, rest, _, _ => by simp [generateMembers, readMembers]
  | .cons k v ms, fuel + 1, rest, ⟨hk, _, hv, hms⟩, hf => by
      simp only [generateMembers, List.length_cons, List.length_append] at hf
      have hname := readName_quote hk.written
        (generate v ++ (generateMembers ms ++ rest))
      have hvalue := readValue_generate v fuel (generateMembers ms ++ rest) hv
        (noDigit_generateMembers ms rest) (by omega)
      have htail := readMembers_generate ms fuel rest hms (by omega)
      simp only [generateMembers, List.cons_append, List.append_assoc]
      rw [readMembers]
      simp [hname, hvalue, htail]

end

theorem readBack_generate {v : Value} (h : Writable v) :
    readBack (generate v) = some v := by
  have := readValue_generate v ((generate v).length + 1) [] h (by simp [noDigit])
    (by omega)
  rw [List.append_nil] at this
  simp [readBack, this]

/-- The reader obeys the parser's law. -/
def referenceParser : JsonParser where
  load := readBack
  load_generate _ h _ := readBack_generate h

end EdgeGuard.Base.JsonReader
