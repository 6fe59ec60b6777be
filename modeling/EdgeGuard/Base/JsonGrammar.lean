import EdgeGuard.Base.CText

/-!
# The concrete syntax of JSON

The grammar of RFC 8259 as syntax trees that keep every byte: white space,
spelling of numbers, and escapes.  A text belongs to the grammar when it is the
`text` of a tree.  The bytes of a string that are not escaped are described one by
one, which is enough for a text that is known to be UTF-8.

## Main results

* `Node.text` — the text of a tree.
* `decode` — what a string stands for.
-/

namespace EdgeGuard.Base.JsonGrammar

open EdgeGuard.Base.CText

/-! ## Tokens -/

def isWs (b : UInt8) : Bool := b == 0x20 || b == 0x09 || b == 0x0a || b == 0x0d

abbrev Space := { s : Bytes // ∀ b ∈ s, isWs b = true }

def Space.none : Space := ⟨[], by simp⟩

def Space.append (s t : Space) : Space := ⟨s.1 ++ t.1, by
  intro b hb
  rcases List.mem_append.mp hb with hb | hb
  · exact s.2 b hb
  · exact t.2 b hb⟩

/-- One digit or more. -/
abbrev Digits := { ds : Bytes // ds ≠ [] ∧ ∀ b ∈ ds, isDigit b = true }

def words : List Bytes := [ascii "true", ascii "false", ascii "null"]

/-- What begins an exponent. -/
def marks : List Bytes :=
  [ascii "e", ascii "E", ascii "e+", ascii "E+", ascii "e-", ascii "E-"]

structure Number where
  minus : Bool
  whole : Digits
  /-- No leading zero. -/
  canonical : whole.1.head? = some 0x30 → whole.1 = [0x30]
  fraction : Option Digits
  exponent : Option ({ mark : Bytes // mark ∈ marks } × Digits)

def fractionText : Option Digits → Bytes
  | none => []
  | some ds => 0x2e :: ds.1

def exponentText : Option ({ mark : Bytes // mark ∈ marks } × Digits) → Bytes
  | none => []
  | some e => e.1.1 ++ e.2.1

def Number.text (n : Number) : Bytes :=
  (if n.minus then [0x2d] else []) ++ n.whole.1 ++ fractionText n.fraction ++
    exponentText n.exponent

/-! ## Strings -/

/-- A byte that may stand for itself in a string. -/
def isUnescaped (b : UInt8) : Bool := 0x20 ≤ b && b != 0x22 && b != 0x5c

/-- The value of a hexadecimal digit. -/
def xdigitValue (b : UInt8) : Nat :=
  if isDigit b then digitOf b
  else if 0x61 ≤ b then b.toNat - 0x57
  else b.toNat - 0x37

def hexValue (hex : Bytes) : Nat := hex.foldl (fun u b => u * 16 + xdigitValue b) 0

abbrev Hex := { hex : Bytes // hex.length = 4 ∧ ∀ b ∈ hex, isXDigit b = true }

/-- The escapes of one character, each with what it stands for. -/
def escapes : List (UInt8 × UInt8) :=
  [(0x22, 0x22), (0x5c, 0x5c), (0x2f, 0x2f), (0x62, 0x08), (0x66, 0x0c), (0x6e, 0x0a),
    (0x72, 0x0d), (0x74, 0x09)]

inductive Piece
  | plain (b : UInt8) (ok : isUnescaped b = true)
  | escape (e : UInt8 × UInt8) (ok : e ∈ escapes)
  | unicode (hex : Hex)

def Piece.text : Piece → Bytes
  | .plain b _ => [b]
  | .escape e _ => [0x5c, e.1]
  | .unicode hex => 0x5c :: 0x75 :: hex.1

def stringText (ps : List Piece) : Bytes := 0x22 :: (ps.flatMap Piece.text ++ [0x22])

def isHigh (u : Nat) : Bool := 0xd800 ≤ u && u ≤ 0xdbff

def isLow (u : Nat) : Bool := 0xdc00 ≤ u && u ≤ 0xdfff

/-- The character that a pair of surrogates stands for. -/
def combine (high low : Nat) : Nat := 0x10000 + (high - 0xd800) * 1024 + (low - 0xdc00)

/-- A character in UTF-8. -/
def encode (u : Nat) : Bytes := String.utf8EncodeChar (Char.ofNat u)

/-- What a string stands for; `none` where a surrogate escape has no partner. -/
def decode : List Piece → Option Bytes
  | [] => some []
  | .plain b _ :: rest => (decode rest).map (b :: ·)
  | .escape e _ :: rest => (decode rest).map (e.2 :: ·)
  | .unicode hex :: rest =>
      if isHigh (hexValue hex.1) then
        match rest with
        | .unicode low :: rest =>
            if isLow (hexValue low.1) then
              (decode rest).map (encode (combine (hexValue hex.1) (hexValue low.1)) ++ ·)
            else none
        | _ => none
      else if isLow (hexValue hex.1) then none
      else (decode rest).map (encode (hexValue hex.1) ++ ·)

theorem decode_pair {first second : Hex} (high : isHigh (hexValue first.1) = true)
    (low : isLow (hexValue second.1) = true) (rest : List Piece) :
    decode (.unicode first :: .unicode second :: rest) =
      (decode rest).map (encode (combine (hexValue first.1) (hexValue second.1)) ++ ·) := by
  rw [decode, if_pos high, if_pos low]

theorem decode_single {hex : Hex} (high : isHigh (hexValue hex.1) = false)
    (low : isLow (hexValue hex.1) = false) (rest : List Piece) :
    decode (.unicode hex :: rest) = (decode rest).map (encode (hexValue hex.1) ++ ·) := by
  rw [decode.eq_def]
  simp only
  rw [if_neg (by simp [high]), if_neg (by simp [low])]

theorem combine_pos (high low : Nat) : 0 < combine high low := by
  unfold combine
  omega

def Piece.isZero : Piece → Bool
  | .unicode hex => hexValue hex.1 == 0
  | _ => false

/-- The string has an escape of U+0000. -/
def hasZero (ps : List Piece) : Bool := ps.any Piece.isZero

/-! ## Values -/

/-- A name, the white space around it and the colon. -/
structure Name where
  before : Space
  key : List Piece
  gap : Space

def Name.text (n : Name) : Bytes := n.before.1 ++ (stringText n.key ++ (n.gap.1 ++ [0x3a]))

mutual

inductive Node
  | word (w : Bytes) (ok : w ∈ words)
  | number (n : Number)
  | string (ps : List Piece)
  | emptyArray (space : Space)
  | array (elements : Elements)
  | emptyObject (space : Space)
  | object (members : Members)

/-- The elements of an array, with the white space before and after each. -/
inductive Elements
  | last (before : Space) (value : Node) (after : Space)
  | cons (before : Space) (value : Node) (after : Space) (rest : Elements)

inductive Members
  | last (name : Name) (before : Space) (value : Node) (after : Space)
  | cons (name : Name) (before : Space) (value : Node) (after : Space) (rest : Members)

end

mutual

def Node.text : Node → Bytes
  | .word w _ => w
  | .number n => n.text
  | .string ps => stringText ps
  | .emptyArray space => 0x5b :: (space.1 ++ [0x5d])
  | .array elements => 0x5b :: (elements.text ++ [0x5d])
  | .emptyObject space => 0x7b :: (space.1 ++ [0x7d])
  | .object members => 0x7b :: (members.text ++ [0x7d])

def Elements.text : Elements → Bytes
  | .last before value after => before.1 ++ (value.text ++ after.1)
  | .cons before value after rest =>
      before.1 ++ (value.text ++ (after.1 ++ 0x2c :: rest.text))

def Members.text : Members → Bytes
  | .last name before value after => name.text ++ (before.1 ++ (value.text ++ after.1))
  | .cons name before value after rest =>
      name.text ++ (before.1 ++ (value.text ++ (after.1 ++ 0x2c :: rest.text)))

end

def Node.isObject : Node → Bool
  | .emptyObject _ => true
  | .object _ => true
  | _ => false

mutual

/-- How deep arrays and objects are nested. -/
def Node.depth : Node → Nat
  | .array elements => elements.depth + 1
  | .object members => members.depth + 1
  | .emptyArray _ => 1
  | .emptyObject _ => 1
  | .word _ _ => 0
  | .number _ => 0
  | .string _ => 0

def Elements.depth : Elements → Nat
  | .last _ value _ => value.depth
  | .cons _ value _ rest => max value.depth rest.depth

def Members.depth : Members → Nat
  | .last _ _ value _ => value.depth
  | .cons _ _ value _ rest => max value.depth rest.depth

end

/-- The names of an object. -/
def Members.keys : Members → List (List Piece)
  | .last name _ _ _ => [name.key]
  | .cons name _ _ _ rest => name.key :: rest.keys

/-- The members of an object. -/
def Members.fields : Members → List (List Piece × Node)
  | .last name _ value _ => [(name.key, value)]
  | .cons name _ value _ rest => (name.key, value) :: rest.fields

mutual

/-- All strings of a tree, names among them. -/
def Node.strings : Node → List (List Piece)
  | .string ps => [ps]
  | .array elements => elements.strings
  | .object members => members.strings
  | .word _ _ => []
  | .number _ => []
  | .emptyArray _ => []
  | .emptyObject _ => []

def Elements.strings : Elements → List (List Piece)
  | .last _ value _ => value.strings
  | .cons _ value _ rest => value.strings ++ rest.strings

def Members.strings : Members → List (List Piece)
  | .last name _ value _ => name.key :: value.strings
  | .cons name _ value _ rest => name.key :: (value.strings ++ rest.strings)

end

mutual

/-- All objects of a tree that have members. -/
def Node.objects : Node → List Members
  | .object members => members :: members.objects
  | .array elements => elements.objects
  | .word _ _ => []
  | .number _ => []
  | .string _ => []
  | .emptyArray _ => []
  | .emptyObject _ => []

def Elements.objects : Elements → List Members
  | .last _ value _ => value.objects
  | .cons _ value _ rest => value.objects ++ rest.objects

def Members.objects : Members → List Members
  | .last _ _ value _ => value.objects
  | .cons _ _ value _ rest => value.objects ++ rest.objects

end

end EdgeGuard.Base.JsonGrammar
