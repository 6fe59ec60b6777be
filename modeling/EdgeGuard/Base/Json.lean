import EdgeGuard.Base.Utf8

/-!
# JSON trees, their compact text, and a parser that undoes it

The programs write JSON with JSON-GLib's generator in its default, compact
form and read it back with JSON-GLib's parser.  The library is not part of the
sources, so the parser is an interface here: `JsonParser` is any function from
bytes to trees together with the one law that clients use, that parsing undoes
generation.  The generator is written out, because the clients search its raw
bytes: `escape` is the standard escaping of `"` and `\` (and of control bytes,
which no client writes).

A parsed tree keeps the members of an object in the order in which the parser
announced them, repeated names included, since the clients count repetitions.

## Main results

* `occursIn_generate` — a pattern that starts with a backslash occurs in the
  generated text exactly when it occurs in one of the strings of the tree.
* `valid_generate` — generated text is UTF-8.
* `duplicate_of_writable` — a tree that a client writes repeats no name.

`EdgeGuard.Base.JsonReader` shows a concrete parser that obeys the law.
-/

namespace EdgeGuard.Base.Json

open EdgeGuard.Base.CText EdgeGuard.Base.Utf8

mutual

/-- A parsed JSON value.  A `double` keeps its token: no client looks inside. -/
inductive Value
  | null
  | bool (b : Bool)
  | int (n : Int)
  | double (token : Bytes)
  | str (s : Bytes)
  | arr (items : Items)
  | obj (members : Members)

/-- The elements of an array. -/
inductive Items
  | nil
  | cons (value : Value) (rest : Items)

/-- The members of an object, in the order of their announcement. -/
inductive Members
  | nil
  | cons (name : Bytes) (value : Value) (rest : Members)

end

/-! ## Objects -/

/-- Number of members: `json_object_get_size` when no name is repeated. -/
def Members.size : Members → Nat
  | .nil => 0
  | .cons _ _ rest => rest.size + 1

/-- The names of the members, repetitions included. -/
def Members.names : Members → List Bytes
  | .nil => []
  | .cons name _ rest => name :: rest.names

/-- `json_object_get_member`. -/
def Members.find (name : Bytes) : Members → Option Value
  | .nil => none
  | .cons k v rest => if k == name then some v else rest.find name

/-- The object literal with the given members. -/
def members : List (Bytes × Value) → Members
  | [] => .nil
  | (k, v) :: rest => .cons k v (members rest)

@[simp] theorem members_nil : members [] = .nil := rfl

@[simp] theorem members_cons (k : Bytes) (v : Value) (rest : List (Bytes × Value)) :
    members ((k, v) :: rest) = .cons k v (members rest) := rfl

mutual

/-- Some object of the value announces one name twice. -/
def Value.duplicate : Value → Bool
  | .arr items => items.duplicate
  | .obj ms => ms.duplicate
  | _ => false

def Items.duplicate : Items → Bool
  | .nil => false
  | .cons v rest => v.duplicate || rest.duplicate

def Members.duplicate : Members → Bool
  | .nil => false
  | .cons k v rest => rest.names.contains k || v.duplicate || rest.duplicate

end

/-! ## Text -/

/-- The escaped form of one byte of a string.  Control bytes, which the
clients never write, take the generic `\u00xx` form. -/
def escapeByte (b : UInt8) : Bytes :=
  if b == 0x22 || b == 0x5c then [0x5c, b]
  else if isControl b then
    [0x5c, 0x75, 0x30, 0x30, (Nat.digitChar (b.toNat / 16)).toNat.toUInt8,
      (Nat.digitChar (b.toNat % 16)).toNat.toUInt8]
  else [b]

def escape (s : Bytes) : Bytes := s.flatMap escapeByte

/-- A quoted string. -/
def quote (s : Bytes) : Bytes := 0x22 :: (escape s ++ [0x22])

/-- The token of an integer. -/
def intText (n : Int) : Bytes :=
  if n < 0 then 0x2d :: decimal n.natAbs else decimal n.natAbs

mutual

/-- `json_generator_to_data` in the default compact form. -/
def generate : Value → Bytes
  | .null => ascii "null"
  | .bool true => ascii "true"
  | .bool false => ascii "false"
  | .int n => intText n
  | .double token => token
  | .str s => quote s
  | .arr .nil => [0x5b, 0x5d]
  | .arr (.cons v rest) => 0x5b :: (generate v ++ generateItems rest)
  | .obj .nil => [0x7b, 0x7d]
  | .obj (.cons k v rest) =>
      0x7b :: (quote k ++ 0x3a :: (generate v ++ generateMembers rest))

/-- The elements after the first, each behind its comma, and the bracket. -/
def generateItems : Items → Bytes
  | .nil => [0x5d]
  | .cons v rest => 0x2c :: (generate v ++ generateItems rest)

/-- The members after the first, each behind its comma, and the brace. -/
def generateMembers : Members → Bytes
  | .nil => [0x7d]
  | .cons k v rest =>
      0x2c :: (quote k ++ 0x3a :: (generate v ++ generateMembers rest))

end

/-! ## Trees the clients write

The law of the parser is asked of `Writable` trees that are `InRange`: UTF-8
strings without control bytes, nonnegative integers of 64 bits with sign, objects
without repeated names, and neither arrays nor floating point.
-/

/-- `G_MAXINT64`. -/
def gint64Max : Int := 2 ^ 63 - 1

/-- A string that may stand in a written tree. -/
structure TextOk (s : Bytes) : Prop where
  utf8 : valid s = true
  plain : controlFree s = true

/-- Printable ASCII is a text. -/
theorem textOk_of_printable {s : Bytes} (h : ∀ b ∈ s, 0x20 ≤ b ∧ b ≤ 0x7e) : TextOk s := by
  constructor
  · refine valid_of_ascii fun b hb => ?_
    have := h b hb
    constructor
    · grind
    · grind
  · refine List.all_eq_true.mpr fun b hb => ?_
    have := h b hb
    unfold isControl
    grind

/-- A name of letters, digits and underscores, as enumerations are written. -/
def isWord (s : Bytes) : Bool := s.all fun b => isAlnum b || b == 0x5f

private theorem bounds_of_word {s : Bytes} (h : isWord s = true) {b : UInt8} (hb : b ∈ s) :
    0x20 ≤ b ∧ b ≤ 0x7e ∧ b ≠ 0x5c := by
  have hword := List.all_eq_true.mp h b hb
  simp only [isAlnum, isDigit, Bool.or_eq_true, Bool.and_eq_true, decide_eq_true_eq,
    beq_iff_eq] at hword
  grind

theorem textOk_of_word {s : Bytes} (h : isWord s = true) : TextOk s :=
  textOk_of_printable fun _ hb => ⟨(bounds_of_word h hb).1, (bounds_of_word h hb).2.1⟩

theorem backslash_not_mem_of_word {s : Bytes} (h : isWord s = true) : (0x5c : UInt8) ∉ s :=
  fun hb => (bounds_of_word h hb).2.2 rfl

mutual

def Writable : Value → Prop
  | .null => True
  | .bool _ => True
  | .int n => 0 ≤ n
  | .double _ => False
  | .str s => TextOk s
  | .arr _ => False
  | .obj ms => WritableMembers ms

def WritableMembers : Members → Prop
  | .nil => True
  | .cons k v rest =>
      TextOk k ∧ k ∉ rest.names ∧ Writable v ∧ WritableMembers rest

end

mutual

/-- The integers of the value are `gint64`s. -/
def InRange : Value → Prop
  | .int n => n ≤ gint64Max
  | .obj ms => InRangeMembers ms
  | _ => True

def InRangeMembers : Members → Prop
  | .nil => True
  | .cons _ v rest => InRange v ∧ InRangeMembers rest

end

/-- Members in range, one by one. -/
theorem inRange_members {l : List (Bytes × Value)} (h : ∀ e ∈ l, InRange e.2) :
    InRangeMembers (members l) := by
  induction l with
  | nil => trivial
  | cons e l ih =>
      obtain ⟨k, v⟩ := e
      exact ⟨h (k, v) List.mem_cons_self, ih fun e he => h e (List.mem_cons_of_mem _ he)⟩

mutual

/-- The pattern occurs in a string or a member name of the value. -/
def mentions (needle : Bytes) : Value → Bool
  | .str s => occursIn needle s
  | .obj ms => mentionsMembers needle ms
  | _ => false

def mentionsMembers (needle : Bytes) : Members → Bool
  | .nil => false
  | .cons k v rest =>
      occursIn needle k || mentions needle v || mentionsMembers needle rest

end

/-! ## Escaping -/

@[simp] theorem escape_nil : escape [] = [] := rfl

theorem escape_cons (b : UInt8) (s : Bytes) :
    escape (b :: s) = escapeByte b ++ escape s := rfl

@[simp] theorem escape_append (s t : Bytes) :
    escape (s ++ t) = escape s ++ escape t := by
  simp [escape]

/-- A byte that needs no escape. -/
def isPlain (b : UInt8) : Bool := b != 0x22 && b != 0x5c && !isControl b

theorem escapeByte_plain {b : UInt8} (h : isPlain b = true) : escapeByte b = [b] := by
  simp only [isPlain, Bool.and_eq_true, bne_iff_ne, Bool.not_eq_true'] at h
  simp [escapeByte, h.1.1, h.1.2, h.2]

/-- Without control bytes a byte is plain or one of the two escaped ones. -/
theorem plain_or_escaped {b : UInt8} (h : isControl b = false) :
    isPlain b = true ∨ (b = 0x22 ∨ b = 0x5c) := by
  by_cases hq : b = 0x22
  · exact .inr (.inl hq)
  · by_cases hs : b = 0x5c
    · exact .inr (.inr hs)
    · exact .inl (by simp [isPlain, hq, hs, h])

/-- The strings of written trees, byte by byte: the induction that escaping
follows. -/
inductive Written : Bytes → Prop
  | nil : Written []
  | plain {b : UInt8} {s : Bytes} : isPlain b = true → Written s → Written (b :: s)
  | quote {s : Bytes} : Written s → Written (0x22 :: s)
  | backslash {s : Bytes} : Written s → Written (0x5c :: s)

theorem written_of_controlFree {s : Bytes} (h : controlFree s = true) : Written s := by
  induction s with
  | nil => exact .nil
  | cons b s ih =>
      simp only [controlFree_cons, Bool.and_eq_true, Bool.not_eq_true'] at h
      have hs := ih h.2
      rcases plain_or_escaped h.1 with hb | rfl | rfl
      · exact .plain hb hs
      · exact .quote hs
      · exact .backslash hs

theorem escape_plain_cons {b : UInt8} (h : isPlain b = true) (s : Bytes) :
    escape (b :: s) = b :: escape s := by
  rw [escape_cons, escapeByte_plain h]
  rfl

@[simp] theorem escape_quote_cons (s : Bytes) :
    escape (0x22 :: s) = 0x5c :: 0x22 :: escape s := rfl

@[simp] theorem escape_backslash_cons (s : Bytes) :
    escape (0x5c :: s) = 0x5c :: 0x5c :: escape s := rfl

/-- Escaping at most doubles the length. -/
theorem length_escape_le {s : Bytes} (h : Written s) :
    (escape s).length ≤ 2 * s.length := by
  induction h with
  | nil => simp
  | plain hb _ ih =>
      rw [escape_plain_cons hb, List.length_cons, List.length_cons]
      omega
  | quote _ ih =>
      simp only [escape_quote_cons, List.length_cons]
      omega
  | backslash _ ih =>
      simp only [escape_backslash_cons, List.length_cons]
      omega

/-- Whatever the text, no byte takes more than six. -/
theorem length_escape_le_six (s : Bytes) : (escape s).length ≤ 6 * s.length := by
  induction s with
  | nil => simp
  | cons b s ih =>
      have hb : (escapeByte b).length ≤ 6 := by
        unfold escapeByte
        split
        · simp
        · split <;> simp
      rw [escape_cons, List.length_append, List.length_cons]
      omega

/-- A plain byte is neither the quote nor the backslash. -/
theorem beq_of_plain {b : UInt8} (h : isPlain b = true) :
    (b == 0x22) = false ∧ (b == 0x5c) = false := by
  simp only [isPlain, Bool.and_eq_true, bne_iff_ne] at h
  simp [h.1.1, h.1.2]

/-- A run of plain bytes is a prefix of the escaped text exactly when it is one
of the text. -/
private theorem isPrefixOf_escape {t : Bytes} (ht : ∀ b ∈ t, isPlain b = true)
    {s : Bytes} (h : Written s) :
    t.isPrefixOf (escape s) = t.isPrefixOf s := by
  induction h generalizing t with
  | nil => rfl
  | plain hb _ ih =>
      cases t with
      | nil => simp
      | cons c t =>
          rw [escape_plain_cons hb, List.isPrefixOf_cons_cons,
            List.isPrefixOf_cons_cons, ih fun x hx => ht x (by simp [hx])]
  | quote _ ih =>
      cases t with
      | nil => simp
      | cons c t =>
          obtain ⟨h1, h2⟩ := beq_of_plain (ht c (by simp))
          simp [List.isPrefixOf_cons_cons, h1, h2]
  | backslash _ ih =>
      cases t with
      | nil => simp
      | cons c t =>
          obtain ⟨-, h2⟩ := beq_of_plain (ht c (by simp))
          simp [List.isPrefixOf_cons_cons, h2]

/-- A pattern made of a backslash and plain bytes, such as the spelling of an
escape sequence.  Its first plain byte cannot follow the backslash that opens
an escape, so an occurrence in escaped text is always one in the text. -/
structure EscapePattern (needle : Bytes) : Prop where
  shape : ∃ c t, needle = 0x5c :: c :: t ∧ ∀ b ∈ c :: t, isPlain b = true

/-- A pattern occurs in the escaped text where it occurs in the text. -/
theorem occursIn_escape {needle : Bytes} (hn : EscapePattern needle) {s : Bytes}
    (h : Written s) : occursIn needle (escape s) = occursIn needle s := by
  obtain ⟨c, t, rfl, ht⟩ := hn.shape
  obtain ⟨h1, h2⟩ := beq_of_plain (ht c (by simp))
  induction h with
  | nil => rfl
  | @plain b s hb _ ih =>
      have hb2 : ((0x5c : UInt8) == b) = false := by
        rw [Bool.beq_comm]
        exact (beq_of_plain hb).2
      rw [escape_plain_cons hb]
      simp [occursIn, List.isPrefixOf_cons_cons, hb2, ih]
  | quote _ ih =>
      simp [occursIn, List.isPrefixOf_cons_cons, h1, ih]
  | backslash hs ih =>
      have hp := isPrefixOf_escape ht hs
      simp [occursIn, List.isPrefixOf_cons_cons, ih, h2, hp]

/-! ## Searching the generated text -/

theorem occursIn_append_of_not_mem {x : UInt8} (needle : Bytes) {a : Bytes} (hx : x ∉ a)
    (b : Bytes) : occursIn (x :: needle) (a ++ b) = occursIn (x :: needle) b := by
  induction a with
  | nil => rfl
  | cons y a ih =>
      have hy : x ≠ y := fun h => hx (by simp [h])
      have ha : x ∉ a := fun h => hx (by simp [h])
      simp [occursIn, List.isPrefixOf_cons_cons, hy, ih ha]

theorem TextOk.written {s : Bytes} (h : TextOk s) : Written s :=
  written_of_controlFree h.plain

/-- A pattern occurs in the quoted text where it occurs in the text or behind it. -/
theorem occursIn_quote {needle : Bytes} (hn : EscapePattern needle) {s : Bytes}
    (h : Written s) (rest : Bytes) :
    occursIn needle (quote s ++ rest) =
      (occursIn needle s || occursIn needle rest) := by
  have he := occursIn_escape hn h
  obtain ⟨c, t, rfl, ht⟩ := hn.shape
  have hq : (0x22 : UInt8) ∉ 0x5c :: c :: t := by
    intro hmem
    rcases List.mem_cons.mp hmem with hmem | hmem
    · exact absurd hmem (by decide)
    · exact absurd (ht _ hmem) (by decide)
  have hsplit := occursIn_append_cons (by simp) hq (escape s) rest
  have hopen := occursIn_append_of_not_mem (x := 0x5c) (c :: t)
    (a := [0x22]) (by decide) (escape s ++ 0x22 :: rest)
  simp only [quote, List.cons_append, List.append_assoc, List.nil_append] at *
  rw [hopen, hsplit, he]

private theorem backslash_not_mem_decimal (n : Nat) : (0x5c : UInt8) ∉ decimal n := by
  intro h
  exact absurd (isDigit_of_mem_decimal n _ h) (by decide)

theorem intText_of_nonneg {n : Int} (h : 0 ≤ n) : intText n = decimal n.toNat := by
  have : n.natAbs = n.toNat := by omega
  simp [intText, Int.not_lt.mpr h, this]

/-- One member with the punctuation in front of it. -/
private theorem occursIn_member {needle : Bytes} (hn : EscapePattern needle)
    {k : Bytes} (hk : TextOk k) {a : UInt8} (ha : (0x5c : UInt8) ∉ [a])
    {value tail rest : Bytes} {inValue inTail : Bool}
    (hv : occursIn needle (value ++ (tail ++ rest)) =
      (inValue || occursIn needle (tail ++ rest)))
    (ht : occursIn needle (tail ++ rest) = (inTail || occursIn needle rest)) :
    occursIn needle (a :: (quote k ++ 0x3a :: (value ++ tail)) ++ rest) =
      (occursIn needle k || inValue || inTail || occursIn needle rest) := by
  have hq := occursIn_quote hn hk.written (0x3a :: (value ++ (tail ++ rest)))
  obtain ⟨c, t, rfl, -⟩ := hn.shape
  have hcolon := occursIn_append_of_not_mem (x := 0x5c) (c :: t)
    (a := [0x3a]) (by decide) (value ++ (tail ++ rest))
  have hopen := occursIn_append_of_not_mem (c :: t) ha
    (quote k ++ 0x3a :: (value ++ (tail ++ rest)))
  simp only [List.cons_append, List.append_assoc, List.nil_append] at *
  rw [hopen, hq, hcolon, hv, ht]
  simp only [Bool.or_assoc]

mutual

/-- A search for an escape spelling sees only the strings of the tree. -/
theorem occursIn_generate_append {needle : Bytes} (hn : EscapePattern needle) :
    ∀ (v : Value) (rest : Bytes), Writable v →
      occursIn needle (generate v ++ rest) =
        (mentions needle v || occursIn needle rest)
  | .null, rest, _ => by
      obtain ⟨c, t, rfl, -⟩ := hn.shape
      exact occursIn_append_of_not_mem _ (by decide) rest
  | .bool true, rest, _ => by
      obtain ⟨c, t, rfl, -⟩ := hn.shape
      exact occursIn_append_of_not_mem _ (by decide) rest
  | .bool false, rest, _ => by
      obtain ⟨c, t, rfl, -⟩ := hn.shape
      exact occursIn_append_of_not_mem _ (by decide) rest
  | .int n, rest, h => by
      obtain ⟨c, t, rfl, -⟩ := hn.shape
      rw [generate, intText_of_nonneg h]
      exact occursIn_append_of_not_mem _ (backslash_not_mem_decimal _) rest
  | .str s, rest, h => by
      rw [generate, mentions]
      exact occursIn_quote hn (TextOk.written h) rest
  | .obj .nil, rest, _ => by
      obtain ⟨c, t, rfl, -⟩ := hn.shape
      exact occursIn_append_of_not_mem _ (by decide) rest
  | .obj (.cons k v ms), rest, h => by
      obtain ⟨hk, -, hv, hms⟩ := h
      exact occursIn_member hn hk (a := 0x7b) (by decide)
        (occursIn_generate_append hn v _ hv)
        (occursIn_generateMembers_append hn ms rest hms)

theorem occursIn_generateMembers_append {needle : Bytes} (hn : EscapePattern needle) :
    ∀ (ms : Members) (rest : Bytes), WritableMembers ms →
      occursIn needle (generateMembers ms ++ rest) =
        (mentionsMembers needle ms || occursIn needle rest)
  | .nil, rest, _ => by
      obtain ⟨c, t, rfl, -⟩ := hn.shape
      exact occursIn_append_of_not_mem _ (by decide) rest
  | .cons k v ms, rest, h => by
      obtain ⟨hk, -, hv, hms⟩ := h
      exact occursIn_member hn hk (a := 0x2c) (by decide)
        (occursIn_generate_append hn v _ hv)
        (occursIn_generateMembers_append hn ms rest hms)

end

theorem occursIn_generate {needle : Bytes} (hn : EscapePattern needle) {v : Value}
    (h : Writable v) : occursIn needle (generate v) = mentions needle v := by
  have := occursIn_generate_append hn v [] h
  obtain ⟨c, t, rfl, -⟩ := hn.shape
  simpa [occursIn] using this

/-! ## Encoding of the generated text -/

private theorem escapeByte_high {b : UInt8} (h : 0x80 ≤ b) : escapeByte b = [b] := by
  apply escapeByte_plain
  have h1 : b ≠ 0x22 := by grind
  have h2 : b ≠ 0x5c := by grind
  have h3 : ¬ b < 0x20 := by grind
  have h4 : b ≠ 0x7f := by grind
  simp [isPlain, isControl, h1, h2, h3, h4]

/-- Escaping keeps UTF-8 valid. -/
private theorem validFrom_escape {owed : Nat} {lo hi : UInt8} (ho : Owed owed lo)
    {s : Bytes} (h : validFrom owed lo hi s = true) (hc : controlFree s = true) :
    validFrom owed lo hi (escape s) = true := by
  induction s generalizing owed lo hi with
  | nil => exact h
  | cons b s ih =>
      simp only [controlFree_cons, Bool.and_eq_true, Bool.not_eq_true'] at hc
      rcases validFrom_cons ho h with ⟨rfl, hz, hb, hs⟩ | ⟨hb, owed', lo', hi', ho', hs, ht⟩
      · -- an ASCII byte, between two characters: both of its forms are ASCII
        have hrest : valid (escape s) = true := ih (.inl rfl) hs hc.2
        rw [validFrom_zero]
        rcases plain_or_escaped hc.1 with hp | rfl | rfl
        · rw [escape_plain_cons hp, valid_cons_ascii hz hb]
          exact hrest
        · rw [escape_quote_cons, valid_cons_ascii (by decide) (by decide),
            valid_cons_ascii (by decide) (by decide)]
          exact hrest
        · rw [escape_backslash_cons, valid_cons_ascii (by decide) (by decide),
            valid_cons_ascii (by decide) (by decide)]
          exact hrest
      · rw [escape_cons, escapeByte_high hb, List.singleton_append, ht]
        exact ih ho' hs hc.2

theorem valid_escape {s : Bytes} (h : TextOk s) : valid (escape s) = true :=
  validFrom_escape (.inl rfl) h.utf8 h.plain

theorem valid_quote {s : Bytes} (h : TextOk s) (rest : Bytes) :
    valid (quote s ++ rest) = valid rest := by
  simp only [quote, List.cons_append, List.append_assoc, List.nil_append]
  rw [valid_cons_ascii (by decide) (by decide), valid_append (valid_escape h),
    valid_cons_ascii (by decide) (by decide)]

private theorem valid_decimal (n : Nat) : valid (decimal n) = true := by
  apply valid_of_ascii
  intro b hb
  have hd := isDigit_of_mem_decimal n b hb
  unfold isDigit at hd
  grind

mutual

/-- What is generated is valid UTF-8, also in front of more. -/
theorem valid_generate_append : ∀ (v : Value) (rest : Bytes), Writable v →
    valid (generate v ++ rest) = valid rest
  | .null, rest, _ => valid_append (by decide) rest
  | .bool true, rest, _ => valid_append (by decide) rest
  | .bool false, rest, _ => valid_append (by decide) rest
  | .int n, rest, h => by
      rw [generate, intText_of_nonneg h]
      exact valid_append (valid_decimal _) rest
  | .str s, rest, h => valid_quote h rest
  | .obj .nil, rest, _ => valid_append (by decide) rest
  | .obj (.cons k v ms), rest, ⟨hk, _, hv, hms⟩ => by
      simp only [generate, List.cons_append, List.append_assoc]
      rw [valid_cons_ascii (by decide) (by decide), valid_quote hk,
        valid_cons_ascii (by decide) (by decide), valid_generate_append v _ hv,
        valid_generateMembers_append ms rest hms]

theorem valid_generateMembers_append : ∀ (ms : Members) (rest : Bytes),
    WritableMembers ms → valid (generateMembers ms ++ rest) = valid rest
  | .nil, rest, _ => valid_append (by decide) rest
  | .cons k v ms, rest, ⟨hk, _, hv, hms⟩ => by
      simp only [generateMembers, List.cons_append, List.append_assoc]
      rw [valid_cons_ascii (by decide) (by decide), valid_quote hk,
        valid_cons_ascii (by decide) (by decide), valid_generate_append v _ hv,
        valid_generateMembers_append ms rest hms]

end

/-- Generated text is UTF-8. -/
theorem valid_generate {v : Value} (h : Writable v) : valid (generate v) = true := by
  have happend := valid_generate_append v [] h
  rw [List.append_nil] at happend
  rw [happend]
  rfl

mutual

/-- A written tree repeats no name. -/
theorem duplicate_of_writable : ∀ v : Value, Writable v → v.duplicate = false
  | .null, _ => rfl
  | .bool _, _ => rfl
  | .int _, _ => rfl
  | .str _, _ => rfl
  | .obj ms, h => duplicate_of_writableMembers ms h

theorem duplicate_of_writableMembers : ∀ ms : Members, WritableMembers ms →
    ms.duplicate = false
  | .nil, _ => rfl
  | .cons k v ms, ⟨_, hk, hv, hms⟩ => by
      simp [Members.duplicate, hk, duplicate_of_writable v hv,
        duplicate_of_writableMembers ms hms]

end

/-! ## Parsing -/

/-- A JSON parser, known only by the law that it undoes generation. -/
structure JsonParser where
  load : Bytes → Option Value
  load_generate : ∀ ms : Members, WritableMembers ms → InRangeMembers ms →
    load (generate (.obj ms)) = some (.obj ms)

end EdgeGuard.Base.Json
