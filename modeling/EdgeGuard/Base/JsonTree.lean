import EdgeGuard.Base.Json
import EdgeGuard.Base.JsonGrammar

/-!
# Generated text as a text of the grammar

The compact text of a written value is the text of a syntax tree without white
space.  The tree has the shape of the value, so what is said about the strings and
the objects of the tree can be read off the value.

## Main results

* `text_nodeOf` — the tree has the generated text.
* `decode_piecesOf`, `hasZero_piecesOf` — its strings stand for those of the value,
  without an escape of U+0000.
* `strings_nodeOf`, `objects_nodeOf` — every string and every object of the tree is
  one of a written value.
-/

namespace EdgeGuard.Base.JsonTree

open EdgeGuard.Base.CText EdgeGuard.Base.Utf8 EdgeGuard.Base.Json
open EdgeGuard.Base.JsonGrammar (Piece Number Space Node Name Elements isUnescaped escapes decode
  hasZero stringText words)

/-! ## Strings -/

/-- The piece of a byte; control bytes, which no written text holds, have none of
their own. -/
def pieceOf (b : UInt8) : Piece :=
  if plain : isUnescaped b = true then .plain b plain
  else if b = 0x22 then .escape (0x22, 0x22) (by decide)
  else .escape (0x5c, 0x5c) (by decide)

def piecesOf (s : Bytes) : List Piece := s.map pieceOf

theorem pieceOf_plain {b : UInt8} (h : isPlain b = true) :
    ∃ ok, pieceOf b = .plain b ok := by
  have hunescaped : isUnescaped b = true := by
    simp only [isPlain, isControl, Bool.and_eq_true, bne_iff_ne, ne_eq, Bool.not_eq_true',
      Bool.or_eq_false_iff, decide_eq_false_iff_not, UInt8.not_lt] at h
    simp only [isUnescaped, Bool.and_eq_true, decide_eq_true_eq, bne_iff_ne, ne_eq]
    exact ⟨⟨h.2.1, h.1.1⟩, h.1.2⟩
  exact ⟨hunescaped, by rw [pieceOf, dif_pos hunescaped]⟩

theorem pieceOf_quote : pieceOf 0x22 = .escape (0x22, 0x22) (by decide) := rfl

theorem pieceOf_backslash : pieceOf 0x5c = .escape (0x5c, 0x5c) (by decide) := rfl

/-- The pieces of a text spell its escape. -/
theorem text_piecesOf {s : Bytes} (h : Written s) :
    (piecesOf s).flatMap Piece.text = escape s := by
  induction h with
  | nil => rfl
  | @plain b s hb _ ih =>
      obtain ⟨ok, hpiece⟩ := pieceOf_plain hb
      rw [escape_plain_cons hb, ← ih, piecesOf, List.map_cons, hpiece]
      rfl
  | quote _ ih =>
      rw [escape_quote_cons, ← ih, piecesOf, List.map_cons, pieceOf_quote]
      rfl
  | backslash _ ih =>
      rw [escape_backslash_cons, ← ih, piecesOf, List.map_cons, pieceOf_backslash]
      rfl

theorem stringText_piecesOf {s : Bytes} (h : Written s) :
    stringText (piecesOf s) = quote s := by
  rw [stringText, text_piecesOf h]
  rfl

/-- The pieces of a text decode to it. -/
theorem decode_piecesOf {s : Bytes} (h : Written s) : decode (piecesOf s) = some s := by
  induction h with
  | nil => rfl
  | @plain b s hb _ ih =>
      obtain ⟨ok, hpiece⟩ := pieceOf_plain hb
      rw [piecesOf, List.map_cons, hpiece, decode, ← piecesOf, ih]
      rfl
  | quote _ ih =>
      rw [piecesOf, List.map_cons, pieceOf_quote, decode, ← piecesOf, ih]
      rfl
  | backslash _ ih =>
      rw [piecesOf, List.map_cons, pieceOf_backslash, decode, ← piecesOf, ih]
      rfl

theorem hasZero_piecesOf (s : Bytes) : hasZero (piecesOf s) = false := by
  unfold hasZero piecesOf
  rw [List.any_map, List.any_eq_false]
  intro b _
  show ¬ (pieceOf b).isZero = true
  unfold pieceOf
  split
  · simp [Piece.isZero]
  · split <;> simp [Piece.isZero]

/-! ## Numbers -/

theorem decimal_canonical {n : Nat} (h : (decimal n).head? = some 0x30) :
    decimal n = [0x30] := by
  cases hdigits : decimal n with
  | nil => exact absurd hdigits (decimal_ne_nil n)
  | cons b rest =>
      rw [hdigits, List.head?_cons, Option.some.injEq] at h
      rw [h] at hdigits ⊢
      rw [decimal_leading n hdigits]

def numberOf (n : Nat) : Number where
  minus := false
  whole := ⟨decimal n, decimal_ne_nil n, isDigit_of_mem_decimal n⟩
  canonical := decimal_canonical
  fraction := none
  exponent := none

theorem text_numberOf (n : Nat) : (numberOf n).text = decimal n := by
  simp [Number.text, numberOf, JsonGrammar.fractionText, JsonGrammar.exponentText]

/-! ## Values -/

/-- The name of a member in the compact form. -/
def nameOf (k : Bytes) : Name := ⟨Space.none, piecesOf k, Space.none⟩

mutual

/-- The tree of a written value: neither arrays nor floating point are written. -/
def nodeOf : Value → Node
  | .null => .word (ascii "null") (by decide)
  | .bool true => .word (ascii "true") (by decide)
  | .bool false => .word (ascii "false") (by decide)
  | .int n => .number (numberOf n.toNat)
  | .double _ => .emptyArray Space.none
  | .str s => .string (piecesOf s)
  | .arr _ => .emptyArray Space.none
  | .obj .nil => .emptyObject Space.none
  | .obj (.cons k v rest) => .object (membersOf k (nodeOf v) rest)

/-- The members of an object that has one. -/
def membersOf (k : Bytes) (node : Node) : Members → JsonGrammar.Members
  | .nil => .last (nameOf k) Space.none node Space.none
  | .cons k' v' rest =>
      .cons (nameOf k) Space.none node Space.none (membersOf k' (nodeOf v') rest)

end

theorem nameOf_text {k : Bytes} (h : TextOk k) : (nameOf k).text = quote k ++ [0x3a] := by
  show [] ++ (stringText (piecesOf k) ++ ([] ++ [0x3a])) = _
  rw [stringText_piecesOf h.written]
  rfl

mutual

/-- The tree has the generated text. -/
theorem text_nodeOf : ∀ v : Value, Writable v → (nodeOf v).text = generate v
  | .null, _ => rfl
  | .bool true, _ => rfl
  | .bool false, _ => rfl
  | .int n, h => by
      rw [nodeOf, Node.text, text_numberOf, generate, intText_of_nonneg h]
  | .str s, h => by
      rw [nodeOf, Node.text, generate, stringText_piecesOf (TextOk.written h)]
  | .obj .nil, _ => rfl
  | .obj (.cons k v rest), ⟨hk, _, hv, hrest⟩ => by
      rw [nodeOf, Node.text, text_membersOf k rest hk hrest (text_nodeOf v hv), generate]

/-- The tree of members spells what is generated of them. -/
theorem text_membersOf (k : Bytes) {v : Value} {node : Node} : ∀ rest : Members, TextOk k →
    WritableMembers rest → node.text = generate v →
    (membersOf k node rest).text ++ [0x7d] =
      quote k ++ 0x3a :: (generate v ++ generateMembers rest)
  | .nil, hk, _, hnode => by
      rw [membersOf, JsonGrammar.Members.text, nameOf_text hk, hnode, generateMembers]
      simp [Space.none]
  | .cons k' v' rest, hk, ⟨hk', _, hv', hrest⟩, hnode => by
      have htail := text_membersOf k' rest hk' hrest (text_nodeOf v' hv')
      rw [membersOf, JsonGrammar.Members.text, nameOf_text hk, hnode, generateMembers, ← htail]
      simp [Space.none]

end

mutual

/-- Every string of the tree is that of a written text. -/
theorem strings_nodeOf : ∀ v : Value, Writable v → ∀ ps ∈ (nodeOf v).strings,
    ∃ s, TextOk s ∧ ps = piecesOf s
  | .null, _, ps, hps => by simp [nodeOf, Node.strings] at hps
  | .bool true, _, ps, hps => by simp [nodeOf, Node.strings] at hps
  | .bool false, _, ps, hps => by simp [nodeOf, Node.strings] at hps
  | .int n, _, ps, hps => by simp [nodeOf, Node.strings] at hps
  | .str s, h, ps, hps => by
      rw [nodeOf, Node.strings, List.mem_singleton] at hps
      exact ⟨s, h, hps⟩
  | .obj .nil, _, ps, hps => by simp [nodeOf, Node.strings] at hps
  | .obj (.cons k v rest), ⟨hk, _, hv, hrest⟩, ps, hps => by
      rw [nodeOf, Node.strings] at hps
      exact strings_membersOf k rest hk hrest (strings_nodeOf v hv) ps hps

/-- The strings of the tree are the texts that were written. -/
theorem strings_membersOf (k : Bytes) {node : Node} : ∀ rest : Members, TextOk k →
    WritableMembers rest → (∀ ps ∈ node.strings, ∃ s, TextOk s ∧ ps = piecesOf s) →
    ∀ ps ∈ (membersOf k node rest).strings, ∃ s, TextOk s ∧ ps = piecesOf s
  | .nil, hk, _, hnode, ps, hps => by
      rw [membersOf, JsonGrammar.Members.strings] at hps
      rcases List.mem_cons.mp hps with rfl | hps
      · exact ⟨k, hk, rfl⟩
      · exact hnode ps hps
  | .cons k' v' rest, hk, ⟨hk', _, hv', hrest⟩, hnode, ps, hps => by
      rw [membersOf, JsonGrammar.Members.strings] at hps
      rcases List.mem_cons.mp hps with rfl | hps
      · exact ⟨k, hk, rfl⟩
      · rcases List.mem_append.mp hps with hps | hps
        · exact hnode ps hps
        · exact strings_membersOf k' rest hk' hrest (strings_nodeOf v' hv') ps hps

end

theorem keys_membersOf (k : Bytes) (node : Node) (rest : Members) :
    (membersOf k node rest).keys = (k :: rest.names).map piecesOf := by
  induction rest using Members.names.induct generalizing k node with
  | case1 => rfl
  | case2 k' v' rest ih =>
      rw [membersOf, JsonGrammar.Members.keys, ih]
      rfl

/-- The names of a tree of written members. -/
def WrittenKeys (o : JsonGrammar.Members) : Prop :=
  ∃ names : List Bytes, o.keys = names.map piecesOf ∧ names.Nodup ∧ ∀ k ∈ names, TextOk k

/-- The names of members that can be written are distinct texts. -/
theorem names_of_writable (ms : Members) (h : WritableMembers ms) :
    ms.names.Nodup ∧ ∀ k ∈ ms.names, TextOk k := by
  cases ms with
  | nil => simp [Members.names]
  | cons k v rest =>
      obtain ⟨hk, hnew, -, hrest⟩ := h
      obtain ⟨hnodup, hall⟩ := names_of_writable rest hrest
      refine ⟨List.nodup_cons.mpr ⟨hnew, hnodup⟩, ?_⟩
      intro name hname
      rcases List.mem_cons.mp hname with rfl | hname
      · exact hk
      · exact hall name hname

theorem writtenKeys_membersOf {k : Bytes} {v : Value} {rest : Members}
    (h : WritableMembers (.cons k v rest)) (node : Node) :
    WrittenKeys (membersOf k node rest) :=
  ⟨k :: rest.names, keys_membersOf k node rest, names_of_writable (.cons k v rest) h⟩

mutual

/-- The names of every object of the tree are those of written members. -/
theorem objects_nodeOf : ∀ v : Value, Writable v → ∀ o ∈ (nodeOf v).objects, WrittenKeys o
  | .null, _, o, ho => by simp [nodeOf, Node.objects] at ho
  | .bool true, _, o, ho => by simp [nodeOf, Node.objects] at ho
  | .bool false, _, o, ho => by simp [nodeOf, Node.objects] at ho
  | .int n, _, o, ho => by simp [nodeOf, Node.objects] at ho
  | .str s, _, o, ho => by simp [nodeOf, Node.objects] at ho
  | .obj .nil, _, o, ho => by simp [nodeOf, Node.objects] at ho
  | .obj (.cons k v rest), h, o, ho => by
      rw [nodeOf, Node.objects] at ho
      rcases List.mem_cons.mp ho with rfl | ho
      · exact writtenKeys_membersOf h (nodeOf v)
      · exact objects_membersOf k rest h.2.2.2 (objects_nodeOf v h.2.2.1) o ho

/-- In every object of the tree the names are distinct. -/
theorem objects_membersOf (k : Bytes) {node : Node} : ∀ rest : Members,
    WritableMembers rest → (∀ o ∈ node.objects, WrittenKeys o) →
    ∀ o ∈ (membersOf k node rest).objects, WrittenKeys o
  | .nil, _, hnode, o, ho => by
      rw [membersOf, JsonGrammar.Members.objects] at ho
      exact hnode o ho
  | .cons k' v' rest, ⟨_, _, hv', hrest⟩, hnode, o, ho => by
      rw [membersOf, JsonGrammar.Members.objects] at ho
      rcases List.mem_append.mp ho with ho | ho
      · exact hnode o ho
      · exact objects_membersOf k' rest hrest (objects_nodeOf v' hv') o ho

end

/-! ## Objects of simple values -/

def isScalar : Value → Bool
  | .arr _ => false
  | .obj _ => false
  | _ => true

/-- The members of an object as a list. -/
def entries : Members → List (Bytes × Value)
  | .nil => []
  | .cons k v rest => (k, v) :: entries rest

theorem entries_members (l : List (Bytes × Value)) : entries (members l) = l := by
  induction l with
  | nil => rfl
  | cons p l ih => rw [members_cons, entries, ih]

theorem fields_membersOf (k : Bytes) (v : Value) (rest : Members) :
    (membersOf k (nodeOf v) rest).fields =
      (entries (.cons k v rest)).map fun e => (piecesOf e.1, nodeOf e.2) := by
  induction rest using Members.names.induct generalizing k v with
  | case1 => rfl
  | case2 k' v' rest ih =>
      rw [membersOf, JsonGrammar.Members.fields, ih]
      rfl

theorem depth_scalar {v : Value} (h : isScalar v = true) (hv : Writable v) :
    (nodeOf v).depth = 0 := by
  cases v with
  | null => rfl
  | bool b => cases b <;> rfl
  | int n => rfl
  | double token => cases hv
  | str s => rfl
  | arr items => cases h
  | obj ms => cases h

/-- An object of simple values has one level. -/
theorem depth_membersOf (k : Bytes) {node : Node} (hnode : node.depth = 0) :
    ∀ rest : Members, WritableMembers rest → (∀ e ∈ entries rest, isScalar e.2 = true) →
      (membersOf k node rest).depth = 0
  | .nil, _, _ => hnode
  | .cons k' v' rest, ⟨_, _, hv', hrest⟩, h => by
      have hhead := depth_scalar (h (k', v') List.mem_cons_self) hv'
      have htail := depth_membersOf k' hhead rest hrest fun e he => h e (List.mem_cons_of_mem _ he)
      rw [membersOf, JsonGrammar.Members.depth, hnode, htail, Nat.max_self]

end EdgeGuard.Base.JsonTree
