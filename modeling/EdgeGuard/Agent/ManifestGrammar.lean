import EdgeGuard.Agent.ManifestTokens

/-!
# The manifests that pass the lexical guard

The values of a manifest held to the grammar of RFC 8259.  What the guard takes is a
tree of the grammar that meets the conditions on nesting, names, escapes and the members
of the root, and every such tree is taken.

## Main results

* `sound_run` — what the guard takes.
* `node_taken` — what it has to take.
* `clean_run` — it reads nothing past the end, and its recursion ends.
* `lexical_guard` — the guard and `Accepted` agree on every text.
-/

namespace EdgeGuard.Agent.ManifestGrammar

open EdgeGuard.Base.CText EdgeGuard.Base.Utf8 EdgeGuard.Base.JsonGrammar
open EdgeGuard.Agent.Model EdgeGuard.Agent.ManifestLexer EdgeGuard.Agent.ManifestTokens

/-! ## Conditions on a tree -/

/-- The names of an object stand for different texts, and none holds U+0000. -/
structure Distinct (o : Members) : Prop where
  nodup : (o.keys.map decode).Nodup
  nonzero : ∀ key ∈ o.keys, hasZero key = false

/-- Conditions on the strings and on the objects of a tree. -/
structure Strict (strings : List (List Piece)) (objects : List Members) : Prop where
  /-- No surrogate is without its partner. -/
  paired : ∀ ps ∈ strings, decode ps ≠ none
  distinct : ∀ o ∈ objects, Distinct o

/-- Conditions on the value of a member of the root; elements and members further down
have no `rootKey`. -/
def MemberOk (rootKey : Option Bytes) : Node → Prop
  | .string ps => ∀ key ∈ rootKey, key ∈ knownStrings → hasZero ps = false
  | .number n => IntegerMember rootKey n
  | _ => True

def FieldsOk (fields : List (List Piece × Node)) : Prop :=
  ∀ field ∈ fields, MemberOk (decode field.1) field.2

def RootOk : Node → Prop
  | .object members => FieldsOk members.fields
  | _ => True

/-- The text is that of one object, with white space around it. -/
structure Admissible (data : Bytes) (root : Node) : Prop where
  object : root.isObject = true
  text : ∃ before after : Space, data = before.1 ++ (root.text ++ after.1)
  nested : root.depth ≤ 64
  strict : Strict root.strings root.objects
  members : RootOk root

/-- The texts that `load_json` is to hand to the parser of JSON-GLib. -/
structure Accepted (data : Bytes) : Prop where
  nonempty : 1 ≤ data.length
  short : data.length ≤ manifestMaxBytes
  terminated : 0 ∉ data
  utf8 : valid data = true
  root : ∃ root, Admissible data root

theorem strict_nil : Strict [] [] := ⟨by simp, by simp⟩

/-- Two lists are strict together when each of them is. -/
theorem strict_append {strings strings' : List (List Piece)} {objects objects' : List Members} :
    Strict (strings ++ strings') (objects ++ objects') ↔
      Strict strings objects ∧ Strict strings' objects' := by
  constructor
  · intro h
    constructor
    · exact ⟨fun ps hps => h.paired ps (List.mem_append_left _ hps),
        fun o ho => h.distinct o (List.mem_append_left _ ho)⟩
    · exact ⟨fun ps hps => h.paired ps (List.mem_append_right _ hps),
        fun o ho => h.distinct o (List.mem_append_right _ ho)⟩
  · rintro ⟨h, h'⟩
    constructor
    · intro ps hps
      rcases List.mem_append.mp hps with hps | hps
      · exact h.paired ps hps
      · exact h'.paired ps hps
    · intro o ho
      rcases List.mem_append.mp ho with ho | ho
      · exact h.distinct o ho
      · exact h'.distinct o ho

/-! ## The context of a value -/

/-- The conditions on a value that stands `depth` levels deep. -/
structure Takes (depth : Nat) (rootKey : Option Bytes) (node : Node) : Prop where
  nested : depth + node.depth ≤ 64
  strict : Strict node.strings node.objects
  member : MemberOk rootKey node
  root : depth = 0 → RootOk node

/-- The conditions on the elements of an array. -/
structure ElementsOk (depth : Nat) (elements : Elements) : Prop where
  nested : depth + elements.depth ≤ 64
  strict : Strict elements.strings elements.objects

/-- The conditions on the members behind those whose names are `keys`. -/
structure MembersOk (depth : Nat) (keys : List Bytes) (members : Members) : Prop where
  nested : depth + members.depth ≤ 64
  strict : Strict members.strings members.objects
  distinct : Distinct members
  fresh : ∀ key ∈ members.keys, ∀ name ∈ decode key, name ∉ keys
  root : depth = 1 → FieldsOk members.fields

/-! ## The conditions by the kind of tree -/

theorem memberOk_none (node : Node) : MemberOk none node := by
  cases node with
  | string ps => simp [MemberOk]
  | number n => simp [MemberOk, IntegerMember]
  | word w ok => trivial
  | emptyArray space => trivial
  | array elements => trivial
  | emptyObject space => trivial
  | object members => trivial

theorem takes_word {depth : Nat} {rootKey : Option Bytes} {w : Bytes} {ok : w ∈ words} :
    Takes depth rootKey (.word w ok) ↔ depth ≤ 64 :=
  ⟨fun h => h.nested, fun h => ⟨h, strict_nil, trivial, fun _ => trivial⟩⟩

theorem takes_number {depth : Nat} {rootKey : Option Bytes} {n : Number} :
    Takes depth rootKey (.number n) ↔ depth ≤ 64 ∧ IntegerMember rootKey n :=
  ⟨fun h => ⟨h.nested, h.member⟩, fun h => ⟨h.1, strict_nil, h.2, fun _ => trivial⟩⟩

/-- A string is taken within the depth, when it decodes, and a known name without a zero. -/
theorem takes_string {depth : Nat} {rootKey : Option Bytes} {ps : List Piece} :
    Takes depth rootKey (.string ps) ↔ depth ≤ 64 ∧ decode ps ≠ none ∧
      ∀ key ∈ rootKey, key ∈ knownStrings → hasZero ps = false := by
  constructor
  · intro h
    exact ⟨h.nested, h.strict.paired ps (List.mem_singleton.mpr rfl), h.member⟩
  · rintro ⟨hdepth, hdecode, hmember⟩
    refine ⟨hdepth, ⟨?_, ?_⟩, hmember, fun _ => trivial⟩
    · intro qs hqs
      rw [List.mem_singleton.mp hqs]
      exact hdecode
    · intro o ho
      cases ho

theorem takes_emptyArray {depth : Nat} {rootKey : Option Bytes} {space : Space} :
    Takes depth rootKey (.emptyArray space) ↔ depth + 1 ≤ 64 :=
  ⟨fun h => h.nested, fun h => ⟨h, strict_nil, trivial, fun _ => trivial⟩⟩

theorem takes_emptyObject {depth : Nat} {rootKey : Option Bytes} {space : Space} :
    Takes depth rootKey (.emptyObject space) ↔ depth + 1 ≤ 64 :=
  ⟨fun h => h.nested, fun h => ⟨h, strict_nil, trivial, fun _ => trivial⟩⟩

theorem takes_array {depth : Nat} {rootKey : Option Bytes} {elements : Elements} :
    Takes depth rootKey (.array elements) ↔ ElementsOk (depth + 1) elements := by
  constructor
  · intro h
    have hnested : depth + (elements.depth + 1) ≤ 64 := h.nested
    exact ⟨by omega, h.strict⟩
  · intro h
    have hnested := h.nested
    have hdepth : depth + (elements.depth + 1) ≤ 64 := by omega
    exact ⟨hdepth, h.strict, trivial, fun _ => trivial⟩

/-- An object is taken when its members are, with names of their own. -/
theorem takes_object {depth : Nat} {rootKey : Option Bytes} {members : Members} :
    Takes depth rootKey (.object members) ↔ MembersOk (depth + 1) [] members := by
  constructor
  · intro h
    have hnested : depth + (members.depth + 1) ≤ 64 := h.nested
    have hall : ∀ o ∈ members :: members.objects, Distinct o := h.strict.distinct
    refine ⟨by omega, ⟨h.strict.paired, ?_⟩, hall members (List.mem_cons_self ..), by simp, ?_⟩
    · intro o ho
      exact hall o (List.mem_cons_of_mem _ ho)
    · intro hone
      exact h.root (by omega)
  · intro h
    have hnested := h.nested
    have hdepth : depth + (members.depth + 1) ≤ 64 := by omega
    refine ⟨hdepth, ⟨h.strict.paired, ?_⟩, trivial, ?_⟩
    · intro o ho
      rcases List.mem_cons.mp ho with rfl | ho
      · exact h.distinct
      · exact h.strict.distinct o ho
    · intro hzero
      exact h.root (by omega)

/-- An element of an array, or a value below the root. -/
theorem takes_of_pos {depth : Nat} {rootKey : Option Bytes} {node : Node} (hpos : 0 < depth) :
    Takes depth rootKey node ↔ depth + node.depth ≤ 64 ∧ Strict node.strings node.objects ∧
      MemberOk rootKey node := by
  constructor
  · intro h
    exact ⟨h.nested, h.strict, h.member⟩
  · rintro ⟨hnested, hstrict, hmember⟩
    exact ⟨hnested, hstrict, hmember, fun hzero => by omega⟩

theorem elementsOk_last {depth : Nat} {before after : Space} {node : Node} (hpos : 0 < depth) :
    ElementsOk depth (.last before node after) ↔ Takes depth none node := by
  rw [takes_of_pos hpos]
  constructor
  · intro h
    exact ⟨h.nested, h.strict, memberOk_none node⟩
  · rintro ⟨hnested, hstrict, -⟩
    exact ⟨hnested, hstrict⟩

theorem elementsOk_cons {depth : Nat} {before after : Space} {node : Node} {rest : Elements}
    (hpos : 0 < depth) : ElementsOk depth (.cons before node after rest) ↔
      Takes depth none node ∧ ElementsOk depth rest := by
  rw [takes_of_pos hpos]
  constructor
  · intro h
    have hnested : depth + max node.depth rest.depth ≤ 64 := h.nested
    have hstrict := strict_append.mp h.strict
    exact ⟨⟨by omega, hstrict.1, memberOk_none node⟩, by omega, hstrict.2⟩
  · rintro ⟨⟨hnode, hstrict, -⟩, hrest⟩
    have hnested := hrest.nested
    have hmax : depth + max node.depth rest.depth ≤ 64 := by omega
    exact ⟨hmax, strict_append.mpr ⟨hstrict, hrest.strict⟩⟩

/-- The conditions on a name behind the names `keys`. -/
structure NameOk (keys : List Bytes) (key : List Piece) : Prop where
  paired : decode key ≠ none
  nonzero : hasZero key = false
  fresh : ∀ name ∈ decode key, name ∉ keys

/-- What `value_token` is told of the name of a member. -/
def keyAt (depth : Nat) (key : Option Bytes) : Option Bytes := if depth == 1 then key else none

theorem memberOk_keyAt {depth : Nat} {key : Option Bytes} {node : Node} :
    MemberOk (keyAt depth key) node ↔ (depth = 1 → MemberOk key node) := by
  by_cases hone : depth = 1
  · rw [keyAt, if_pos (by simp [hone])]
    simp [hone]
  · rw [keyAt, if_neg (by simpa using hone)]
    simp [hone, memberOk_none]

theorem membersOk_last {depth : Nat} {keys : List Bytes} {name : Name} {before after : Space}
    {node : Node} (hpos : 0 < depth) :
    MembersOk depth keys (.last name before node after) ↔
      NameOk keys name.key ∧ Takes depth (keyAt depth (decode name.key)) node := by
  rw [takes_of_pos hpos, memberOk_keyAt]
  constructor
  · intro h
    have hpaired : ∀ ps ∈ name.key :: node.strings, decode ps ≠ none := h.strict.paired
    refine ⟨⟨hpaired _ (List.mem_cons_self ..), ?_, ?_⟩, h.nested, ⟨?_, h.strict.distinct⟩, ?_⟩
    · exact h.distinct.nonzero _ (List.mem_singleton.mpr rfl)
    · exact h.fresh _ (List.mem_singleton.mpr rfl)
    · intro ps hps
      exact hpaired ps (List.mem_cons_of_mem _ hps)
    · intro hone
      exact h.root hone _ (List.mem_singleton.mpr rfl)
  · rintro ⟨hname, hnested, hstrict, hmember⟩
    refine ⟨hnested, ⟨?_, hstrict.distinct⟩, ⟨List.pairwise_singleton _ _, ?_⟩, ?_, ?_⟩
    · intro ps hps
      rcases List.mem_cons.mp hps with rfl | hps
      · exact hname.paired
      · exact hstrict.paired ps hps
    · intro key hkey
      rw [List.mem_singleton.mp hkey]
      exact hname.nonzero
    · intro key hkey
      rw [List.mem_singleton.mp hkey]
      exact hname.fresh
    · intro hone field hfield
      rw [List.mem_singleton.mp hfield]
      exact hmember hone

/-- Members are taken when the first one is, and the others with names that differ from it.
-/
theorem membersOk_cons {depth : Nat} {keys : List Bytes} {name : Name} {before after : Space}
    {node : Node} {rest : Members} (hpos : 0 < depth) :
    MembersOk depth keys (.cons name before node after rest) ↔
      NameOk keys name.key ∧ Takes depth (keyAt depth (decode name.key)) node ∧
        MembersOk depth ((decode name.key).toList ++ keys) rest := by
  rw [takes_of_pos hpos, memberOk_keyAt]
  constructor
  · intro h
    have hpaired : ∀ ps ∈ name.key :: (node.strings ++ rest.strings), decode ps ≠ none :=
      h.strict.paired
    have hboth : Strict (node.strings ++ rest.strings) (node.objects ++ rest.objects) :=
      ⟨fun ps hps => hpaired ps (List.mem_cons_of_mem _ hps), h.strict.distinct⟩
    obtain ⟨hnode, hrest⟩ := strict_append.mp hboth
    have hnested : depth + max node.depth rest.depth ≤ 64 := h.nested
    have hnodup : (decode name.key :: rest.keys.map decode).Nodup := h.distinct.nodup
    have hnonzero : ∀ key ∈ name.key :: rest.keys, hasZero key = false := h.distinct.nonzero
    have hfresh : ∀ key ∈ name.key :: rest.keys, ∀ text ∈ decode key, text ∉ keys := h.fresh
    refine ⟨⟨hpaired _ (List.mem_cons_self ..), hnonzero _ (List.mem_cons_self ..),
      hfresh _ (List.mem_cons_self ..)⟩, ⟨by omega, hnode, ?_⟩, by omega, hrest,
      ⟨(List.nodup_cons.mp hnodup).2, ?_⟩, ?_, ?_⟩
    · intro hone
      exact h.root hone _ (List.mem_cons_self ..)
    · intro key hkey
      exact hnonzero key (List.mem_cons_of_mem _ hkey)
    · intro key hkey text htext hmem
      rcases List.mem_append.mp hmem with hmem | hmem
      · apply (List.nodup_cons.mp hnodup).1
        have hsame : decode name.key = decode key := by
          rw [Option.mem_toList.mp hmem, Option.mem_def.mp htext]
        rw [hsame]
        exact List.mem_map_of_mem hkey
      · exact hfresh key (List.mem_cons_of_mem _ hkey) text htext hmem
    · intro hone field hfield
      exact h.root hone field (List.mem_cons_of_mem _ hfield)
  · rintro ⟨hname, ⟨hnested, hstrict, hmember⟩, hrest⟩
    have hdeep := hrest.nested
    have hmax : depth + max node.depth rest.depth ≤ 64 := by omega
    have hboth := strict_append.mpr ⟨hstrict, hrest.strict⟩
    refine ⟨hmax, ⟨?_, hboth.distinct⟩, ⟨?_, ?_⟩, ?_, ?_⟩
    · intro ps hps
      rcases List.mem_cons.mp hps with rfl | hps
      · exact hname.paired
      · exact hboth.paired ps hps
    · refine List.nodup_cons.mpr ⟨fun hmem => ?_, hrest.distinct.nodup⟩
      obtain ⟨key, hkey, hsame⟩ := List.mem_map.mp hmem
      cases hdecode : decode name.key with
      | none => exact hname.paired hdecode
      | some text =>
          rw [hdecode] at hsame
          apply hrest.fresh key hkey text hsame
          rw [hdecode]
          exact List.mem_append_left _ (Option.mem_toList.mpr rfl)
    · intro key hkey
      rcases List.mem_cons.mp hkey with rfl | hkey
      · exact hname.nonzero
      · exact hrest.distinct.nonzero key hkey
    · intro key hkey text htext
      rcases List.mem_cons.mp hkey with rfl | hkey
      · exact hname.fresh text htext
      · intro hmem
        exact hrest.fresh key hkey text htext (List.mem_append_right _ hmem)
    · intro hone field hfield
      rcases List.mem_cons.mp hfield with rfl | hfield
      · exact hmember hone
      · exact hrest.root hone field hfield

/-! ## Words and names -/

theorem wordEnd_sound {rest rest' : Bytes} (h : wordEnd rest = some rest') :
    ∃ w ∈ words, rest = w ++ rest' := by
  obtain ⟨w, hfind, hrest⟩ := Option.map_eq_some_iff.mp h
  have hmem : w ∈ words := List.mem_of_find?_eq_some hfind
  have hfront := List.find?_some hfind
  obtain ⟨tail, rfl⟩ := List.isPrefixOf_iff_prefix.mp hfront
  rw [List.drop_left] at hrest
  exact ⟨w, hmem, by rw [hrest]⟩

theorem wordEnd_complete {w : Bytes} (hw : w ∈ words) (rest : Bytes) :
    wordEnd (w ++ rest) = some rest := by
  simp only [words, List.mem_cons, List.not_mem_nil, or_false] at hw
  rcases hw with rfl | rfl | rfl
  · rfl
  · rfl
  · rfl

/-- A member's name up to its colon. -/
theorem memberName_sound {fuel : Nat} {keys : List Bytes} {rest rest' : Bytes}
    {key : Option Bytes} (h : memberName fuel true keys rest = .ok (key, rest'))
    (hzero : 0 ∉ rest) :
    ∃ ps, ∃ gap : Space, rest = stringText ps ++ (gap.1 ++ 0x3a :: rest') ∧
      decode ps = key ∧ NameOk keys ps := by
  rw [memberName, if_pos rfl] at h
  obtain ⟨⟨value, zero, behind⟩, hstring, hguard⟩ := bind_eq_ok.mp h
  obtain ⟨ps, rfl, hdecode, rfl⟩ := stringToken_sound hstring hzero
  simp only at hguard
  by_cases hbad : (hasZero ps || keys.contains value) = true
  · rw [if_pos hbad] at hguard
    cases hguard
  · rw [if_neg hbad] at hguard
    simp only [Bool.or_eq_true, List.contains_iff_mem, not_or, Bool.not_eq_true] at hbad
    obtain ⟨c, tail, hws, hcolon⟩ := read_eq_ok hguard
    obtain ⟨gap, hgap⟩ := ws_split fun hmem => hzero (List.mem_append_right (stringText ps) hmem)
    by_cases hc : (c != 0x3a) = true
    · rw [if_pos hc] at hcolon
      cases hcolon
    · rw [if_neg hc] at hcolon
      obtain rfl : c = 0x3a := by simpa using hc
      cases hcolon
      refine ⟨ps, gap, ?_, hdecode, by simp [hdecode], hbad.1, ?_⟩
      · rw [← hws, ← hgap]
      · intro name hname
        rw [hdecode] at hname
        rw [← Option.some.inj hname]
        exact hbad.2

/-- A name that is allowed is read with the colon behind it. -/
theorem memberName_complete {fuel : Nat} {keys : List Bytes} {ps : List Piece} {gap : Space}
    {rest : Bytes} (h : NameOk keys ps)
    (hfuel : (stringText ps ++ (gap.1 ++ 0x3a :: rest)).length ≤ fuel) :
    memberName fuel true keys (stringText ps ++ (gap.1 ++ 0x3a :: rest)) =
      .ok (decode ps, rest) := by
  have hws : ws (gap.1 ++ 0x3a :: rest) = 0x3a :: rest := by
    rw [ws_append, ws_cons (by decide)]
  cases hdecode : decode ps with
  | none => exact absurd hdecode h.paired
  | some key =>
      have hfresh : key ∉ keys := h.fresh key hdecode
      have hguard : ¬ (hasZero ps || keys.contains key) = true := by
        simp [h.nonzero, hfresh]
      rw [memberName, if_pos rfl, stringToken_complete hdecode _ hfuel]
      show (if _ then _ else _) = _
      rw [if_neg hguard, hws]
      rfl

theorem clean_memberName {fuel : Nat} {object : Bool} {keys : List Bytes} {rest : Bytes}
    (hzero : 0 ∉ rest) (hfuel : rest.length ≤ fuel) :
    Clean (memberName fuel object keys rest) := by
  unfold memberName
  exact .ite (fun _ => (clean_stringToken hzero hfuel).bind fun _ _ =>
    .ite (fun _ => clean_invalid) fun _ => clean_read fun _ _ _ =>
      .ite (fun _ => clean_invalid) fun _ => clean_ok _) fun _ => clean_ok _

/-! ## What the guard takes -/

def ValueSound (fuel : Nat) : Prop :=
  ∀ depth rootKey rest rest', valueToken fuel depth rootKey rest = .ok rest' → 0 ∉ rest →
    depth ≤ 64 →
    ∃ space : Space, ∃ node, rest = space.1 ++ (node.text ++ rest') ∧ Takes depth rootKey node

def ContainerSound (fuel : Nat) : Prop :=
  ∀ object depth rest rest', containerToken fuel object depth rest = .ok rest' → 0 ∉ rest →
    rest.head? = some (if object then 0x7b else 0x5b) →
    ∃ node, rest = node.text ++ rest' ∧ ∀ rootKey, Takes depth rootKey node

def ElementsSound (fuel : Nat) : Prop :=
  ∀ depth rest rest' (before : Space), containerLoop fuel false depth [] rest = .ok rest' →
    0 ∉ rest → 0 < depth → depth ≤ 64 →
    ∃ elements, before.1 ++ rest = elements.text ++ 0x5d :: rest' ∧ ElementsOk depth elements

def MembersSound (fuel : Nat) : Prop :=
  ∀ depth keys rest rest' (before : Space), containerLoop fuel true depth keys rest = .ok rest' →
    0 ∉ rest → 0 < depth → depth ≤ 64 →
    ∃ members, before.1 ++ rest = members.text ++ 0x7d :: rest' ∧ MembersOk depth keys members

/-- A round of the loop: a name, a value, and what stands behind it. -/
theorem containerLoop_ok {fuel depth : Nat} {object : Bool} {keys : List Bytes}
    {rest rest' : Bytes} (h : containerLoop (fuel + 1) object depth keys rest = .ok rest') :
    ∃ key behind left c tail, memberName fuel object keys rest = .ok (key, behind) ∧
      valueToken fuel depth (keyAt depth key) behind = .ok left ∧ ws left = c :: tail ∧
      (c = stop object ∧ tail = rest' ∨
        c = 0x2c ∧ containerLoop fuel object depth (key.toList ++ keys) (ws tail) = .ok rest') := by
  unfold containerLoop at h
  obtain ⟨⟨key, behind⟩, hname, h⟩ := bind_eq_ok.mp h
  obtain ⟨left, hvalue, h⟩ := bind_eq_ok.mp h
  obtain ⟨c, tail, hws, hread⟩ := read_eq_ok h
  refine ⟨key, behind, left, c, tail, hname, hvalue, hws, ?_⟩
  by_cases hstop : (c == stop object) = true
  · rw [if_pos hstop] at hread
    cases hread
    exact .inl ⟨beq_iff_eq.mp hstop, rfl⟩
  · rw [if_neg hstop] at hread
    by_cases hcomma : (c != 0x2c) = true
    · rw [if_pos hcomma] at hread
      cases hread
    · rw [if_neg hcomma] at hread
      exact .inr ⟨by simpa using hcomma, hread⟩

/-- The loop over the elements reads elements, when the value behind it reads values. -/
theorem elements_sound {fuel : Nat} (hvalue : ValueSound fuel) (hloop : ElementsSound fuel) :
    ElementsSound (fuel + 1) := by
  intro depth rest rest' before h hzero hpos hdepth
  obtain ⟨key, behind, left, c, tail, hname, htoken, hws, hend⟩ := containerLoop_ok h
  cases hname
  obtain ⟨space, node, rfl, htakes⟩ := hvalue _ _ _ _ htoken hzero hdepth
  have hleft : 0 ∉ left := fun hmem => hzero (by simp [hmem])
  obtain ⟨after, hafter⟩ := ws_split hleft
  rw [hws] at hafter
  have hkey : keyAt depth none = none := by simp [keyAt]
  rw [hkey] at htakes
  rcases hend with ⟨rfl, rfl⟩ | ⟨rfl, hnext⟩
  · refine ⟨.last (before.append space) node after, ?_, (elementsOk_last hpos).mpr htakes⟩
    rw [hafter]
    simp only [Space.append, Elements.text, List.append_assoc]
    rfl
  · have htail : 0 ∉ tail := fun hmem => hleft (by simp [hafter, hmem])
    obtain ⟨gap, hgap⟩ := ws_split htail
    obtain ⟨elements, htext, hok⟩ := hloop _ _ _ gap hnext (ws_zero htail) hpos hdepth
    refine ⟨.cons (before.append space) node after elements, ?_,
      (elementsOk_cons hpos).mpr ⟨htakes, hok⟩⟩
    rw [hafter, hgap, htext]
    simp only [Space.append, Elements.text, List.append_assoc, List.cons_append]

/-- The loop over the members reads members. -/
theorem members_sound {fuel : Nat} (hvalue : ValueSound fuel) (hloop : MembersSound fuel) :
    MembersSound (fuel + 1) := by
  intro depth keys rest rest' before h hzero hpos hdepth
  obtain ⟨key, behind, left, c, tail, hname, htoken, hws, hend⟩ := containerLoop_ok h
  obtain ⟨ps, gap, rfl, rfl, hkey⟩ := memberName_sound hname hzero
  obtain ⟨space, node, rfl, htakes⟩ := hvalue _ _ _ _ htoken
    (fun hmem => hzero (by simp [hmem])) hdepth
  have hleft : 0 ∉ left := fun hmem => hzero (by simp [hmem])
  obtain ⟨after, hafter⟩ := ws_split hleft
  rw [hws] at hafter
  rcases hend with ⟨rfl, rfl⟩ | ⟨rfl, hnext⟩
  · refine ⟨.last ⟨before, ps, gap⟩ space node after, ?_,
      (membersOk_last hpos).mpr ⟨hkey, htakes⟩⟩
    rw [hafter]
    simp only [Members.text, Name.text, List.append_assoc, List.cons_append, List.nil_append]
    rfl
  · have htail : 0 ∉ tail := fun hmem => hleft (by simp [hafter, hmem])
    obtain ⟨before', hgap⟩ := ws_split htail
    obtain ⟨members, htext, hok⟩ := hloop _ _ _ _ before' hnext (ws_zero htail) hpos hdepth
    refine ⟨.cons ⟨before, ps, gap⟩ space node after members, ?_,
      (membersOk_cons hpos).mpr ⟨hkey, htakes, hok⟩⟩
    rw [hafter, hgap, htext]
    simp only [Members.text, Name.text, List.append_assoc, List.cons_append, List.nil_append]

/-- What stands behind the opening bracket. -/
theorem containerToken_ok {fuel depth : Nat} {object : Bool} {b : UInt8} {tail rest' : Bytes}
    (h : containerToken (fuel + 1) object depth (b :: tail) = .ok rest') :
    depth + 1 ≤ 64 ∧ (ws tail = stop object :: rest' ∨
      containerLoop fuel object (depth + 1) [] (ws tail) = .ok rest') := by
  unfold containerToken at h
  by_cases hdeep : 64 < depth + 1
  · rw [if_pos hdeep] at h
    cases h
  · rw [if_neg hdeep, deref_cons] at h
    refine ⟨by omega, ?_⟩
    by_cases hempty : ((ws tail).head? == some (stop object)) = true
    · have hread := (if_pos hempty).symm.trans h
      cases hws : ws tail with
      | nil =>
          rw [hws] at hempty
          cases hempty
      | cons c left =>
          rw [hws] at hempty hread
          obtain rfl : c = stop object := by simpa using hempty
          cases hread
          exact .inl rfl
    · exact .inr ((if_neg hempty).symm.trans h)

/-- A container that is read is an array or an object. -/
theorem container_sound {fuel : Nat} (helements : ElementsSound fuel)
    (hmembers : MembersSound fuel) : ContainerSound (fuel + 1) := by
  intro object depth rest rest' h hzero hhead
  cases rest with
  | nil => cases hhead
  | cons b tail =>
      have hb := Option.some.inj hhead
      have htail : 0 ∉ tail := fun hmem => hzero (List.mem_cons_of_mem _ hmem)
      obtain ⟨space, hspace⟩ := ws_split htail
      have hskipped := ws_zero htail
      obtain ⟨hdepth, hend⟩ := containerToken_ok h
      rcases hend with hempty | hloop
      · rw [hempty] at hspace
        cases object with
        | false =>
            refine ⟨.emptyArray space, ?_, fun rootKey => takes_emptyArray.mpr hdepth⟩
            rw [hb, hspace]
            simp only [Node.text, List.cons_append, List.append_assoc]
            rfl
        | true =>
            refine ⟨.emptyObject space, ?_, fun rootKey => takes_emptyObject.mpr hdepth⟩
            rw [hb, hspace]
            simp only [Node.text, List.cons_append, List.append_assoc]
            rfl
      · cases object with
        | false =>
            obtain ⟨elements, htext, hok⟩ :=
              helements _ _ _ space hloop hskipped (Nat.succ_pos depth) hdepth
            refine ⟨.array elements, ?_, fun rootKey => takes_array.mpr hok⟩
            rw [hb, hspace, htext]
            simp only [Node.text, List.cons_append, List.append_assoc]
            rfl
        | true =>
            obtain ⟨members, htext, hok⟩ :=
              hmembers _ _ _ _ space hloop hskipped (Nat.succ_pos depth) hdepth
            refine ⟨.object members, ?_, fun rootKey => takes_object.mpr hok⟩
            rw [hb, hspace, htext]
            simp only [Node.text, List.cons_append, List.append_assoc]
            rfl

/-- A value that is read has a tree. -/
theorem value_sound {fuel : Nat} (hcontainer : ContainerSound fuel) : ValueSound (fuel + 1) := by
  intro depth rootKey rest rest' h hzero hdepth
  obtain ⟨space, hspace⟩ := ws_split hzero
  have hskipped := ws_zero hzero
  suffices hnode : ∃ node, ws rest = node.text ++ rest' ∧ Takes depth rootKey node by
    obtain ⟨node, htext, htakes⟩ := hnode
    exact ⟨space, node, by rw [← htext, ← hspace], htakes⟩
  unfold valueToken at h
  obtain ⟨b, tail, hws, hread⟩ := read_eq_ok h
  by_cases hopen : (b == 0x7b || b == 0x5b) = true
  · rw [if_pos hopen] at hread
    have hhead : (ws rest).head? = some (if b == 0x7b then 0x7b else 0x5b) := by
      rw [hws, List.head?_cons]
      by_cases hobject : (b == 0x7b) = true
      · rw [if_pos hobject, beq_iff_eq.mp hobject]
      · rw [Bool.eq_false_iff.mpr hobject, Bool.false_or] at hopen
        rw [if_neg hobject, beq_iff_eq.mp hopen]
    obtain ⟨node, htext, htakes⟩ := hcontainer _ _ _ _ hread hskipped hhead
    exact ⟨node, htext, htakes rootKey⟩
  · rw [if_neg hopen] at hread
    by_cases hquote : (b == 0x22) = true
    · rw [if_pos hquote] at hread
      obtain ⟨⟨value, zero, behind⟩, hstring, hguard⟩ := bind_eq_ok.mp hread
      obtain ⟨ps, htext, hdecode, rfl⟩ := stringToken_sound hstring hskipped
      by_cases hknown : (hasZero ps && rootKey.any knownStrings.contains) = true
      · have hrefused := (if_pos hknown).symm.trans hguard
        cases hrefused
      · have htaken := (if_neg hknown).symm.trans hguard
        cases htaken
        refine ⟨.string ps, htext, takes_string.mpr ⟨hdepth, by simp [hdecode], ?_⟩⟩
        intro key hkey hmem
        rw [Option.mem_def.mp hkey] at hknown
        simpa [hmem] using hknown
    · rw [if_neg hquote] at hread
      cases hword : wordEnd (ws rest) with
      | some behind =>
          rw [hword] at hread
          cases hread
          obtain ⟨w, hmem, htext⟩ := wordEnd_sound hword
          exact ⟨.word w hmem, htext, takes_word.mpr hdepth⟩
      | none =>
          rw [hword] at hread
          obtain ⟨n, htext, hmember⟩ := numberToken_sound hread
          exact ⟨.number n, htext, takes_number.mpr ⟨hdepth, hmember⟩⟩

/-- The four readers are sound for every fuel. -/
theorem sound_run (fuel : Nat) :
    ValueSound fuel ∧ ContainerSound fuel ∧ ElementsSound fuel ∧ MembersSound fuel := by
  induction fuel with
  | zero =>
      refine ⟨?_, ?_, ?_, ?_⟩
      · intro depth rootKey rest rest' h
        cases h
      · intro object depth rest rest' h
        cases h
      · intro depth rest rest' before h
        cases h
      · intro depth keys rest rest' before h
        cases h
  | succ fuel ih =>
      obtain ⟨hvalue, hcontainer, helements, hmembers⟩ := ih
      exact ⟨value_sound hcontainer, container_sound helements hmembers,
        elements_sound hvalue helements, members_sound hvalue hmembers⟩

/-! ## What the guard has to take -/

/-- The bytes that begin a number. -/
def isNumeric (b : UInt8) : Bool := b == 0x2d || isDigit b

/-- A number begins with a digit or its sign. -/
theorem number_head (n : Number) : ∃ b tail, n.text = b :: tail ∧ isNumeric b = true := by
  by_cases hminus : n.minus = true
  · refine ⟨0x2d, n.whole.1 ++ fractionText n.fraction ++ exponentText n.exponent, ?_, rfl⟩
    rw [Number.text, if_pos hminus]
    rfl
  · cases hdigits : n.whole.1 with
    | nil => exact absurd hdigits n.whole.2.1
    | cons b ds =>
        have hb : isDigit b = true := n.whole.2.2 b (by rw [hdigits]; simp)
        refine ⟨b, ds ++ fractionText n.fraction ++ exponentText n.exponent, ?_, ?_⟩
        · rw [Number.text, if_neg hminus, hdigits]
          rfl
        · rw [isNumeric, hb, Bool.or_true]

/-- A value begins neither with white space nor with a closing bracket. -/
theorem node_head (node : Node) : ∃ b tail, node.text = b :: tail ∧
    strchrTest (ascii " \t\r\n") b = false ∧ b ≠ 0x5d := by
  cases node with
  | word w ok =>
      simp only [words, List.mem_cons, List.not_mem_nil, or_false] at ok
      rcases ok with rfl | rfl | rfl
      · exact ⟨0x74, ascii "rue", rfl, by decide, by decide⟩
      · exact ⟨0x66, ascii "alse", rfl, by decide, by decide⟩
      · exact ⟨0x6e, ascii "ull", rfl, by decide, by decide⟩
  | number n =>
      obtain ⟨b, tail, htext, hb⟩ := number_head n
      refine ⟨b, tail, htext, ?_, ne_of_test hb (by decide)⟩
      rw [strchr_ws (ne_of_test hb (by decide))]
      simp [isWs, ne_of_test hb (show isNumeric 0x20 = false by decide),
        ne_of_test hb (show isNumeric 0x09 = false by decide),
        ne_of_test hb (show isNumeric 0x0a = false by decide),
        ne_of_test hb (show isNumeric 0x0d = false by decide)]
  | string ps => exact ⟨0x22, _, rfl, by decide, by decide⟩
  | emptyArray space => exact ⟨0x5b, _, rfl, by decide, by decide⟩
  | array elements => exact ⟨0x5b, _, rfl, by decide, by decide⟩
  | emptyObject space => exact ⟨0x7b, _, rfl, by decide, by decide⟩
  | object members => exact ⟨0x7b, _, rfl, by decide, by decide⟩

theorem ws_node (before : Space) (node : Node) (rest : Bytes) :
    ws (before.1 ++ (node.text ++ rest)) = node.text ++ rest := by
  obtain ⟨b, tail, htext, hb, -⟩ := node_head node
  rw [ws_append, htext, List.cons_append, ws_cons hb]

/-- A number stops at white space or at a delimiter. -/
theorem stops_space (space : Space) {c : UInt8} (hc : isNumeric c = false) (hpoint : c ≠ 0x2e)
    (he : c ≠ 0x65) (hE : c ≠ 0x45) (tail : Bytes) : Stops (space.1 ++ c :: tail) := by
  intro b hb
  cases hspace : space.1 with
  | nil =>
      rw [hspace] at hb
      obtain rfl : c = b := Option.some.inj hb
      have hdigit := Bool.or_eq_false_iff.mp hc
      exact ⟨hdigit.2, hpoint, he, hE⟩
  | cons x xs =>
      rw [hspace] at hb
      obtain rfl : x = b := Option.some.inj hb
      have hx : isWs x = true := space.2 x (by rw [hspace]; exact List.mem_cons_self ..)
      simp only [isWs, Bool.or_eq_true, beq_iff_eq] at hx
      rcases hx with ((rfl | rfl) | rfl) | rfl
      · decide
      · decide
      · decide
      · decide

theorem stops_stop (space : Space) (object : Bool) (tail : Bytes) :
    Stops (space.1 ++ stop object :: tail) := by
  cases object with
  | false => exact stops_space space (by decide) (by decide) (by decide) (by decide) tail
  | true => exact stops_space space (by decide) (by decide) (by decide) (by decide) tail

theorem stops_comma (space : Space) (tail : Bytes) : Stops (space.1 ++ 0x2c :: tail) :=
  stops_space space (by decide) (by decide) (by decide) (by decide) tail

theorem stops_end (space : Space) : Stops space.1 := by
  intro b hb
  have h := stops_comma space [] b
  cases hspace : space.1 with
  | nil =>
      rw [hspace] at hb
      cases hb
  | cons x xs =>
      rw [hspace] at hb h
      exact h hb

def ValueTaken (node : Node) : Prop :=
  ∀ fuel depth rootKey (before : Space) rest, Takes depth rootKey node → Stops rest →
    3 * (before.1 ++ (node.text ++ rest)).length + 1 ≤ fuel →
    valueToken fuel depth rootKey (before.1 ++ (node.text ++ rest)) = .ok rest

def ElementsTaken (elements : Elements) : Prop :=
  ∀ fuel depth rest, ElementsOk depth elements → 0 < depth →
    3 * (elements.text ++ 0x5d :: rest).length + 2 ≤ fuel →
    containerLoop fuel false depth [] (ws (elements.text ++ 0x5d :: rest)) = .ok rest

def MembersTaken (members : Members) : Prop :=
  ∀ fuel depth keys rest, MembersOk depth keys members → 0 < depth →
    3 * (members.text ++ 0x7d :: rest).length + 2 ≤ fuel →
    containerLoop fuel true depth keys (ws (members.text ++ 0x7d :: rest)) = .ok rest

/-- A value that is neither a container nor a string. -/
theorem valueToken_scalar {rest tail : Bytes} {b : UInt8} (hws : ws rest = b :: tail)
    (hbracket : (b == 0x7b || b == 0x5b) = false) (hquote : (b == 0x22) = false) (fuel depth : Nat)
    (rootKey : Option Bytes) : valueToken (fuel + 1) depth rootKey rest =
      (wordEnd (b :: tail)).elim (numberToken rootKey (b :: tail)) .ok := by
  rw [valueToken, hws, List.isEmpty_cons, if_neg (by simp), deref_cons, hbracket, hquote,
    if_neg (by simp), if_neg (by simp)]
  cases wordEnd (b :: tail) with
  | none => rfl
  | some rest => rfl

/-- A word is read as the value it is. -/
theorem word_taken {w : Bytes} (ok : w ∈ words) : ValueTaken (.word w ok) := by
  intro fuel depth rootKey before rest htakes hrest hfuel
  cases fuel with
  | zero => exact absurd hfuel (by omega)
  | succ fuel =>
      have hheads : words.all (fun w => w.head?.any fun b =>
          !(b == 0x7b || b == 0x5b) && b != 0x22) = true := by decide
      have hhead := List.all_eq_true.mp hheads w ok
      have hend := wordEnd_complete ok rest
      have hws := ws_node before (.word w ok) rest
      cases w with
      | nil => cases hhead
      | cons b w =>
          obtain ⟨hbracket, hquote⟩ := Bool.and_eq_true_iff.mp hhead
          rw [valueToken_scalar hws (by simpa using hbracket) (by simpa using hquote)]
          show (wordEnd (b :: w ++ rest)).elim _ _ = _
          rw [hend]
          rfl

/-- A value that starts like a number is one. -/
theorem valueToken_number (n : Number) (before : Space) (rest : Bytes) (fuel depth : Nat)
    (rootKey : Option Bytes) :
    valueToken (fuel + 1) depth rootKey (before.1 ++ ((Node.number n).text ++ rest)) =
      numberToken rootKey (n.text ++ rest) := by
  obtain ⟨b, tail, htext, hb⟩ := number_head n
  have hws : ws (before.1 ++ ((Node.number n).text ++ rest)) = b :: (tail ++ rest) := by
    rw [ws_node]
    show n.text ++ rest = _
    rw [htext]
    rfl
  have hbracket : (b == 0x7b || b == 0x5b) = false := by
    simp [ne_of_test hb (show isNumeric 0x7b = false by decide),
      ne_of_test hb (show isNumeric 0x5b = false by decide)]
  have hword : wordEnd (b :: (tail ++ rest)) = none := by
    have hheads : words.all (fun w => w.head?.any fun c => !isNumeric c) = true := by decide
    refine Option.map_eq_none_iff.mpr (List.find?_eq_none.mpr fun w hw => ?_)
    have hhead := List.all_eq_true.mp hheads w hw
    cases w with
    | nil => cases hhead
    | cons c w =>
        have hne : c ≠ b := (ne_of_test hb (by simpa using hhead)).symm
        simp [hne]
  rw [valueToken_scalar hws hbracket (by simp [ne_of_test hb (show isNumeric 0x22 = false
    by decide)]), hword]
  show numberToken rootKey (b :: tail ++ rest) = _
  rw [← htext]

theorem number_taken (n : Number) : ValueTaken (.number n) := by
  intro fuel depth rootKey before rest htakes hrest hfuel
  cases fuel with
  | zero => exact absurd hfuel (by omega)
  | succ fuel =>
      rw [valueToken_number]
      exact numberToken_complete (takes_number.mp htakes).2 hrest

/-- A string is read as the pieces it is written in. -/
theorem string_taken (ps : List Piece) : ValueTaken (.string ps) := by
  intro fuel depth rootKey before rest htakes hrest hfuel
  cases fuel with
  | zero => exact absurd hfuel (by omega)
  | succ fuel =>
      obtain ⟨-, hpaired, hmember⟩ := takes_string.mp htakes
      have hws : ws (before.1 ++ ((Node.string ps).text ++ rest)) = stringText ps ++ rest :=
        ws_node before (.string ps) rest
      have hlength : (stringText ps ++ rest).length ≤ fuel := by
        have htext : (Node.string ps).text = stringText ps := rfl
        rw [htext, List.length_append] at hfuel
        omega
      cases hdecode : decode ps with
      | none => exact absurd hdecode hpaired
      | some value =>
          have hguard : ¬ (hasZero ps && rootKey.any knownStrings.contains) = true := by
            intro h
            obtain ⟨hzero, hknown⟩ := Bool.and_eq_true_iff.mp h
            cases rootKey with
            | none => cases hknown
            | some key =>
                have hmem : key ∈ knownStrings := List.contains_iff_mem.mp hknown
                rw [hmember key rfl hmem] at hzero
                cases hzero
          rw [valueToken, hws]
          show (stringToken fuel (stringText ps ++ rest) >>= _) = _
          rw [stringToken_complete hdecode rest hlength]
          show (if _ then _ else _) = _
          rw [if_neg hguard]

/-- A round of the loop for the text of a member or an element. -/
theorem containerLoop_eq {fuel depth : Nat} {object : Bool} {keys : List Bytes}
    {rest behind left tail : Bytes} {key : Option Bytes} {c : UInt8}
    (hname : memberName fuel object keys rest = .ok (key, behind))
    (hvalue : valueToken fuel depth (keyAt depth key) behind = .ok left)
    (hws : ws left = c :: tail) :
    containerLoop (fuel + 1) object depth keys rest =
      if c == stop object then .ok tail
      else if c != 0x2c then .error .invalid
      else containerLoop fuel object depth (key.toList ++ keys) (ws tail) := by
  rw [containerLoop, hname]
  show (valueToken fuel depth (keyAt depth key) behind >>= _) = _
  rw [hvalue]
  show (if (ws left).isEmpty then _ else deref (ws left) _) = _
  rw [hws]
  rfl

theorem ws_stop (space : Space) (object : Bool) (tail : Bytes) :
    ws (space.1 ++ stop object :: tail) = stop object :: tail := by
  rw [ws_append]
  cases object with
  | false => exact ws_cons (by decide) tail
  | true => exact ws_cons (by decide) tail

theorem ws_comma (space : Space) (tail : Bytes) :
    ws (space.1 ++ 0x2c :: tail) = 0x2c :: tail := by
  rw [ws_append, ws_cons (by decide)]

/-- The last element is read with its bracket. -/
theorem elements_last_taken {before after : Space} {node : Node} (hnode : ValueTaken node) :
    ElementsTaken (.last before node after) := by
  intro fuel depth rest hok hpos hfuel
  cases fuel with
  | zero => exact absurd hfuel (by omega)
  | succ fuel =>
      have htakes := (elementsOk_last hpos).mp hok
      have htext : (Elements.last before node after).text ++ 0x5d :: rest =
          before.1 ++ (node.text ++ (after.1 ++ stop false :: rest)) := by
        simp only [Elements.text, List.append_assoc]
        rfl
      rw [htext] at hfuel ⊢
      rw [List.length_append] at hfuel
      rw [ws_node]
      have hvalue := hnode fuel depth none Space.none (after.1 ++ stop false :: rest) htakes
        (stops_stop after false rest) (by
          show 3 * (node.text ++ (after.1 ++ stop false :: rest)).length + 1 ≤ fuel
          omega)
      have hkey : keyAt depth none = none := by simp [keyAt]
      rw [← hkey] at hvalue
      rw [containerLoop_eq rfl hvalue (ws_stop after false rest), if_pos (by simp)]

/-- An element before others is read with its comma. -/
theorem elements_cons_taken {before after : Space} {node : Node} {elements : Elements}
    (hnode : ValueTaken node) (helements : ElementsTaken elements) :
    ElementsTaken (.cons before node after elements) := by
  intro fuel depth rest hok hpos hfuel
  cases fuel with
  | zero => exact absurd hfuel (by omega)
  | succ fuel =>
      obtain ⟨htakes, hrest⟩ := (elementsOk_cons hpos).mp hok
      have htext : (Elements.cons before node after elements).text ++ 0x5d :: rest =
          before.1 ++ (node.text ++ (after.1 ++ 0x2c :: (elements.text ++ 0x5d :: rest))) := by
        simp only [Elements.text, List.append_assoc, List.cons_append]
      rw [htext] at hfuel ⊢
      rw [List.length_append] at hfuel
      have hbehind : (elements.text ++ 0x5d :: rest).length <
          (node.text ++ (after.1 ++ 0x2c :: (elements.text ++ 0x5d :: rest))).length := by
        simp only [List.length_append, List.length_cons]
        omega
      rw [ws_node]
      have hvalue := hnode fuel depth none Space.none
        (after.1 ++ 0x2c :: (elements.text ++ 0x5d :: rest)) htakes
        (stops_comma after _) (by
          show 3 * (node.text ++ (after.1 ++ 0x2c :: (elements.text ++ 0x5d :: rest))).length + 1
            ≤ fuel
          omega)
      have hkey : keyAt depth none = none := by simp [keyAt]
      rw [← hkey] at hvalue
      rw [containerLoop_eq rfl hvalue (ws_comma after _), if_neg (by decide), if_neg (by decide)]
      exact helements fuel depth rest hrest hpos (by omega)

theorem ws_name (name : Name) (rest : Bytes) : ws (name.text ++ rest) =
    stringText name.key ++ (name.gap.1 ++ 0x3a :: rest) := by
  have htext : name.text ++ rest =
      name.before.1 ++ (stringText name.key ++ (name.gap.1 ++ 0x3a :: rest)) := by
    simp only [Name.text, List.append_assoc, List.cons_append, List.nil_append]
  rw [htext, ws_append]
  exact ws_cons (by decide) _

theorem length_name (name : Name) (rest : Bytes) :
    (stringText name.key ++ (name.gap.1 ++ 0x3a :: rest)).length ≤ (name.text ++ rest).length ∧
      rest.length < (stringText name.key ++ (name.gap.1 ++ 0x3a :: rest)).length := by
  constructor
  · simp only [Name.text, List.length_append, List.length_cons, List.length_nil]
    omega
  · simp only [List.length_append, List.length_cons]
    omega

/-- The last member is read with its brace. -/
theorem members_last_taken {name : Name} {before after : Space} {node : Node}
    (hnode : ValueTaken node) : MembersTaken (.last name before node after) := by
  intro fuel depth keys rest hok hpos hfuel
  cases fuel with
  | zero => exact absurd hfuel (by omega)
  | succ fuel =>
      obtain ⟨hname, htakes⟩ := (membersOk_last hpos).mp hok
      have htext : (Members.last name before node after).text ++ 0x7d :: rest =
          name.text ++ (before.1 ++ (node.text ++ (after.1 ++ stop true :: rest))) := by
        simp only [Members.text, List.append_assoc]
        rfl
      rw [htext] at hfuel ⊢
      have hlength := length_name name (before.1 ++ (node.text ++ (after.1 ++ stop true :: rest)))
      rw [ws_name]
      have hvalue := hnode fuel depth _ before (after.1 ++ stop true :: rest) htakes
        (stops_stop after true rest) (by omega)
      have hkey := memberName_complete hname (hlength.1.trans (show _ ≤ fuel by omega))
      rw [containerLoop_eq hkey hvalue (ws_stop after true rest), if_pos (by simp)]

/-- A member before others is read with its comma. -/
theorem members_cons_taken {name : Name} {before after : Space} {node : Node} {members : Members}
    (hnode : ValueTaken node) (hmembers : MembersTaken members) :
    MembersTaken (.cons name before node after members) := by
  intro fuel depth keys rest hok hpos hfuel
  cases fuel with
  | zero => exact absurd hfuel (by omega)
  | succ fuel =>
      obtain ⟨hname, htakes, hrest⟩ := (membersOk_cons hpos).mp hok
      have htext : (Members.cons name before node after members).text ++ 0x7d :: rest =
          name.text ++ (before.1 ++ (node.text ++
            (after.1 ++ 0x2c :: (members.text ++ 0x7d :: rest)))) := by
        simp only [Members.text, List.append_assoc, List.cons_append]
      rw [htext] at hfuel ⊢
      have hlength := length_name name (before.1 ++ (node.text ++
        (after.1 ++ 0x2c :: (members.text ++ 0x7d :: rest))))
      have hbehind : (members.text ++ 0x7d :: rest).length < (before.1 ++ (node.text ++
          (after.1 ++ 0x2c :: (members.text ++ 0x7d :: rest)))).length := by
        simp only [List.length_append, List.length_cons]
        omega
      rw [ws_name]
      have hvalue := hnode fuel depth _ before
        (after.1 ++ 0x2c :: (members.text ++ 0x7d :: rest)) htakes
        (stops_comma after _) (by omega)
      have hkey := memberName_complete hname (hlength.1.trans (show _ ≤ fuel by omega))
      rw [containerLoop_eq hkey hvalue (ws_comma after _), if_neg (by decide),
        if_neg (by decide)]
      exact hmembers fuel depth _ rest hrest hpos (by omega)

/-- A container behind its opening bracket. -/
theorem containerToken_eq {fuel depth : Nat} {object : Bool} {b : UInt8} {tail : Bytes}
    (hdepth : depth + 1 ≤ 64) : containerToken (fuel + 1) object depth (b :: tail) =
      if (ws tail).head? == some (stop object) then .ok (ws tail).tail
      else containerLoop fuel object (depth + 1) [] (ws tail) := by
  rw [containerToken, if_neg (by omega)]
  rfl

theorem valueToken_container {rest tail : Bytes} {object : Bool} (fuel depth : Nat)
    (rootKey : Option Bytes) (hws : ws rest = (if object then 0x7b else 0x5b) :: tail) :
    valueToken (fuel + 1) depth rootKey rest =
      containerToken fuel object depth ((if object then 0x7b else 0x5b) :: tail) := by
  rw [valueToken, hws]
  cases object with
  | false => rfl
  | true => rfl

/-- A container is taken when what follows its opening bracket is. -/
theorem container_taken (object : Bool) {node : Node} {body : Bytes}
    (htext : node.text = (if object then 0x7b else 0x5b) :: (body ++ [stop object]))
    (hbody : ∀ fuel depth rootKey rest, Takes depth rootKey node →
      3 * (body ++ stop object :: rest).length + 2 ≤ fuel →
      containerToken (fuel + 1) object depth
        ((if object then 0x7b else 0x5b) :: (body ++ stop object :: rest)) = .ok rest) :
    ValueTaken node := by
  intro fuel depth rootKey before rest htakes hrest hfuel
  have hnode : node.text ++ rest =
      (if object then 0x7b else 0x5b) :: (body ++ stop object :: rest) := by
    rw [htext, List.cons_append, List.append_assoc]
    rfl
  have hws := ws_node before node rest
  rw [hnode] at hws hfuel ⊢
  rw [List.length_append, List.length_cons] at hfuel
  cases fuel with
  | zero => exact absurd hfuel (by omega)
  | succ fuel =>
      cases fuel with
      | zero => exact absurd hfuel (by omega)
      | succ fuel =>
          rw [valueToken_container _ _ _ hws]
          exact hbody fuel depth rootKey rest htakes (by omega)

theorem empty_taken (object : Bool) {node : Node} {space : Space}
    (htext : node.text = (if object then 0x7b else 0x5b) :: (space.1 ++ [stop object]))
    (hdepth : ∀ depth rootKey, Takes depth rootKey node → depth + 1 ≤ 64) : ValueTaken node := by
  refine container_taken object htext fun fuel depth rootKey rest htakes hfuel => ?_
  rw [containerToken_eq (hdepth depth rootKey htakes), ws_stop]
  simp

/-- An array is read when its elements are. -/
theorem array_taken {elements : Elements} (h : ElementsTaken elements) :
    ValueTaken (.array elements) := by
  refine container_taken false rfl fun fuel depth rootKey rest htakes hfuel => ?_
  have hok := takes_array.mp htakes
  have hnested := hok.nested
  have hhead : ((ws (elements.text ++ stop false :: rest)).head? == some (stop false)) = false := by
    cases elements with
    | last before node after =>
        obtain ⟨b, tail, htext, -, hb⟩ := node_head node
        rw [Elements.text, List.append_assoc, List.append_assoc, ws_node, htext]
        simpa [stop] using hb
    | cons before node after elements =>
        obtain ⟨b, tail, htext, -, hb⟩ := node_head node
        rw [Elements.text, List.append_assoc, List.append_assoc, ws_node, htext]
        simpa [stop] using hb
  rw [containerToken_eq (by omega), hhead, if_neg (by simp)]
  exact h fuel (depth + 1) rest hok (Nat.succ_pos depth) hfuel

/-- An object is read when its members are. -/
theorem object_taken {members : Members} (h : MembersTaken members) :
    ValueTaken (.object members) := by
  refine container_taken true rfl fun fuel depth rootKey rest htakes hfuel => ?_
  have hok := takes_object.mp htakes
  have hnested := hok.nested
  have hhead : ((ws (members.text ++ stop true :: rest)).head? == some (stop true)) = false := by
    cases members with
    | last name before node after =>
        rw [Members.text, List.append_assoc, ws_name]
        rfl
    | cons name before node after members =>
        rw [Members.text, List.append_assoc, ws_name]
        rfl
  rw [containerToken_eq (by omega), hhead, if_neg (by simp)]
  exact h fuel (depth + 1) [] rest hok (Nat.succ_pos depth) hfuel

mutual

theorem node_taken : (node : Node) → ValueTaken node
  | .word _ ok => word_taken ok
  | .number n => number_taken n
  | .string ps => string_taken ps
  | .emptyArray _ => empty_taken false rfl fun _ _ => takes_emptyArray.mp
  | .array elements => array_taken (elements_taken elements)
  | .emptyObject _ => empty_taken true rfl fun _ _ => takes_emptyObject.mp
  | .object members => object_taken (members_taken members)

theorem elements_taken : (elements : Elements) → ElementsTaken elements
  | .last _ node _ => elements_last_taken (node_taken node)
  | .cons _ node _ rest => elements_cons_taken (node_taken node) (elements_taken rest)

theorem members_taken : (members : Members) → MembersTaken members
  | .last _ _ node _ => members_last_taken (node_taken node)
  | .cons _ _ node _ rest => members_cons_taken (node_taken node) (members_taken rest)

end

/-! ## No read past the end -/

def ValueClean (fuel : Nat) : Prop :=
  ∀ depth rootKey rest, 0 ∉ rest → depth ≤ 64 → 3 * rest.length + 1 ≤ fuel →
    Clean (valueToken fuel depth rootKey rest)

def ContainerClean (fuel : Nat) : Prop :=
  ∀ object depth b tail, 0 ∉ tail → 3 * tail.length + 3 ≤ fuel →
    Clean (containerToken fuel object depth (b :: tail))

def LoopClean (fuel : Nat) : Prop :=
  ∀ object depth keys rest, 0 ∉ rest → depth ≤ 64 → 3 * rest.length + 2 ≤ fuel →
    Clean (containerLoop fuel object depth keys rest)

/-- The reader of a value ends with an answer when that of a container does. -/
theorem value_clean {fuel : Nat} (hcontainer : ContainerClean fuel) : ValueClean (fuel + 1) := by
  intro depth rootKey rest hzero hdepth hfuel
  have hskipped := ws_zero hzero
  have hlength := length_ws_le rest
  unfold valueToken
  refine clean_read fun b tail hws => .ite (fun _ => ?_) fun _ => .ite (fun _ => ?_) fun _ => ?_
  · rw [hws] at hskipped hlength ⊢
    rw [List.length_cons] at hlength
    exact hcontainer _ depth b tail (fun hmem => hskipped (List.mem_cons_of_mem _ hmem)) (by omega)
  · exact (clean_stringToken hskipped (by omega)).bind fun _ _ => .ite (fun _ => clean_invalid)
      fun _ => clean_ok _
  · cases wordEnd (ws rest) with
    | some behind => exact clean_ok behind
    | none => exact clean_numberToken rootKey (by rw [hws]; exact List.cons_ne_nil _ _)

theorem container_clean {fuel : Nat} (hloop : LoopClean fuel) : ContainerClean (fuel + 1) := by
  intro object depth b tail hzero hfuel
  have hlength := length_ws_le tail
  by_cases hdepth : depth + 1 ≤ 64
  · rw [containerToken_eq hdepth]
    exact .ite (fun _ => clean_ok _) fun _ =>
      hloop object (depth + 1) [] (ws tail) (ws_zero hzero) hdepth (by omega)
  · rw [containerToken, if_pos (by omega)]
    exact clean_invalid

/-- The rest of the text behind a name. -/
theorem memberName_rest {fuel : Nat} {object : Bool} {keys : List Bytes} {rest : Bytes}
    {name : Option Bytes × Bytes} (h : memberName fuel object keys rest = .ok name)
    (hzero : 0 ∉ rest) : 0 ∉ name.2 ∧ name.2.length ≤ rest.length := by
  cases object with
  | false =>
      cases h
      exact ⟨hzero, Nat.le_refl _⟩
  | true =>
      obtain ⟨ps, gap, htext, -, -⟩ := memberName_sound h hzero
      rw [htext] at hzero ⊢
      refine ⟨fun hmem => hzero (by simp [hmem]), ?_⟩
      simp only [List.length_append, List.length_cons]
      omega

/-- The loops end with an answer when the reader of a value does. -/
theorem loop_clean {fuel : Nat} (hvalue : ValueClean fuel) (hloop : LoopClean fuel) :
    LoopClean (fuel + 1) := by
  intro object depth keys rest hzero hdepth hfuel
  unfold containerLoop
  refine (clean_memberName hzero (by omega)).bind fun name hname => ?_
  obtain ⟨hbehind, hshort⟩ := memberName_rest hname hzero
  refine (hvalue depth _ name.2 hbehind hdepth (by omega)).bind fun left hleft => ?_
  obtain ⟨space, node, htext, -⟩ := (sound_run fuel).1 _ _ _ _ hleft hbehind hdepth
  have hend : 0 ∉ left ∧ left.length ≤ name.2.length := by
    rw [htext] at hbehind ⊢
    refine ⟨fun hmem => hbehind (by simp [hmem]), ?_⟩
    simp only [List.length_append]
    omega
  refine clean_read fun c tail hws => .ite (fun _ => clean_ok _) fun _ =>
    .ite (fun _ => clean_invalid) fun _ => ?_
  have hskipped := ws_zero hend.1
  have hlength := length_ws_le left
  have hlength' := length_ws_le tail
  rw [hws] at hskipped hlength
  rw [List.length_cons] at hlength
  exact hloop object depth _ (ws tail)
    (ws_zero fun hmem => hskipped (List.mem_cons_of_mem _ hmem)) hdepth (by omega)

/-- With the fuel that the text needs none of the readers runs out of it. -/
theorem clean_run (fuel : Nat) : ValueClean fuel ∧ ContainerClean fuel ∧ LoopClean fuel := by
  induction fuel with
  | zero =>
      refine ⟨?_, ?_, ?_⟩
      · intro depth rootKey rest hzero hdepth hfuel
        omega
      · intro object depth b tail hzero hfuel
        omega
      · intro object depth keys rest hzero hdepth hfuel
        omega
  | succ fuel ih =>
      obtain ⟨hvalue, hcontainer, hloop⟩ := ih
      exact ⟨value_clean hcontainer, container_clean hloop, loop_clean hvalue hloop⟩

/-! ## The guard -/

/-- A text that begins with a brace is that of an object. -/
theorem isObject_of_text {node : Node} {rest tail : Bytes}
    (h : node.text ++ rest = 0x7b :: tail) : node.isObject = true := by
  cases node with
  | word w ok =>
      simp only [words, List.mem_cons, List.not_mem_nil, or_false] at ok
      rcases ok with rfl | rfl | rfl
      · cases h
      · cases h
      · cases h
  | number n =>
      obtain ⟨b, digits, htext, hb⟩ := number_head n
      have hnode : n.text ++ rest = 0x7b :: tail := h
      rw [htext] at hnode
      exact absurd (List.cons.inj hnode).1 (ne_of_test hb (by decide))
  | string ps => cases h
  | emptyArray space => cases h
  | array elements => cases h
  | emptyObject space => rfl
  | object members => rfl

theorem text_of_isObject {node : Node} (h : node.isObject = true) :
    ∃ tail, node.text = 0x7b :: tail := by
  cases node with
  | emptyObject space => exact ⟨_, rfl⟩
  | object members => exact ⟨_, rfl⟩
  | word w ok => cases h
  | number n => cases h
  | string ps => cases h
  | emptyArray space => cases h
  | array elements => cases h

/-- What `load_json` tests before it looks for an object. -/
theorem tests_iff (data : Bytes) : (data.isEmpty || decide (manifestMaxBytes < data.length) ||
    data.contains 0 || !valid data) = false ↔
      1 ≤ data.length ∧ data.length ≤ manifestMaxBytes ∧ 0 ∉ data ∧ valid data = true := by
  simp only [Bool.or_eq_false_iff, decide_eq_false_iff_not, Nat.not_lt, Bool.not_eq_false',
    List.isEmpty_eq_false_iff, List.contains_eq_mem, and_assoc]
  rw [← List.length_pos_iff]
  rfl

/-- What the guard lets pass is accepted by the grammar. -/
theorem guard_sound {fuel : Nat} {data : Bytes} (h : lexicalGuard fuel data = .ok ()) :
    Accepted data := by
  unfold lexicalGuard at h
  split at h
  · cases h
  · rename_i hfirst
    obtain ⟨hne, hshort, hzero, hvalid⟩ := (tests_iff data).mp (by simpa using hfirst)
    obtain ⟨b, tail, hws, hread⟩ := read_eq_ok h
    by_cases hbrace : (b != 0x7b) = true
    · rw [if_pos hbrace] at hread
      cases hread
    · rw [if_neg hbrace] at hread
      obtain rfl : b = 0x7b := by simpa using hbrace
      obtain ⟨behind, hvalue, hend⟩ := bind_eq_ok.mp hread
      obtain ⟨before, hbefore⟩ := ws_split hzero
      obtain ⟨space, root, htext, htakes⟩ :=
        (sound_run fuel).1 _ _ _ _ hvalue (ws_zero hzero) (Nat.zero_le _)
      -- nothing is skipped a second time
      have hroot : ws data = root.text ++ behind := by
        rw [← ws_node space root behind, ← htext, ws_ws]
      have hbehind : 0 ∉ behind := by
        intro hmem
        apply ws_zero hzero
        rw [hroot]
        exact List.mem_append_right _ hmem
      obtain ⟨after, hafter⟩ := ws_split hbehind
      by_cases hempty : (ws behind).isEmpty = true
      · rw [List.isEmpty_iff.mp hempty, List.append_nil] at hafter
        refine ⟨hne, hshort, hzero, hvalid, root, ?_, ⟨before, after, ?_⟩, ?_, htakes.strict,
          htakes.root rfl⟩
        · exact isObject_of_text (hroot.symm.trans hws)
        · rw [← hafter, ← hroot, ← hbefore]
        · have hnested := htakes.nested
          omega
      · rw [if_neg hempty] at hend
        cases hend

/-- What the grammar accepts the guard lets pass. -/
theorem guard_complete {fuel : Nat} {data : Bytes} (h : Accepted data)
    (hfuel : 3 * data.length < fuel) : lexicalGuard fuel data = .ok () := by
  obtain ⟨root, hroot⟩ := h.root
  obtain ⟨before, after, hdata⟩ := hroot.text
  obtain ⟨tail, htail⟩ := text_of_isObject hroot.object
  have hws : ws data = root.text ++ after.1 := by rw [hdata, ws_node]
  have hlength := length_ws_le data
  have htakes : Takes 0 none root :=
    ⟨by rw [Nat.zero_add]; exact hroot.nested, hroot.strict, memberOk_none root,
      fun _ => hroot.members⟩
  have hvalue := node_taken root fuel 0 none Space.none after.1 htakes (stops_end after) (by
    show 3 * (root.text ++ after.1).length + 1 ≤ fuel
    rw [hws] at hlength
    omega)
  have hend : ws after.1 = [] := by
    rw [← List.append_nil after.1, ws_append]
    rfl
  have htests := (tests_iff data).mpr ⟨h.nonempty, h.short, h.terminated, h.utf8⟩
  rw [lexicalGuard, htests, if_neg (by simp), hws, htail]
  show (valueToken fuel 0 none (0x7b :: tail ++ after.1) >>= _) = _
  rw [← htail]
  show (valueToken fuel 0 none (Space.none.1 ++ (root.text ++ after.1)) >>= _) = _
  rw [hvalue]
  show (if (ws after.1).isEmpty then _ else _) = _
  rw [hend]
  rfl

theorem guard_clean {fuel : Nat} {data : Bytes} (hfuel : 3 * data.length < fuel) :
    Clean (lexicalGuard fuel data) := by
  unfold lexicalGuard
  refine .ite (fun _ => clean_invalid) fun hfirst => ?_
  obtain ⟨-, -, hzero, -⟩ := (tests_iff data).mp (by simpa using hfirst)
  have hlength := length_ws_le data
  exact clean_read fun b tail _ => .ite (fun _ => clean_invalid) fun _ =>
    ((clean_run fuel).1 0 none (ws data) (ws_zero hzero) (Nat.zero_le _) (by omega)).bind
      fun _ _ => .ite (fun _ => clean_ok _) fun _ => clean_invalid

/-- The guard reads nothing past the end, ends, and takes exactly the manifests it is to
take. -/
theorem lexical_guard (data : Bytes) {fuel : Nat} (hfuel : 3 * data.length < fuel) :
    (lexicalGuard fuel data = .ok () ∨ lexicalGuard fuel data = .error .invalid) ∧
      (lexicalGuard fuel data = .ok () ↔ Accepted data) := by
  refine ⟨?_, guard_sound, fun h => guard_complete h hfuel⟩
  cases hrun : lexicalGuard fuel data with
  | ok u => exact .inl rfl
  | error e => exact .inr (by rw [guard_clean hfuel e hrun])

/-- An escaped name is one name with the plain one. -/
theorem lexical_guard_escaped_name :
    Accepted (ascii " \x7b\"si\\u007ae\": 3, \"notes\": [\"\\uD83D\\uDE00\", -1e5]\x7d ") ∧
      ¬ Accepted (ascii "\x7b\"size\": 3, \"si\\u007ae\": 3\x7d") := by
  have htaken := lexical_guard
    (ascii " \x7b\"si\\u007ae\": 3, \"notes\": [\"\\uD83D\\uDE00\", -1e5]\x7d ")
    (show _ < 200 by decide)
  have hrefused := lexical_guard (ascii "\x7b\"size\": 3, \"si\\u007ae\": 3\x7d")
    (show _ < 100 by decide)
  have hrun : lexicalGuard 100 (ascii "\x7b\"size\": 3, \"si\\u007ae\": 3\x7d") ≠ .ok () := by
    decide +kernel
  exact ⟨htaken.2.mp (by decide +kernel), fun h => hrun (hrefused.2.mpr h)⟩

end EdgeGuard.Agent.ManifestGrammar
