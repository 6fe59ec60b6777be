import EdgeGuard.Agent.Download
import EdgeGuard.Agent.ManifestGrammar
import EdgeGuard.Base.JsonObject
import EdgeGuard.Base.JsonSize
import EdgeGuard.Base.JsonTree
import EdgeGuard.Base.Scan

/-!
# Reading manifests and release identities

The part of `manifest.c` behind the lexical guard: the fields of the object, the file of
the local release, and the request for the manifest.

`manifest_body` gets one byte string instead of `size` and `count`.  The transport is the
list of the pieces that libcurl hands over, its result and the status.

## Main results

* `accepted_generate` — the guard takes what is generated for an object of simple values.
* `manifestOf_members` — an object with the members of a manifest is read as that
  manifest, or not at all.
* `otaReleaseLoad_file` — the release of a file does not depend on how it is read.
-/

namespace EdgeGuard.Agent.ManifestParse

open EdgeGuard.Base EdgeGuard.Base.CText EdgeGuard.Base.Utf8 EdgeGuard.Base.Json
open EdgeGuard.Base.JsonObject EdgeGuard.Base.JsonSize EdgeGuard.Base.JsonTree EdgeGuard.Base.Scan
open EdgeGuard.Agent.Model EdgeGuard.Agent.Release EdgeGuard.Agent.Download
open EdgeGuard.Agent.ManifestLexer EdgeGuard.Agent.ManifestTokens EdgeGuard.Agent.ManifestGrammar

/-! ## Fields -/

/-- The text is not empty and has room in a buffer. -/
def textFits (cap : Nat) (s : Bytes) : Bool := !s.isEmpty && s.length < cap

/-- `text_field`; the member is read as a string of C. -/
def textField (o : Members) (key : Bytes) (cap : Nat) : Option Bytes :=
  match o.find key with
  | some (.str value) => if textFits cap (cString value) then some (cString value) else none
  | _ => none

/-- The object of `load_json`. -/
def loadJson (J : JsonParser) (data : Bytes) : Option Members :=
  match lexicalGuard (3 * data.length + 1) data with
  | .ok () =>
      match J.load data with
      | some (.obj o) => some o
      | _ => none
  | .error _ => none

/-- The fields that `ota_manifest_parse` reads. -/
def manifestOf (o : Members) : Option OtaManifest := do
  let schemaVersion ← integerMember o (ascii "schema_version")
  if schemaVersion != 1 then none
  let size ← integerMember o (ascii "size")
  if size ≤ 0 then none
  let mandatory ← booleanMember o (ascii "mandatory")
  let deviceCompatible ← textField o (ascii "device_compatible") otaTextCap
  let version ← textField o (ascii "version") otaTextCap
  let buildId ← textField o (ascii "build_id") otaTextCap
  let artifactUrl ← textField o (ascii "artifact_url") otaPathCap
  let sha256 ← textField o (ascii "sha256") otaSha256Cap
  return {
    schemaVersion := 1, deviceCompatible, version, buildId, artifactUrl, sha256,
    size := size.toNat, mandatory }

/-- `ota_manifest_parse`. -/
def otaManifestParse (J : JsonParser) (data : Bytes) : Except OtaError OtaManifest :=
  match (loadJson J data).bind manifestOf with
  | some m => (otaManifestValidate m).map fun _ => m
  | none => .error (otaErrorSet .manifestInvalid
      (ascii "Invalid manifest JSON, missing field or wrong field type"))

/-- The fields that `ota_release_parse` reads. -/
def releaseOf (o : Members) : Option OtaRelease := do
  let schemaVersion ← integerMember o (ascii "schema_version")
  if schemaVersion != 1 then none
  let deviceCompatible ← textField o (ascii "device_compatible") otaTextCap
  let raucCompatible ← textField o (ascii "rauc_compatible") otaTextCap
  let version ← textField o (ascii "version") otaTextCap
  let buildId ← textField o (ascii "build_id") otaTextCap
  return { schemaVersion := 1, deviceCompatible, raucCompatible, version, buildId }

/-- `ota_release_parse`. -/
def otaReleaseParse (J : JsonParser) (data : Bytes) : Except OtaError OtaRelease :=
  match (loadJson J data).bind releaseOf with
  | some r =>
      if otaReleaseValidate r matches .ok () then .ok r
      else .error (otaErrorSet .localReleaseInvalid
        (ascii "Invalid or missing local release JSON field"))
  | none => .error (otaErrorSet .localReleaseInvalid
      (ascii "Invalid or missing local release JSON field"))

/-! ## The file of the local release -/

/-- What a call of `read` comes to; a read that moves something says how much more than
one byte it would take. -/
inductive ReadTurn
  | interrupted
  | failed
  | moved (more : Nat)
  deriving DecidableEq, Repr

/-- The loop of `ota_release_load`: the bytes up to the end of the file.  The list of the
turns ends where a call fails. -/
def readAll : List ReadTurn → Bytes → Bytes → Option Bytes
  | [], _, _ => none
  | turn :: turns, used, rest =>
      if manifestMaxBytes < used.length then none
      else
        match turn with
        | .interrupted => readAll turns used rest
        | .failed => none
        | .moved more =>
            if rest.isEmpty then some used
            else
              let count := min (more + 1) (manifestMaxBytes + 1 - used.length)
              readAll turns (used ++ rest.take count) (rest.drop count)

/-- What `open` and `fstat` say of a path. -/
inductive ReleaseFile
  | unavailable
  | irregular
  | regular (data : Bytes)
  deriving DecidableEq, Repr

/-- `ota_release_load`. -/
def otaReleaseLoad (J : JsonParser) (file : ReleaseFile) (turns : List ReadTurn) :
    Except OtaError OtaRelease :=
  let failed := otaErrorSet .localReleaseInvalid
    (ascii "Cannot load a valid bounded local release identity")
  match file with
  | .unavailable => .error failed
  | .irregular => .error failed
  | .regular content =>
      if content.isEmpty || manifestMaxBytes < content.length then .error failed
      else
        match readAll turns [] content with
        | some data => (otaReleaseParse J data).mapError fun _ => failed
        | none => .error failed

/-! ## The request for the manifest -/

/-- `ManifestBody`. -/
structure ManifestBody where
  bytes : Bytes
  limit : Nat
  overflow : Bool
  deriving DecidableEq, Repr

/-- `manifest_body`, and whether it takes the piece. -/
def manifestBody (b : ManifestBody) (data : Bytes) : ManifestBody × Bool :=
  if b.limit - b.bytes.length < data.length then ({ b with overflow := true }, false)
  else ({ b with bytes := b.bytes ++ data }, true)

/-- The pieces that libcurl hands over, up to the first one that is not taken. -/
def bodyPieces (b : ManifestBody) : List Bytes → ManifestBody × Bool
  | [] => (b, true)
  | piece :: pieces =>
      if (manifestBody b piece).2 then bodyPieces (manifestBody b piece).1 pieces
      else ((manifestBody b piece).1, false)

/-- A transfer: the body in pieces, and the result and the status where every piece is
taken. -/
structure ManifestTransfer where
  pieces : List Bytes
  result : Nat
  status : Nat
  deriving DecidableEq, Repr

/-- What `ota_manifest_fetch` returns: `available` with the manifest itself. -/
structure FetchReply where
  result : Except OtaError (Option OtaManifest)
  retryable : Bool

/-- `%s` of the error of a transfer. -/
def overflowText (overflow : Bool) : Bytes := if overflow then ascii ", body exceeds limit" else []

/-- The part of `ota_manifest_fetch` behind the transfer. -/
def fetchReply (J : JsonParser) (body : ManifestBody) (result status : Nat) : FetchReply :=
  let retryable := otaHttpRetryable result status
  if result != curlOk || (status != 200 && status != 204) then
    let code := if body.overflow && status == 200 then .manifestInvalid else .manifestHttp
    ⟨.error (otaErrorSet code (ascii "Manifest HTTP " ++ decimal status ++
      ascii ", transport " ++ decimal result ++ overflowText body.overflow)), retryable⟩
  else if status == 204 then ⟨.ok none, retryable⟩
  else ⟨(otaManifestParse J body.bytes).map some, retryable⟩

/-- `ota_manifest_fetch`. -/
def otaManifestFetch (J : JsonParser) (curl : Bool) (config : OtaConfig)
    (transfer : ManifestTransfer) : FetchReply :=
  if config.maxManifestBytes == 0 || manifestMaxBytes < config.maxManifestBytes then
    ⟨.error (otaErrorSet .manifestInvalid (ascii "Invalid manifest output or size limit")), false⟩
  else
    match otaHttpOpen curl config config.manifestPath .manifestHttp with
    | .error error => ⟨.error error, false⟩
    | .ok _ =>
        let received := bodyPieces ⟨[], config.maxManifestBytes, false⟩ transfer.pieces
        fetchReply J received.1 (if received.2 then transfer.result else curlWriteError)
          transfer.status

/-! ## What the guard takes -/

/-- The integers that `value_token` bounds are small enough. -/
def IntegersFit (ms : Members) : Prop :=
  ∀ e ∈ entries ms, e.1 ∈ integerKeys → ∀ n, e.2 = .int n → n ≤ int64Max

/-- A number in the tree of a written value is one that was written. -/
theorem intValue_of_scalar {v : Value} (hv : Writable v) {number : JsonGrammar.Number}
    (h : nodeOf v = .number number) :
    ∃ n : Int, v = .int n ∧ number = numberOf n.toNat := by
  cases v with
  | null => cases h
  | bool b => cases b <;> cases h
  | int n =>
      cases h
      exact ⟨n, rfl, rfl⟩
  | double token => cases hv
  | str s => cases h
  | arr items => cases h
  | obj ms => cases ms <;> cases h

/-- A member of a written object is one that the guard takes at the root. -/
theorem memberOk_written {k : Bytes} {v : Value} (hv : Writable v)
    (hfits : k ∈ integerKeys → ∀ n, v = .int n → n ≤ int64Max) :
    MemberOk (some k) (nodeOf v) := by
  unfold MemberOk
  split
  · rename_i ps hnode
    rintro key - -
    have hmem : ps ∈ (nodeOf v).strings := by
      rw [hnode]
      exact List.mem_singleton_self ps
    obtain ⟨s, -, rfl⟩ := strings_nodeOf v hv ps hmem
    exact hasZero_piecesOf s
  · rename_i number hnode
    obtain ⟨n, rfl, rfl⟩ := intValue_of_scalar hv hnode
    intro key hkey hinteger
    obtain rfl := Option.some.inj hkey
    have hbound := hfits hinteger n rfl
    have hnonneg : 0 ≤ n := hv
    rw [text_numberOf]
    refine ⟨isDigit_of_mem_decimal _, ?_⟩
    rw [decimalValue_decimal]
    omega
  · trivial

/-- Names that are written are distinct. -/
theorem distinct_of_written {o : JsonGrammar.Members} (h : WrittenKeys o) : Distinct o := by
  obtain ⟨names, hkeys, hnodup, hall⟩ := h
  have hdecoded : o.keys.map JsonGrammar.decode = names.map some := by
    rw [hkeys, List.map_map]
    exact List.map_congr_left fun k hk => decode_piecesOf (hall k hk).written
  constructor
  · rw [hdecoded]
    exact List.pairwise_map.mpr (hnodup.imp fun hne heq => hne (Option.some.inj heq))
  · intro key hkey
    rw [hkeys] at hkey
    obtain ⟨k, -, rfl⟩ := List.mem_map.mp hkey
    exact hasZero_piecesOf k

theorem strict_written {v : Value} (h : Writable v) :
    Strict (nodeOf v).strings (nodeOf v).objects := by
  constructor
  · intro ps hps
    obtain ⟨s, hs, rfl⟩ := strings_nodeOf v h ps hps
    rw [decode_piecesOf hs.written]
    simp
  · intro o ho
    exact distinct_of_written (objects_nodeOf v h o ho)

theorem writable_of_entry : ∀ {ms : Members}, WritableMembers ms →
    ∀ e ∈ entries ms, TextOk e.1 ∧ Writable e.2
  | .cons k v rest, ⟨hk, _, hv, hrest⟩, e, he => by
      rcases List.mem_cons.mp he with rfl | he
      · exact ⟨hk, hv⟩
      · exact writable_of_entry hrest e he

theorem not_mem_nul_of_generate {ms : Members} (h : WritableMembers ms) :
    (0 : UInt8) ∉ generate (.obj ms) :=
  not_mem_nul_of_valid (valid_generate (v := .obj ms) h)

/-- The guard takes what is generated for an object of simple values, as long as the text
is short and the integers it bounds are small. -/
theorem accepted_generate {k : Bytes} {v : Value} {rest : Members}
    (h : WritableMembers (.cons k v rest))
    (hscalar : ∀ e ∈ entries (.cons k v rest), isScalar e.2 = true)
    (hfits : IntegersFit (.cons k v rest))
    (hlength : (generate (.obj (.cons k v rest))).length ≤ manifestMaxBytes) :
    Accepted (generate (.obj (.cons k v rest))) := by
  have htext := text_nodeOf (.obj (.cons k v rest)) h
  refine ⟨?_, hlength, not_mem_nul_of_generate h, valid_generate h,
    nodeOf (.obj (.cons k v rest)), ?_⟩
  · simp [generate]
  · constructor
    · rfl
    · refine ⟨JsonGrammar.Space.none, JsonGrammar.Space.none, ?_⟩
      rw [htext]
      exact (List.append_nil _).symm
    · have hhead := depth_scalar (hscalar (k, v) List.mem_cons_self) h.2.2.1
      have hdepth := depth_membersOf k hhead rest h.2.2.2
        fun e he => hscalar e (List.mem_cons_of_mem _ he)
      rw [nodeOf, JsonGrammar.Node.depth, hdepth]
      decide
    · exact strict_written (v := .obj (.cons k v rest)) h
    · show FieldsOk (membersOf k (nodeOf v) rest).fields
      intro field hfield
      rw [fields_membersOf] at hfield
      obtain ⟨e, he, rfl⟩ := List.mem_map.mp hfield
      obtain ⟨hname, hvalue⟩ := writable_of_entry h e he
      rw [decode_piecesOf hname.written]
      exact memberOk_written hvalue fun hkey => hfits e he hkey

theorem loadJson_generate (J : JsonParser) {ms : Members} (h : WritableMembers ms)
    (hrange : InRangeMembers ms) (haccepted : Accepted (generate (.obj ms))) :
    loadJson J (generate (.obj ms)) = some ms := by
  rw [loadJson, guard_complete haccepted (Nat.lt_succ_self _), J.load_generate ms h hrange]

/-! ## What the guard refuses -/

/-- The guard goes through the members of an object. -/
theorem loop_of_guard {fuel : Nat} {k tail : Bytes}
    (h : lexicalGuard (fuel + 3) (0x7b :: (quote k ++ tail)) = .ok ()) :
    ∃ rest, containerLoop (fuel + 1) true 1 [] (quote k ++ tail) = .ok rest := by
  have hws : ws (0x7b :: (quote k ++ tail)) = 0x7b :: (quote k ++ tail) := ws_cons (by decide) _
  have hname : ws (quote k ++ tail) = quote k ++ tail := ws_cons (by decide) _
  unfold lexicalGuard at h
  split at h
  · cases h
  · obtain ⟨b, behind, -, hread⟩ := read_eq_ok h
    split at hread
    · cases hread
    · obtain ⟨rest, hvalue, -⟩ := bind_eq_ok.mp hread
      rw [hws, @valueToken_container _ _ true _ _ _ hws, if_pos rfl,
        containerToken_eq (by decide), hname, if_neg (by simp [quote, stop])] at hvalue
      exact ⟨rest, hvalue⟩

/-- The name of a written member is read as it is. -/
theorem memberName_written {fuel : Nat} {keys : List Bytes} {k rest : Bytes} (hk : TextOk k)
    (hnew : k ∉ keys) (hfuel : (quote k ++ 0x3a :: rest).length ≤ fuel) :
    memberName fuel true keys (quote k ++ 0x3a :: rest) = .ok (some k, rest) := by
  have hdecode := decode_piecesOf hk.written
  have htext := stringText_piecesOf hk.written
  have hok : NameOk keys (piecesOf k) := by
    refine ⟨by rw [hdecode]; simp, hasZero_piecesOf k, ?_⟩
    rw [hdecode]
    rintro name ⟨⟩
    exact hnew
  rw [← htext, ← hdecode]
  refine @memberName_complete fuel keys (piecesOf k) JsonGrammar.Space.none _ hok ?_
  rw [htext]
  exact hfuel

/-- A simple value that is read is read to its end, and a bounded integer is small. -/
theorem scalar_read {k : Bytes} {v : Value} (hv : Writable v) (hscalar : isScalar v = true)
    {fuel : Nat} {rest left : Bytes} (hrest : Stops rest)
    (hfuel : 3 * (generate v ++ rest).length + 1 ≤ fuel)
    (h : valueToken fuel 1 (some k) (generate v ++ rest) = .ok left) :
    left = rest ∧ (k ∈ integerKeys → ∀ n, v = .int n → n ≤ int64Max) := by
  have htext := text_nodeOf v hv
  by_cases hint : ∃ n, v = .int n
  · obtain ⟨n, rfl⟩ := hint
    cases fuel with
    | zero => exact absurd hfuel (by omega)
    | succ fuel =>
        have hnumber := valueToken_number (numberOf n.toNat) JsonGrammar.Space.none rest fuel 1
          (some k)
        rw [show (JsonGrammar.Node.number (numberOf n.toNat)).text = generate (.int n)
          from htext] at hnumber
        obtain ⟨hmember, rfl⟩ := (numberToken_ok_iff hrest).mp (hnumber.symm.trans h)
        refine ⟨rfl, ?_⟩
        rintro hkey _ ⟨⟩
        have hbound := (hmember k rfl hkey).2
        rw [text_numberOf, decimalValue_decimal] at hbound
        have hnonneg : 0 ≤ n := hv
        omega
  · have hother : ∀ n, v ≠ .int n := fun n hn => hint ⟨n, hn⟩
    have htakes : Takes 1 (some k) (nodeOf v) :=
      ⟨by rw [depth_scalar hscalar hv]; decide, strict_written hv,
        memberOk_written hv fun _ n hn => absurd hn (hother n), fun hzero => by cases hzero⟩
    have hread := node_taken (nodeOf v) fuel 1 (some k) JsonGrammar.Space.none rest htakes hrest
      (by rw [htext]; exact hfuel)
    rw [htext] at hread
    exact ⟨(Except.ok.inj (hread.symm.trans h)).symm, fun _ n hn => absurd hn (hother n)⟩

theorem stops_generateMembers (ms : Members) : Stops (generateMembers ms) := by
  cases ms with
  | nil => exact stops_stop JsonGrammar.Space.none true []
  | cons k v rest => exact stops_comma JsonGrammar.Space.none _

/-- A round of the loop over written members reads one of them. -/
theorem round_read {ms : Members} {k rest' : Bytes} {v : Value} {keys : List Bytes} {fuel : Nat}
    (hw : WritableMembers (.cons k v ms))
    (hscalar : ∀ e ∈ entries (.cons k v ms), isScalar e.2 = true)
    (hnew : ∀ name ∈ k :: ms.names, name ∉ keys)
    (hfuel : 3 * (quote k ++ 0x3a :: (generate v ++ generateMembers ms)).length + 2 ≤ fuel)
    (h : containerLoop fuel true 1 keys
      (quote k ++ 0x3a :: (generate v ++ generateMembers ms)) = .ok rest') :
    (k ∈ integerKeys → ∀ n, v = .int n → n ≤ int64Max) ∧
      ∀ k' v' rest, ms = .cons k' v' rest → ∃ fuel',
        3 * (quote k' ++ 0x3a :: (generate v' ++ generateMembers rest)).length + 2 ≤ fuel' ∧
        containerLoop fuel' true 1 (k :: keys)
          (quote k' ++ 0x3a :: (generate v' ++ generateMembers rest)) = .ok rest' := by
  cases fuel with
  | zero => exact absurd hfuel (by omega)
  | succ fuel =>
      obtain ⟨key, behind, left, c, tail, hname, hvalue, hws, hnext⟩ := containerLoop_ok h
      have hread := memberName_written hw.1 (hnew k List.mem_cons_self)
        (show (quote k ++ 0x3a :: (generate v ++ generateMembers ms)).length ≤ fuel by omega)
      obtain ⟨rfl, rfl⟩ := Prod.mk.inj (Except.ok.inj (hname.symm.trans hread))
      simp only [List.length_append, List.length_cons] at hfuel
      have hlong : 3 * (generate v ++ generateMembers ms).length + 1 ≤ fuel := by
        rw [List.length_append]
        omega
      obtain ⟨rfl, hfits⟩ := scalar_read hw.2.2.1 (hscalar (k, v) List.mem_cons_self)
        (stops_generateMembers ms) hlong hvalue
      refine ⟨hfits, ?_⟩
      rintro k' v' rest rfl
      have hcomma : ws (generateMembers (.cons k' v' rest)) = 0x2c ::
          (quote k' ++ 0x3a :: (generate v' ++ generateMembers rest)) := ws_cons (by decide) _
      obtain ⟨rfl, rfl⟩ := List.cons.inj (hcomma.symm.trans hws)
      rcases hnext with ⟨hstop, -⟩ | ⟨-, hloop⟩
      · exact absurd hstop (by decide)
      · rw [show ws (quote k' ++ 0x3a :: (generate v' ++ generateMembers rest)) = _
          from ws_cons (by decide) _] at hloop
        refine ⟨fuel, ?_, hloop⟩
        simp only [generateMembers, List.length_append, List.length_cons] at hfuel ⊢
        omega

/-- Behind every member that the loop reads stands the rest of the members. -/
theorem integersFit_of_loop {rest' : Bytes} (ms : Members) : ∀ {k : Bytes} {v : Value}
    {keys : List Bytes} {fuel : Nat}, WritableMembers (.cons k v ms) →
    (∀ e ∈ entries (.cons k v ms), isScalar e.2 = true) →
    (∀ name ∈ k :: ms.names, name ∉ keys) →
    3 * (quote k ++ 0x3a :: (generate v ++ generateMembers ms)).length + 2 ≤ fuel →
    containerLoop fuel true 1 keys (quote k ++ 0x3a :: (generate v ++ generateMembers ms)) =
      .ok rest' →
    IntegersFit (.cons k v ms) := by
  induction ms using Members.names.induct with
  | case1 =>
      intro k v keys fuel hw hscalar hnew hfuel h
      obtain ⟨hfits, -⟩ := round_read hw hscalar hnew hfuel h
      intro e he
      obtain rfl := List.mem_singleton.mp he
      exact hfits
  | case2 k' v' ms ih =>
      intro k v keys fuel hw hscalar hnew hfuel h
      obtain ⟨hfits, hnext⟩ := round_read hw hscalar hnew hfuel h
      intro e he
      rcases List.mem_cons.mp he with rfl | he
      · exact hfits
      · obtain ⟨fuel', hfuel', hloop⟩ := hnext k' v' ms rfl
        refine ih hw.2.2.2 (fun e he => hscalar e (List.mem_cons_of_mem _ he)) ?_ hfuel' hloop e he
        intro name hname hmem
        rcases List.mem_cons.mp hmem with rfl | hmem
        · exact hw.2.1 hname
        · exact hnew name (List.mem_cons_of_mem _ hname) hmem

/-- The integers of an object that the guard takes are small enough. -/
theorem integersFit_of_guard {k : Bytes} {v : Value} {rest : Members} {fuel : Nat}
    (h : WritableMembers (.cons k v rest))
    (hscalar : ∀ e ∈ entries (.cons k v rest), isScalar e.2 = true)
    (hfuel : 3 * (generate (.obj (.cons k v rest))).length + 1 ≤ fuel)
    (hguard : lexicalGuard fuel (generate (.obj (.cons k v rest))) = .ok ()) :
    IntegersFit (.cons k v rest) := by
  have hlength : (generate (.obj (.cons k v rest))).length =
      (quote k ++ 0x3a :: (generate v ++ generateMembers rest)).length + 1 := by
    rw [generate, List.length_cons]
  obtain ⟨fuel, rfl⟩ : ∃ n, fuel = n + 3 := ⟨fuel - 3, by omega⟩
  rw [generate] at hguard
  obtain ⟨rest', hloop⟩ := loop_of_guard hguard
  exact integersFit_of_loop rest h hscalar (by simp) (by omega) hloop

/-- Whether the guard takes it or not, generated text is not loaded as another object. -/
theorem loadJson_of_generate {J : JsonParser} {k : Bytes} {v : Value} {rest o : Members}
    (h : WritableMembers (.cons k v rest))
    (hscalar : ∀ e ∈ entries (.cons k v rest), isScalar e.2 = true)
    (hrange : IntegersFit (.cons k v rest) → InRangeMembers (.cons k v rest))
    (hload : loadJson J (generate (.obj (.cons k v rest))) = some o) : o = .cons k v rest := by
  unfold loadJson at hload
  split at hload
  · rename_i hguard
    have hfits := integersFit_of_guard h hscalar (Nat.le_refl _) hguard
    rw [J.load_generate _ h (hrange hfits)] at hload
    exact (Option.some.inj hload).symm
  · cases hload

/-- A sign is not part of an integer that the guard bounds. -/
theorem numberToken_sign {k tail rest : Bytes} (hkey : k ∈ integerKeys) :
    numberToken (some k) (0x2d :: tail) ≠ .ok rest := by
  intro h
  obtain ⟨n, htext, hmember⟩ := numberToken_sound h
  have hdigits := (hmember k rfl hkey).1
  cases hnumber : n.text with
  | nil =>
      have hwhole : n.whole.1 = [] := by
        simp only [JsonGrammar.Number.text, List.append_eq_nil_iff] at hnumber
        exact hnumber.1.1.2
      exact n.whole.2.1 hwhole
  | cons b text =>
      rw [hnumber, List.cons_append] at htext
      obtain ⟨rfl, -⟩ := List.cons.inj htext
      have hdigit := hdigits 0x2d (by rw [hnumber]; exact List.mem_cons_self)
      exact absurd hdigit (by decide)

/-- A sign in front of a known integer is refused. -/
theorem containerLoop_sign {k tail rest : Bytes} {fuel : Nat} (hk : TextOk k)
    (hkey : k ∈ integerKeys) (hfuel : (quote k ++ 0x3a :: 0x2d :: tail).length ≤ fuel) :
    containerLoop (fuel + 1) true 1 [] (quote k ++ 0x3a :: 0x2d :: tail) ≠ .ok rest := by
  intro h
  obtain ⟨key, behind, left, _, _, hname, hvalue, -⟩ := containerLoop_ok h
  have hread := memberName_written hk List.not_mem_nil hfuel
  obtain ⟨rfl, rfl⟩ := Prod.mk.inj (Except.ok.inj (hname.symm.trans hread))
  cases fuel with
  | zero => cases hvalue
  | succ fuel =>
      rw [valueToken_scalar (ws_cons (by decide) tail) (by decide) (by decide)] at hvalue
      exact numberToken_sign hkey hvalue

/-- The guard refuses a negative number at the first member of the root. -/
theorem loadJson_sign (J : JsonParser) {k : Bytes} (hk : TextOk k) (hkey : k ∈ integerKeys)
    (tail : Bytes) : loadJson J (0x7b :: (quote k ++ 0x3a :: 0x2d :: tail)) = none := by
  have hrefused : ∀ fuel, (quote k ++ 0x3a :: 0x2d :: tail).length ≤ fuel →
      lexicalGuard (fuel + 3) (0x7b :: (quote k ++ 0x3a :: 0x2d :: tail)) ≠ .ok () := by
    intro fuel hfuel h
    obtain ⟨rest, hloop⟩ := loop_of_guard h
    exact containerLoop_sign hk hkey hfuel hloop
  unfold loadJson
  split
  · rename_i hguard
    refine absurd hguard (hrefused (3 * (quote k ++ 0x3a :: 0x2d :: tail).length + 1) ?_)
    omega
  · rfl

/-! ## Reading the members of a manifest -/

/-- The members of a manifest, in the order of the server. -/
def manifestMembers (m : OtaManifest) : List (Bytes × Value) :=
  [(ascii "schema_version", .int m.schemaVersion),
    (ascii "device_compatible", .str m.deviceCompatible), (ascii "version", .str m.version),
    (ascii "build_id", .str m.buildId), (ascii "artifact_url", .str m.artifactUrl),
    (ascii "sha256", .str m.sha256), (ascii "size", .int m.size),
    (ascii "mandatory", .bool m.mandatory)]

/-- The names of the members. -/
def manifestNames : List Bytes :=
  [ascii "schema_version", ascii "device_compatible", ascii "version", ascii "build_id",
    ascii "artifact_url", ascii "sha256", ascii "size", ascii "mandatory"]

/-- The texts of a manifest. -/
def manifestTexts (m : OtaManifest) : List Bytes :=
  [m.deviceCompatible, m.version, m.buildId, m.artifactUrl, m.sha256]

/-- What `ota_manifest_parse` asks of the fields before they are validated. -/
structure FieldsFit (m : OtaManifest) : Prop where
  schemaVersion : m.schemaVersion = 1
  size : 0 < m.size
  deviceCompatible : textFits otaTextCap m.deviceCompatible = true
  version : textFits otaTextCap m.version = true
  buildId : textFits otaTextCap m.buildId = true
  artifactUrl : textFits otaPathCap m.artifactUrl = true
  sha256 : textFits otaSha256Cap m.sha256 = true

theorem manifestNames_eq (m : OtaManifest) : (manifestMembers m).map Prod.fst = manifestNames :=
  rfl

/-- A member is one of the two numbers, the truth value, or a text. -/
inductive MemberOf (m : OtaManifest) : Value → Prop
  | schemaVersion : MemberOf m (.int m.schemaVersion)
  | size : MemberOf m (.int m.size)
  | mandatory : MemberOf m (.bool m.mandatory)
  | text {s : Bytes} (h : s ∈ manifestTexts m) : MemberOf m (.str s)

/-- Each member of the object has its value from the manifest. -/
theorem memberOf_manifest {m : OtaManifest} : ∀ e ∈ manifestMembers m, MemberOf m e.2 := by
  intro e he
  simp only [manifestMembers, List.mem_cons, List.not_mem_nil, or_false] at he
  rcases he with rfl | rfl | rfl | rfl | rfl | rfl | rfl | rfl
  · exact .schemaVersion
  · exact .text (by simp [manifestTexts])
  · exact .text (by simp [manifestTexts])
  · exact .text (by simp [manifestTexts])
  · exact .text (by simp [manifestTexts])
  · exact .text (by simp [manifestTexts])
  · exact .size
  · exact .mandatory

theorem textOk_manifestNames : ∀ k ∈ manifestNames, TextOk k := by
  have hsimple : ∀ k ∈ manifestNames, k.all isSimple = true := by decide
  exact fun k hk => textOk_of_simple (hsimple k hk)

/-- A manifest of texts can be written. -/
theorem writable_manifest {m : OtaManifest} (htexts : ∀ s ∈ manifestTexts m, TextOk s)
    (hschema : 0 ≤ m.schemaVersion) : WritableMembers (members (manifestMembers m)) := by
  have hwritable : ∀ e ∈ manifestMembers m, TextOk e.1 ∧ Writable e.2 := by
    rintro ⟨key, value⟩ he
    constructor
    · refine textOk_manifestNames key ?_
      rw [← manifestNames_eq m]
      exact List.mem_map_of_mem he
    · have hmember : MemberOf m value := memberOf_manifest _ he
      cases hmember with
      | schemaVersion => exact hschema
      | size => exact Int.natCast_nonneg m.size
      | mandatory => trivial
      | text hs => exact htexts _ hs
  refine MembersFit.writableMembers ⟨hwritable, Nat.le_refl _⟩ ?_
  rw [manifestNames_eq]
  decide

/-- The integers of a manifest are in the range of the library when they fit. -/
theorem inRange_manifest {m : OtaManifest} (h : IntegersFit (members (manifestMembers m))) :
    InRangeMembers (members (manifestMembers m)) := by
  have hentries : ∀ e ∈ manifestMembers m, e ∈ entries (members (manifestMembers m)) := by
    rw [entries_members]
    exact fun e he => he
  have hkeys : ascii "schema_version" ∈ integerKeys ∧ ascii "size" ∈ integerKeys := by decide
  have hschema : m.schemaVersion ≤ gint64Max :=
    h _ (hentries (ascii "schema_version", .int m.schemaVersion) (by simp [manifestMembers]))
      hkeys.1 _ rfl
  have hsize : (m.size : Int) ≤ gint64Max :=
    h _ (hentries (ascii "size", .int m.size) (by simp [manifestMembers])) hkeys.2 _ rfl
  refine inRange_members fun e he => ?_
  have hmember : MemberOf m e.2 := memberOf_manifest e he
  generalize e.2 = v at hmember
  cases hmember with
  | schemaVersion => exact hschema
  | size => exact hsize
  | mandatory => trivial
  | text hs => trivial

theorem isScalar_manifest {m : OtaManifest} :
    ∀ e ∈ entries (members (manifestMembers m)), isScalar e.2 = true := by
  intro e he
  rw [entries_members] at he
  have hmember : MemberOf m e.2 := memberOf_manifest e he
  generalize e.2 = v at hmember
  cases hmember <;> rfl

theorem textField_of_find {o : Members} {key s : Bytes} (cap : Nat)
    (hfind : o.find key = some (.str s)) (hnul : (0 : UInt8) ∉ s) :
    textField o key cap = if textFits cap s then some s else none := by
  rw [textField, hfind]
  simp only [cString_of_noNul hnul]

/-- The members of a manifest are read as that manifest, or not at all. -/
theorem manifestOf_members {m r : OtaManifest} (hplain : ∀ s ∈ manifestTexts m, (0 : UInt8) ∉ s) :
    manifestOf (members (manifestMembers m)) = some r ↔ FieldsFit m ∧ r = m := by
  have hschema : integerMember (members (manifestMembers m)) (ascii "schema_version") =
      some m.schemaVersion := rfl
  have hsize : integerMember (members (manifestMembers m)) (ascii "size") = some (m.size : Int) :=
    rfl
  have hmandatory : booleanMember (members (manifestMembers m)) (ascii "mandatory") =
      some m.mandatory := rfl
  have htext : ∀ key text cap, (members (manifestMembers m)).find key = some (.str text) →
      text ∈ manifestTexts m → textField (members (manifestMembers m)) key cap =
        if textFits cap text then some text else none :=
    fun key text cap hfind hmem => textField_of_find cap hfind (hplain text hmem)
  unfold manifestOf
  rw [hschema, hsize, hmandatory,
    htext (ascii "device_compatible") m.deviceCompatible _ rfl (by simp [manifestTexts]),
    htext (ascii "version") m.version _ rfl (by simp [manifestTexts]),
    htext (ascii "build_id") m.buildId _ rfl (by simp [manifestTexts]),
    htext (ascii "artifact_url") m.artifactUrl _ rfl (by simp [manifestTexts]),
    htext (ascii "sha256") m.sha256 _ rfl (by simp [manifestTexts])]
  constructor
  · intro h
    simp only [bne_iff_ne, ne_eq, Option.pure_def, Option.bind_eq_bind, Option.bind_some,
      Option.bind_none, Int.natCast_nonpos_iff, Int.toNat_natCast, ite_not,
      Option.ite_none_right_eq_some, Option.ite_none_left_eq_some, Option.bind_eq_some_iff,
      Option.some.injEq, ↓existsAndEq, and_true] at h
    obtain ⟨hone, hpos, hfirst, hsecond, hthird, hfourth, hfifth, rfl⟩ := h
    exact ⟨⟨hone, Nat.pos_of_ne_zero hpos, hfirst, hsecond, hthird, hfourth, hfifth⟩,
      by rw [← hone]⟩
  · rintro ⟨⟨hone, hpos, hfirst, hsecond, hthird, hfourth, hfifth⟩, rfl⟩
    simp only [hone, bne_iff_ne, ne_eq, hfirst, ↓reduceIte, hsecond, hthird, hfourth, hfifth,
      Option.pure_def, Option.bind_eq_bind, Option.bind_some, Option.bind_none,
      Int.natCast_nonpos_iff, Nat.ne_of_gt hpos, Int.toNat_natCast, ite_not, Option.some.injEq]
    rw [← hone]

/-! ## The file of the local release, however it is read -/

/-- The turns that reach the end of a file, when none of them fails. -/
def readMoves : List ReadTurn → Nat
  | [] => 0
  | .moved _ :: turns => readMoves turns + 1
  | _ :: turns => readMoves turns

/-- What the reader returns is the file behind what was read before. -/
theorem readAll_some {turns : List ReadTurn} {used rest data : Bytes}
    (h : readAll turns used rest = some data) : data = used ++ rest := by
  induction turns generalizing used rest with
  | nil => cases h
  | cons turn turns ih =>
      rw [readAll.eq_def] at h
      simp only at h
      split at h
      · cases h
      · cases turn with
        | interrupted => exact ih h
        | failed => cases h
        | moved more =>
            simp only at h
            split at h
            · rename_i hend
              rw [List.isEmpty_iff.mp hend, List.append_nil]
              exact (Option.some.inj h).symm
            · rw [ih h, List.append_assoc, List.take_append_drop]

/-- Enough turns without a failure read the whole file. -/
theorem readAll_enough {turns : List ReadTurn} {used rest : Bytes} (hfailed : .failed ∉ turns)
    (hturns : rest.length < readMoves turns)
    (hfits : used.length + rest.length ≤ manifestMaxBytes) :
    readAll turns used rest = some (used ++ rest) := by
  induction turns generalizing used rest with
  | nil => exact absurd hturns (Nat.not_lt_zero _)
  | cons turn turns ih =>
      have htail : ReadTurn.failed ∉ turns := fun hmem => hfailed (List.mem_cons_of_mem _ hmem)
      rw [readAll.eq_def]
      simp only
      rw [if_neg (by omega)]
      cases turn with
      | interrupted => exact ih htail hturns hfits
      | failed => exact absurd List.mem_cons_self hfailed
      | moved more =>
          simp only
          split
          · rename_i hend
            rw [List.isEmpty_iff.mp hend, List.append_nil]
          · rename_i hmore
            have hpos : 0 < rest.length := List.length_pos_iff.mpr (by simpa using hmore)
            have hcount : 1 ≤ min (more + 1) (manifestMaxBytes + 1 - used.length) := by omega
            generalize min (more + 1) (manifestMaxBytes + 1 - used.length) = count at hcount
            have hlength : (rest.take count).length + (rest.drop count).length = rest.length := by
              rw [← List.length_append, List.take_append_drop]
            have hdrop : (rest.drop count).length < rest.length := by
              rw [List.length_drop]
              omega
            rw [readMoves] at hturns
            rw [ih htail (by omega) (by rw [List.length_append]; omega), List.append_assoc,
              List.take_append_drop]

/-- The release of a file does not depend on how it is read. -/
theorem otaReleaseLoad_file (J : JsonParser) {content : Bytes} {turns : List ReadTurn}
    (hfailed : .failed ∉ turns) (hturns : content.length < readMoves turns) (r : OtaRelease) :
    otaReleaseLoad J (.regular content) turns = .ok r ↔
      content ≠ [] ∧ content.length ≤ manifestMaxBytes ∧ otaReleaseParse J content = .ok r := by
  unfold otaReleaseLoad
  simp only
  split
  · rename_i hbad
    simp only [Bool.or_eq_true, List.isEmpty_iff, decide_eq_true_eq] at hbad
    constructor
    · intro h
      cases h
    · rintro ⟨hne, hshort, -⟩
      rcases hbad with hnil | hlong
      · exact absurd hnil hne
      · exact absurd hshort (Nat.not_le.mpr hlong)
  · rename_i hgood
    simp only [Bool.or_eq_true, List.isEmpty_iff, decide_eq_true_eq, not_or, Nat.not_lt] at hgood
    have hread := @readAll_enough turns [] content hfailed hturns (by simpa using hgood.2)
    rw [List.nil_append] at hread
    rw [hread]
    cases hparse : otaReleaseParse J content with
    | error e => simp [Except.mapError, hparse]
    | ok r' => simp [Except.mapError, hparse, hgood]

/-! ## The pieces of a body -/

/-- Without an overflow the body is the sum of its pieces. -/
theorem bodyPieces_fits (pieces : List Bytes) {b : ManifestBody}
    (hfits : b.bytes.length + pieces.flatten.length ≤ b.limit) :
    bodyPieces b pieces = ({ b with bytes := b.bytes ++ pieces.flatten }, true) := by
  induction pieces generalizing b with
  | nil => simp [bodyPieces]
  | cons piece pieces ih =>
      rw [List.flatten_cons, List.length_append] at hfits
      have htaken : manifestBody b piece = ({ b with bytes := b.bytes ++ piece }, true) := by
        rw [manifestBody, if_neg (by omega)]
      rw [bodyPieces, htaken, if_pos rfl, ih (by simp only [List.length_append]; omega)]
      simp

/-- A body over the limit is refused at some piece. -/
theorem bodyPieces_overflows (pieces : List Bytes) {b : ManifestBody}
    (hheld : b.bytes.length ≤ b.limit)
    (hover : b.limit < b.bytes.length + pieces.flatten.length) :
    (bodyPieces b pieces).1.overflow = true ∧ (bodyPieces b pieces).2 = false := by
  induction pieces generalizing b with
  | nil => exact absurd hover (by simp; omega)
  | cons piece pieces ih =>
      rw [List.flatten_cons, List.length_append] at hover
      by_cases hpiece : b.limit - b.bytes.length < piece.length
      · have hrefused : manifestBody b piece = ({ b with overflow := true }, false) := by
          rw [manifestBody, if_pos hpiece]
        rw [bodyPieces, hrefused, if_neg (by simp)]
        exact ⟨rfl, rfl⟩
      · have htaken : manifestBody b piece = ({ b with bytes := b.bytes ++ piece }, true) := by
          rw [manifestBody, if_neg hpiece]
        rw [bodyPieces, htaken, if_pos rfl]
        refine ih ?_ ?_
        · simp only [List.length_append]
          omega
        · simp only [List.length_append]
          omega

end EdgeGuard.Agent.ManifestParse
