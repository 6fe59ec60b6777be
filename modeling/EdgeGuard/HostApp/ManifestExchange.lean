import EdgeGuard.Agent.AttemptValidation
import EdgeGuard.Agent.DownloadResume
import EdgeGuard.Agent.ManifestParse
import EdgeGuard.Base.JsonReader
import EdgeGuard.HostApp.ManifestService

/-!
# The manifest between the server and the agent

What the server says at `/manifest.json` and what `ota_manifest_fetch` makes of it.  The
two programs agree on nothing but the text: the server writes it with `json.dumps`, the
agent guards the bytes, parses them and validates the fields.

## Main results

* `otaManifestParse_text` — the text of a manifest is taken exactly when the manifest is
  valid, and as that manifest.
* `manifest_exchange` — what every answer of the server comes to.
-/

namespace EdgeGuard.HostApp.ManifestExchange

open EdgeGuard.Base EdgeGuard.Base.CText EdgeGuard.Base.Utf8 EdgeGuard.Base.Json
open EdgeGuard.Base.JsonReader EdgeGuard.Base.JsonTree EdgeGuard.Base.JsonSize
open EdgeGuard.Agent.Model EdgeGuard.Agent.Identity EdgeGuard.Agent.Release
open EdgeGuard.Agent.Download EdgeGuard.Agent.DownloadSafety EdgeGuard.Agent.AttemptValidation
open EdgeGuard.Agent.DownloadResume (sampleConfig sampleDigest)
open EdgeGuard.Agent.Persistence (boundedText)
open EdgeGuard.Agent.ManifestLexer (manifestMaxBytes integerKeys)
open EdgeGuard.Agent.ManifestGrammar (Accepted)
open EdgeGuard.Agent.ManifestParse EdgeGuard.HostApp.ManifestService
open EdgeGuard.HostApp.Artifact (Body)

/-! ## The text of a manifest -/

/-- The manifest of the agent with the fields of one of the server. -/
def asManifest (m : Manifest) : OtaManifest where
  schemaVersion := m.schemaVersion
  deviceCompatible := m.deviceCompatible
  version := m.version
  buildId := m.buildId
  artifactUrl := m.artifactUrl
  sha256 := m.sha256.1
  size := m.size
  mandatory := m.mandatory

/-- No text of the manifest has a control character. -/
structure Plain (m : Manifest) : Prop where
  deviceCompatible : TextOk m.deviceCompatible
  version : TextOk m.version
  buildId : TextOk m.buildId
  artifactUrl : TextOk m.artifactUrl

theorem textOk_sha256 (m : Manifest) : TextOk m.sha256.1 := by
  have hsha256 := m.sha256.2
  simp only [isSha256, Bool.and_eq_true, beq_iff_eq] at hsha256
  have hbounded := boundedText_hex hsha256.1 hsha256.2
  simp only [boundedText, Bool.and_eq_true] at hbounded
  exact ⟨hbounded.1.2, hbounded.2⟩

theorem Plain.texts {m : Manifest} (h : Plain m) :
    ∀ s ∈ manifestTexts (asManifest m), TextOk s := by
  intro s hs
  simp only [manifestTexts, asManifest, List.mem_cons, List.not_mem_nil, or_false] at hs
  rcases hs with rfl | rfl | rfl | rfl | rfl
  · exact h.deviceCompatible
  · exact h.version
  · exact h.buildId
  · exact h.artifactUrl
  · exact textOk_sha256 m

/-- Python prints a plain manifest as JSON-GLib does. -/
theorem dumps_fields {m : Manifest} (h : Plain m) :
    dumps m.fields = generate (.obj (members (manifestMembers (asManifest m)))) := by
  have hfields : m.fields.map (fun f => (f.1, f.2.value)) = manifestMembers (asManifest m) := rfl
  have hmem : ∀ f ∈ m.fields, (f.1, f.2.value) ∈ manifestMembers (asManifest m) := by
    intro f hf
    rw [← hfields]
    exact List.mem_map_of_mem hf
  rw [← hfields]
  refine dumps_generate ?_ ?_
  · intro f hf
    refine textOk_manifestNames f.1 ?_
    rw [← manifestNames_eq (asManifest m)]
    exact List.mem_map_of_mem (hmem f hf)
  · intro f hf text htext
    have hmember : MemberOf (asManifest m) f.2.value := memberOf_manifest _ (hmem f hf)
    rw [htext] at hmember
    cases hmember with
    | text hs => exact h.texts text hs

/-! ## What the agent reads -/

/-- A valid manifest fits the record of the agent. -/
theorem fieldsFit_of_valid {m : OtaManifest} (h : otaManifestValidate m = .ok ()) :
    FieldsFit m := by
  obtain ⟨hschema, hdevice, hadmitted⟩ := manifest_ok_iff.mp h
  have hfits : ∀ {cap text}, boundedText cap text = true → text ≠ [] →
      textFits cap text = true := by
    intro cap text hbounded hne
    simp only [boundedText, Bool.and_eq_true, decide_eq_true_eq] at hbounded
    simp [textFits, hbounded.1.1, hne]
  have hversion : m.version ≠ [] := by
    intro hnil
    have hvalid := hadmitted.version.2
    rw [hnil] at hvalid
    cases hvalid
  have hurl : m.artifactUrl ≠ [] := by
    intro hnil
    have hvalid := hadmitted.artifactUrl.2
    rw [hnil] at hvalid
    cases hvalid
  have hsha256 : m.sha256 ≠ [] := by
    intro hnil
    have hlength := hadmitted.sha256.1
    rw [hnil] at hlength
    cases hlength
  obtain ⟨hbounded, hne⟩ := cleanText_iff.mp hdevice
  exact ⟨hschema, Nat.pos_of_ne_zero hadmitted.size.1, hfits hbounded hne,
    hfits hadmitted.version.1 hversion, hfits hadmitted.buildId.1 hadmitted.buildId.2,
    hfits hadmitted.artifactUrl.1 hurl,
    hfits (boundedText_hex hadmitted.sha256.1 hadmitted.sha256.2) hsha256⟩

/-- The integers of a valid manifest fit 64 bits. -/
theorem integersFit_of_valid {m : OtaManifest} (h : otaManifestValidate m = .ok ()) :
    IntegersFit (members (manifestMembers m)) := by
  obtain ⟨hschema, -, hadmitted⟩ := manifest_ok_iff.mp h
  rintro ⟨key, value⟩ he - n hvalue
  rw [entries_members] at he
  have hmember : MemberOf m value := memberOf_manifest (key, value) he
  obtain rfl : value = .int n := hvalue
  cases hmember with
  | schemaVersion =>
      rw [hschema]
      decide
  | size => exact Int.ofNat_le.mpr hadmitted.size.2

theorem accepted_of_valid {m : OtaManifest} (htexts : ∀ s ∈ manifestTexts m, TextOk s)
    (h : otaManifestValidate m = .ok ())
    (hlength : (generate (.obj (members (manifestMembers m)))).length ≤ manifestMaxBytes) :
    Accepted (generate (.obj (members (manifestMembers m)))) := by
  have hschema := (manifest_ok_iff.mp h).1
  have hwritable := writable_manifest htexts (by rw [hschema]; decide)
  exact accepted_generate hwritable isScalar_manifest (integersFit_of_valid h) hlength

/-- Nothing else is loaded from the text of a manifest. -/
theorem loadJson_manifest {J : JsonParser} {m : OtaManifest} {o : Members}
    (htexts : ∀ s ∈ manifestTexts m, TextOk s)
    (h : loadJson J (generate (.obj (members (manifestMembers m)))) = some o) :
    o = members (manifestMembers m) := by
  by_cases hschema : 0 ≤ m.schemaVersion
  · exact loadJson_of_generate (writable_manifest htexts hschema) isScalar_manifest
      inRange_manifest h
  · have hsign : intText m.schemaVersion = 0x2d :: decimal m.schemaVersion.natAbs := by
      rw [intText, if_pos (by omega)]
    have htext : ∃ tail, generate (.obj (members (manifestMembers m))) =
        0x7b :: (quote (ascii "schema_version") ++ 0x3a :: 0x2d :: tail) := by
      rw [manifestMembers, members_cons, generate, generate, hsign]
      exact ⟨_, rfl⟩
    obtain ⟨tail, htail⟩ := htext
    rw [htail, loadJson_sign J (textOk_manifestNames _ (by decide)) (by decide)] at h
    cases h

/-- The text of a manifest is taken exactly when the manifest is valid, and as that
manifest. -/
theorem otaManifestParse_text (J : JsonParser) {m r : OtaManifest}
    (htexts : ∀ s ∈ manifestTexts m, TextOk s)
    (hlength : (generate (.obj (members (manifestMembers m)))).length ≤ manifestMaxBytes) :
    otaManifestParse J (generate (.obj (members (manifestMembers m)))) = .ok r ↔
      r = m ∧ otaManifestValidate m = .ok () := by
  have hnul : ∀ s ∈ manifestTexts m, (0 : UInt8) ∉ s :=
    fun s hs => not_mem_nul_of_valid (htexts s hs).utf8
  constructor
  · intro h
    unfold otaManifestParse at h
    split at h
    · rename_i read hread
      obtain ⟨o, hload, hfields⟩ := Option.bind_eq_some_iff.mp hread
      rw [loadJson_manifest htexts hload] at hfields
      obtain ⟨-, rfl⟩ := (manifestOf_members hnul).mp hfields
      cases hvalid : otaManifestValidate read with
      | error e =>
          rw [hvalid] at h
          cases h
      | ok u =>
          rw [hvalid] at h
          cases h
          exact ⟨rfl, rfl⟩
    · cases h
  · rintro ⟨rfl, hvalid⟩
    have hschema := (manifest_ok_iff.mp hvalid).1
    have hload := loadJson_generate J (writable_manifest htexts (by rw [hschema]; decide))
      (inRange_manifest (integersFit_of_valid hvalid)) (accepted_of_valid htexts hvalid hlength)
    have hfields := (manifestOf_members hnul).mpr ⟨fieldsFit_of_valid hvalid, rfl⟩
    rw [otaManifestParse, hload, Option.bind_some, hfields]
    simp only [hvalid]
    rfl

/-! ## The answers of the server -/

/-- The bytes of a body. -/
def bodyBytes : Body → Bytes
  | .stream streamed => streamed.chunks.flatten
  | .detail text => dumps [(ascii "detail", .str text)]

/-- What libcurl makes of an answer: as much of the body as arrives, and all of it when it
reports a success. -/
structure Delivers (answer : Artifact.Response) (transfer : ManifestTransfer) : Prop where
  status : transfer.status = answer.status
  arrives : transfer.pieces.flatten <+: bodyBytes answer.body
  whole : transfer.result = curlOk → transfer.pieces.flatten = bodyBytes answer.body

/-- The settings have no control character in a text. -/
structure PlainSettings (settings : ReleaseSettings) : Prop where
  deviceCompatible : TextOk settings.deviceCompatible
  version : TextOk settings.version
  buildId : TextOk settings.buildId
  artifactUrl : TextOk settings.artifactUrl

theorem plain_of_calculated {sha256 : Bytes → Bytes} {settings : ReleaseSettings}
    {path : PathState} {m : Manifest} (hplain : PlainSettings settings)
    (h : calculateManifest sha256 settings path = .ok m) : Plain m := by
  obtain ⟨_, _, _, _, _, hdevice, hversion, hbuild, hurl, _⟩ := calculateManifest_ok h
  exact ⟨hdevice ▸ hplain.deviceCompatible, hversion ▸ hplain.version,
    hbuild ▸ hplain.buildId, hurl ▸ hplain.artifactUrl⟩

/-- The cases of an answer. -/
inductive Answered (now : PathState) (cached : Option Manifest) : Artifact.Response → Prop
  | nothing (h : cached = none) : Answered now cached ⟨204, [], .stream ⟨[], false⟩⟩
  | inconsistent {m : Manifest} {reason : Bytes} (h : cached = some m)
      (hfailed : verifyCachedManifest now m = .error reason) {body : Body} :
      Answered now cached ⟨503, [], body⟩
  | released {m : Manifest} (h : cached = some m)
      (hverified : verifyCachedManifest now m = .ok ()) :
      Answered now cached ⟨200, [], .stream ⟨[dumps m.fields], false⟩⟩

theorem answered (now : PathState) (cached : Option Manifest) :
    Answered now cached (getManifest now cached) := by
  unfold getManifest
  split
  · exact .nothing rfl
  · split
    · rename_i hfailed
      exact .inconsistent rfl hfailed
    · rename_i hverified
      exact .released rfl hverified

section

variable {J : JsonParser} {curl : Bool} {config : OtaConfig} {url : Bytes}
  {transfer : ManifestTransfer}

/-- A body within the limit is fetched as it was sent. -/
theorem fetch_fits
    (hlimit : 1 ≤ config.maxManifestBytes ∧ config.maxManifestBytes ≤ manifestMaxBytes)
    (hopen : otaHttpOpen curl config config.manifestPath .manifestHttp = .ok url)
    (hfits : transfer.pieces.flatten.length ≤ config.maxManifestBytes) :
    otaManifestFetch J curl config transfer =
      fetchReply J ⟨transfer.pieces.flatten, config.maxManifestBytes, false⟩ transfer.result
        transfer.status := by
  unfold otaManifestFetch
  rw [if_neg (by simp; omega), hopen]
  simp only
  rw [bodyPieces_fits transfer.pieces (by simpa using hfits)]
  rfl

/-- A body beyond the limit is not fetched. -/
theorem fetch_overflows
    (hlimit : 1 ≤ config.maxManifestBytes ∧ config.maxManifestBytes ≤ manifestMaxBytes)
    (hopen : otaHttpOpen curl config config.manifestPath .manifestHttp = .ok url)
    (hover : config.maxManifestBytes < transfer.pieces.flatten.length) :
    ∃ body, otaManifestFetch J curl config transfer =
      fetchReply J body curlWriteError transfer.status := by
  have hrefused := (bodyPieces_overflows transfer.pieces (b := ⟨[], config.maxManifestBytes, false⟩)
    (Nat.zero_le _) (by simpa using hover)).2
  unfold otaManifestFetch
  rw [if_neg (by simp; omega), hopen]
  simp only
  rw [hrefused]
  exact ⟨_, rfl⟩

theorem fetchReply_failed {body : ManifestBody} {result status : Nat}
    (h : result ≠ curlOk ∨ status ≠ 200 ∧ status ≠ 204) :
    ∃ error, (fetchReply J body result status).result = .error error := by
  unfold fetchReply
  rw [if_pos (by simpa using h)]
  exact ⟨_, rfl⟩

theorem fetchReply_retryable (body : ManifestBody) (result status : Nat) :
    (fetchReply J body result status).retryable = otaHttpRetryable result status := by
  unfold fetchReply
  simp only
  split
  · rfl
  · split <;> rfl

/-- An answer that is no manifest and no empty one is an error. -/
theorem fetch_failed
    (hlimit : 1 ≤ config.maxManifestBytes ∧ config.maxManifestBytes ≤ manifestMaxBytes)
    (hopen : otaHttpOpen curl config config.manifestPath .manifestHttp = .ok url)
    (h : transfer.result ≠ curlOk ∨ transfer.status ≠ 200 ∧ transfer.status ≠ 204 ∨
      config.maxManifestBytes < transfer.pieces.flatten.length) :
    ∃ error, (otaManifestFetch J curl config transfer).result = .error error := by
  by_cases hover : config.maxManifestBytes < transfer.pieces.flatten.length
  · obtain ⟨body, hfetch⟩ := fetch_overflows (J := J) hlimit hopen hover
    rw [hfetch]
    exact fetchReply_failed (.inl (by decide))
  · rw [fetch_fits hlimit hopen (Nat.not_lt.mp hover)]
    refine fetchReply_failed ?_
    rcases h with hresult | hstatus | hlong
    · exact .inl hresult
    · exact .inr hstatus
    · exact absurd hlong hover

/-- The manifest that is taken of an answer with a release. -/
theorem fetch_released {released : Manifest} (hplain : Plain released)
    (hlimit : 1 ≤ config.maxManifestBytes ∧ config.maxManifestBytes ≤ manifestMaxBytes)
    (hopen : otaHttpOpen curl config config.manifestPath .manifestHttp = .ok url)
    (hdelivers : Delivers ⟨200, [], .stream ⟨[dumps released.fields], false⟩⟩ transfer)
    (answer : Option OtaManifest) :
    (otaManifestFetch J curl config transfer).result = .ok answer ↔
      transfer.result = curlOk ∧ (dumps released.fields).length ≤ config.maxManifestBytes ∧
        otaManifestValidate (asManifest released) = .ok () ∧
        answer = some (asManifest released) := by
  have hfailure : transfer.result ≠ curlOk ∨
      config.maxManifestBytes < transfer.pieces.flatten.length →
      (otaManifestFetch J curl config transfer).result ≠ .ok answer := by
    intro h hreply
    obtain ⟨error, herror⟩ := fetch_failed (J := J) hlimit hopen
      (h.imp_right fun hover => .inr hover)
    rw [herror] at hreply
    cases hreply
  by_cases hresult : transfer.result = curlOk
  · have hwhole : transfer.pieces.flatten = dumps released.fields := by
      rw [hdelivers.whole hresult]
      exact List.append_nil _
    by_cases hover : config.maxManifestBytes < transfer.pieces.flatten.length
    · refine ⟨fun hreply => absurd hreply (hfailure (.inr hover)), ?_⟩
      rintro ⟨-, hshort, -⟩
      rw [hwhole] at hover
      exact absurd hshort (Nat.not_le.mpr hover)
    · have hshort := Nat.not_lt.mp hover
      rw [fetch_fits hlimit hopen hshort, hdelivers.status, hresult]
      rw [hwhole] at hshort ⊢
      have hgenerated := dumps_fields hplain
      have hparse : ∀ r, otaManifestParse J (dumps released.fields) = .ok r ↔
          r = asManifest released ∧ otaManifestValidate (asManifest released) = .ok () := by
        rw [hgenerated] at hshort ⊢
        exact fun r => otaManifestParse_text J hplain.texts (Nat.le_trans hshort hlimit.2)
      show (otaManifestParse J (dumps released.fields)).map some = .ok answer ↔ _
      cases hread : otaManifestParse J (dumps released.fields) with
      | error e =>
          have hinvalid : ¬ otaManifestValidate (asManifest released) = .ok () := by
            intro hvalid
            have hok := (hparse (asManifest released)).mpr ⟨rfl, hvalid⟩
            rw [hread] at hok
            cases hok
          exact ⟨fun h => (nomatch h), fun h => absurd h.2.2.1 hinvalid⟩
      | ok r =>
          obtain ⟨rfl, hvalid⟩ := (hparse r).mp hread
          constructor
          · intro h
            cases h
            exact ⟨rfl, hshort, hvalid, rfl⟩
          · rintro ⟨-, -, -, rfl⟩
            rfl
  · exact ⟨fun hreply => absurd hreply (hfailure (.inl hresult)), fun h => absurd h.1 hresult⟩

/-- What is said when no release is active. -/
theorem fetch_nothing
    (hlimit : 1 ≤ config.maxManifestBytes ∧ config.maxManifestBytes ≤ manifestMaxBytes)
    (hopen : otaHttpOpen curl config config.manifestPath .manifestHttp = .ok url)
    (hdelivers : Delivers ⟨204, [], .stream ⟨[], false⟩⟩ transfer) (answer : Option OtaManifest) :
    (otaManifestFetch J curl config transfer).result = .ok answer ↔
      transfer.result = curlOk ∧ answer = none := by
  have hempty : transfer.pieces.flatten = [] := List.prefix_nil.mp hdelivers.arrives
  rw [fetch_fits hlimit hopen (by rw [hempty]; exact Nat.zero_le _), hdelivers.status]
  by_cases hresult : transfer.result = curlOk
  · rw [hresult]
    show (.ok none : Except OtaError (Option OtaManifest)) = .ok answer ↔ _
    simp only [Except.ok.injEq, true_and]
    exact eq_comm
  · obtain ⟨error, herror⟩ := @fetchReply_failed J
      ⟨transfer.pieces.flatten, config.maxManifestBytes, false⟩ _ 204 (.inl hresult)
    rw [herror]
    exact ⟨fun h => (nomatch h), fun h => absurd h.1 hresult⟩

/-- Whether a request may be made again. -/
theorem fetch_retryable
    (hlimit : 1 ≤ config.maxManifestBytes ∧ config.maxManifestBytes ≤ manifestMaxBytes)
    (hopen : otaHttpOpen curl config config.manifestPath .manifestHttp = .ok url)
    (hresult : transfer.result = curlOk) :
    (otaManifestFetch J curl config transfer).retryable =
      [503, 502, 504, 408, 429].contains transfer.status := by
  by_cases hover : config.maxManifestBytes < transfer.pieces.flatten.length
  · obtain ⟨body, hfetch⟩ := fetch_overflows (J := J) hlimit hopen hover
    rw [hfetch, fetchReply_retryable, otaHttpRetryable]
    exact Bool.or_false _
  · rw [fetch_fits hlimit hopen (Nat.not_lt.mp hover), fetchReply_retryable, hresult,
      otaHttpRetryable]
    exact Bool.or_false _

end

/-- The manifest of an artifact under the names of the settings. -/
def offered (sha256 : Bytes → Bytes) (settings : ReleaseSettings) (data : Bytes) : OtaManifest where
  schemaVersion := settings.schemaVersion
  deviceCompatible := settings.deviceCompatible
  version := settings.version
  buildId := settings.buildId
  artifactUrl := settings.artifactUrl
  sha256 := sha256 data
  size := data.length
  mandatory := settings.mandatory

theorem asManifest_calculated {sha256 : Bytes → Bytes} {settings : ReleaseSettings}
    {path : PathState} {m : Manifest} (h : calculateManifest sha256 settings path = .ok m) :
    ∃ data, path = .regular data ∧ asManifest m = offered sha256 settings data := by
  obtain ⟨data, hpath, hsha256, hsize, hschema, hdevice, hversion, hbuild, hurl, hmandatory⟩ :=
    calculateManifest_ok h
  refine ⟨data, hpath, ?_⟩
  rw [asManifest, hsha256, hsize, hschema, hdevice, hversion, hbuild, hurl, hmandatory]
  rfl

/-- What an answer comes to: there is no release exactly when none is active; a manifest is
taken exactly when it arrives whole, the artifact is still there with its size, the text
keeps to the limit and the fields are valid, and then it is that of the settings and of the
artifact that was inspected, which passes the verification of a download; and the request
is worth another try exactly when the artifact is not what it was. -/
theorem manifest_exchange (J : JsonParser) (sha256 : Bytes → Bytes) {settings : ReleaseSettings}
    {path now : PathState} {cached : Option Manifest} {curl : Bool} {config : OtaConfig}
    {url : Bytes} {transfer : ManifestTransfer} (hplain : PlainSettings settings)
    (hcached : ∀ released ∈ cached, calculateManifest sha256 settings path = .ok released)
    (hlimit : 1 ≤ config.maxManifestBytes ∧ config.maxManifestBytes ≤ manifestMaxBytes)
    (hopen : otaHttpOpen curl config config.manifestPath .manifestHttp = .ok url)
    (hdelivers : Delivers (getManifest now cached) transfer) :
    let reply := otaManifestFetch J curl config transfer
    (reply.result = .ok none ↔ transfer.result = curlOk ∧ cached = none) ∧
    (∀ m, reply.result = .ok (some m) ↔ transfer.result = curlOk ∧ ∃ released data,
      cached = some released ∧ verifyCachedManifest now released = .ok () ∧
      (dumps released.fields).length ≤ config.maxManifestBytes ∧ path = .regular data ∧
      m = offered sha256 settings data ∧ otaManifestValidate m = .ok ()) ∧
    (∀ m data, reply.result = .ok (some m) → path = .regular data → Verified sha256 m data) ∧
    (transfer.result = curlOk → (reply.retryable = true ↔
      ∃ released reason, cached = some released ∧
        verifyCachedManifest now released = .error reason)) := by
  have hretryable := @fetch_retryable J _ _ _ transfer hlimit hopen
  have hanswered := answered now cached
  generalize getManifest now cached = answer at hdelivers hanswered
  cases hanswered with
  | nothing h =>
      subst h
      have hnothing := fetch_nothing (J := J) hlimit hopen hdelivers
      refine ⟨?_, ?_, ?_, ?_⟩
      · simp [hnothing]
      · simp [hnothing]
      · simp [hnothing]
      · intro hresult
        rw [hretryable hresult, hdelivers.status]
        simp
  | inconsistent h hfailed =>
      subst h
      have hrefused : ∀ answer, (otaManifestFetch J curl config transfer).result ≠ .ok answer := by
        intro answer hreply
        obtain ⟨error, herror⟩ := fetch_failed (J := J) hlimit hopen
          (.inr (.inl (by rw [hdelivers.status]; exact ⟨by simp, by simp⟩)))
        rw [herror] at hreply
        cases hreply
      refine ⟨?_, ?_, ?_, ?_⟩
      · simp [hrefused]
      · simp [hrefused, hfailed]
      · simp [hrefused]
      · intro hresult
        rw [hretryable hresult, hdelivers.status]
        simp [hfailed]
  | released h hkept =>
      subst h
      rename_i released
      have hcalculated := hcached released rfl
      obtain ⟨data, hpath, hoffered⟩ := asManifest_calculated hcalculated
      have htaken := fetch_released (J := J) (plain_of_calculated hplain hcalculated) hlimit hopen
        hdelivers
      rw [hoffered] at htaken
      refine ⟨?_, ?_, ?_, ?_⟩
      · simp [htaken]
      · intro m
        rw [htaken]
        constructor
        · rintro ⟨hresult, hshort, hvalid, hm⟩
          obtain rfl := Option.some.inj hm
          exact ⟨hresult, released, data, rfl, hkept, hshort, hpath, rfl, hvalid⟩
        · rintro ⟨hresult, released', data', hsame, -, hshort, hpath', rfl, hvalid⟩
          obtain rfl := Option.some.inj hsame
          obtain rfl := PathState.regular.inj (hpath.symm.trans hpath')
          exact ⟨hresult, hshort, hvalid, rfl⟩
      · intro m data' hreply hpath'
        obtain ⟨-, -, -, hm⟩ := (htaken (some m)).mp hreply
        obtain rfl := Option.some.inj hm
        obtain rfl := PathState.regular.inj (hpath.symm.trans hpath')
        exact ⟨rfl, rfl⟩
      · intro hresult
        rw [hretryable hresult, hdelivers.status]
        simp [hkept]

/-! ### The first release of the server -/

def sampleRelease : Manifest where
  schemaVersion := 1
  deviceCompatible := settings.deviceCompatible
  version := settings.version
  buildId := settings.buildId
  artifactUrl := settings.artifactUrl
  sha256 := ⟨sampleDigest (ascii "abc"), by decide +kernel⟩
  size := 3
  mandatory := false

/-- The manifest arrives in two pieces. -/
def sampleTransfer : ManifestTransfer where
  pieces := [(dumps sampleRelease.fields).take 100, (dumps sampleRelease.fields).drop 100]
  result := curlOk
  status := 200

/-- A first release of three bytes. -/
theorem manifest_exchange_first_release :
    calculateManifest sampleDigest settings (.regular (ascii "abc")) = .ok sampleRelease ∧
      (otaManifestFetch referenceParser true sampleConfig sampleTransfer).result =
        .ok (some (offered sampleDigest settings (ascii "abc"))) := by
  have hcalculated : calculateManifest sampleDigest settings (.regular (ascii "abc")) =
      .ok sampleRelease := by
    have hinspected := inspectArtifact_eq (ascii "abc") 0 (Nat.zero_le _)
    rw [List.take_zero] at hinspected
    simp only [calculateManifest, hinspected]
    exact dif_pos sampleRelease.sha256.2
  have hplain : PlainSettings settings :=
    ⟨textOk_of_simple (by decide), textOk_of_simple (by decide), textOk_of_simple (by decide),
      textOk_of_simple (by decide)⟩
  have hverified : verifyCachedManifest (.regular (ascii "abc")) sampleRelease = .ok () := by decide
  have hanswer : getManifest (.regular (ascii "abc")) (some sampleRelease) =
      ⟨200, [], .stream ⟨[dumps sampleRelease.fields], false⟩⟩ := by
    rw [getManifest, hverified]
  have hwhole : sampleTransfer.pieces.flatten = dumps sampleRelease.fields := by
    rw [sampleTransfer, List.flatten_cons, List.flatten_cons, List.flatten_nil, List.append_nil,
      List.take_append_drop]
  have hbody : bodyBytes (.stream ⟨[dumps sampleRelease.fields], false⟩) =
      dumps sampleRelease.fields := List.append_nil _
  have hdelivers : Delivers (getManifest (.regular (ascii "abc")) (some sampleRelease))
      sampleTransfer := by
    rw [hanswer]
    refine ⟨rfl, ?_, fun _ => ?_⟩
    · rw [hwhole, hbody]
    · rw [hwhole, hbody]
  have hcached : ∀ released ∈ some sampleRelease,
      calculateManifest sampleDigest settings (.regular (ascii "abc")) = .ok released := by
    rintro released ⟨⟩
    exact hcalculated
  have hopen : otaHttpOpen true sampleConfig sampleConfig.manifestPath .manifestHttp =
      .ok (ascii "http://192.168.1.100:8000/manifest.json") := by decide +kernel
  have hexchange := (manifest_exchange referenceParser sampleDigest hplain hcached (by decide)
    hopen hdelivers).2.1 (offered sampleDigest settings (ascii "abc"))
  refine ⟨hcalculated, hexchange.mpr ⟨rfl, sampleRelease, ascii "abc", rfl, hverified, ?_, rfl, rfl,
    ?_⟩⟩
  · decide +kernel
  · decide +kernel

end EdgeGuard.HostApp.ManifestExchange
