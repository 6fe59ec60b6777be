import EdgeGuard.Agent.AttemptDiscipline
import EdgeGuard.Agent.Run

/-!
# The two validators of an attempt

An attempt is checked as a manifest when it is offered and as part of the
persistent state whenever it is saved or loaded.  The two checks are written
twice: two version grammars, two text checks, two sets of bounds.

## Main results

* `persistedVersionValid_iff` — the two version grammars.
* `validators_agree` — a manifest that is admitted can be saved, and a saved
  attempt is a manifest again.
-/

namespace EdgeGuard.Agent.AttemptValidation

open EdgeGuard.Base.CText EdgeGuard.Base.Utf8 EdgeGuard.Agent.Model EdgeGuard.Agent.Identity
  EdgeGuard.Agent.Release EdgeGuard.Agent.Persistence EdgeGuard.Agent.Services
  EdgeGuard.Agent.AttemptDiscipline EdgeGuard.Agent.StateMachine EdgeGuard.Agent.Run

/-! ## Versions -/

/-- The two overflow checks are the same. -/
theorem digits_agree (text : Bytes) (value : Nat) :
    versionDigits value text = (componentDigits value text).map (·.2) := by
  induction text generalizing value with
  | nil => rfl
  | cons b rest ih =>
      unfold versionDigits componentDigits
      by_cases hdigit : isDigit b = true
      · rw [if_pos hdigit, if_pos hdigit]
        have hle := digitOf_le hdigit
        have hmax : 10 ≤ uint32Max := by decide
        by_cases hover : uint32Max < value * 10 + digitOf b
        · rw [if_pos hover, if_pos (by omega)]
          rfl
        · rw [if_neg hover, if_neg (by omega)]
          exact ih _
      · rw [if_neg hdigit, if_neg hdigit]
        rfl

/-- One component of a version is read alike by the validator and the parser. -/
theorem part_agree (text : Bytes) : versionPart text = (component text).map (·.2) := by
  cases text with
  | nil => rfl
  | cons b rest =>
      show (if (!isDigit b || (b == 0x30 && rest.head?.any isDigit)) = true then none
        else versionDigits 0 (b :: rest)) =
          (if (!isDigit b || (b == 0x30 && rest.head?.any isDigit)) = true then none
            else componentDigits 0 (b :: rest)).map (·.2)
      split
      · rfl
      · exact digits_agree _ _

/-- A component with the dot behind it is read alike. -/
theorem partDot_agree (text : Bytes) : versionPartDot text = (componentDot text).map (·.2) := by
  unfold versionPartDot componentDot
  rw [part_agree]
  cases component text with
  | none => rfl
  | some read =>
      obtain ⟨value, rest⟩ := read
      cases rest with
      | nil => rfl
      | cons b rest =>
          simp only [Option.map_some]
          split <;> rfl

/-- The validator of the state takes what the parser of a release takes. -/
theorem persistedVersionValid_eq (text : Bytes) :
    persistedVersionValid text = (versionOf text).isSome := by
  unfold persistedVersionValid versionOf
  rw [partDot_agree]
  cases componentDot text with
  | none => rfl
  | some read =>
      obtain ⟨major, rest⟩ := read
      simp only [Option.map_some, Option.bind_eq_bind, Option.bind_some]
      rw [partDot_agree]
      cases componentDot rest with
      | none => rfl
      | some read =>
          obtain ⟨minor, rest⟩ := read
          simp only [Option.map_some, Option.bind_some]
          rw [part_agree]
          cases component rest with
          | none => rfl
          | some read =>
              obtain ⟨patch, rest⟩ := read
              cases rest <;> rfl

/-- `persisted_version_valid` and `ota_version_parse` accept the same strings. -/
theorem persistedVersionValid_iff (text : Bytes) :
    persistedVersionValid text = true ↔ ∃ version, otaVersionParse text = .ok version := by
  rw [persistedVersionValid_eq]
  unfold otaVersionParse
  cases versionOf text with
  | none => simp
  | some version => simp

/-! ## Texts -/

theorem cleanText_iff {capacity : Nat} {text : Bytes} :
    cleanText capacity text = true ↔ boundedText capacity text = true ∧ text ≠ [] := by
  simp only [cleanText, boundedText, Bool.and_eq_true, Bool.not_eq_true', decide_eq_true_eq,
    List.isEmpty_eq_false_iff]
  tauto

theorem strlcpy_bounded {capacity : Nat} {text : Bytes} (h : boundedText capacity text = true) :
    strlcpy capacity text = text := by
  simp only [boundedText, Bool.and_eq_true, decide_eq_true_eq] at h
  have hlength : text.length < capacity := h.1.1
  apply List.take_of_length_le
  omega

theorem plain_of_isLowerHex {b : UInt8} (h : isLowerHex b = true) :
    (b ≠ 0 ∧ b < 0x80) ∧ isControl b = false := by
  simp only [isLowerHex, isDigit, Bool.or_eq_true, Bool.and_eq_true, decide_eq_true_eq,
    UInt8.le_iff_toNat_le] at h
  have hrange : 0x30 ≤ b.toNat ∧ b.toNat ≤ 0x66 := by
    rcases h with h | h
    · exact ⟨h.1, Nat.le_trans h.2 (by decide)⟩
    · exact ⟨Nat.le_trans (by decide) h.1, h.2⟩
  have hne : ∀ c : UInt8, c.toNat < 0x30 ∨ 0x66 < c.toNat → b ≠ c := by
    rintro c hc rfl
    omega
  refine ⟨⟨hne 0 (by decide), ?_⟩, ?_⟩
  · rw [UInt8.lt_iff_toNat_lt]
    exact Nat.lt_of_le_of_lt hrange.2 (by decide)
  · have hsmall : ¬ b < 0x20 := by
      rw [UInt8.lt_iff_toNat_lt]
      exact Nat.not_lt.mpr (Nat.le_trans (by decide) hrange.1)
    simp [isControl, hsmall, hne 0x7f (by decide)]

/-- Hexadecimal digits are text without control characters. -/
theorem boundedText_hex {text : Bytes} (hlength : text.length = 64)
    (hhex : text.all isLowerHex = true) : boundedText otaSha256Cap text = true := by
  have hplain := fun b hb => plain_of_isLowerHex (List.all_eq_true.mp hhex b hb)
  have hfree : controlFree text = true := by
    rw [controlFree, List.all_eq_true]
    intro b hb
    rw [(hplain b hb).2]
    rfl
  have hvalid : valid text = true := valid_of_ascii fun b hb => (hplain b hb).1
  have hshort : text.length < otaSha256Cap := by
    rw [hlength]
    decide
  simp only [boundedText, hshort, decide_true, hvalid, hfree, Bool.and_self]

/-- A UUID is a bounded text. -/
theorem boundedText_uuid {text : Bytes} {v4 : Bool} (h : otaUuidValid text v4 = true) :
    boundedText otaUuidCap text = true := by
  have hlength := length_of_uuid h
  simp only [otaUuidValid, Bool.and_eq_true] at h
  have hplain : ∀ b ∈ text, (b ≠ 0 ∧ b < 0x80) ∧ isControl b = false := by
    intro b hb
    obtain ⟨i, hi⟩ := List.mem_iff_getElem?.mp hb
    have hbyte := List.all_eq_true.mp h.1.2 (b, i) (List.mem_zipIdx_iff_getElem?.mpr hi)
    simp only [uuidByte] at hbyte
    split at hbyte
    · rw [beq_iff_eq.mp hbyte]
      decide
    · exact plain_of_isLowerHex hbyte
  have hfree : controlFree text = true := by
    rw [controlFree, List.all_eq_true]
    intro b hb
    rw [(hplain b hb).2]
    rfl
  have hvalid : valid text = true := valid_of_ascii fun b hb => (hplain b hb).1
  have hshort : text.length < otaUuidCap := by
    rw [hlength]
    decide
  simp only [boundedText, hshort, decide_true, hvalid, hfree, Bool.and_self]

/-! ## From the manifest to the state -/

/-- The fields of an accepted manifest that the attempt takes over. -/
structure Admitted (m : OtaManifest) : Prop where
  version : boundedText otaTextCap m.version = true ∧ persistedVersionValid m.version = true
  buildId : boundedText otaTextCap m.buildId = true ∧ m.buildId ≠ []
  artifactUrl : boundedText otaPathCap m.artifactUrl = true ∧
    otaArtifactPathValid m.artifactUrl = true
  sha256 : m.sha256.length = 64 ∧ m.sha256.all isLowerHex = true
  size : m.size ≠ 0 ∧ m.size ≤ int64Max

/-- What `ota_manifest_validate` asks for, field by field. -/
theorem manifest_ok_iff {m : OtaManifest} : otaManifestValidate m = .ok () ↔
    m.schemaVersion = 1 ∧ cleanText otaTextCap m.deviceCompatible = true ∧ Admitted m := by
  unfold otaManifestValidate
  constructor
  · intro h
    split at h
    · rename_i hfields
      simp only [Bool.and_eq_true, beq_iff_eq, bne_iff_ne, decide_eq_true_eq, cleanText_iff]
        at hfields
      obtain ⟨⟨⟨⟨⟨⟨⟨⟨⟨hschema, hdevice⟩, hbuild⟩, hversion⟩, hurl⟩, hpath⟩, hlength⟩, hpos⟩, hmax⟩,
        hhex⟩ := hfields
      have hparsed : persistedVersionValid m.version = true := by
        rw [persistedVersionValid_iff]
        cases hparse : otaVersionParse m.version with
        | error error =>
            rw [hparse] at h
            cases h
        | ok version => exact ⟨version, rfl⟩
      exact ⟨hschema, cleanText_iff.mpr hdevice,
        ⟨hversion.1, hparsed⟩, hbuild, ⟨hurl.1, hpath⟩, ⟨hlength, hhex⟩, hpos, hmax⟩
    · cases h
  · rintro ⟨hschema, hdevice, hadmitted⟩
    obtain ⟨version, hversion⟩ := (persistedVersionValid_iff _).mp hadmitted.version.2
    have hnonempty : m.version ≠ [] := by
      intro hnil
      have hvalid := hadmitted.version.2
      rw [hnil] at hvalid
      cases hvalid
    have hurl : m.artifactUrl ≠ [] := by
      intro hnil
      have hvalid := hadmitted.artifactUrl.2
      rw [hnil] at hvalid
      cases hvalid
    rw [if_pos, hversion]
    · rfl
    · simp only [Bool.and_eq_true, beq_iff_eq, bne_iff_ne, decide_eq_true_eq, hdevice,
        cleanText_iff]
      exact ⟨⟨⟨⟨⟨⟨⟨⟨⟨hschema, trivial⟩, hadmitted.buildId⟩, hadmitted.version.1, hnonempty⟩,
        hadmitted.artifactUrl.1, hurl⟩, hadmitted.artifactUrl.2⟩, hadmitted.sha256.1⟩,
        hadmitted.size.1⟩, hadmitted.size.2⟩, hadmitted.sha256.2⟩

/-- The attempt that `phase` and `run` build from a manifest in CHECK_UPDATE. -/
def snapshot (current : OtaPersistentState) (m : OtaManifest) (attemptId : Bytes) :
    OtaPersistentState :=
  { current with
    state := .precheck
    attemptId
    targetVersion := strlcpy otaTextCap m.version
    buildId := strlcpy otaTextCap m.buildId
    artifactUrl := strlcpy otaPathCap m.artifactUrl
    expectedSize := m.size
    expectedSha256 := strlcpy otaSha256Cap m.sha256 }

/-- The snapshot of an admitted manifest is a valid state. -/
theorem valid_snapshot {current : OtaPersistentState} {m : OtaManifest} {attemptId : Bytes}
    (hvalid : stateValid current = true) (hstate : current.state = .checkUpdate)
    (hm : Admitted m) (hid : otaUuidValid attemptId true = true) :
    stateValid (snapshot current m attemptId) = true := by
  have h := valid_blocks hvalid
  have hhash := boundedText_hex hm.sha256.1 hm.sha256.2
  have hsame : snapshot current m attemptId =
      { current with
        state := .precheck, attemptId, targetVersion := m.version, buildId := m.buildId
        artifactUrl := m.artifactUrl, expectedSize := m.size, expectedSha256 := m.sha256 } := by
    rw [snapshot, strlcpy_bounded hm.version.1, strlcpy_bounded hm.buildId.1,
      strlcpy_bounded hm.artifactUrl.1, strlcpy_bounded hhash]
  have hnonempty : attemptId ≠ [] := ne_nil_of_uuid hid
  have hheader := h.header
  have htexts := h.texts
  have hwindow := h.bootWindow
  have herror := h.error
  have henums := h.enums
  simp only [headerOk, Bool.and_eq_true] at hheader
  simp only [textsOk, Bool.and_eq_true] at htexts
  -- before an installation there is no boot identity, and no error behind it
  have hslot : current.previousSlot = .unknown := by
    simpa [bootWindowOk, hstate, OtaState.value, hasBoot] using hwindow
  obtain ⟨hcandidate, hbootid, hreboot⟩ := boot_of_none h hslot
  have hnoerror : current.lastError.code = .none ∧ current.lastError.message = [] := by
    simp only [errorOk, hstate, Bool.and_eq_true] at herror
    have hcode : current.lastError.code = .none := by simpa using herror.1.2
    exact ⟨hcode, by simpa [hcode] using herror.2⟩
  rw [hsame]
  simp only [stateValid, Bool.and_eq_true]
  refine ⟨⟨⟨⟨⟨⟨⟨⟨?_, ?_⟩, ?_⟩, ?_⟩, henums⟩, ?_⟩, ?_⟩, ?_⟩, ?_⟩
  · simp only [headerOk, Bool.and_eq_true]
    exact ⟨⟨hheader.1.1, rfl⟩, hheader.2⟩
  · simp only [textsOk, Bool.and_eq_true]
    exact ⟨⟨⟨⟨⟨⟨boundedText_uuid hid, hm.version.1⟩, hm.buildId.1⟩, hm.artifactUrl.1⟩, hhash⟩,
      htexts.1.2⟩, htexts.2⟩
  · simpa [attemptOk, hasAttempt, hnonempty, hid, hm.version.2, hm.buildId.2, hm.artifactUrl.2,
      hm.size.1, hm.size.2, hm.sha256.1] using List.all_eq_true.mp hm.sha256.2
  · simp [attemptWindowOk, hasAttempt, hnonempty, OtaState.value]
  · simp [bootOk, hasBoot, hslot, hcandidate, hbootid, hreboot]
  · simp [bootWindowOk, hasBoot, hslot, OtaState.value]
  · simp [contextOk, hreboot]
  · simp [errorOk, hnoerror]

/-- In CHECK_UPDATE a manifest that is an update becomes the snapshot. -/
theorem phase_snapshot (config : OtaConfig) {answers : ServiceAnswers} {release : OtaRelease}
    {current : OtaPersistentState} {m : OtaManifest} (hstate : current.state = .checkUpdate)
    (hfetched : answers.manifest = .ok (some m))
    (hupdate : otaCompatibilityPrecheck release m = .ok true) (attemptId : Bytes) :
    (phase config answers release current).result = .advance ∧
      { (phase config answers release current).next with attemptId } =
        snapshot current m attemptId := by
  have hreply : phase config answers release current =
      checkUpdatePhase release current answers.manifest := by
    unfold phase
    rw [hstate]
  rw [hreply, hfetched, checkUpdatePhase, hupdate]
  exact ⟨rfl, rfl⟩

/-- The run loop proposes the snapshot with the identifier of the kernel. -/
theorem run_snapshot {answers : LoopAnswers} {machine : OtaStateMachine} {release : OtaRelease}
    {firstPoll : Bool} {next : OtaPersistentState} {attemptId : Bytes}
    (hstate : machine.current.state = .checkUpdate) (hnext : next.state = .precheck)
    (hid : answers.attemptId = .ok attemptId) :
    phaseAdvanced answers machine release firstPoll next =
      proposeNext answers machine release firstPoll { next with attemptId } := by
  unfold phaseAdvanced
  simp [hstate, hnext, hid, terminal]

/-! ## From the state to the manifest -/

/-- The attempt of a valid state, read as a manifest. -/
theorem attemptManifest_eq {release : OtaRelease} {state : OtaPersistentState}
    (hvalid : stateValid state = true) (hattempt : hasAttempt state = true)
    (hrelease : otaReleaseValidate release = .ok ()) :
    attemptManifest release state =
        { schemaVersion := otaSchemaVersion, deviceCompatible := release.deviceCompatible
          version := state.targetVersion, buildId := state.buildId
          artifactUrl := state.artifactUrl, sha256 := state.expectedSha256
          size := state.expectedSize, mandatory := false } ∧
      cleanText otaTextCap release.deviceCompatible = true ∧
      Admitted (attemptManifest release state) := by
  have h := valid_blocks hvalid
  have htexts := h.texts
  have hfields := h.attempt
  simp only [textsOk, Bool.and_eq_true] at htexts
  obtain ⟨⟨⟨⟨⟨⟨_, hversion⟩, hbuild⟩, hurl⟩, hhash⟩, _⟩, _⟩ := htexts
  rw [attemptOk, if_pos hattempt] at hfields
  simp only [Bool.and_eq_true, Bool.not_eq_true', List.isEmpty_eq_false_iff, bne_iff_ne,
    decide_eq_true_eq, beq_iff_eq] at hfields
  obtain ⟨⟨⟨⟨⟨⟨⟨_, hparsed⟩, hbuild'⟩, hpath⟩, hpos⟩, hmax⟩, hlength⟩, hhex⟩ := hfields
  have hdevice : cleanText otaTextCap release.deviceCompatible = true := by
    unfold otaReleaseValidate at hrelease
    split at hrelease
    · rename_i hgood
      simp only [Bool.and_eq_true] at hgood
      exact hgood.1.1.1.1.2
    · cases hrelease
  have heq : attemptManifest release state =
      { schemaVersion := otaSchemaVersion, deviceCompatible := release.deviceCompatible
        version := state.targetVersion, buildId := state.buildId
        artifactUrl := state.artifactUrl, sha256 := state.expectedSha256
        size := state.expectedSize, mandatory := false } := by
    rw [attemptManifest, strlcpy_bounded (cleanText_iff.mp hdevice).1, strlcpy_bounded hversion,
      strlcpy_bounded hbuild, strlcpy_bounded hurl, strlcpy_bounded hhash]
  refine ⟨heq, hdevice, ?_⟩
  rw [heq]
  exact ⟨⟨hversion, hparsed⟩, ⟨hbuild, hbuild'⟩, ⟨hurl, hpath⟩, ⟨hlength, hhex⟩, hpos, hmax⟩

/-! ## Agreement -/

theorem validate_ok_iff {s : OtaPersistentState} :
    otaPersistentStateValidate s = .ok () ↔ stateValid s = true := by
  unfold otaPersistentStateValidate
  by_cases h : stateValid s = true
  · simp [h]
  · simp [h]

/-- An admitted manifest becomes a valid PRECHECK state, whatever valid state CHECK_UPDATE
starts from; the attempt of a valid state is a valid manifest with the same fields, whatever
valid release is running; and the two version grammars are one. -/
theorem validators_agree :
    (∀ config answers release current m attemptId,
      otaPersistentStateValidate current = .ok () → current.state = .checkUpdate →
      answers.manifest = .ok (some m) → otaManifestValidate m = .ok () →
      otaReleaseValidate release = .ok () → otaCompatibilityPrecheck release m = .ok true →
      otaUuidValid attemptId true = true →
        let reply := phase config answers release current
        reply.result = .advance ∧ reply.next.state = .precheck ∧
          otaPersistentStateValidate { reply.next with attemptId } = .ok () ∧
          ∀ loop machine firstPoll, machine.current = current →
            loop.attemptId = .ok attemptId →
            phaseAdvanced loop machine release firstPoll reply.next =
              proposeNext loop machine release firstPoll { reply.next with attemptId }) ∧
    (∀ release state, otaPersistentStateValidate state = .ok () → hasAttempt state = true →
      otaReleaseValidate release = .ok () →
        otaManifestValidate (attemptManifest release state) = .ok () ∧
          (attemptManifest release state).version = state.targetVersion ∧
          (attemptManifest release state).buildId = state.buildId ∧
          (attemptManifest release state).artifactUrl = state.artifactUrl ∧
          (attemptManifest release state).sha256 = state.expectedSha256 ∧
          (attemptManifest release state).size = state.expectedSize) ∧
    (∀ text, persistedVersionValid text = true ↔
      ∃ version, otaVersionParse text = .ok version) := by
  refine ⟨?_, ?_, persistedVersionValid_iff⟩
  · intro config answers release current m attemptId hvalid hstate hfetched hm _ hupdate hid
    obtain ⟨hresult, hnext⟩ := phase_snapshot config hstate hfetched hupdate attemptId
    have hprecheck : (phase config answers release current).next.state = .precheck :=
      congrArg OtaPersistentState.state hnext
    refine ⟨hresult, hprecheck, ?_, ?_⟩
    · rw [hnext, validate_ok_iff]
      exact valid_snapshot (validate_ok_iff.mp hvalid) hstate (manifest_ok_iff.mp hm).2.2 hid
    · rintro loop machine firstPoll rfl hloop
      exact run_snapshot hstate hprecheck hloop
  · intro release state hvalid hattempt hrelease
    obtain ⟨heq, hdevice, hadmitted⟩ :=
      attemptManifest_eq (validate_ok_iff.mp hvalid) hattempt hrelease
    refine ⟨?_, ?_⟩
    · rw [manifest_ok_iff]
      refine ⟨rfl, ?_, hadmitted⟩
      rw [heq]
      exact hdevice
    · rw [heq]
      exact ⟨rfl, rfl, rfl, rfl, rfl⟩

/-! ### An offer -/

def offeredManifest : OtaManifest :=
  ⟨1, deviceCompatible, ascii "1.1.0", ascii "build-7", ascii "/update.raucb",
    List.replicate 64 0x61, 1048576, false⟩

/-- The release that meets the offer. -/
def olderRelease : OtaRelease :=
  ⟨1, deviceCompatible, raucCompatible, ascii "1.0.0", ascii "build-6"⟩

def offeredAttempt : Bytes := ascii "01234567-89ab-4cde-8f01-23456789abcd"

def offeredConfig : OtaConfig where
  baseUrl := ascii "http://192.168.1.100:8000"
  manifestPath := ascii "/manifest.json"
  reportPath := ascii "/device/report"
  pollIntervalSec := 300
  connectTimeoutSec := 5
  requestTimeoutSec := 30
  stateDir := ascii "/userdata/ota"
  releaseFile := ascii "/etc/release.json"
  maxManifestBytes := 65536
  partFile := ascii "/userdata/ota/update.raucb.part"
  bundleFile := ascii "/userdata/ota/update.raucb"
  reserveBytes := 67108864
  raucBinary := ascii "/usr/bin/rauc"
  deviceIdFile := ascii "/userdata/ota/device-id"
  healthHook := []
  healthTimeoutSec := 30
  reportingMode := .legacy

/-- The server offers the manifest, and no service fails. -/
def offeredAnswers : ServiceAnswers where
  manifest := .ok (some offeredManifest)
  discard := .ok ()
  download := .ok ()
  validate := .ok ()
  verify := .ok ()
  install := .ok ()
  healthSlot := .ok .a
  healthProbes := .ok ()
  markSlot := .ok .a
  mark := .ok ()
  report := .ok ()

/-- An offer that is admitted, saved and read as a manifest again. -/
theorem validators_agree_offer :
    let next := (phase offeredConfig offeredAnswers olderRelease
      { otaPersistentStateInit with state := .checkUpdate }).next
    otaPersistentStateValidate { next with attemptId := offeredAttempt } = .ok () ∧
      otaManifestValidate
        (attemptManifest olderRelease { next with attemptId := offeredAttempt }) = .ok () ∧
      ∃ version, otaVersionParse (ascii "1.1.0") = .ok version := by
  intro next
  obtain ⟨hoffered, hattempt, hversion⟩ := validators_agree
  obtain ⟨-, -, hsaved, -⟩ := hoffered offeredConfig offeredAnswers olderRelease
    { otaPersistentStateInit with state := .checkUpdate } offeredManifest offeredAttempt
    (by decide +kernel) rfl rfl (by decide +kernel) (by decide +kernel) (by decide +kernel)
    (by decide +kernel)
  have hread := hattempt olderRelease { next with attemptId := offeredAttempt } hsaved
    (by decide +kernel) (by decide +kernel)
  exact ⟨hsaved, hread.1, (hversion _).mp (by decide +kernel)⟩

end EdgeGuard.Agent.AttemptValidation
