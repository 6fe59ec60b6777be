import EdgeGuard.Agent.AttemptValidation
import EdgeGuard.Agent.Reporting
import EdgeGuard.Base.JsonReader
import EdgeGuard.HostApp.Models

/-!
# Reports between the agent and the server

Every report that the agent can build of a valid state is one that the server
takes, but for one name: the error code ENDPOINT_CONFIG_INVALID, which the agent
and the provisioning daemon know and the server does not.

## Main results

* `report_accepted_iff` — when the server takes a report.
-/

namespace EdgeGuard.HostApp.ReportAgreement

open EdgeGuard.Base EdgeGuard.Base.CText EdgeGuard.Base.Utf8 EdgeGuard.Base.Json
open EdgeGuard.Base.JsonObject
open EdgeGuard.Agent.Model EdgeGuard.Agent.Identity EdgeGuard.Agent.Release
open EdgeGuard.Agent.Persistence EdgeGuard.Agent.PersistenceRoundTrip
open EdgeGuard.Agent.AttemptValidation EdgeGuard.Agent.Reporting
open EdgeGuard.HostApp.Artifact EdgeGuard.HostApp.Models

/-! ## The tables -/

/-- Every status of every state and mode is one of the server's. -/
theorem status_known (state : OtaState) (mode : OtaReportingMode) {status : Bytes}
    (h : otaReportStatus state mode = some status) :
    TextOk status ∧ (deviceStatuses.lookup status).isSome = true := by
  have hall : ∀ state mode, ∀ status ∈ otaReportStatus state mode,
      (valid status = true ∧ controlFree status = true) ∧
        (deviceStatuses.lookup status).isSome = true := by
    intro state mode
    cases state <;> cases mode <;> decide
  obtain ⟨⟨hutf8, hplain⟩, hknown⟩ := hall state mode status h
  exact ⟨⟨hutf8, hplain⟩, hknown⟩

theorem state_known {state : OtaState} (h : state ≠ .count) :
    TextOk ((stateName state).getD []) ∧
      (agentStates.lookup ((stateName state).getD [])).isSome = true := by
  constructor
  · rw [stateName_eq]
    exact textOk_of_word (otaStateName_word state).1
  · cases state <;> first | exact absurd rfl h | decide

/-- The server knows every code but one. -/
theorem code_known_iff {code : OtaErrorCode} (h : code ≠ .count) :
    TextOk ((otaErrorCodeName code).getD []) ∧
      ((agentErrorCodes.lookup ((otaErrorCodeName code).getD [])).isSome = true ↔
        code ≠ .endpointConfigInvalid) := by
  refine ⟨textOk_of_word (otaErrorCodeName_word code).1, ?_⟩
  cases code <;> first | exact absurd rfl h | decide

/-! ## The texts -/

/-- Text that begins with a visible ASCII character is not blank. -/
theorem not_blank_cons {b : UInt8} {rest : Bytes} (hlow : 0x21 ≤ b) (hhigh : b < 0x7f) :
    isBlank (b :: rest) = false := by
  have hz : b ≠ 0 := by
    rintro rfl
    exact absurd hlow (by decide)
  have hascii : b < 0x80 := by
    rw [UInt8.lt_iff_toNat_lt] at hhigh ⊢
    exact Nat.lt_trans hhigh (by decide)
  have hlow' : 0x21 ≤ b.toNat := UInt8.le_iff_toNat_le.mp hlow
  have hhigh' : b.toNat < 0x7f := UInt8.lt_iff_toNat_lt.mp hhigh
  have hchar : (Char.ofNat b.toNat).toNat = b.toNat := by
    have hall : ∀ n < 0x7f, (Char.ofNat n).toNat = n := by decide
    exact hall _ hhigh'
  have hspace : isSpaceChar (Char.ofNat b.toNat) = false := by
    unfold isSpaceChar
    rw [hchar]
    simp
    omega
  unfold isBlank unichars
  rw [unicharsFrom_ascii hz hascii, List.all_cons, hspace, Bool.false_and]

/-- A UUID is not blank. -/
theorem not_blank_of_uuid {value : Bytes} {v4 : Bool} (h : otaUuidValid value v4 = true) :
    isBlank value = false := by
  cases value with
  | nil => cases h
  | cons b rest =>
      simp only [otaUuidValid, Bool.and_eq_true] at h
      have hhex : isLowerHex b = true := by
        have hfirst := List.all_eq_true.mp h.1.2 (b, 0) (by simp [List.zipIdx_cons])
        simpa [uuidByte] using hfirst
      revert hhex
      intro hhex
      apply not_blank_cons
      · revert hhex
        unfold isLowerHex isDigit
        grind
      · revert hhex
        unfold isLowerHex isDigit
        grind

/-- A version is not blank. -/
theorem not_blank_of_version {text : Bytes} (h : (versionOf text).isSome = true) :
    isBlank text = false := by
  cases text with
  | nil => cases h
  | cons b rest =>
      by_cases hdigit : isDigit b = true
      · apply not_blank_cons
        · revert hdigit
          unfold isDigit
          grind
        · revert hdigit
          unfold isDigit
          grind
      · simp [versionOf, componentDot, component, hdigit] at h

theorem textOk_of_reported {capacity : Nat} {required : Bool} {s : Bytes}
    (h : bounded capacity required s = true) : TextOk s ∧ s.length < capacity := by
  simp only [bounded, Bool.and_eq_true, decide_eq_true_eq] at h
  exact ⟨⟨h.1.2, h.2⟩, h.1.1.1⟩

/-! ## The report -/

/-- What a valid report is. -/
structure Reportable (r : OtaReport) : Prop where
  deviceId : TextOk r.deviceId
  version : TextOk r.currentVersion ∧ (versionOf r.currentVersion).isSome = true
  timestamp : TextOk r.timestamp
  attemptId : TextOk r.attemptId ∧ r.attemptId.length < 37
  targetVersion : TextOk r.targetVersion ∧ r.targetVersion.length < 256
  buildId : TextOk r.buildId ∧ r.buildId.length < 256
  uptime : r.uptimeMs ≤ int64Max
  state : r.agentState ≠ .count
  code : r.errorCode ≠ .count

/-- A valid report has what the server requires of it. -/
theorem reportable_of_valid {r : OtaReport} (h : validReport r = true) : Reportable r := by
  simp only [validReport, Bool.and_eq_true, decide_eq_true_eq] at h
  obtain ⟨⟨⟨⟨⟨⟨⟨⟨⟨hdevice, hversion⟩, hparsed⟩, htime⟩, hattempt⟩, htarget⟩, hbuild⟩, huptime⟩,
    hstate⟩, hcode⟩ := h
  refine
    { deviceId := (textOk_of_reported hdevice).1
      version := ⟨(textOk_of_reported hversion).1, hparsed⟩
      timestamp := (textOk_of_reported htime).1
      attemptId := textOk_of_reported hattempt
      targetVersion := textOk_of_reported htarget
      buildId := textOk_of_reported hbuild
      uptime := huptime
      state := ?_
      code := ?_ }
  · intro hcount
    rw [hcount] at hstate
    cases hstate
  · intro hcount
    rw [hcount] at hcode
    cases hcode

/-- A report can be written. -/
theorem writable_report {r : OtaReport} (h : Reportable r) (mode : OtaReportingMode)
    {status : Bytes} (hstatus : TextOk status) :
    WritableMembers (reportMembers r mode status) := by
  have huptime : (0 : Int) ≤ r.uptimeMs := Int.natCast_nonneg _
  cases mode with
  | legacy =>
      refine writable_cons (by decide) (by decide) rfl h.deviceId ?_
      refine writable_cons (by decide) (by decide) rfl h.version.1 ?_
      refine writable_cons (by decide) (by decide) rfl hstatus ?_
      exact writable_cons (by decide) (by decide) rfl h.timestamp trivial
  | extended =>
      refine writable_cons (by decide) (by decide) rfl h.deviceId ?_
      refine writable_cons (by decide) (by decide) rfl h.version.1 ?_
      refine writable_cons (by decide) (by decide) rfl hstatus ?_
      refine writable_cons (by decide) (by decide) rfl h.timestamp ?_
      refine writable_cons (by decide) (by decide) rfl h.attemptId.1 ?_
      refine writable_cons (by decide) (by decide) rfl h.targetVersion.1 ?_
      refine writable_cons (by decide) (by decide) rfl h.buildId.1 ?_
      refine writable_cons (by decide) (by decide) rfl (state_known h.state).1 ?_
      refine writable_cons (by decide) (by decide) rfl (code_known_iff h.code).1 ?_
      refine writable_cons (by decide) (by decide) rfl trivial ?_
      exact writable_cons (by decide) (by decide) rfl huptime trivial

theorem inRange_report {r : OtaReport} (h : Reportable r) (mode : OtaReportingMode)
    (status : Bytes) : InRangeMembers (reportMembers r mode status) := by
  have huptime : (r.uptimeMs : Int) ≤ gint64Max := Int.ofNat_le.mpr h.uptime
  cases mode with
  | legacy => simp [reportMembers, InRangeMembers, InRange]
  | extended => simp [reportMembers, InRangeMembers, InRange, huptime]

/-- A field that is supplied with a text. -/
theorem optionalField_str {α : Type} {object : Members} {name : String} {text : Bytes}
    (read : Value → Option α) (h : dictMember (ascii name) object = some (.str text)) :
    optionalField object name read = (read (.str text)).map some := by
  simp [optionalField, h]

theorem extendedText_of {capacity : Nat} {text : Bytes} (h : TextOk text)
    (hlength : text.length < capacity) : extendedText capacity (.str text) = some text := by
  simp [extendedText, strOfValue, h.plain, hlength]

theorem nonEmptyString_of {text : Bytes} (h : isBlank text = false) :
    nonEmptyString (.str text) = some text := by
  simp [nonEmptyString, strOfValue, h]

/-- The members of every report are the server's. -/
theorem names_known (r : OtaReport) (mode : OtaReportingMode) (status : Bytes) :
    (reportMembers r mode status).names.all fieldNames.contains = true := by
  cases mode <;> rfl

/-- The four fields that every report has. -/
structure Required (D : DatetimeReader) (object : Members) (deviceId version : Bytes)
    (status : DeviceStatus) : Prop where
  deviceId : requiredField object "device_id" nonEmptyString = some deviceId
  version : requiredField object "current_version" nonEmptyString = some version
  status : requiredField object "status" (enumOfValue deviceStatuses) = some status
  timestamp : requiredField object "timestamp" (zonedDatetime D) = some ()

/-- The members that the server requires are there in either mode. -/
theorem required_report (D : DatetimeReader) {r : OtaReport} (h : Reportable r)
    (hdevice : isBlank r.deviceId = false) (htime : rfc3339Utc r.timestamp = true)
    (mode : OtaReportingMode) {status : Bytes} {known : DeviceStatus}
    (hstatus : deviceStatuses.lookup status = some known) :
    Required D (reportMembers r mode status) r.deviceId r.currentVersion known := by
  have hversion := not_blank_of_version h.version.2
  have hzoned : zonedDatetime D (.str r.timestamp) = some () := by
    rw [zonedDatetime, D.read_rfc3339 _ htime]
  cases mode with
  | legacy => exact ⟨nonEmptyString_of hdevice, nonEmptyString_of hversion, hstatus, hzoned⟩
  | extended => exact ⟨nonEmptyString_of hdevice, nonEmptyString_of hversion, hstatus, hzoned⟩

/-- A field that is left out. -/
theorem optionalField_missing {α : Type} {object : Members} {name : String}
    (read : Value → Option α) (h : dictMember (ascii name) object = none) :
    optionalField object name read = some none := by
  simp [optionalField, h]

/-- The report model takes the members of a report whose code it knows. -/
theorem ofMembers_isSome_iff (D : DatetimeReader) {r : OtaReport} (h : Reportable r)
    (hdevice : isBlank r.deviceId = false) (htime : rfc3339Utc r.timestamp = true)
    (mode : OtaReportingMode) {status : Bytes}
    (hstatus : (deviceStatuses.lookup status).isSome = true) :
    (DeviceReport.ofMembers D (reportMembers r mode status)).isSome = true ↔
      (mode = .extended → r.errorCode ≠ .endpointConfigInvalid) := by
  obtain ⟨known, hknown⟩ := Option.isSome_iff_exists.mp hstatus
  obtain ⟨h1, h2, h3, h4⟩ := required_report D h hdevice htime mode hknown
  have hnames := names_known r mode status
  cases mode with
  | legacy =>
      have h5 : optionalField (reportMembers r .legacy status) "attempt_id"
          (extendedText 37) = some none := optionalField_missing _ rfl
      have h6 : optionalField (reportMembers r .legacy status) "target_version"
          (extendedText 256) = some none := optionalField_missing _ rfl
      have h7 : optionalField (reportMembers r .legacy status) "build_id"
          (extendedText 256) = some none := optionalField_missing _ rfl
      have h8 : optionalField (reportMembers r .legacy status) "agent_state"
          (enumOfValue agentStates) = some none := optionalField_missing _ rfl
      have h9 : optionalField (reportMembers r .legacy status) "error_code"
          (enumOfValue agentErrorCodes) = some none := optionalField_missing _ rfl
      have h10 : optionalField (reportMembers r .legacy status) "timestamp_valid"
          boolOfValue = some none := optionalField_missing _ rfl
      have h11 : optionalField (reportMembers r .legacy status) "uptime_ms"
          uptimeOfValue = some none := optionalField_missing _ rfl
      simp only [DeviceReport.ofMembers, hnames, h1, h2, h3, h4, h5, h6, h7, h8, h9, h10, h11,
        Bool.not_true, Bool.false_eq_true, if_false, Option.bind_eq_bind, Option.bind_some]
      simp
  | extended =>
      obtain ⟨state, hstate⟩ := Option.isSome_iff_exists.mp (state_known h.state).2
      have huptime : (0 : Int) ≤ r.uptimeMs ∧ (r.uptimeMs : Int) ≤ 2 ^ 63 - 1 := by
        have hle := h.uptime
        unfold int64Max at hle
        omega
      have h5 : optionalField (reportMembers r .extended status) "attempt_id"
          (extendedText 37) = some (some r.attemptId) := by
        rw [optionalField_str (extendedText 37) rfl, extendedText_of h.attemptId.1 h.attemptId.2]
        rfl
      have h6 : optionalField (reportMembers r .extended status) "target_version"
          (extendedText 256) = some (some r.targetVersion) := by
        rw [optionalField_str (extendedText 256) rfl,
          extendedText_of h.targetVersion.1 h.targetVersion.2]
        rfl
      have h7 : optionalField (reportMembers r .extended status) "build_id"
          (extendedText 256) = some (some r.buildId) := by
        rw [optionalField_str (extendedText 256) rfl, extendedText_of h.buildId.1 h.buildId.2]
        rfl
      have h8 : optionalField (reportMembers r .extended status) "agent_state"
          (enumOfValue agentStates) = some (some state) := by
        rw [optionalField_str (enumOfValue agentStates) rfl, enumOfValue, hstate]
        rfl
      have h9 : optionalField (reportMembers r .extended status) "error_code"
          (enumOfValue agentErrorCodes) =
            (agentErrorCodes.lookup ((otaErrorCodeName r.errorCode).getD [])).map some := by
        rw [optionalField_str (enumOfValue agentErrorCodes) rfl, enumOfValue]
      have h10 : optionalField (reportMembers r .extended status) "timestamp_valid"
          boolOfValue = some (some false) := rfl
      have h11 : optionalField (reportMembers r .extended status) "uptime_ms"
          uptimeOfValue = some (some (r.uptimeMs : Int)) := by
        show (uptimeOfValue (.int r.uptimeMs)).map some = _
        rw [uptimeOfValue, if_pos huptime]
        rfl
      rw [← (code_known_iff h.code).2]
      simp only [DeviceReport.ofMembers, hnames, h1, h2, h3, h4, h5, h6, h7, h8, h9, h10, h11,
        Bool.not_true, Bool.false_eq_true, if_false, Option.bind_eq_bind, Option.bind_some]
      cases agentErrorCodes.lookup ((otaErrorCodeName r.errorCode).getD []) with
      | none => simp
      | some code => simp

/-! ## The two programs -/

/-- The server takes the text of a report. -/
def Accepted (J : JsonParser) (D : DatetimeReader) (r : OtaReport) (mode : OtaReportingMode) :
    Prop :=
  ∃ json, otaReportSerialize r mode = .ok json ∧ acceptsReport J D json = true

/-- The server accepts a report exactly when it knows its status and its error. -/
theorem accepted_iff (J : JsonParser) (D : DatetimeReader) {r : OtaReport}
    (hvalid : validReport r = true) (hdevice : isBlank r.deviceId = false)
    (htime : rfc3339Utc r.timestamp = true) (mode : OtaReportingMode) :
    Accepted J D r mode ↔ (mode = .extended → r.errorCode ≠ .endpointConfigInvalid) := by
  have hreport := reportable_of_valid hvalid
  have hnamed : ∃ status, otaReportStatus r.agentState mode = some status := by
    have hstate := hreport.state
    cases hs : r.agentState <;> first | exact absurd hs hstate | exact ⟨_, rfl⟩
  obtain ⟨status, hstatus⟩ := hnamed
  obtain ⟨htext, hknown⟩ := status_known _ _ hstatus
  have hload : J.load (generate (.obj (reportMembers r mode status))) =
      some (.obj (reportMembers r mode status)) :=
    J.load_generate _ (writable_report hreport mode htext) (inRange_report hreport mode status)
  have hserialize : otaReportSerialize r mode =
      .ok (generate (.obj (reportMembers r mode status))) := by
    unfold otaReportSerialize
    rw [hvalid, if_pos rfl, hstatus]
  have hiff := ofMembers_isSome_iff D hreport hdevice htime mode hknown
  constructor
  · rintro ⟨json, hjson, haccepted⟩
    rw [hserialize] at hjson
    cases hjson
    simp only [acceptsReport, hload] at haccepted
    exact hiff.mp haccepted
  · intro hcode
    refine ⟨_, hserialize, ?_⟩
    simp only [acceptsReport, hload]
    exact hiff.mpr hcode

/-- What a report says of the device and of the state. -/
theorem build_ok {deviceId : Bytes} {release : OtaRelease} {state : OtaPersistentState}
    {time : OtaTimeSource} {r : OtaReport}
    (h : otaReportBuild deviceId release state time = .ok r) :
    validReport r = true ∧ r.deviceId = strlcpy otaUuidCap deviceId ∧
      r.errorCode = state.lastError.code := by
  unfold otaReportBuild at h
  simp only at h
  split at h
  · cases h
  split at h
  · cases h
  split at h
  · cases h
  split at h
  · cases h
  split at h
  · rename_i hvalid
    cases h
    exact ⟨hvalid, rfl, rfl⟩
  · cases h

/-- Every report that is built for a UUID is serialised, and the text is taken by the server:
in legacy mode always, in extended mode if and only if the error code of the state is not
ENDPOINT_CONFIG_INVALID.  The tests of the release and of the state that this needs are those
of `ota_report_build`. -/
theorem report_accepted_iff (J : JsonParser) (D : DatetimeReader) {deviceId : Bytes}
    {release : OtaRelease} {state : OtaPersistentState} {time : OtaTimeSource} {r : OtaReport}
    (hdevice : otaUuidValid deviceId false = true)
    (hbuild : otaReportBuild deviceId release state time = .ok r)
    (htime : rfc3339Utc r.timestamp = true) (mode : OtaReportingMode) :
    Accepted J D r mode ↔
      (mode = .extended → state.lastError.code ≠ .endpointConfigInvalid) := by
  obtain ⟨hvalid, hid, hcode⟩ := build_ok hbuild
  have hwhole : strlcpy otaUuidCap deviceId = deviceId := by
    apply List.take_of_length_le
    rw [length_of_uuid hdevice]
    decide
  rw [← hcode]
  apply accepted_iff J D hvalid _ htime mode
  rw [hid, hwhole]
  exact not_blank_of_uuid hdevice

/-! ## A report the server does not know -/

def sampleDevice : Bytes := ascii "0f9d5c1a-7b3e-4d21-9a6f-1c2b3d4e5f60"

def sampleRelease : OtaRelease :=
  ⟨1, ascii "atk-dlrk3588", ascii "EdgeGuard-ATK-DLRK3588-RK3588", ascii "1.2.2", ascii "build-6"⟩

/-- Clocks of a device that has been up for two minutes. -/
def sampleTime : OtaTimeSource := ⟨some ⟨120, 0⟩, some (ascii "2026-09-02T04:00:00Z")⟩

/-- An agent that stopped in ERROR with the given code. -/
def errorState (code : OtaErrorCode) : OtaPersistentState :=
  { otaPersistentStateInit with state := .error, lastError := ⟨code, []⟩ }

/-- The report of it. -/
def errorReport (code : OtaErrorCode) : OtaReport where
  deviceId := sampleDevice
  currentVersion := ascii "1.2.2"
  timestamp := ascii "2026-09-02T04:00:00Z"
  timestampValid := false
  uptimeMs := 120000
  attemptId := []
  targetVersion := []
  buildId := []
  agentState := .error
  errorCode := code

/-- A reader of times that knows nothing but the times of the law. -/
def referenceDatetime : DatetimeReader where
  read
    | .str text => if rfc3339Utc text then some true else none
    | _ => none
  read_rfc3339 := by
    intro text h
    simp [h]

/-- A failed health check is reported. -/
theorem report_accepted_iff_health_failed :
    Accepted JsonReader.referenceParser referenceDatetime (errorReport .healthFailed)
      .extended := by
  have hbuild : otaReportBuild sampleDevice sampleRelease (errorState .healthFailed) sampleTime =
      .ok (errorReport .healthFailed) := by
    rfl
  apply (report_accepted_iff JsonReader.referenceParser referenceDatetime (by decide +kernel)
    hbuild (by decide +kernel) .extended).mpr
  intro _
  decide

/-- A rejected endpoint override is not. -/
theorem endpoint_report_rejected :
    ¬ ∀ (J : JsonParser) (D : DatetimeReader) (deviceId : Bytes) (release : OtaRelease)
      (state : OtaPersistentState) (time : OtaTimeSource) (r : OtaReport)
      (mode : OtaReportingMode), otaUuidValid deviceId false = true →
        otaReleaseValidate release = .ok () → stateValid state = true →
        otaReportBuild deviceId release state time = .ok r → rfc3339Utc r.timestamp = true →
          Accepted J D r mode := by
  intro hclaim
  have haccepted := hclaim JsonReader.referenceParser referenceDatetime sampleDevice sampleRelease
    (errorState .endpointConfigInvalid) sampleTime (errorReport .endpointConfigInvalid) .extended
    (by decide +kernel) (by decide +kernel) (by decide +kernel) rfl (by decide +kernel)
  have hblank : isBlank sampleDevice = false := by decide +kernel
  rw [accepted_iff JsonReader.referenceParser referenceDatetime (by decide +kernel) hblank
    (by decide +kernel)] at haccepted
  exact haccepted rfl rfl

end EdgeGuard.HostApp.ReportAgreement
