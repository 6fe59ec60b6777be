import EdgeGuard.Base.JsonObject
import EdgeGuard.Agent.Persistence
import EdgeGuard.Agent.Release

/-!
# The agent's reports

`reporting.c` up to the JSON text, and the telemetry of `time_source.c`.  The
clocks are answers from outside: `none` is a clock that cannot be read, and the
text of the wall clock is what `strftime` made of it.
-/

namespace EdgeGuard.Agent.Reporting

open EdgeGuard.Base.CText EdgeGuard.Base.Utf8 EdgeGuard.Base.Json
open EdgeGuard.Agent.Model EdgeGuard.Agent.Release EdgeGuard.Agent.Persistence

/-! ## Telemetry -/

/-- The size of the array `timestamp`. -/
def timestampCap : Nat := 32

def uint64Max : Nat := 2 ^ 64 - 1

structure Timespec where
  sec : Int
  nsec : Int
  deriving DecidableEq, Repr

/-- `OtaTimeSource`, by its answers. -/
structure OtaTimeSource where
  monotonic : Option Timespec
  /-- The text of the wall clock. -/
  wall : Option Bytes
  deriving DecidableEq, Repr

/-- `ota_monotonic_ms`. -/
def otaMonotonicMs (source : OtaTimeSource) : Except OtaError Nat :=
  let invalid := otaErrorSet .timeSourceFailed (ascii "Invalid/unavailable monotonic clock")
  match source.monotonic with
  | none => .error invalid
  | some value =>
      if value.sec < 0 || value.nsec < 0 || 1000000000 ≤ value.nsec ||
          (uint64Max - 999) / 1000 < value.sec.toNat then .error invalid
      else .ok (value.sec.toNat * 1000 + value.nsec.toNat / 1000000)

/-! ## Reports -/

structure OtaReport where
  deviceId : Bytes
  currentVersion : Bytes
  timestamp : Bytes
  timestampValid : Bool
  uptimeMs : Nat
  attemptId : Bytes
  targetVersion : Bytes
  buildId : Bytes
  agentState : OtaState
  errorCode : OtaErrorCode
  deriving DecidableEq, Repr

/-- `state_name`, the table of the reports. -/
def stateName : OtaState → Option Bytes
  | .idle => some (ascii "IDLE")
  | .checkNetwork => some (ascii "CHECK_NETWORK")
  | .checkUpdate => some (ascii "CHECK_UPDATE")
  | .precheck => some (ascii "PRECHECK")
  | .downloading => some (ascii "DOWNLOADING")
  | .verifyDownload => some (ascii "VERIFY_DOWNLOAD")
  | .raucVerify => some (ascii "RAUC_VERIFY")
  | .installing => some (ascii "INSTALLING")
  | .rebootPending => some (ascii "REBOOT_PENDING")
  | .bootNewSlot => some (ascii "BOOT_NEW_SLOT")
  | .healthCheck => some (ascii "HEALTH_CHECK")
  | .markGood => some (ascii "MARK_GOOD")
  | .reportSuccess => some (ascii "REPORT_SUCCESS")
  | .rollback => some (ascii "ROLLBACK")
  | .error => some (ascii "ERROR")
  | .count => none

/-- The two tables agree. -/
theorem stateName_eq (state : OtaState) : stateName state = otaStateName state := by
  cases state <;> rfl

/-- `ota_report_status`. -/
def otaReportStatus (s : OtaState) (mode : OtaReportingMode) : Option Bytes :=
  let either (extended legacy : String) : Option Bytes :=
    some (ascii (if mode = .extended then extended else legacy))
  match s with
  | .count => none
  | .idle => some (ascii "idle")
  | .checkNetwork | .checkUpdate | .precheck => some (ascii "checking")
  | .downloading => some (ascii "downloading")
  | .verifyDownload | .raucVerify => some (ascii "downloaded")
  | .error => some (ascii "error")
  | .rollback => either "rollback" "error"
  | .reportSuccess => either "success" "idle"
  | .rebootPending => either "reboot_pending" "downloaded"
  | _ => either "installing" "downloaded"

/-- `bounded`. -/
def bounded (capacity : Nat) (required : Bool) (s : Bytes) : Bool :=
  s.length < capacity && !(required && s.isEmpty) && valid s && controlFree s

def validReport (r : OtaReport) : Bool :=
  bounded otaUuidCap true r.deviceId && bounded otaTextCap true r.currentVersion &&
    (versionOf r.currentVersion).isSome && bounded timestampCap true r.timestamp &&
    bounded otaUuidCap false r.attemptId && bounded otaTextCap false r.targetVersion &&
    bounded otaTextCap false r.buildId && r.uptimeMs ≤ int64Max &&
    (stateName r.agentState).isSome && (otaErrorCodeName r.errorCode).isSome

/-- The timestamp of a report whose wall clock cannot be read. -/
def epochPlaceholder : Bytes := ascii "1970-01-01T00:00:00Z"

/-- The timestamp behind `ota_time_telemetry`; `strftime` writes nothing into an array that is
too small. -/
def timestampOf (time : OtaTimeSource) : Bytes :=
  match time.wall with
  | none => epochPlaceholder
  | some text =>
      if timestampCap ≤ text.length || text.isEmpty then epochPlaceholder else text

/-- `ota_report_build`. -/
def otaReportBuild (deviceId : Bytes) (release : OtaRelease) (state : OtaPersistentState)
    (time : OtaTimeSource) : Except OtaError OtaReport :=
  let failed : Except OtaError OtaReport := .error (otaErrorSet .reportFailed
    (ascii "Cannot build report from invalid identity or state"))
  if otaUuidCap ≤ deviceId.length then failed
  else
    match otaReleaseValidate release with
    | .error _ => failed
    | .ok () =>
        if !(bounded otaUuidCap false state.attemptId &&
            bounded otaTextCap false state.targetVersion &&
            bounded otaTextCap false state.buildId) then failed
        else
          match otaMonotonicMs time with
          | .error error => .error error
          | .ok uptimeMs =>
              let report : OtaReport :=
                { deviceId := strlcpy otaUuidCap deviceId
                  currentVersion := strlcpy otaTextCap release.version
                  timestamp := timestampOf time
                  timestampValid := false
                  uptimeMs
                  attemptId := strlcpy otaUuidCap state.attemptId
                  targetVersion := strlcpy otaTextCap state.targetVersion
                  buildId := strlcpy otaTextCap state.buildId
                  agentState := state.state
                  errorCode := state.lastError.code }
              if validReport report then .ok report else failed

/-- The object that `ota_report_serialize` builds. -/
def reportMembers (r : OtaReport) (mode : OtaReportingMode) (status : Bytes) : Members :=
  members
    ([(ascii "device_id", .str r.deviceId),
      (ascii "current_version", .str r.currentVersion),
      (ascii "status", .str status),
      (ascii "timestamp", .str r.timestamp)] ++
    match mode with
    | .legacy => []
    | .extended =>
        [(ascii "attempt_id", .str r.attemptId),
          (ascii "target_version", .str r.targetVersion),
          (ascii "build_id", .str r.buildId),
          (ascii "agent_state", .str ((stateName r.agentState).getD [])),
          (ascii "error_code", .str ((otaErrorCodeName r.errorCode).getD [])),
          (ascii "timestamp_valid", .bool false),
          (ascii "uptime_ms", .int r.uptimeMs)])

/-- `ota_report_serialize`. -/
def otaReportSerialize (r : OtaReport) (mode : OtaReportingMode) : Except OtaError Bytes :=
  let status := if validReport r then otaReportStatus r.agentState mode else none
  match status with
  | some status => .ok (generate (.obj (reportMembers r mode status)))
  | none => .error (otaErrorSet .reportFailed (ascii "Invalid report or reporting mode"))

end EdgeGuard.Agent.Reporting
