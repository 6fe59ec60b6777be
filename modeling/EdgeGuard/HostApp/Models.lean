import EdgeGuard.Base.JsonObject
import EdgeGuard.HostApp.Artifact

/-!
# The report model of the server

`DeviceReport` of `models.py`: the members that a report may have, their types
and bounds.  A `str` is its UTF-8 bytes.  The request is decoded to a tree before
pydantic sees it, and the times that pydantic reads are its own business, so the
reader of a `datetime` is an interface with one law.
-/

namespace EdgeGuard.HostApp.Models

open EdgeGuard.Base.CText EdgeGuard.Base.Utf8 EdgeGuard.Base.Json
open EdgeGuard.HostApp.Artifact

/-! ## Enumerations -/

inductive DeviceStatus
  | idle | checking | downloading | downloaded | error | rollback | success
  | rebootPending | installing
  deriving DecidableEq, Repr

/-- The values of `DeviceStatus`. -/
def deviceStatuses : List (Bytes × DeviceStatus) :=
  [(ascii "idle", .idle), (ascii "checking", .checking), (ascii "downloading", .downloading),
    (ascii "downloaded", .downloaded), (ascii "error", .error), (ascii "rollback", .rollback),
    (ascii "success", .success), (ascii "reboot_pending", .rebootPending),
    (ascii "installing", .installing)]

inductive AgentState
  | idle | checkNetwork | checkUpdate | precheck | downloading | verifyDownload
  | raucVerify | installing | rebootPending | bootNewSlot | healthCheck
  | markGood | reportSuccess | rollback | error
  deriving DecidableEq, Repr

/-- The values of `AgentState`. -/
def agentStates : List (Bytes × AgentState) :=
  [(ascii "IDLE", .idle), (ascii "CHECK_NETWORK", .checkNetwork),
    (ascii "CHECK_UPDATE", .checkUpdate), (ascii "PRECHECK", .precheck),
    (ascii "DOWNLOADING", .downloading), (ascii "VERIFY_DOWNLOAD", .verifyDownload),
    (ascii "RAUC_VERIFY", .raucVerify), (ascii "INSTALLING", .installing),
    (ascii "REBOOT_PENDING", .rebootPending), (ascii "BOOT_NEW_SLOT", .bootNewSlot),
    (ascii "HEALTH_CHECK", .healthCheck), (ascii "MARK_GOOD", .markGood),
    (ascii "REPORT_SUCCESS", .reportSuccess), (ascii "ROLLBACK", .rollback),
    (ascii "ERROR", .error)]

inductive AgentErrorCode
  | none | configInvalid | identityInvalid | identityAmbiguous
  | localReleaseInvalid | manifestHttp | manifestInvalid | deviceCompatMismatch
  | versionMalformed | versionCollision | downgradeRejected | downloadHttp
  | downloadRangeMismatch | downloadDiskSpace | downloadSizeMismatch
  | downloadHashMismatch | raucVerifyFailed | raucCompatMismatch
  | raucIdentityMismatch | raucInstallFailed | raucMarkGoodFailed
  | raucMarkBadFailed | healthFailed | rebootContextInvalid | rebootFailed
  | persistenceFailed | reportFailed | illegalTransition | timeSourceFailed
  deriving DecidableEq, Repr

/-- The values of `AgentErrorCode`. -/
def agentErrorCodes : List (Bytes × AgentErrorCode) :=
  [(ascii "NONE", .none), (ascii "CONFIG_INVALID", .configInvalid),
    (ascii "IDENTITY_INVALID", .identityInvalid),
    (ascii "IDENTITY_AMBIGUOUS", .identityAmbiguous),
    (ascii "LOCAL_RELEASE_INVALID", .localReleaseInvalid),
    (ascii "MANIFEST_HTTP", .manifestHttp), (ascii "MANIFEST_INVALID", .manifestInvalid),
    (ascii "DEVICE_COMPAT_MISMATCH", .deviceCompatMismatch),
    (ascii "VERSION_MALFORMED", .versionMalformed),
    (ascii "VERSION_COLLISION", .versionCollision),
    (ascii "DOWNGRADE_REJECTED", .downgradeRejected), (ascii "DOWNLOAD_HTTP", .downloadHttp),
    (ascii "DOWNLOAD_RANGE_MISMATCH", .downloadRangeMismatch),
    (ascii "DOWNLOAD_DISK_SPACE", .downloadDiskSpace),
    (ascii "DOWNLOAD_SIZE_MISMATCH", .downloadSizeMismatch),
    (ascii "DOWNLOAD_HASH_MISMATCH", .downloadHashMismatch),
    (ascii "RAUC_VERIFY_FAILED", .raucVerifyFailed),
    (ascii "RAUC_COMPAT_MISMATCH", .raucCompatMismatch),
    (ascii "RAUC_IDENTITY_MISMATCH", .raucIdentityMismatch),
    (ascii "RAUC_INSTALL_FAILED", .raucInstallFailed),
    (ascii "RAUC_MARK_GOOD_FAILED", .raucMarkGoodFailed),
    (ascii "RAUC_MARK_BAD_FAILED", .raucMarkBadFailed), (ascii "HEALTH_FAILED", .healthFailed),
    (ascii "REBOOT_CONTEXT_INVALID", .rebootContextInvalid),
    (ascii "REBOOT_FAILED", .rebootFailed), (ascii "PERSISTENCE_FAILED", .persistenceFailed),
    (ascii "REPORT_FAILED", .reportFailed), (ascii "ILLEGAL_TRANSITION", .illegalTransition),
    (ascii "TIME_SOURCE_FAILED", .timeSourceFailed)]

/-! ## Values -/

/-- A text of digits and marks in the places of `YYYY-MM-DDTHH:MM:SSZ`. -/
def timestampByte (i : Nat) (b : UInt8) : Bool :=
  if i == 4 || i == 7 then b == 0x2d
  else if i == 10 then b == 0x54
  else if i == 13 || i == 16 then b == 0x3a
  else if i == 19 then b == 0x5a
  else isDigit b

def daysInMonth (year month : Nat) : Nat :=
  if month = 2 then if (year % 4 = 0 ∧ year % 100 ≠ 0) ∨ year % 400 = 0 then 29 else 28
  else if month = 4 ∨ month = 6 ∨ month = 9 ∨ month = 11 then 30
  else 31

/-- An RFC 3339 time in UTC without a fraction, in a year that `datetime` has. -/
def rfc3339Utc (text : Bytes) : Bool :=
  let field (i n : Nat) : Nat := decimalValue 0 ((text.drop i).take n)
  text.length == 20 && (text.zipIdx.all fun (b, i) => timestampByte i b) &&
    1 ≤ field 0 4 && 1 ≤ field 5 2 && field 5 2 ≤ 12 && 1 ≤ field 8 2 &&
    field 8 2 ≤ daysInMonth (field 0 4) (field 5 2) && field 11 2 ≤ 23 && field 14 2 ≤ 59 &&
    field 17 2 ≤ 59

/-- The reader of a `datetime`: whether the time that a value denotes has a time zone. -/
structure DatetimeReader where
  read : Value → Option Bool
  read_rfc3339 : ∀ text, rfc3339Utc text = true → read (.str text) = some true

/-- `value.strip()` is empty. -/
def isBlank (value : Bytes) : Bool :=
  (unichars value).all fun ch => isSpaceChar (Char.ofNat ch)

/-- `str` and `StrictStr`. -/
def strOfValue : Value → Option Bytes
  | .str text => some text
  | _ => none

/-- A member of an enumeration by its value. -/
def enumOfValue {α : Type} (values : List (Bytes × α)) : Value → Option α
  | .str text => values.lookup text
  | _ => none

/-- `StrictBool`. -/
def boolOfValue : Value → Option Bool
  | .bool b => some b
  | _ => none

/-- `UptimeMilliseconds`. -/
def uptimeOfValue : Value → Option Int
  | .int n => if 0 ≤ n ∧ n ≤ 2 ^ 63 - 1 then some n else none
  | _ => none

/-- `required_non_empty_string`. -/
def nonEmptyString (value : Value) : Option Bytes :=
  (strOfValue value).filter fun text => !isBlank text

/-- `extended_text_matches_agent_bounds`. -/
def extendedText (capacity : Nat) (value : Value) : Option Bytes :=
  (strOfValue value).filter fun text => text.length < capacity && controlFree text

/-- `timestamp_must_have_timezone`. -/
def zonedDatetime (D : DatetimeReader) (value : Value) : Option Unit :=
  match D.read value with
  | some true => some ()
  | _ => none

/-! ## The model -/

structure DeviceReport where
  deviceId : Bytes
  currentVersion : Bytes
  status : DeviceStatus
  attemptId : Option Bytes
  targetVersion : Option Bytes
  buildId : Option Bytes
  agentState : Option AgentState
  errorCode : Option AgentErrorCode
  timestampValid : Option Bool
  uptimeMs : Option Int
  deriving DecidableEq, Repr

/-- The members that are not forbidden as `extra`. -/
def fieldNames : List Bytes :=
  [ascii "device_id", ascii "current_version", ascii "status", ascii "timestamp",
    ascii "attempt_id", ascii "target_version", ascii "build_id", ascii "agent_state",
    ascii "error_code", ascii "timestamp_valid", ascii "uptime_ms"]

/-- A member of a `dict`, in which the last of equal names wins. -/
def dictMember (name : Bytes) : Members → Option Value
  | .nil => none
  | .cons k v rest => (dictMember name rest).or (if k == name then some v else none)

def requiredField {α : Type} (object : Members) (name : String) (read : Value → Option α) :
    Option α := (dictMember (ascii name) object).bind read

/-- A field that may be missing, but not null
(`supplied_optional_field_must_not_be_null`). -/
def optionalField {α : Type} (object : Members) (name : String) (read : Value → Option α) :
    Option (Option α) :=
  match dictMember (ascii name) object with
  | none => some none
  | some .null => none
  | some value => (read value).map some

/-- `DeviceReport`; the time itself is left out. -/
def DeviceReport.ofMembers (D : DatetimeReader) (object : Members) : Option DeviceReport := do
  if !object.names.all fieldNames.contains then none
  let deviceId ← requiredField object "device_id" nonEmptyString
  let currentVersion ← requiredField object "current_version" nonEmptyString
  let status ← requiredField object "status" (enumOfValue deviceStatuses)
  requiredField object "timestamp" (zonedDatetime D)
  let attemptId ← optionalField object "attempt_id" (extendedText 37)
  let targetVersion ← optionalField object "target_version" (extendedText 256)
  let buildId ← optionalField object "build_id" (extendedText 256)
  let agentState ← optionalField object "agent_state" (enumOfValue agentStates)
  let errorCode ← optionalField object "error_code" (enumOfValue agentErrorCodes)
  let timestampValid ← optionalField object "timestamp_valid" boolOfValue
  let uptimeMs ← optionalField object "uptime_ms" uptimeOfValue
  return {
    deviceId, currentVersion, status, attemptId, targetVersion, buildId, agentState, errorCode,
    timestampValid, uptimeMs }

/-- The body of a request is accepted as a report. -/
def acceptsReport (J : JsonParser) (D : DatetimeReader) (body : Bytes) : Bool :=
  match J.load body with
  | some (.obj object) => (DeviceReport.ofMembers D object).isSome
  | _ => false

end EdgeGuard.HostApp.Models
