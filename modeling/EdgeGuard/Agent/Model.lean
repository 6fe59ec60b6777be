import EdgeGuard.Base.Utf8

/-!
# Shared data model of the OTA agent

The records and enumerations of the agent's `model.h`.  Fixed-size `char`
arrays are byte lists up to the terminating NUL; a list that does not fit its
array stands for an array without terminator, which every validation refuses.
An enumeration keeps one extra constructor for all numbers outside its range:
C code may hold them, and the sources treat them alike.

`OtaState` and `OtaErrorCode` are ordered by their C values, because several
checks compare states with `<` and `<=`.
-/

namespace EdgeGuard.Agent.Model

open EdgeGuard.Base.CText

/-! ## Capacities -/

def otaSchemaVersion : Int := 1
def otaUuidCap : Nat := 37
def otaTextCap : Nat := 256
def otaPathCap : Nat := 4096
def otaErrorCap : Nat := 512
def otaSha256Cap : Nat := 65
def otaStateMaxBytes : Nat := 64 * 1024

def uint32Max : Nat := 2 ^ 32 - 1
def int32Max : Nat := 2 ^ 31 - 1
def int64Max : Nat := 2 ^ 63 - 1

/-! ## Enumerations -/

/-- The persistent states; `count` stands for every number without a name. -/
inductive OtaState
  | idle | checkNetwork | checkUpdate | precheck | downloading | verifyDownload
  | raucVerify | installing | rebootPending | bootNewSlot | healthCheck
  | markGood | reportSuccess | rollback | error | count
  deriving DecidableEq, Repr

/-- The C value of a state. -/
def OtaState.value : OtaState → Nat
  | .idle => 0 | .checkNetwork => 1 | .checkUpdate => 2 | .precheck => 3
  | .downloading => 4 | .verifyDownload => 5 | .raucVerify => 6
  | .installing => 7 | .rebootPending => 8 | .bootNewSlot => 9
  | .healthCheck => 10 | .markGood => 11 | .reportSuccess => 12
  | .rollback => 13 | .error => 14 | .count => 15

/-- The named states, in the order of the table `state_names`. -/
def otaStates : List OtaState :=
  [.idle, .checkNetwork, .checkUpdate, .precheck, .downloading, .verifyDownload,
    .raucVerify, .installing, .rebootPending, .bootNewSlot, .healthCheck,
    .markGood, .reportSuccess, .rollback, .error]

def otaStateName : OtaState → Option Bytes
  | .idle => some (ascii "IDLE")
  | .checkNetwork => some (ascii "CHECK_NETWORK")
  | .checkUpdate => some (ascii "CHECK_UPDATE")
  | .precheck => some (ascii "PRECHECK")
  | .downloading => some (ascii "DOWNLOADING")
  | .verifyDownload => some (ascii "VERIFY_DOWNLOAD")
  | .raucVerify => some (ascii "RAUC_VERIFY")
  | .installing => some (ascii "INSTALLING")
  | .rebootPending => some (ascii "REBOOT_PENDING")
  | .bootNewSlot => some (ascii "BOOT_NEW_SLOT")
  | .healthCheck => some (ascii "HEALTH_CHECK")
  | .markGood => some (ascii "MARK_GOOD")
  | .reportSuccess => some (ascii "REPORT_SUCCESS")
  | .rollback => some (ascii "ROLLBACK")
  | .error => some (ascii "ERROR")
  | .count => none

inductive OtaErrorCode
  | none | configInvalid | identityInvalid | identityAmbiguous
  | localReleaseInvalid | manifestHttp | manifestInvalid | deviceCompatMismatch
  | versionMalformed | versionCollision | downgradeRejected | downloadHttp
  | downloadRangeMismatch | downloadDiskSpace | downloadSizeMismatch
  | downloadHashMismatch | raucVerifyFailed | raucCompatMismatch
  | raucIdentityMismatch | raucInstallFailed | raucMarkGoodFailed
  | raucMarkBadFailed | healthFailed | rebootContextInvalid | rebootFailed
  | persistenceFailed | reportFailed | illegalTransition | timeSourceFailed
  | endpointConfigInvalid | count
  deriving DecidableEq, Repr

/-- The named codes, in the order of `OTA_ERROR_CODES`. -/
def otaErrorCodes : List OtaErrorCode :=
  [.none, .configInvalid, .identityInvalid, .identityAmbiguous,
    .localReleaseInvalid, .manifestHttp, .manifestInvalid, .deviceCompatMismatch,
    .versionMalformed, .versionCollision, .downgradeRejected, .downloadHttp,
    .downloadRangeMismatch, .downloadDiskSpace, .downloadSizeMismatch,
    .downloadHashMismatch, .raucVerifyFailed, .raucCompatMismatch,
    .raucIdentityMismatch, .raucInstallFailed, .raucMarkGoodFailed,
    .raucMarkBadFailed, .healthFailed, .rebootContextInvalid, .rebootFailed,
    .persistenceFailed, .reportFailed, .illegalTransition, .timeSourceFailed,
    .endpointConfigInvalid]

def otaErrorCodeName : OtaErrorCode → Option Bytes
  | .none => some (ascii "NONE")
  | .configInvalid => some (ascii "CONFIG_INVALID")
  | .identityInvalid => some (ascii "IDENTITY_INVALID")
  | .identityAmbiguous => some (ascii "IDENTITY_AMBIGUOUS")
  | .localReleaseInvalid => some (ascii "LOCAL_RELEASE_INVALID")
  | .manifestHttp => some (ascii "MANIFEST_HTTP")
  | .manifestInvalid => some (ascii "MANIFEST_INVALID")
  | .deviceCompatMismatch => some (ascii "DEVICE_COMPAT_MISMATCH")
  | .versionMalformed => some (ascii "VERSION_MALFORMED")
  | .versionCollision => some (ascii "VERSION_COLLISION")
  | .downgradeRejected => some (ascii "DOWNGRADE_REJECTED")
  | .downloadHttp => some (ascii "DOWNLOAD_HTTP")
  | .downloadRangeMismatch => some (ascii "DOWNLOAD_RANGE_MISMATCH")
  | .downloadDiskSpace => some (ascii "DOWNLOAD_DISK_SPACE")
  | .downloadSizeMismatch => some (ascii "DOWNLOAD_SIZE_MISMATCH")
  | .downloadHashMismatch => some (ascii "DOWNLOAD_HASH_MISMATCH")
  | .raucVerifyFailed => some (ascii "RAUC_VERIFY_FAILED")
  | .raucCompatMismatch => some (ascii "RAUC_COMPAT_MISMATCH")
  | .raucIdentityMismatch => some (ascii "RAUC_IDENTITY_MISMATCH")
  | .raucInstallFailed => some (ascii "RAUC_INSTALL_FAILED")
  | .raucMarkGoodFailed => some (ascii "RAUC_MARK_GOOD_FAILED")
  | .raucMarkBadFailed => some (ascii "RAUC_MARK_BAD_FAILED")
  | .healthFailed => some (ascii "HEALTH_FAILED")
  | .rebootContextInvalid => some (ascii "REBOOT_CONTEXT_INVALID")
  | .rebootFailed => some (ascii "REBOOT_FAILED")
  | .persistenceFailed => some (ascii "PERSISTENCE_FAILED")
  | .reportFailed => some (ascii "REPORT_FAILED")
  | .illegalTransition => some (ascii "ILLEGAL_TRANSITION")
  | .timeSourceFailed => some (ascii "TIME_SOURCE_FAILED")
  | .endpointConfigInvalid => some (ascii "ENDPOINT_CONFIG_INVALID")
  | .count => Option.none

/-- The A/B slots; `invalid` stands for a number outside the enumeration. -/
inductive OtaSlot
  | unknown | a | b | invalid
  deriving DecidableEq, Repr

inductive OtaRebootContext
  | none | install | healthFailure | invalid
  deriving DecidableEq, Repr

/-! ## Records -/

structure OtaError where
  code : OtaErrorCode
  message : Bytes
  deriving DecidableEq, Repr

/-- `ota_error_set`: the message is cut to the capacity of its array. -/
def otaErrorSet (code : OtaErrorCode) (message : Bytes) : OtaError :=
  { code, message := message.take (otaErrorCap - 1) }

/-- `(OtaError){0}`. -/
def OtaError.zero : OtaError := { code := .none, message := [] }

structure OtaRelease where
  schemaVersion : Int
  deviceCompatible : Bytes
  raucCompatible : Bytes
  version : Bytes
  buildId : Bytes
  deriving DecidableEq, Repr

structure OtaManifest where
  schemaVersion : Int
  deviceCompatible : Bytes
  version : Bytes
  buildId : Bytes
  artifactUrl : Bytes
  sha256 : Bytes
  size : Nat
  mandatory : Bool
  deriving DecidableEq, Repr

structure OtaPersistentState where
  schemaVersion : Int
  state : OtaState
  attemptId : Bytes
  targetVersion : Bytes
  buildId : Bytes
  artifactUrl : Bytes
  expectedSize : Nat
  expectedSha256 : Bytes
  lastError : OtaError
  previousSlot : OtaSlot
  expectedCandidateSlot : OtaSlot
  bootIdBefore : Bytes
  rebootContext : OtaRebootContext
  deriving DecidableEq, Repr

inductive OtaReportingMode
  | legacy | extended
  deriving DecidableEq, Repr

structure OtaConfig where
  baseUrl : Bytes
  manifestPath : Bytes
  reportPath : Bytes
  pollIntervalSec : Nat
  connectTimeoutSec : Nat
  requestTimeoutSec : Nat
  stateDir : Bytes
  releaseFile : Bytes
  maxManifestBytes : Nat
  partFile : Bytes
  bundleFile : Bytes
  reserveBytes : Nat
  raucBinary : Bytes
  deviceIdFile : Bytes
  healthHook : Bytes
  healthTimeoutSec : Nat
  reportingMode : OtaReportingMode
  deriving DecidableEq, Repr

/-- `ota_persistent_state_init`. -/
def otaPersistentStateInit : OtaPersistentState where
  schemaVersion := otaSchemaVersion
  state := .idle
  attemptId := []
  targetVersion := []
  buildId := []
  artifactUrl := []
  expectedSize := 0
  expectedSha256 := []
  lastError := .zero
  previousSlot := .unknown
  expectedCandidateSlot := .unknown
  bootIdBefore := []
  rebootContext := .none

/-- `g_strlcpy` into an array of the given capacity. -/
def strlcpy (capacity : Nat) (source : Bytes) : Bytes := source.take (capacity - 1)

end EdgeGuard.Agent.Model
