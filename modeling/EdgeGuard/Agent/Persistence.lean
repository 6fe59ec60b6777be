import EdgeGuard.Agent.Identity
import EdgeGuard.Base.DurableFile
import EdgeGuard.Base.JsonGuard
import EdgeGuard.Base.JsonObject

/-!
# The agent's persistent state file

`persistence.c`: the structural validation of `OtaPersistentState`, its JSON
form, the atomic write that puts it on disk, and the loader with its raw-byte
guards in front of JSON-GLib.

A write is the list of its acts on the file (`FileAct`) with the value it
returns.  `IoFault` names the first step of the write that fails; steps before
the rename leave no trace, the directory sync after it leaves the new content
with uncertain durability.  Temporary files are not modelled: they are created
under fresh names and no reader looks at them.

`ota_persistent_state_validate` is a chain of blocks; each block is a
definition of its own, in the order of the source.
-/

namespace EdgeGuard.Agent.Persistence

open EdgeGuard.Base.CText EdgeGuard.Base.Utf8 EdgeGuard.Base.Json
open EdgeGuard.Base.DurableFile EdgeGuard.Base.JsonObject EdgeGuard.Base
open EdgeGuard.Agent.Model EdgeGuard.Agent.Identity

/-! ## Reading and writing files -/

/-- The steps of `ota_atomic_write` that can fail. -/
inductive IoStep
  | openDirectory | inspect | create | write | fileFsync | close | rename
  | parentFsync
  deriving DecidableEq, Repr

/-- The first failing step of a write, and the text `strerror` has for it. -/
structure IoFault where
  step : IoStep
  reason : Bytes
  deriving DecidableEq, Repr

/-- `io_error`. -/
def ioError (operation reason : Bytes) : OtaError :=
  otaErrorSet .persistenceFailed (operation ++ ascii ": " ++ reason)

/-- `ota_file_read`: `none` in the result is a missing file; `fault` is any
failure of `open`, `fstat`, `read` or `close` with its error, and a file that
grows past the limit while it is read. -/
def otaFileRead (path : Bytes) (limit : Nat) (fault : Option OtaError) (file : Option Bytes) :
    Except OtaError (Option Bytes) :=
  match fault, file with
  | some error, _ => .error error
  | none, none => .ok none
  | none, some data =>
      if limit < data.length then
        .error (otaErrorSet .persistenceFailed (ascii "Not a bounded regular file: " ++ path))
      else .ok (some data)

/-- `ota_atomic_write`. -/
def otaAtomicWrite (data : Bytes) :
    Option IoFault → List (FileAct Bytes) × Except OtaError Unit
  | none => ([.replace data, .sync], .ok ())
  | some fault =>
      let operation :=
        match fault.step with
        | .openDirectory => ascii "open persistence directory"
        | _ => ascii "atomic persistence (durability may be uncertain after rename)"
      let acts :=
        match fault.step with
        | .parentFsync => [.replace data]
        | _ => []
      (acts, .error (ioError operation fault.reason))

/-! ## Validation -/

def boundedText (capacity : Nat) (text : Bytes) : Bool :=
  text.length < capacity && valid text && controlFree text

/-- The digits of one version component, from the value read so far: the text
behind them, or `none` when the number leaves 32 bits. -/
def versionDigits (value : Nat) : Bytes → Option Bytes
  | [] => some []
  | b :: rest =>
      if isDigit b then
        if uint32Max < value * 10 + digitOf b then none
        else versionDigits (value * 10 + digitOf b) rest
      else some (b :: rest)

/-- One version component: a digit, no leading zero, at most 32 bits. -/
def versionPart : Bytes → Option Bytes
  | [] => none
  | b :: rest =>
      if !isDigit b || (b == 0x30 && rest.head?.any isDigit) then none
      else versionDigits 0 (b :: rest)

/-- A component and the dot behind it. -/
def versionPartDot (text : Bytes) : Option Bytes :=
  match versionPart text with
  | some (b :: rest) => if b == 0x2e then some rest else none
  | _ => none

/-- `persisted_version_valid`: three components separated by dots. -/
def persistedVersionValid (text : Bytes) : Bool :=
  match versionPartDot text with
  | none => false
  | some rest =>
      match versionPartDot rest with
      | none => false
      | some rest => versionPart rest == some []

def headerOk (s : OtaPersistentState) : Bool :=
  s.schemaVersion == otaSchemaVersion && (otaStateName s.state).isSome &&
    (otaErrorCodeName s.lastError.code).isSome

def textsOk (s : OtaPersistentState) : Bool :=
  boundedText otaUuidCap s.attemptId && boundedText otaTextCap s.targetVersion &&
    boundedText otaTextCap s.buildId && boundedText otaPathCap s.artifactUrl &&
    boundedText otaSha256Cap s.expectedSha256 &&
    boundedText otaErrorCap s.lastError.message &&
    boundedText otaUuidCap s.bootIdBefore

def hasAttempt (s : OtaPersistentState) : Bool := !s.attemptId.isEmpty

def attemptOk (s : OtaPersistentState) : Bool :=
  if hasAttempt s then
    otaUuidValid s.attemptId true && persistedVersionValid s.targetVersion &&
      !s.buildId.isEmpty && otaArtifactPathValid s.artifactUrl &&
      s.expectedSize != 0 && s.expectedSize ≤ int64Max &&
      s.expectedSha256.length == 64 && s.expectedSha256.all isLowerHex
  else
    s.targetVersion.isEmpty && s.buildId.isEmpty && s.artifactUrl.isEmpty &&
      s.expectedSize == 0 && s.expectedSha256.isEmpty

def attemptWindowOk (s : OtaPersistentState) : Bool :=
  !(OtaState.precheck.value ≤ s.state.value && s.state.value ≤ OtaState.rollback.value &&
      !hasAttempt s) &&
    !(s.state.value ≤ OtaState.checkUpdate.value && hasAttempt s)

def enumsOk (s : OtaPersistentState) : Bool :=
  s.previousSlot != .invalid && s.expectedCandidateSlot != .invalid &&
    s.rebootContext != .invalid

def hasBoot (s : OtaPersistentState) : Bool := s.previousSlot != .unknown

def bootOk (s : OtaPersistentState) : Bool :=
  if hasBoot s then
    hasAttempt s && s.expectedCandidateSlot != .unknown &&
      s.previousSlot != s.expectedCandidateSlot && otaUuidValid s.bootIdBefore true &&
      s.rebootContext != .none
  else
    s.expectedCandidateSlot == .unknown && s.bootIdBefore.isEmpty &&
      s.rebootContext == .none

def bootWindowOk (s : OtaPersistentState) : Bool :=
  !(OtaState.installing.value ≤ s.state.value &&
      s.state.value ≤ OtaState.rollback.value && !hasBoot s) &&
    !(s.state.value < OtaState.installing.value && hasBoot s)

def contextOk (s : OtaPersistentState) : Bool :=
  !(s.rebootContext == .healthFailure && s.state != .rollback && s.state != .error)

def errorOk (s : OtaPersistentState) : Bool :=
  !(s.state == .error && s.lastError.code == .none) &&
    !(s.state != .error && s.state != .rollback && s.lastError.code != .none) &&
    !(s.lastError.code == .none && !s.lastError.message.isEmpty)

/-- The condition of `ota_persistent_state_validate`. -/
def stateValid (s : OtaPersistentState) : Bool :=
  headerOk s && textsOk s && attemptOk s && attemptWindowOk s && enumsOk s &&
    bootOk s && bootWindowOk s && contextOk s && errorOk s

/-- `ota_persistent_state_validate`. -/
def otaPersistentStateValidate (s : OtaPersistentState) : Except OtaError Unit :=
  if stateValid s then .ok ()
  else .error (otaErrorSet .persistenceFailed
    (ascii "Malformed or inconsistent persistent state"))

/-! ## Saving -/

def slotName : OtaSlot → Bytes
  | .a => ascii "a"
  | .b => ascii "b"
  | _ => []

def contextName : OtaRebootContext → Bytes
  | .install => ascii "install"
  | .healthFailure => ascii "health_failure"
  | _ => ascii "none"

theorem otaStateName_word (state : OtaState) :
    isWord ((otaStateName state).getD []) = true ∧ ((otaStateName state).getD []).length < 32 := by
  cases state <;> decide

theorem otaErrorCodeName_word (code : OtaErrorCode) :
    isWord ((otaErrorCodeName code).getD []) = true ∧
      ((otaErrorCodeName code).getD []).length < 32 := by
  cases code <;> decide

theorem slotName_word (slot : OtaSlot) :
    isWord (slotName slot) = true ∧ (slotName slot).length < 8 := by
  cases slot <;> decide

theorem contextName_word (context : OtaRebootContext) :
    isWord (contextName context) = true ∧ (contextName context).length < 32 := by
  cases context <;> decide

/-- The members of `last_error`. -/
def errorMembers (e : OtaError) : Members :=
  members
    [(ascii "code", .str ((otaErrorCodeName e.code).getD [])),
      (ascii "message", .str e.message)]

/-- The object that `ota_persistence_save` builds. -/
def stateMembers (s : OtaPersistentState) : Members :=
  members
    [(ascii "schema_version", .int s.schemaVersion),
      (ascii "state", .str ((otaStateName s.state).getD [])),
      (ascii "attempt_id", .str s.attemptId),
      (ascii "target_version", .str s.targetVersion),
      (ascii "build_id", .str s.buildId),
      (ascii "artifact_url", .str s.artifactUrl),
      (ascii "expected_size", .int s.expectedSize),
      (ascii "expected_sha256", .str s.expectedSha256),
      (ascii "previous_slot", .str (slotName s.previousSlot)),
      (ascii "expected_candidate_slot", .str (slotName s.expectedCandidateSlot)),
      (ascii "boot_id_before", .str s.bootIdBefore),
      (ascii "reboot_context", .str (contextName s.rebootContext)),
      (ascii "last_error", .obj (errorMembers s.lastError))]

/-- The bytes of a saved state. -/
def serialize (s : OtaPersistentState) : Bytes := generate (.obj (stateMembers s))

/-- `ota_persistence_save`. -/
def otaPersistenceSave (fault : Option IoFault) (s : OtaPersistentState) :
    List (FileAct Bytes) × Except OtaError Unit :=
  match otaPersistentStateValidate s with
  | .error error => ([], .error error)
  | .ok () =>
      if (serialize s).length ≤ otaStateMaxBytes then otaAtomicWrite (serialize s) fault
      else ([], .error (otaErrorSet .persistenceFailed
        (ascii "Serialized state exceeds limit")))

/-! ## Loading -/

/-- `lexical_guard`. -/
def lexicalGuard (data : Bytes) : Bool :=
  JsonGuard.guard
    { maxDepth := 2, arrays := true, quotedControls := true, numberMax := int64Max,
      terminators := [0x2c, 0x7d, 0x5d, 0x20, 0x09, 0x0d, 0x0a] } data

/-- The state of that name, `count` when there is none. -/
def stateOfName (name : Bytes) : OtaState :=
  otaStates.foldl (fun found s => if otaStateName s == some name then s else found) .count

def errorCodeOfName (name : Bytes) : OtaErrorCode :=
  otaErrorCodes.foldl
    (fun found c => if otaErrorCodeName c == some name then c else found) .count

def slotOfName (name : Bytes) : Option OtaSlot :=
  if name.isEmpty then some .unknown
  else if name == ascii "a" then some .a
  else if name == ascii "b" then some .b
  else none

def contextOfName (name : Bytes) : Option OtaRebootContext :=
  if name == ascii "none" then some .none
  else if name == ascii "install" then some .install
  else if name == ascii "health_failure" then some .healthFailure
  else none

/-- The member `last_error` of the parsed object. -/
def errorOfObject (object : Members) : Option OtaError := do
  let .obj last ← object.find (ascii "last_error") | none
  if last.size != 2 then none
  let code ← stringMember last (ascii "code") 64
  let message ← stringMember last (ascii "message") otaErrorCap
  return { code := errorCodeOfName code, message }

/-- The field-by-field part of `ota_persistence_load`. -/
def stateOfObject (object : Members) : Option OtaPersistentState := do
  if object.size != 13 then none
  let schemaVersion ← integerMember object (ascii "schema_version")
  if schemaVersion != otaSchemaVersion then none
  let expectedSize ← integerMember object (ascii "expected_size")
  if expectedSize < 0 then none
  let state ← stringMember object (ascii "state") 32
  let attemptId ← stringMember object (ascii "attempt_id") otaUuidCap
  let targetVersion ← stringMember object (ascii "target_version") otaTextCap
  let buildId ← stringMember object (ascii "build_id") otaTextCap
  let artifactUrl ← stringMember object (ascii "artifact_url") otaPathCap
  let expectedSha256 ← stringMember object (ascii "expected_sha256") otaSha256Cap
  let previous ← stringMember object (ascii "previous_slot") 8
  let candidate ← stringMember object (ascii "expected_candidate_slot") 8
  let bootIdBefore ← stringMember object (ascii "boot_id_before") otaUuidCap
  let context ← stringMember object (ascii "reboot_context") 32
  let previousSlot ← slotOfName previous
  let expectedCandidateSlot ← slotOfName candidate
  let rebootContext ← contextOfName context
  let lastError ← errorOfObject object
  return {
    schemaVersion, state := stateOfName state, attemptId, targetVersion, buildId,
    artifactUrl, expectedSize := expectedSize.toNat, expectedSha256, lastError,
    previousSlot, expectedCandidateSlot, bootIdBefore, rebootContext }

/-- The tests that `ota_persistence_load` runs on the raw bytes. -/
def rawBytesOk (data : Bytes) : Bool :=
  !data.isEmpty && !data.contains 0 && !occursIn nulEscape data && valid data &&
    lexicalGuard data

/-- The state in a buffer, `none` when any test of the loader refuses it. -/
def parseState (J : JsonParser) (data : Bytes) : Option OtaPersistentState := do
  if !rawBytesOk data then none
  let .obj object ← J.load data | none
  if object.duplicate then none
  let s ← stateOfObject object
  if stateValid s then some s else none

/-- `ota_persistence_load`: `none` in the result is a missing file. -/
def otaPersistenceLoad (J : JsonParser) (path : Bytes) (readFault : Option OtaError)
    (file : Option Bytes) : Except OtaError (Option OtaPersistentState) :=
  match otaFileRead path otaStateMaxBytes readFault file with
  | .error error => .error error
  | .ok none => .ok none
  | .ok (some data) =>
      match parseState J data with
      | some s => .ok (some s)
      | none => .error (otaErrorSet .persistenceFailed
          (ascii "Malformed persistent JSON: " ++ path))

/-! ## What a save can do -/

/-- The three outcomes of a save: refused or failed before the rename, failed
after it, or done. -/
theorem save_cases (fault : Option IoFault) (s : OtaPersistentState) :
    (∃ error : OtaError, error.code = .persistenceFailed ∧
        otaPersistenceSave fault s = ([], .error error)) ∨
      (stateValid s = true ∧ ∃ error : OtaError, error.code = .persistenceFailed ∧
        otaPersistenceSave fault s = ([.replace (serialize s)], .error error)) ∨
      (stateValid s = true ∧
        otaPersistenceSave fault s = ([.replace (serialize s), .sync], .ok ())) := by
  unfold otaPersistenceSave otaPersistentStateValidate
  by_cases hv : stateValid s = true
  · simp only [hv, if_true, true_and]
    by_cases hl : (serialize s).length ≤ otaStateMaxBytes
    · simp only [hl, if_true]
      cases fault with
      | none => exact .inr (.inr rfl)
      | some fault =>
          obtain ⟨step, reason⟩ := fault
          cases step with
          | parentFsync => exact .inr (.inl ⟨_, rfl, rfl⟩)
          | _ => exact .inl ⟨_, rfl, rfl⟩
    · simp only [hl, if_false]
      exact .inl ⟨_, rfl, rfl⟩
  · simp only [hv]
    exact .inl ⟨_, rfl, rfl⟩

end EdgeGuard.Agent.Persistence
