import EdgeGuard.Agent.PersistenceRoundTrip
import EdgeGuard.Base.JsonReader
import EdgeGuard.Provisioning.Authorization

/-!
# The agent's state as the daemon reads it

`refresh_agent` of `status.c`: the daemon reads the agent's state file with a
reader of its own, with its own tables of names, its own capacities and
GLib's test of a UUID.  `EdgeGuard.Provisioning.Status` has the rest of the status
record.

## Main results

* `agent_state_decoded` — what it makes of every file that the agent writes.
-/

namespace EdgeGuard.Provisioning.AgentStatus

open EdgeGuard.Base EdgeGuard.Base.CText EdgeGuard.Base.Utf8
open EdgeGuard.Base.Json EdgeGuard.Base.JsonObject
open EdgeGuard.Base.DurableFile
open EdgeGuard.Agent.Model EdgeGuard.Agent.Identity EdgeGuard.Agent.Persistence
open EdgeGuard.Agent.PersistenceRoundTrip
open EdgeGuard.Provisioning.Model EdgeGuard.Provisioning.Authorization

/-! ## Reading a file -/

/-- A file that is opened and read without failure. -/
structure StatusFile where
  data : Bytes
  regular : Bool
  /-- `st_uid == 0`. -/
  ownedByRoot : Bool
  /-- `st_mode & 0077`. -/
  accessible : Bool
  deriving DecidableEq, Repr

/-- `read_file`; `none` is a file that is missing or cannot be read. -/
def readFile (maximum : Nat) (privateFile : Bool) (file : Option StatusFile) : Option Bytes :=
  match file with
  | none => none
  | some file =>
      if !file.regular || !file.ownedByRoot || (privateFile && file.accessible) ||
          maximum < file.data.length then none
      else if file.data.contains 0 || !valid file.data then none
      else some file.data

/-! ## Parsing -/

/-- `parse_object`. -/
def parseObject (J : JsonParser) (data : Bytes) : Option Members :=
  match J.load data with
  | some (.obj object) => if object.duplicate then none else some object
  | _ => none

/-- `get_schema_one`. -/
def getSchemaOne (object : Members) : Bool :=
  integerMember object (ascii "schema_version") == some egpSchemaVersion

/-- `frozen_agent_state`. -/
def frozenAgentState (state : Bytes) : Bool :=
  ["IDLE", "CHECK_NETWORK", "CHECK_UPDATE", "PRECHECK", "DOWNLOADING", "VERIFY_DOWNLOAD",
    "RAUC_VERIFY", "INSTALLING", "REBOOT_PENDING", "BOOT_NEW_SLOT", "HEALTH_CHECK", "MARK_GOOD",
    "REPORT_SUCCESS", "ROLLBACK", "ERROR"].any fun name => state == ascii name

/-- `frozen_agent_error`. -/
def frozenAgentError (code : Bytes) : Bool :=
  ["NONE", "CONFIG_INVALID", "IDENTITY_INVALID", "IDENTITY_AMBIGUOUS", "LOCAL_RELEASE_INVALID",
    "MANIFEST_HTTP", "MANIFEST_INVALID", "DEVICE_COMPAT_MISMATCH", "VERSION_MALFORMED",
    "VERSION_COLLISION", "DOWNGRADE_REJECTED", "DOWNLOAD_HTTP", "DOWNLOAD_RANGE_MISMATCH",
    "DOWNLOAD_DISK_SPACE", "DOWNLOAD_SIZE_MISMATCH", "DOWNLOAD_HASH_MISMATCH",
    "RAUC_VERIFY_FAILED", "RAUC_COMPAT_MISMATCH", "RAUC_IDENTITY_MISMATCH",
    "RAUC_INSTALL_FAILED", "RAUC_MARK_GOOD_FAILED", "RAUC_MARK_BAD_FAILED", "HEALTH_FAILED",
    "REBOOT_CONTEXT_INVALID", "REBOOT_FAILED", "PERSISTENCE_FAILED", "REPORT_FAILED",
    "ILLEGAL_TRANSITION", "TIME_SOURCE_FAILED", "ENDPOINT_CONFIG_INVALID"].any fun name =>
      code == ascii name

/-- The byte that `g_uuid_string_is_valid` takes at index `i`. -/
def uuidStringByte (i : Nat) (b : UInt8) : Bool :=
  if i == 8 || i == 13 || i == 18 || i == 23 then b == 0x2d else isXDigit b

/-- `g_uuid_string_is_valid`. -/
def uuidStringIsValid (value : Bytes) : Bool :=
  value.length == 36 && value.zipIdx.all fun (b, i) => uuidStringByte i b

/-! ## The status record -/

/-- The members of `EgpStatus` about the agent, when `agent_available` is set. -/
structure AgentState where
  agentState : Bytes
  attemptId : Bytes
  lastOtaError : Bytes
  deriving DecidableEq, Repr

/-- `refresh_agent`; `none` is an agent that is not available. -/
def refreshAgent (J : JsonParser) (file : Option StatusFile) : Option AgentState := do
  let data ← readFile (64 * 1024) true file
  let object ← parseObject J data
  if !getSchemaOne object then none
  let agentState ← stringMember object (ascii "state") 32
  if !frozenAgentState agentState then none
  let attemptId ← stringMember object (ascii "attempt_id") 37
  let .obj last ← object.find (ascii "last_error") | none
  let lastOtaError ← stringMember last (ascii "code") 64
  if !(attemptId.isEmpty || uuidStringIsValid attemptId) then none
  if !frozenAgentError lastOtaError then none
  return { agentState, attemptId, lastOtaError }

/-- `egp_status_agent_idle` on a state file. -/
def agentIdle (J : JsonParser) (file : Option StatusFile) : Except EgpError Bytes :=
  egpStatusAgentIdle ((refreshAgent J file).map (·.agentState))

/-! ## The two programs -/

/-- The file that `ota_atomic_write` creates: regular, of the agent's user root, mode 0600. -/
def agentFile (data : Bytes) : StatusFile := ⟨data, true, true, false⟩

theorem stateName_decoded {state : OtaState} (h : state ≠ .count) :
    frozenAgentState ((otaStateName state).getD []) = true := by
  cases state <;> first | exact absurd rfl h | decide

theorem codeName_decoded {code : OtaErrorCode} (h : code ≠ .count) :
    frozenAgentError ((otaErrorCodeName code).getD []) = true := by
  cases code <;> first | exact absurd rfl h | decide

/-- No two states share a name. -/
theorem stateName_idle {state : OtaState} :
    (otaStateName state).getD [] = ascii "IDLE" ↔ state = .idle := by
  cases state <;> decide

/-- The agent's UUIDs are UUIDs for the daemon. -/
theorem uuidStringIsValid_of_uuid {value : Bytes} {v4 : Bool}
    (h : otaUuidValid value v4 = true) : uuidStringIsValid value = true := by
  simp only [otaUuidValid, Bool.and_eq_true] at h
  simp only [uuidStringIsValid, Bool.and_eq_true]
  refine ⟨h.1.1, List.all_eq_true.mpr fun p hp => ?_⟩
  have hbyte := List.all_eq_true.mp h.1.2 p hp
  revert hbyte
  simp only [uuidByte, uuidStringByte]
  split
  · exact id
  · intro hhex
    simp [isXDigit, hhex]

theorem uuidString_length {value : Bytes} (h : uuidStringIsValid value = true) :
    value.length = 36 := by
  simp only [uuidStringIsValid, Bool.and_eq_true, beq_iff_eq] at h
  exact h.1

theorem attemptId_decoded {s : OtaPersistentState} (h : attemptOk s = true) :
    (s.attemptId.isEmpty || uuidStringIsValid s.attemptId) = true := by
  unfold attemptOk hasAttempt at h
  split at h
  · simp only [Bool.and_eq_true] at h
    have huuid : otaUuidValid s.attemptId true = true := h.1.1.1.1.1.1.1
    rw [uuidStringIsValid_of_uuid huuid, Bool.or_true]
  · rename_i hnone
    simp only [Bool.not_eq_true', Bool.not_eq_false] at hnone
    rw [hnone, Bool.true_or]

theorem readFile_serialize {s : OtaPersistentState} (h : stateValid s = true) :
    readFile (64 * 1024) true (some (agentFile (serialize s))) = some (serialize s) := by
  have hs := savable_of_valid h
  have hutf8 : valid (serialize s) = true := valid_generate (writable_stateMembers hs)
  have hnul := not_mem_nul_of_valid hutf8
  have hlength : ¬ 64 * 1024 < (serialize s).length := by
    have hle := length_serialize_le hs
    unfold otaStateMaxBytes at hle
    omega
  simp [readFile, agentFile, hutf8, hnul, hlength]

/-- The daemon reads the three fields of the status from the file of a valid state. -/
theorem refreshAgent_serialize (J : JsonParser) {s : OtaPersistentState}
    (h : stateValid s = true) :
    refreshAgent J (some (agentFile (serialize s))) =
      some ⟨(otaStateName s.state).getD [], s.attemptId,
        (otaErrorCodeName s.lastError.code).getD []⟩ := by
  have hs := savable_of_valid h
  have hattempt : attemptOk s = true := by
    simp only [stateValid, Bool.and_eq_true] at h
    exact h.1.1.1.1.1.1.2
  have hparse : parseObject J (serialize s) = some (stateMembers s) := by
    have hload : J.load (serialize s) = some (.obj (stateMembers s)) :=
      J.load_generate _ (writable_stateMembers hs) (inRange_stateMembers hs)
    simp [parseObject, hload, duplicate_of_writableMembers _ (writable_stateMembers hs)]
  have hschema : getSchemaOne (stateMembers s) = true := by
    have hmember : integerMember (stateMembers s) (ascii "schema_version") =
        some s.schemaVersion := rfl
    rw [getSchemaOne, hmember, hs.schema]
    rfl
  have hstate := stateName_decoded hs.state
  have hcode := codeName_decoded hs.code
  have hcodeLength := Nat.lt_trans (otaErrorCodeName_word s.lastError.code).2
    (show 32 < 64 by decide)
  have hname := stringMember_of_find (stateMembers s) (ascii "state") rfl
    (otaStateName_word s.state).2
  have hid := stringMember_of_find (stateMembers s) (ascii "attempt_id") rfl
    (length_of_bounded hs.attemptId)
  have hlast : (stateMembers s).find (ascii "last_error") =
      some (.obj (errorMembers s.lastError)) := rfl
  have herror := stringMember_of_find (errorMembers s.lastError) (ascii "code") rfl hcodeLength
  have huuid := attemptId_decoded hattempt
  simp only [otaUuidCap] at hid
  unfold refreshAgent
  simp only [readFile_serialize h, hparse, hschema, hname, hstate, hid, hlast, herror, huuid,
    hcode, Bool.not_true, Bool.false_eq_true, if_false, Option.bind_eq_bind, Option.bind_some]
  rfl

/-- The daemon reads the agent's state in the file. -/
structure Decodes (J : JsonParser) (s : OtaPersistentState) (data : Bytes) : Prop where
  available : ∃ decoded, refreshAgent J (some (agentFile data)) = some decoded ∧
    some decoded.agentState = otaStateName s.state ∧ decoded.attemptId = s.attemptId ∧
      some decoded.lastOtaError = otaErrorCodeName s.lastError.code
  idle : (∃ observation, agentIdle J (some (agentFile data)) = .ok observation) ↔ s.state = .idle

/-- The daemon decodes every valid state that the agent saves. -/
theorem decodes_serialize (J : JsonParser) {s : OtaPersistentState} (h : stateValid s = true) :
    Decodes J s (serialize s) := by
  have hrefresh := refreshAgent_serialize J h
  have hs := savable_of_valid h
  have hstate : some ((otaStateName s.state).getD []) = otaStateName s.state := by
    have hne := hs.state
    generalize s.state = state at hne
    cases state <;> first | exact absurd rfl hne | rfl
  have hcode : some ((otaErrorCodeName s.lastError.code).getD []) =
      otaErrorCodeName s.lastError.code := by
    have hne := hs.code
    generalize s.lastError.code = code at hne
    cases code <;> first | exact absurd rfl hne | rfl
  refine ⟨⟨_, hrefresh, hstate, rfl, hcode⟩, ?_⟩
  rw [agentIdle, hrefresh, ← stateName_idle]
  constructor
  · rintro ⟨observation, hidle⟩
    exact Option.some.inj (agentIdle_ok hidle)
  · intro hidle
    exact ⟨ascii "IDLE", by rw [Option.map_some, hidle]; rfl⟩

/-- Every valid state is saved, and whatever a save of it puts into the state file, also one
that fails behind its rename, the daemon reads with the name of the state, the attempt and the
name of the error; its idle test succeeds exactly on the state IDLE. -/
theorem agent_state_decoded (J : JsonParser) {s : OtaPersistentState} (h : stateValid s = true) :
    otaPersistenceSave none s = ([.replace (serialize s), .sync], .ok ()) ∧
      ∀ fault data, .replace data ∈ (otaPersistenceSave fault s).1 → Decodes J s data := by
  refine ⟨save_of_valid h, fun fault data hsaved => ?_⟩
  obtain ⟨-, hdata⟩ := eq_serialize_of_mem_save hsaved
  rw [hdata]
  exact decodes_serialize J h

/-- The state file of an attempt in PRECHECK: the daemon sees that the agent is not idle. -/
theorem agent_state_decoded_precheck :
    Decodes JsonReader.referenceParser (precheckState (ascii "build-7"))
      (serialize (precheckState (ascii "build-7"))) := by
  have hvalid : stateValid (precheckState (ascii "build-7")) = true := by decide +kernel
  obtain ⟨hsaved, hdecoded⟩ := agent_state_decoded JsonReader.referenceParser hvalid
  apply hdecoded none
  rw [hsaved]
  exact List.mem_cons_self

end EdgeGuard.Provisioning.AgentStatus
