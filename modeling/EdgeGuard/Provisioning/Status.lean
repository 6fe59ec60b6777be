import EdgeGuard.Base.Ini
import EdgeGuard.Base.JsonSize
import EdgeGuard.Base.Trace
import EdgeGuard.Provisioning.AgentStatus
import EdgeGuard.Provisioning.Callbacks
import EdgeGuard.Provisioning.CanonicalEndpoint

/-!
# The status record

`status.c`: what the daemon reads of its surroundings, and the DeviceInfo and
RuntimeStatus values that it makes of it.

Every function that writes to the record does so in one block under its lock.  The
blocks of the main loop and of the worker interleave, so a run of the record is any
sequence of blocks.  A flag with its arrays is one optional value here, and the flag is
whether it is there.

Left out: the control socket of the agent, with the session identifier that only it uses.

## Main results

* `sound_run` — what the record holds at any time.
* `deviceInfo_fits`, `runtimeStatus_fits` — its values fit the characteristics.
-/

namespace EdgeGuard.Provisioning.Status

open EdgeGuard.Base EdgeGuard.Base.CText EdgeGuard.Base.Utf8 EdgeGuard.Base.Ini
open EdgeGuard.Base.Json EdgeGuard.Base.JsonObject EdgeGuard.Base.JsonSize EdgeGuard.Base.Uri
open EdgeGuard.Agent.ConfigConsumers (isUrlByte)
open EdgeGuard.Provisioning.Model EdgeGuard.Provisioning.Protocol
open EdgeGuard.Provisioning.Store EdgeGuard.Provisioning.Endpoint
open EdgeGuard.Provisioning.RuntimeStore EdgeGuard.Provisioning.CanonicalEndpoint
open EdgeGuard.Provisioning.AgentStatus EdgeGuard.Provisioning.Callbacks
open EdgeGuard.Provisioning.Authorization (statusFail)

def egpStatusMaxJson : Nat := egpGattValueMaxBytes
def egpReleaseFieldMaxBytes : Nat := 64

/-- `egp_provisioning_state_name`. -/
def egpProvisioningStateName : EgpProvisioningState → Bytes
  | .unprovisioned => ascii "UNPROVISIONED"
  | .stored => ascii "STORED"
  | .applying => ascii "APPLYING"
  | .associating => ascii "ASSOCIATING"
  | .connected => ascii "CONNECTED"
  | .failedConfig => ascii "FAILED_CONFIG"
  | .failedAuth => ascii "FAILED_AUTH"
  | .failedNotFound => ascii "FAILED_NOT_FOUND"
  | .failedTimeout => ascii "FAILED_TIMEOUT"
  | .failedDependency => ascii "FAILED_DEPENDENCY"

/-! ## The record -/

structure Release where
  release : Bytes
  buildId : Bytes
  deriving DecidableEq, Repr

structure EffectiveEndpoint where
  endpoint : Bytes
  source : Bytes
  deriving DecidableEq, Repr

structure EgpStatus where
  provisioningState : EgpProvisioningState
  wifiConnected : Bool
  deviceId : Option Bytes
  release : Option Release
  endpoint : Option EffectiveEndpoint
  runtimeConfigInvalid : Bool
  agent : Option AgentState
  currentSlot : Option Bytes
  deriving DecidableEq, Repr

/-- `egp_status_new`. -/
def egpStatusNew : EgpStatus := ⟨.unprovisioned, false, none, none, none, false, none, none⟩

/-! ## The sources -/

/-- `refresh_identity`. -/
def refreshIdentity (file : Option StatusFile) : Option Bytes :=
  match readFile 128 true file with
  | none => none
  | some data =>
      -- `g_strchomp`
      let id := data.rdropWhile isSpace
      if id.length == 36 && uuidStringIsValid id then some id else none

/-- `bounded_status_text`. -/
def boundedStatusText (value : Bytes) : Bool :=
  value.length ≤ egpReleaseFieldMaxBytes && value.all fun b => 0x20 ≤ b && b ≤ 0x7e

/-- `refresh_release`. -/
def refreshRelease (J : JsonParser) (file : Option StatusFile) : Option Release := do
  let data ← readFile (64 * 1024) false file
  let object ← parseObject J data
  if !getSchemaOne object then none
  let release ← stringMember object (ascii "version") (egpReleaseFieldMaxBytes + 1)
  let buildId ← stringMember object (ascii "build_id") (egpReleaseFieldMaxBytes + 1)
  if !boundedStatusText release || !boundedStatusText buildId then none
  return { release, buildId }

/-- The agent's own endpoint, from its configuration. -/
def immutableDefault (load : KeyFileParser) (N : NetLibrary) (file : Option StatusFile) :
    Option Bytes := do
  let data ← readFile (64 * 1024) false file
  let config ← load data
  let baseUrl ← config.getString (ascii "server") (ascii "base_url")
  (egpEndpointCanonicalize N baseUrl).toOption

/-- The endpoint in force, given what `egp_store_load_runtime` found. -/
def effectiveEndpoint (load : KeyFileParser) (N : NetLibrary)
    (runtime : Except EgpError (Option EgpRuntimeConfig)) (config : Option StatusFile) :
    Option EffectiveEndpoint :=
  match runtime with
  | .ok (some runtime) =>
      some ⟨runtime.otaServerBaseUrl.take egpEndpointMaxBytes, ascii "runtime_override"⟩
  | _ => (immutableDefault load N config).map fun url => ⟨url, ascii "immutable_default"⟩

/-- `read_slot`, on the output of a tool that ended in time and with status 0. -/
def readSlot (output : Option Bytes) : Option Bytes :=
  match output with
  | none => none
  | some output =>
      let buffer := strstrip ((output.take 15).takeWhile (· != 0))
      if buffer == ascii "a" || buffer == ascii "b" then some buffer else none

/-- A block under the lock, with what its function has read in front of it. -/
inductive Block
  | identity (file : Option StatusFile)
  | release (file : Option StatusFile)
  | agent (file : Option StatusFile)
  /-- The last block of `egp_status_refresh`. -/
  | endpointAndSlot (fault : Option ReadStep) (runtime : Option File)
      (config : Option StatusFile) (slot : Option Bytes)
  /-- `egp_status_set_provisioning`. -/
  | provisioning (state : EgpProvisioningState) (wifiConnected : Bool)

section Blocks

variable (load : KeyFileParser) (J : JsonParser) (N : NetLibrary)

def EgpStatus.perform (status : EgpStatus) : Block → EgpStatus
  | .identity file => { status with deviceId := refreshIdentity file }
  | .release file => { status with release := refreshRelease J file }
  | .agent file => { status with agent := refreshAgent J file }
  | .endpointAndSlot fault runtime config slot =>
      let loaded := loadRuntimePath J N fault runtime
      { status with
        endpoint := effectiveEndpoint load N loaded config
        runtimeConfigInvalid := !loaded.isOk
        currentSlot := readSlot slot }
  | .provisioning state wifiConnected =>
      { status with provisioningState := state, wifiConnected }

/-- The record after blocks in any order. -/
def EgpStatus.run (status : EgpStatus) (blocks : List Block) : EgpStatus :=
  Trace.run (EgpStatus.perform load J N) status blocks

/-- `egp_status_refresh`. -/
def egpStatusRefresh (status : EgpStatus) (deviceId release agent config : Option StatusFile)
    (fault : Option ReadStep) (runtime : Option File) (slot : Option Bytes) : EgpStatus :=
  status.run load J N
    [.identity deviceId, .release release, .agent agent,
      .endpointAndSlot fault runtime config slot]

end Blocks

/-! ## The values -/

/-- `EgpDeviceInfoValue`. -/
structure EgpDeviceInfoValue where
  deviceId : Option Bytes
  release : Option Release
  provisioningState : EgpProvisioningState
  deriving DecidableEq, Repr

/-- `EgpRuntimeStatusValue`. -/
structure EgpRuntimeStatusValue where
  provisioningState : EgpProvisioningState
  wifiConnected : Bool
  endpoint : Option EffectiveEndpoint
  runtimeConfigInvalid : Bool
  agent : Option AgentState
  currentSlot : Option Bytes
  deriving DecidableEq, Repr

/-- `generate_json`. -/
def generateJson (value : List (Bytes × Value)) : Except EgpError Bytes :=
  let data := generate (.obj (members value))
  if data.length ≤ egpStatusMaxJson && !data.contains 0 && valid data then .ok data
  else .error (statusFail .internalError "Status serialization exceeded its bound")

/-- `terminated`: the text leaves room for its NUL. -/
def terminated (value : Bytes) (capacity : Nat) : Bool := value.length < capacity

/-- A flag, and the members that follow it when it is set. -/
def flagged {α : Type} (flag : Bytes) (value : Option α) (fields : α → List (Bytes × Value)) :
    List (Bytes × Value) :=
  (flag, .bool value.isSome) :: value.elim [] fields

def deviceInfoMembers (value : EgpDeviceInfoValue) : List (Bytes × Value) :=
  [(ascii "schema_version", .int egpSchemaVersion),
    (ascii "protocol_version", .int egpProtocolVersion.toNat)] ++
  flagged (ascii "device_id_available") value.deviceId
    (fun deviceId => [(ascii "device_id", .str deviceId)]) ++
  flagged (ascii "release_available") value.release
    (fun release => [(ascii "release", .str release.release),
      (ascii "build_id", .str release.buildId)]) ++
  [(ascii "provisioning_state", .str (egpProvisioningStateName value.provisioningState))]

/-- `egp_status_serialize_device_info`. -/
def egpStatusSerializeDeviceInfo (value : EgpDeviceInfoValue) : Except EgpError Bytes :=
  if !(value.deviceId.all (terminated · 37)) ||
      !(value.release.all fun release =>
        terminated release.release (egpReleaseFieldMaxBytes + 1) &&
          terminated release.buildId (egpReleaseFieldMaxBytes + 1)) then
    .error (statusFail .internalError "DeviceInfo output is invalid")
  else generateJson (deviceInfoMembers value)

def runtimeStatusMembers (value : EgpRuntimeStatusValue) : List (Bytes × Value) :=
  [(ascii "schema_version", .int egpSchemaVersion),
    (ascii "provisioning_state", .str (egpProvisioningStateName value.provisioningState)),
    (ascii "wifi_connected", .bool value.wifiConnected)] ++
  flagged (ascii "effective_endpoint_available") value.endpoint
    (fun effective => [(ascii "effective_endpoint", .str effective.endpoint),
      (ascii "effective_endpoint_source", .str effective.source)]) ++
  (if value.runtimeConfigInvalid then
    [(ascii "runtime_config_error", .str (ascii "ENDPOINT_CONFIG_INVALID"))] else []) ++
  flagged (ascii "agent_state_available") value.agent
    (fun agent => [(ascii "agent_state", .str agent.agentState),
      (ascii "attempt_id", .str agent.attemptId),
      (ascii "last_ota_error", .str agent.lastOtaError)]) ++
  flagged (ascii "current_slot_available") value.currentSlot
    (fun slot => [(ascii "current_slot", .str slot)])

/-- `egp_status_serialize_runtime`. -/
def egpStatusSerializeRuntime (value : EgpRuntimeStatusValue) : Except EgpError Bytes :=
  if !(value.endpoint.all fun effective =>
        terminated effective.endpoint (egpEndpointMaxBytes + 1) &&
          terminated effective.source 32) ||
      !(value.agent.all fun agent => terminated agent.agentState 32 &&
        terminated agent.attemptId 37 && terminated agent.lastOtaError 64) ||
      !(value.currentSlot.all (terminated · 2)) then
    .error (statusFail .internalError "RuntimeStatus output is invalid")
  else generateJson (runtimeStatusMembers value)

/-- `egp_status_device_info_json`. -/
def egpStatusDeviceInfoJson (status : EgpStatus) : Except EgpError Bytes :=
  egpStatusSerializeDeviceInfo
    { deviceId := status.deviceId
      release := status.release
      provisioningState := status.provisioningState }

/-- `egp_status_runtime_json`. -/
def egpStatusRuntimeJson (status : EgpStatus) : Except EgpError Bytes :=
  egpStatusSerializeRuntime
    { provisioningState := status.provisioningState
      wifiConnected := status.wifiConnected
      endpoint := status.endpoint
      runtimeConfigInvalid := status.runtimeConfigInvalid
      agent := status.agent
      currentSlot := status.currentSlot }

/-! ## What the record holds -/

structure Sound (status : EgpStatus) : Prop where
  deviceId : ∀ id, status.deviceId = some id → uuidStringIsValid id = true
  release : ∀ release, status.release = some release →
    boundedStatusText release.release = true ∧ boundedStatusText release.buildId = true
  endpoint : ∀ effective, status.endpoint = some effective →
    effective.endpoint.all isUrlByte = true ∧ effective.endpoint.length ≤ egpEndpointMaxBytes ∧
      isWord effective.source = true ∧ effective.source.length ≤ 17
  agent : ∀ agent, status.agent = some agent →
    frozenAgentState agent.agentState = true ∧
      (agent.attemptId = [] ∨ uuidStringIsValid agent.attemptId = true) ∧
        frozenAgentError agent.lastOtaError = true
  currentSlot : ∀ slot, status.currentSlot = some slot → isWord slot = true ∧ slot.length = 1

theorem sound_new : Sound egpStatusNew := ⟨nofun, nofun, nofun, nofun, nofun⟩

/-- An identity that is shown is a UUID. -/
theorem refreshIdentity_some {file : Option StatusFile} {id : Bytes}
    (h : refreshIdentity file = some id) : uuidStringIsValid id = true := by
  unfold refreshIdentity at h
  split at h
  · cases h
  · simp only at h
    split at h
    · rename_i hvalid
      cases h
      exact (Bool.and_eq_true_iff.mp hvalid).2
    · cases h

/-- A release that is shown is bounded. -/
theorem refreshRelease_some {J : JsonParser} {file : Option StatusFile} {release : Release}
    (h : refreshRelease J file = some release) :
    boundedStatusText release.release = true ∧ boundedStatusText release.buildId = true := by
  unfold refreshRelease at h
  obtain ⟨data, -, h⟩ := Option.bind_eq_some_iff.mp h
  obtain ⟨object, -, h⟩ := Option.bind_eq_some_iff.mp h
  dsimp only at h
  split at h
  · cases h
  · obtain ⟨version, -, h⟩ := Option.bind_eq_some_iff.mp h
    obtain ⟨buildId, -, h⟩ := Option.bind_eq_some_iff.mp h
    split at h
    · cases h
    · rename_i hbounded
      cases h
      simpa using hbounded

/-- The agent's state and error are of the frozen names, the attempt empty or a UUID. -/
theorem refreshAgent_some {J : JsonParser} {file : Option StatusFile} {agent : AgentState}
    (h : refreshAgent J file = some agent) :
    frozenAgentState agent.agentState = true ∧
      (agent.attemptId = [] ∨ uuidStringIsValid agent.attemptId = true) ∧
        frozenAgentError agent.lastOtaError = true := by
  unfold refreshAgent at h
  obtain ⟨data, -, h⟩ := Option.bind_eq_some_iff.mp h
  obtain ⟨object, -, h⟩ := Option.bind_eq_some_iff.mp h
  dsimp only at h
  split at h
  · cases h
  · obtain ⟨state, -, h⟩ := Option.bind_eq_some_iff.mp h
    split at h
    · cases h
    · rename_i hstate
      obtain ⟨attempt, -, h⟩ := Option.bind_eq_some_iff.mp h
      obtain ⟨last, -, h⟩ := Option.bind_eq_some_iff.mp h
      split at h
      · obtain ⟨code, -, h⟩ := Option.bind_eq_some_iff.mp h
        split at h
        · cases h
        · rename_i hattempt
          split at h
          · cases h
          · rename_i hcode
            cases h
            simp only [Bool.not_eq_true, Bool.not_eq_false', Bool.or_eq_true,
              List.isEmpty_iff] at hstate hattempt hcode
            exact ⟨hstate, hattempt, hcode⟩
      · cases h

private theorem override_word :
    isWord (ascii "runtime_override") = true ∧ (ascii "runtime_override").length ≤ 17 := by decide

private theorem default_word :
    isWord (ascii "immutable_default") = true ∧ (ascii "immutable_default").length ≤ 17 := by decide

/-- Whatever its source, the endpoint is a text that `egp_endpoint_canonicalize` printed. -/
theorem effectiveEndpoint_printed {load : KeyFileParser} {J : JsonParser} {N : NetLibrary}
    {fault : Option ReadStep} {runtime : Option File} {config : Option StatusFile}
    {effective : EffectiveEndpoint}
    (h : effectiveEndpoint load N (loadRuntimePath J N fault runtime) config = some effective) :
    (∃ input, egpEndpointCanonicalize N input = .ok effective.endpoint) ∧
      isWord effective.source = true ∧ effective.source.length ≤ 17 := by
  unfold effectiveEndpoint at h
  split at h
  · rename_i loaded hloaded
    cases h
    have hcanonical := loadRuntime_canonical J N hloaded
    rw [List.take_of_length_le (length_of_canonicalize hcanonical)]
    exact ⟨⟨_, hcanonical⟩, override_word⟩
  · obtain ⟨url, hurl, rfl⟩ := Option.map_eq_some_iff.mp h
    refine ⟨?_, default_word⟩
    simp only [immutableDefault, Option.bind_eq_bind, Option.bind_eq_some_iff] at hurl
    obtain ⟨data, -, file, -, baseUrl, -, hurl⟩ := hurl
    refine ⟨baseUrl, ?_⟩
    cases hprinted : egpEndpointCanonicalize N baseUrl with
    | error error =>
        rw [hprinted] at hurl
        cases hurl
    | ok printed =>
        rw [hprinted] at hurl
        cases hurl
        rfl

/-- The slot that is shown is one letter. -/
theorem readSlot_some {output : Option Bytes} {slot : Bytes} (h : readSlot output = some slot) :
    isWord slot = true ∧ slot.length = 1 := by
  unfold readSlot at h
  split at h
  · cases h
  · simp only at h
    split at h
    · rename_i hletter
      cases h
      simp only [Bool.or_eq_true, beq_iff_eq] at hletter
      rcases hletter with ha | hb
      · rw [ha]
        decide
      · rw [hb]
        decide
    · cases h

section Runs

variable {load : KeyFileParser} {J : JsonParser} {N : NetLibrary} {status : EgpStatus}

/-- A block writes what its own function has read, and leaves the rest. -/
theorem sound_perform (h : Sound status) (block : Block) :
    Sound (status.perform load J N block) := by
  cases block with
  | identity file => exact { h with deviceId := fun _ => refreshIdentity_some }
  | release file => exact { h with release := fun _ => refreshRelease_some }
  | agent file => exact { h with agent := fun _ => refreshAgent_some }
  | endpointAndSlot fault runtime config slot =>
      refine { h with
        endpoint := fun effective heffective => ?_
        currentSlot := fun _ => readSlot_some }
      obtain ⟨⟨input, hprinted⟩, hsource⟩ := effectiveEndpoint_printed heffective
      have hbytes := List.all_eq_true.mpr (bytes_of_canonicalize hprinted)
      exact ⟨hbytes, length_of_canonicalize hprinted, hsource⟩
  | provisioning state wifiConnected => exact { h with }

theorem sound_run (h : Sound status) (blocks : List Block) :
    Sound (status.run load J N blocks) := by
  induction blocks generalizing status with
  | nil => exact h
  | cons block blocks ih => exact ih (sound_perform h block)

end Runs

/-! ## The texts of the record -/

theorem provisioningStateName_word (state : EgpProvisioningState) :
    isWord (egpProvisioningStateName state) = true ∧
      (egpProvisioningStateName state).length ≤ 17 := by
  cases state <;> decide

theorem frozenAgentState_word {state : Bytes} (h : frozenAgentState state = true) :
    isWord state = true ∧ state.length ≤ 15 := by
  obtain ⟨name, hname, hstate⟩ := List.any_eq_true.mp h
  rw [eq_of_beq hstate]
  clear h hstate
  revert name
  decide +kernel

theorem frozenAgentError_word {code : Bytes} (h : frozenAgentError code = true) :
    isWord code = true ∧ code.length ≤ 23 := by
  obtain ⟨name, hname, hcode⟩ := List.any_eq_true.mp h
  rw [eq_of_beq hcode]
  clear h hcode
  revert name
  decide +kernel

/-- A UUID needs no escape. -/
theorem simple_of_uuid {value : Bytes} (h : uuidStringIsValid value = true) :
    value.all isSimple = true := by
  simp only [uuidStringIsValid, Bool.and_eq_true] at h
  refine List.all_eq_true.mpr fun b hb => ?_
  obtain ⟨i, hi⟩ := List.mem_iff_getElem?.mp hb
  have hbyte := List.all_eq_true.mp h.2 (b, i) (List.mem_zipIdx_iff_getElem?.mpr hi)
  have hclass : b = 0x2d ∨ isXDigit b = true := by
    unfold uuidStringByte at hbyte
    split at hbyte
    · exact .inl (eq_of_beq hbyte)
    · exact .inr hbyte
  simp only [isXDigit, isLowerHex, isDigit, Bool.or_eq_true, Bool.and_eq_true, decide_eq_true_eq,
    UInt8.le_iff_toNat_le, ← UInt8.toNat_inj, UInt8.reduceToNat] at hclass
  rw [isSimple_iff]
  omega

theorem simple_of_urlByte {b : UInt8} (h : isUrlByte b = true) : isSimple b = true := by
  simp only [isUrlByte, isNameByte, isAddressByte, isAlnum, isXDigit, isLowerHex, isDigit,
    Bool.or_eq_true, Bool.and_eq_true, decide_eq_true_eq, beq_iff_eq, UInt8.le_iff_toNat_le,
    ← UInt8.toNat_inj, UInt8.reduceToNat] at h
  rw [isSimple_iff]
  omega

/-! ## The values fit -/

/-- A characteristic can hold the text, and it is not the empty text. -/
def Fits (json : Bytes) : Prop := json ≠ [] ∧ json.length ≤ egpGattValueMaxBytes

theorem generateJson_fits {value : List (Bytes × Value)} {n : Nat} (h : MembersFit value n)
    (hne : value ≠ []) (hn : n < egpStatusMaxJson) :
    ∃ json, generateJson value = .ok json ∧ Fits json := by
  obtain ⟨hvalid, hlength⟩ := h.text hne
  have hmax : (generate (.obj (members value))).length ≤ egpStatusMaxJson := by omega
  have hnul := not_mem_nul_of_valid hvalid
  refine ⟨_, ?_, generate_object_ne_nil _, hmax⟩
  unfold generateJson
  simp [hmax, hnul, hvalid]

/-- A flag that is set is a byte shorter, and its members are there. -/
theorem membersFit_flagged {α : Type} {flag : Bytes} {value : Option α}
    {fields : α → List (Bytes × Value)} {n : Nat} (hflag : flag.all isSimple = true)
    (hn : 1 ≤ n) (hfields : ∀ a, value = some a → MembersFit (fields a) n) :
    MembersFit (flagged flag value fields) (flag.length + 8 + n) := by
  cases value with
  | none =>
      refine (membersFit_cons hflag (valueFits_bool false) membersFit_nil).mono ?_
      omega
  | some a =>
      refine (membersFit_cons hflag valueFits_true (hfields a rfl)).mono ?_
      omega

theorem valueFits_word {s : Bytes} {n : Nat} (h : isWord s = true ∧ s.length ≤ n) :
    ValueFits (.str s) (n + 2) := valueFits_simple (simple_of_word h.1) h.2

theorem valueFits_uuid {value : Bytes} (h : uuidStringIsValid value = true) :
    ValueFits (.str value) 38 :=
  valueFits_simple (simple_of_uuid h) (Nat.le_of_eq (uuidString_length h))

theorem valueFits_attempt {value : Bytes} (h : value = [] ∨ uuidStringIsValid value = true) :
    ValueFits (.str value) 38 := by
  rcases h with rfl | huuid
  · exact (@valueFits_simple [] 0 rfl (by decide)).mono (by decide)
  · exact valueFits_uuid huuid

theorem valueFits_releaseField {value : Bytes} (h : boundedStatusText value = true) :
    ValueFits (.str value) 130 := by
  simp only [boundedStatusText, Bool.and_eq_true, decide_eq_true_eq] at h
  refine @valueFits_printable value 64 (fun b hb => ?_) h.1
  simpa using List.all_eq_true.mp h.2 b hb

theorem valueFits_url {url : Bytes} (hbytes : url.all isUrlByte = true)
    (hlength : url.length ≤ egpEndpointMaxBytes) : ValueFits (.str url) 66 := by
  apply valueFits_simple _ hlength
  exact List.all_eq_true.mpr fun b hb => simple_of_urlByte (List.all_eq_true.mp hbytes b hb)

variable {status : EgpStatus}

theorem deviceInfo_fits (h : Sound status) :
    ∃ json, egpStatusDeviceInfoJson status = .ok json ∧ Fits json := by
  unfold egpStatusDeviceInfoJson egpStatusSerializeDeviceInfo
  rw [if_neg]
  · have hversions : MembersFit [(ascii "schema_version", .int egpSchemaVersion),
        (ascii "protocol_version", .int egpProtocolVersion.toNat)] 40 :=
      membersFit_cons (by decide) valueFits_one <|
        membersFit_cons (by decide) valueFits_one membersFit_nil
    have hdevice := @membersFit_flagged _ (ascii "device_id_available") status.deviceId
      (fun deviceId => [(ascii "device_id", .str deviceId)]) 51 (by decide) (by decide)
      fun id hid => membersFit_cons (by decide) (valueFits_uuid (h.deviceId id hid)) membersFit_nil
    have hrelease := @membersFit_flagged _ (ascii "release_available") status.release
      (fun release => [(ascii "release", .str release.release),
        (ascii "build_id", .str release.buildId)]) 283 (by decide) (by decide)
      fun release hsome =>
        membersFit_cons (by decide) (valueFits_releaseField (h.release release hsome).1) <|
        membersFit_cons (by decide) (valueFits_releaseField (h.release release hsome).2)
          membersFit_nil
    have hstate : MembersFit [(ascii "provisioning_state",
        .str (egpProvisioningStateName status.provisioningState))] 41 :=
      membersFit_cons (by decide) (valueFits_word (provisioningStateName_word _)) membersFit_nil
    exact generateJson_fits (((hversions.append hdevice).append hrelease).append hstate)
      (List.cons_ne_nil _ _) (by decide)
  · have hdevice : status.deviceId.all (terminated · 37) = true := by
      rw [Option.all_eq_true]
      intro id hid
      simp only [terminated, uuidString_length (h.deviceId id hid), decide_eq_true_eq]
      omega
    have hrelease : status.release.all (fun release =>
        terminated release.release (egpReleaseFieldMaxBytes + 1) &&
          terminated release.buildId (egpReleaseFieldMaxBytes + 1)) = true := by
      rw [Option.all_eq_true]
      intro release hsome
      obtain ⟨hversion, hbuild⟩ := h.release release hsome
      simp only [boundedStatusText, Bool.and_eq_true, decide_eq_true_eq] at hversion hbuild
      simp only [terminated, Bool.and_eq_true, decide_eq_true_eq]
      omega
    simp [hdevice, hrelease]

theorem runtimeStatus_fits (h : Sound status) :
    ∃ json, egpStatusRuntimeJson status = .ok json ∧ Fits json := by
  unfold egpStatusRuntimeJson egpStatusSerializeRuntime
  rw [if_neg]
  · have hfirst : MembersFit [(ascii "schema_version", .int egpSchemaVersion),
        (ascii "provisioning_state", .str (egpProvisioningStateName status.provisioningState)),
        (ascii "wifi_connected", .bool status.wifiConnected)] 83 :=
      membersFit_cons (by decide) valueFits_one <|
        membersFit_cons (by decide) (valueFits_word (provisioningStateName_word _)) <|
          membersFit_cons (by decide) (valueFits_bool _) membersFit_nil
    have hendpoint := @membersFit_flagged _ (ascii "effective_endpoint_available") status.endpoint
      (fun effective => [(ascii "effective_endpoint", .str effective.endpoint),
        (ascii "effective_endpoint_source", .str effective.source)]) 136 (by decide) (by decide)
      fun effective hsome =>
        have ⟨hbytes, hlength, hsource⟩ := h.endpoint effective hsome
        membersFit_cons (by decide) (valueFits_url hbytes hlength) <|
          membersFit_cons (by decide) (valueFits_word hsource) membersFit_nil
    have herror : MembersFit (if status.runtimeConfigInvalid then
        [(ascii "runtime_config_error", .str (ascii "ENDPOINT_CONFIG_INVALID"))] else []) 49 := by
      split
      · exact membersFit_cons (by decide) (@valueFits_word _ 23 (by decide)) membersFit_nil
      · exact membersFit_nil.mono (by decide)
    have hagent := @membersFit_flagged _ (ascii "agent_state_available") status.agent
      (fun agent => [(ascii "agent_state", .str agent.agentState),
        (ascii "attempt_id", .str agent.attemptId),
        (ascii "last_ota_error", .str agent.lastOtaError)]) 127 (by decide) (by decide)
      fun agent hsome =>
        have ⟨hstate, hattempt, hcode⟩ := h.agent agent hsome
        membersFit_cons (by decide) (valueFits_word (frozenAgentState_word hstate)) <|
          membersFit_cons (by decide) (valueFits_attempt hattempt) <|
            membersFit_cons (by decide) (valueFits_word (frozenAgentError_word hcode))
              membersFit_nil
    have hslot := @membersFit_flagged _ (ascii "current_slot_available") status.currentSlot
      (fun slot => [(ascii "current_slot", .str slot)]) 19 (by decide) (by decide)
      fun slot hsome =>
        have ⟨hword, hlength⟩ := h.currentSlot slot hsome
        membersFit_cons (by decide) (valueFits_word ⟨hword, Nat.le_of_eq hlength⟩) membersFit_nil
    exact generateJson_fits
      ((((hfirst.append hendpoint).append herror).append hagent).append hslot)
      (List.cons_ne_nil _ _) (by decide)
  · have hendpoint : status.endpoint.all (fun effective =>
        terminated effective.endpoint (egpEndpointMaxBytes + 1) &&
          terminated effective.source 32) = true := by
      rw [Option.all_eq_true]
      intro effective hsome
      obtain ⟨-, hlength, -, hsource⟩ := h.endpoint effective hsome
      simp only [terminated, Bool.and_eq_true, decide_eq_true_eq]
      omega
    have hagent : status.agent.all (fun agent => terminated agent.agentState 32 &&
        terminated agent.attemptId 37 && terminated agent.lastOtaError 64) = true := by
      rw [Option.all_eq_true]
      intro agent hsome
      obtain ⟨hstate, hattempt, hcode⟩ := h.agent agent hsome
      have hstate := (frozenAgentState_word hstate).2
      have hcode := (frozenAgentError_word hcode).2
      have hattempt : agent.attemptId.length ≤ 36 := by
        rcases hattempt with hnil | huuid
        · simp [hnil]
        · exact Nat.le_of_eq (uuidString_length huuid)
      simp only [terminated, Bool.and_eq_true, decide_eq_true_eq]
      omega
    have hslot : status.currentSlot.all (terminated · 2) = true := by
      rw [Option.all_eq_true]
      intro slot hsome
      simp only [terminated, (h.currentSlot slot hsome).2, decide_eq_true_eq]
      omega
    simp [hendpoint, hagent, hslot]

/-- The longest of the two values has two bytes to spare. -/
example : (egpStatusRuntimeJson
    { provisioningState := .failedDependency
      wifiConnected := false
      deviceId := none
      release := none
      endpoint := some ⟨ascii "https://" ++ List.replicate 56 0x61, ascii "immutable_default"⟩
      runtimeConfigInvalid := true
      agent := some ⟨ascii "VERIFY_DOWNLOAD", ascii "12345678-1234-4123-8123-123456789abc",
        ascii "DOWNLOAD_RANGE_MISMATCH"⟩
      currentSlot := some (ascii "a") }).toOption.map (·.length) = some 510 := by
  decide +kernel

end EdgeGuard.Provisioning.Status
