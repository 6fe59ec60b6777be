import EdgeGuard.Base.Json
import EdgeGuard.Provisioning.Authorization

/-!
# The callbacks of the daemon

`main.c`, and the parts of `operations.c` that it meets: a completed write becomes
the request of the one worker, and the results of the worker find their way to the
cache of the protocol and to the OperationResult characteristic.

A callback runs to its end on the main loop, so each is one step.  What a callback
asks of others is an argument: the clock, `egp_bluez_peer_security` (`none` for a
refusal that leaves the error alone), the state of the agent, and what the worker
found.  `active_valid` and `active_request` are one optional request.

Left out: the DeviceInfo and RuntimeStatus values, which show other state
(`EdgeGuard.Provisioning.Status`); the snapshots of long reads in `bluez.c`; and the
disconnecting of other peers.
-/

namespace EdgeGuard.Provisioning.Callbacks

open EdgeGuard.Base EdgeGuard.Base.CText EdgeGuard.Base.Json EdgeGuard.Base.HashTable
open EdgeGuard.Provisioning.Model EdgeGuard.Provisioning.Protocol
open EdgeGuard.Provisioning.Security EdgeGuard.Provisioning.Authorization

def egpGattValueMaxBytes : Nat := 512
def egpOperationResultMaxJson : Nat := egpGattValueMaxBytes

/-! ## The text of a result -/

/-- `egp_opcode_name`. -/
def egpOpcodeName (opcode : UInt8) : Option Bytes :=
  if opcode = egpOpcodeSetWifi then some (ascii "SET_WIFI")
  else if opcode = egpOpcodeSetEndpoint then some (ascii "SET_ENDPOINT")
  else if opcode = egpOpcodeForgetWifi then some (ascii "FORGET_WIFI")
  else if opcode = egpOpcodeCheckUpdateNow then some (ascii "CHECK_UPDATE_NOW")
  else none

/-- `egp_error_code_name`. -/
def egpErrorCodeName : EgpErrorCode → Bytes
  | .none => ascii "NONE"
  | .bleUnauthorized => ascii "BLE_UNAUTHORIZED"
  | .bleNotPaired => ascii "BLE_NOT_PAIRED"
  | .bleWindowClosed => ascii "BLE_WINDOW_CLOSED"
  | .bleProtocolUnsupported => ascii "BLE_PROTOCOL_UNSUPPORTED"
  | .blePayloadInvalid => ascii "BLE_PAYLOAD_INVALID"
  | .blePayloadTooLarge => ascii "BLE_PAYLOAD_TOO_LARGE"
  | .bleFragmentConflict => ascii "BLE_FRAGMENT_CONFLICT"
  | .bleTransactionTimeout => ascii "BLE_TRANSACTION_TIMEOUT"
  | .bleReplayRejected => ascii "BLE_REPLAY_REJECTED"
  | .provisioningBusy => ascii "PROVISIONING_BUSY"
  | .provisioningRace => ascii "PROVISIONING_RACE"
  | .wifiConfigInvalid => ascii "WIFI_CONFIG_INVALID"
  | .wifiAuthFailed => ascii "WIFI_AUTH_FAILED"
  | .wifiApNotFound => ascii "WIFI_AP_NOT_FOUND"
  | .wifiConnectTimeout => ascii "WIFI_CONNECT_TIMEOUT"
  | .persistenceReadFailed => ascii "PERSISTENCE_READ_FAILED"
  | .persistenceWriteFailed => ascii "PERSISTENCE_WRITE_FAILED"
  | .persistenceSchemaUnsupported => ascii "PERSISTENCE_SCHEMA_UNSUPPORTED"
  | .endpointInvalid => ascii "ENDPOINT_INVALID"
  | .endpointConfigInvalid => ascii "ENDPOINT_CONFIG_INVALID"
  | .connmanUnavailable => ascii "CONNMAN_UNAVAILABLE"
  | .connmanApplyFailed => ascii "CONNMAN_APPLY_FAILED"
  | .bluezUnavailable => ascii "BLUEZ_UNAVAILABLE"
  | .gattRegistrationFailed => ascii "GATT_REGISTRATION_FAILED"
  | .advertisementFailed => ascii "ADVERTISEMENT_FAILED"
  | .agentBusy => ascii "AGENT_BUSY"
  | .agentUnavailable => ascii "AGENT_UNAVAILABLE"
  | .otaControlRejected => ascii "OTA_CONTROL_REJECTED"
  | .factoryResetBlocked => ascii "FACTORY_RESET_BLOCKED"
  | .internalError => ascii "INTERNAL_ERROR"
  | .bleInvalidOffset => ascii "BLE_INVALID_OFFSET"

/-- `change_name`. -/
def changeName : EgpPersistentChange → Bytes
  | .none => ascii "NONE"
  | .committed => ascii "COMMITTED"
  | .rolledBack => ascii "ROLLED_BACK"
  | .uncertain => ascii "UNCERTAIN"

/-- The test of both functions on a committed endpoint. -/
def includesEndpoint (request : EgpProtocolRequest) (endpointGeneration : Nat)
    (endpoint : Option Bytes) : Bool :=
  request.opcode == egpOpcodeSetEndpoint && endpointGeneration != 0 && endpoint.isSome

/-- `build_result_json`. -/
def buildResultJson (request : EgpProtocolRequest) (operation status : Bytes) (error : EgpError)
    (endpointGeneration : Nat) (endpoint : Option Bytes) (message : Bytes) : Bytes :=
  let committed : List (Bytes × Value) :=
    if includesEndpoint request endpointGeneration endpoint then
      [(ascii "generation", .int endpointGeneration), (ascii "base_url", .str (endpoint.getD []))]
    else []
  generate (.obj (members (
    [(ascii "schema_version", .int egpSchemaVersion),
      (ascii "transaction_id", .str (egpTransactionIdFormat request.transactionId)),
      (ascii "operation", .str operation),
      (ascii "status", .str status),
      (ascii "error_code", .str (egpErrorCodeName error.code)),
      (ascii "retryable", .bool error.retryable),
      (ascii "persistent_change", .str (changeName error.persistentChange)),
      (ascii "message", .str message)] ++ committed)))

/-- `egp_operations_result_json`; the empty text is its return of 0. -/
def egpOperationsResultJson (request : EgpProtocolRequest) (status : Bytes) (error : EgpError)
    (endpointGeneration : Nat) (endpoint : Option Bytes) : Bytes :=
  match egpOpcodeName request.opcode with
  | none => []
  | some operation =>
      if 32 ≤ status.length || egpMessageCap ≤ error.message.length ||
          (includesEndpoint request endpointGeneration endpoint &&
            (egpJsonUintMax < endpointGeneration ||
              egpEndpointMaxBytes < (endpoint.getD []).length)) then []
      else
        let build := buildResultJson request operation status error endpointGeneration endpoint
        let json := build error.message
        if json.length ≤ egpOperationResultMaxJson then json
        else
          let short := build (ascii "Result detail omitted")
          if short.length ≤ egpOperationResultMaxJson then short else []

/-- The text that `egp_operations_submit` publishes. -/
def acceptedJson (request : EgpProtocolRequest) : Bytes :=
  egpOperationsResultJson request (ascii "ACCEPTED")
    (egpErrorSet .none false .none (ascii "Operation accepted")) 0 none

/-- What the worker found: its result, and the endpoint that it committed. -/
structure Outcome where
  result : EgpError
  endpointGeneration : Nat
  endpoint : Bytes

/-- The text that `worker` leaves in `work->result`. -/
def Outcome.json (outcome : Outcome) (request : EgpProtocolRequest) : Bytes :=
  egpOperationsResultJson request
    (if outcome.result.code = .none then ascii "SUCCEEDED" else ascii "FAILED")
    outcome.result outcome.endpointGeneration (some outcome.endpoint)

/-! ## State -/

/-- The worker in flight. -/
inductive Flight
  | request (request : EgpProtocolRequest)
  | reconcile
  deriving DecidableEq

structure Daemon where
  security : EgpSecurity
  protocol : EgpProtocol
  /-- `busy`: there is a worker. -/
  work : Option Flight
  closing : Bool
  activeRequest : Option EgpProtocolRequest
  resultPeer : Bytes
  lastResult : Bytes

/-- The daemon before its main loop runs. -/
def daemonNew : Daemon := ⟨egpSecurityNew, egpProtocolNew, none, false, none, [], []⟩

/-- The request without its text, as `active_request` keeps it. -/
def hideJson (request : EgpProtocolRequest) : EgpProtocolRequest := { request with json := [] }

/-! ## The window -/

/-- What `window_changed` and `bluez_lost` forget. -/
def Daemon.forget (daemon : Daemon) : Daemon :=
  { daemon with
    protocol := egpProtocolDropAll daemon.protocol
    activeRequest := none
    resultPeer := []
    lastResult := [] }

/-- A change of the window, with its call of `window_changed`. -/
def Daemon.moved (daemon : Daemon) (m : Moved) : Daemon :=
  let daemon := { daemon with security := m.security }
  if m.changed.isSome then daemon.forget else daemon

/-- `physical_presence`. -/
def physicalPresence (daemon : Daemon) (now : Int) : Daemon :=
  daemon.moved (egpSecurityOpenWindow daemon.security now)

/-- `input_lost`, and the same function under the name `close_one_shot`. -/
def inputLost (daemon : Daemon) : Daemon :=
  daemon.moved (egpSecurityCloseWindow daemon.security)

/-- `expiry_tick`, with its call of `window_changed`. -/
def windowTick (daemon : Daemon) (now : Int) : Daemon :=
  daemon.moved (expiryTick daemon.security now)

/-- `bluez_lost`. -/
def bluezLost (daemon : Daemon) : Daemon :=
  { daemon with security := egpSecurityBluezLost daemon.security }.forget

/-- `peer_disconnected`. -/
def peerDisconnected (daemon : Daemon) (peerPath : Bytes) : Daemon :=
  { daemon with protocol := egpProtocolDropPeer daemon.protocol peerPath }

/-- `expire_protocol`. -/
def expireProtocol (o : Visits) (daemon : Daemon) (now : Int) : Daemon :=
  { daemon with protocol := egpProtocolExpire o daemon.protocol now }

/-! ## Results -/

/-- The result is the last one of its request. -/
def finalResult (resultJson : Bytes) : Bool :=
  occursIn (ascii "\"status\":\"SUCCEEDED\"") resultJson ||
    occursIn (ascii "\"status\":\"FAILED\"") resultJson

/-- `result_published`. -/
def resultPublished (o : Visits) (now : Int) (daemon : Daemon) (peerPath resultJson : Bytes) :
    Daemon :=
  match daemon.activeRequest with
  | none => daemon
  | some active =>
      if peerPath != active.peerPath || resultJson.isEmpty ||
          egpGattValueMaxBytes < resultJson.length then daemon
      else
        { daemon with
          protocol := (egpProtocolCacheResultId o daemon.protocol active.peerPath
            active.characteristic active.transactionId resultJson now).1
          resultPeer := peerPath.take (egpDbusPathCap - 1)
          lastResult := resultJson.take egpGattValueMaxBytes
          activeRequest := if finalResult resultJson then none else some active }

/-- `egp_operations_submit`. -/
def egpOperationsSubmit (o : Visits) (now : Int) (daemon : Daemon)
    (request : EgpProtocolRequest) : Daemon × Answer :=
  if daemon.work.isSome || daemon.closing then
    (daemon, .error (some (egpErrorSet .provisioningBusy true .none
      (ascii "Another provisioning operation is in progress"))))
  else if (acceptedJson request).isEmpty then
    (daemon, .error (some (egpErrorSet .internalError true .none
      (ascii "Operation result serialization failed"))))
  else
    (resultPublished o now { daemon with work := some (.request request) } request.peerPath
      (acceptedJson request), .ok ())

/-- `completed`, when the worker is done. -/
def completed (o : Visits) (now : Int) (daemon : Daemon) (outcome : Outcome) : Daemon :=
  match daemon.work with
  | none => daemon
  | some .reconcile => { daemon with work := none }
  | some (.request request) =>
      resultPublished o now { daemon with work := none } request.peerPath (outcome.json request)

/-- `egp_operations_reconcile`. -/
def egpOperationsReconcile (daemon : Daemon) : Daemon :=
  if daemon.work.isSome || daemon.closing then daemon
  else { daemon with work := some .reconcile }

/-! ## The characteristics -/

/-- What a callback of a characteristic asks of others. -/
structure PeerEnv where
  peer : Except (Option EgpError) EgpPeerSecurity
  agent : Option Bytes
  /-- The clock of each call that reads it. -/
  pairingUs : Int
  acceptUs : Int
  authorizeUs : Int
  publishUs : Int
  /-- The order in which the hash tables are visited. -/
  visits : Visits

/-- `read_value` of the OperationResult characteristic. -/
def readResult (env : PeerEnv) (daemon : Daemon) (peerPath : Bytes) :
    Except (Option EgpError) Bytes :=
  match env.peer with
  | .error error => .error error
  | .ok peer =>
      match (egpSecurityCanReadResult daemon.security peerPath peer env.authorizeUs).2 with
      | .error error => .error error
      | .ok () =>
          if daemon.lastResult.isEmpty || peerPath != daemon.resultPeer then
            .error (some (deny .bleUnauthorized "No result belongs to this authorized peer"))
          else .ok daemon.lastResult

/-- `write_value` behind an accepted frame of an authorized peer. -/
def dispatch (env : PeerEnv) (daemon : Daemon) (peerPath : Bytes) (peer : EgpPeerSecurity) :
    EgpProtocolOutput → Daemon × Answer
  | .incomplete => (daemon, .ok ())
  | .replay _ cachedResult =>
      if !cachedResult.isEmpty && cachedResult.length ≤ egpGattValueMaxBytes then
        ({ daemon with
            resultPeer := peerPath.take (egpDbusPathCap - 1)
            lastResult := cachedResult.take egpGattValueMaxBytes }, .ok ())
      else (daemon, .ok ())
  | .complete request =>
      let request := { request with
        windowEpoch := daemon.security.windowEpoch
        connectionEpoch := peer.connectionEpoch }
      let submitted := egpOperationsSubmit env.visits env.publishUs
        { daemon with activeRequest := some (hideJson request) } request
      match submitted.2 with
      | .ok () => submitted
      | .error error => ({ submitted.1 with activeRequest := none }, .error error)

/-- `write_value` behind an accepted frame. -/
def authorizeWrite (env : PeerEnv) (daemon : Daemon) (peerPath : Bytes) (peer : EgpPeerSecurity)
    (output : EgpProtocolOutput) : Daemon × Answer :=
  let authorized := egpSecurityAuthorizeSensitive daemon.security peerPath peer true
    env.authorizeUs
  match authorized.2 with
  | .error error =>
      let daemon := { daemon with protocol := egpProtocolDropAll daemon.protocol }
      (if error.map (·.code) = some .bleWindowClosed then
          daemon.moved (egpSecurityCloseWindow daemon.security)
        else daemon, .error error)
  | .ok () => dispatch env { daemon with security := authorized.1 } peerPath peer output

/-- `write_value`; `none` is a characteristic that is not writable. -/
def writeValue (sha256 : Bytes → Bytes) (env : PeerEnv) (daemon : Daemon)
    (characteristic : Option EgpWritableCharacteristic) (peerPath value : Bytes) :
    Daemon × Answer :=
  match characteristic with
  | none => (daemon, .error (some (egpErrorSet .blePayloadInvalid false .none
      (ascii "Characteristic is not writable"))))
  | some writable =>
      if daemon.work.isSome then
        (daemon, .error (some (egpErrorSet .provisioningBusy true .none
          (ascii "Another provisioning operation is active"))))
      else
        match env.peer with
        | .error error => (daemon, .error error)
        | .ok peer =>
            match egpSecurityAllowPairing daemon.security peerPath env.pairingUs with
            | .error error => (daemon, .error error)
            | .ok () =>
                match egpStatusAgentIdle env.agent with
                | .error error =>
                    ({ daemon with protocol := egpProtocolDropPeer daemon.protocol peerPath },
                      .error (some error))
                | .ok _ =>
                    let accepted := egpProtocolAccept sha256 env.visits daemon.protocol peerPath
                      writable value env.acceptUs
                    let daemon := { daemon with protocol := accepted.1 }
                    match accepted.2 with
                    | .error error => (daemon, .error (some error))
                    | .ok output => authorizeWrite env daemon peerPath peer output

/-! ## Runs -/

inductive Event
  | writeValue (env : PeerEnv) (characteristic : Option EgpWritableCharacteristic)
      (peerPath value : Bytes)
  | readResult (env : PeerEnv) (peerPath : Bytes)
  | physicalPresence (now : Int)
  | inputLost
  | windowTick (now : Int)
  | bluezLost
  | peerDisconnected (peerPath : Bytes)
  | expireProtocol (o : Visits) (now : Int)
  /-- The worker is done. -/
  | completed (o : Visits) (now : Int) (outcome : Outcome)
  | reconcile
  | shutDown

inductive Reply
  | wrote (answer : Answer)
  | read (answer : Except (Option EgpError) Bytes)
  | none

def step (sha256 : Bytes → Bytes) (daemon : Daemon) : Event → Daemon × Reply
  | .writeValue env characteristic peerPath value =>
      let r := Callbacks.writeValue sha256 env daemon characteristic peerPath value
      (r.1, .wrote r.2)
  | .readResult env peerPath => (daemon, .read (Callbacks.readResult env daemon peerPath))
  | .physicalPresence now => (Callbacks.physicalPresence daemon now, .none)
  | .inputLost => (Callbacks.inputLost daemon, .none)
  | .windowTick now => (Callbacks.windowTick daemon now, .none)
  | .bluezLost => (Callbacks.bluezLost daemon, .none)
  | .peerDisconnected peerPath => (Callbacks.peerDisconnected daemon peerPath, .none)
  | .expireProtocol o now => (Callbacks.expireProtocol o daemon now, .none)
  | .completed o now outcome => (Callbacks.completed o now daemon outcome, .none)
  | .reconcile => (egpOperationsReconcile daemon, .none)
  | .shutDown => ({ daemon with closing := true }, .none)

/-- A callback, between two states of the daemon. -/
structure Entry where
  before : Daemon
  event : Event
  reply : Reply
  after : Daemon

/-- The states that callbacks reach in any order, with the log of the callbacks. -/
inductive Run (sha256 : Bytes → Bytes) : List Entry → Daemon → Prop
  | start : Run sha256 [] daemonNew
  | step {log : List Entry} {daemon : Daemon} (h : Run sha256 log daemon) (event : Event) :
      Run sha256
        (log ++ [⟨daemon, event, (step sha256 daemon event).2, (step sha256 daemon event).1⟩])
        (Callbacks.step sha256 daemon event).1

end EdgeGuard.Provisioning.Callbacks
