import EdgeGuard.Provisioning.RuntimeStore

/-!
# The operations of the provisioning daemon

`operations.c`: the three operations that change the store and the
reconciliation at start-up, each run by one worker at a time.

What the worker asks of others is answered by the environment of the operation:
the agent's idle state and the authorization of the commit, ConnMan, and the
first failing step of each call into the store.  Whoever refuses fills in an
error with a code, and reports no persistent change (`Failure`): `status_fail`,
`deny` and `connman_fail` all do so.

CHECK_UPDATE_NOW does not touch the store and is left out, and so are the
provisioning states that the status characteristic shows.
-/

namespace EdgeGuard.Provisioning.Operations

open EdgeGuard.Base EdgeGuard.Base.CText EdgeGuard.Base.Utf8 EdgeGuard.Base.Json
open EdgeGuard.Base.JsonObject EdgeGuard.Base.Uri
open EdgeGuard.Provisioning.Model EdgeGuard.Provisioning.Store
open EdgeGuard.Provisioning.Endpoint EdgeGuard.Provisioning.RuntimeStore

/-! ## Requests -/

def blePayloadInvalid (message : Bytes) : EgpError :=
  egpErrorSet .blePayloadInvalid true .none message

/-- `parse_request_object`. -/
def parseRequestObject (J : JsonParser) (json : Bytes) : Except EgpError Members :=
  if json.isEmpty || egpProtocolMaxJson < json.length || !valid json then
    .error (blePayloadInvalid (ascii "Request JSON is invalid"))
  else
    match J.load json with
    | some (.obj object) =>
        if object.duplicate then
          .error (blePayloadInvalid
            (ascii "Request must be one JSON object without duplicate members"))
        else .ok object
    | _ => .error (blePayloadInvalid
        (ascii "Request must be one JSON object without duplicate members"))

/-- The members of a SET_WIFI request. -/
def wifiOfRequest (object : Members) : Option EgpWifiConfig := do
  if object.size != 4 then none
  let ssid ← exactString object (ascii "ssid") (egpSsidMaxBytes + 1)
  let security ← exactString object (ascii "security") 4
  let passphrase ← exactString object (ascii "passphrase") (egpPassphraseMaxBytes + 1)
  let hidden ← exactBoolean object (ascii "hidden")
  return { generation := 0, ssid, security, passphrase, hidden }

/-- `parse_wifi`. -/
def parseWifi (J : JsonParser) (json : Bytes) : Except EgpError EgpWifiConfig :=
  match parseRequestObject J json with
  | .error error => .error error
  | .ok object =>
      match wifiOfRequest object with
      | none => .error (egpErrorSet .wifiConfigInvalid true .none
          (ascii "SET_WIFI fields are invalid"))
      | some wifi =>
          match egpWifiValidate wifi with
          | .error error => .error error
          | .ok () => .ok wifi

/-- `parse_endpoint`. -/
def parseEndpoint (J : JsonParser) (json : Bytes) : Except EgpError Bytes :=
  match parseRequestObject J json with
  | .error error => .error error
  | .ok object =>
      match exactString object (ascii "base_url") (egpEndpointMaxBytes + 1) with
      | some endpoint =>
          if object.size == 1 then .ok endpoint
          else .error (egpErrorSet .endpointInvalid true .none
            (ascii "SET_ENDPOINT fields are invalid"))
      | none => .error (egpErrorSet .endpointInvalid true .none
          (ascii "SET_ENDPOINT fields are invalid"))

/-- `parse_empty`. -/
def parseEmpty (J : JsonParser) (json : Bytes) : Except EgpError Unit :=
  match parseRequestObject J json with
  | .error error => .error error
  | .ok object =>
      if object.size == 0 then .ok ()
      else .error (blePayloadInvalid (ascii "Operation accepts no JSON members"))

/-! ## Answers -/

/-- A refusal: a code, and no persistent change. -/
structure Failure where
  error : EgpError
  failed : error.code ≠ .none
  unchanged : error.persistentChange = .none

inductive EgpConnmanDisposition
  | connected
  | rollbackAllowed
  | retainCanonical
  deriving DecidableEq, Repr

/-- The answer of `egp_connman_apply`. -/
inductive ConnmanApply
  | applied
  | failed (disposition : EgpConnmanDisposition) (failure : Failure)

/-- What the worker did to the store, and the result that it publishes. -/
structure Done where
  acts : List Act
  result : EgpError

/-- `set_success`. -/
def setSuccess (change : EgpPersistentChange) (message : Bytes) : EgpError :=
  egpErrorSet .none false change message

/-- A result that finds the agent busy after the commit. -/
def raceError (message : Bytes) : EgpError :=
  egpErrorSet .provisioningRace true .committed message

/-! ## SET_WIFI -/

structure ApplyWifiEnv where
  authorizeAndIdle : Except Failure Unit
  replace : ReplaceIo
  /-- The agent is not idle any more after the commit. -/
  raced : Bool
  apply : ConnmanApply
  restore : RestoreIo
  /-- The previous credential, or its absence, is applied again. -/
  reconciled : Bool

/-- The part of `apply_wifi` behind a failed apply of the committed candidate. -/
def applyFailed (J : JsonParser) (env : ApplyWifiEnv) (d : Directory) (committed : List Act)
    (previous : Option EgpWifiConfig) (disposition : EgpConnmanDisposition)
    (failure : Failure) : Done :=
  let result := { failure.error with persistentChange := .committed }
  if disposition = .rollbackAllowed then
    let restored := egpStoreRestoreWifi J env.restore (d.run committed) previous
    match restored.value with
    | none => ⟨committed ++ restored.acts, restored.error⟩
    | some _ =>
        ⟨committed ++ restored.acts,
          { result with
            persistentChange := if env.reconciled then .rolledBack else .uncertain }⟩
  else ⟨committed, result⟩

/-- `apply_wifi`. -/
def applyWifi (J : JsonParser) (env : ApplyWifiEnv) (d : Directory) (json : Bytes) : Done :=
  match parseWifi J json with
  | .error error => ⟨[], error⟩
  | .ok candidate =>
      match env.authorizeAndIdle with
      | .error failure => ⟨[], failure.error⟩
      | .ok () =>
          let replaced := egpStoreReplaceWifi J env.replace d candidate
          match replaced.value with
          | none => ⟨replaced.acts, replaced.error⟩
          | some ⟨previous, _⟩ =>
              match env.apply with
              | .applied =>
                  if env.raced then
                    ⟨replaced.acts, raceError (ascii
                      "Agent state changed after Wi-Fi commit; canonical reconciliation completed")⟩
                  else
                    ⟨replaced.acts, setSuccess .committed
                      (ascii "Wi-Fi configuration committed and connected")⟩
              | .failed disposition failure =>
                  applyFailed J env d replaced.acts previous disposition failure

/-! ## SET_ENDPOINT -/

structure SetEndpointEnv where
  authorizeAndIdle : Except Failure Unit
  replace : ReplaceIo
  raced : Bool

/-- `set_endpoint`. -/
def setEndpoint (J : JsonParser) (N : NetLibrary) (env : SetEndpointEnv) (d : Directory)
    (json : Bytes) : Done :=
  match parseEndpoint J json with
  | .error error => ⟨[], error⟩
  | .ok endpoint =>
      match env.authorizeAndIdle with
      | .error failure => ⟨[], failure.error⟩
      | .ok () =>
          let replaced := egpStoreReplaceRuntime J N env.replace d endpoint
          match replaced.value with
          | none => ⟨replaced.acts, replaced.error⟩
          | some _ =>
              if env.raced then
                ⟨replaced.acts, raceError (ascii "Agent state changed after endpoint commit")⟩
              else
                ⟨replaced.acts, setSuccess .committed (ascii "Runtime endpoint committed")⟩

/-! ## FORGET_WIFI -/

structure ForgetWifiEnv where
  authorizeAndIdle : Except Failure Unit
  begin : ForgetBeginIo
  raced : Bool
  /-- `egp_connman_revoke`, or `egp_connman_remove_profile` when there is nothing
  to revoke. -/
  revoke : Except Failure Unit
  finish : Option FinishStep

/-- The result of a completed forget. -/
def forgetResult (raced : Bool) : EgpError :=
  if raced then
    raceError (ascii "Agent state changed after forget began; revocation completed")
  else setSuccess .committed (ascii "Provisioned Wi-Fi credential was forgotten")

/-- The part of `forget_wifi` behind the tombstone. -/
def forgetBegun (env : ForgetWifiEnv) (d : Directory) (begun : List Act) (hadWifi : Bool) :
    Done :=
  match env.revoke with
  | .error failure =>
      ⟨begun, if hadWifi then { failure.error with persistentChange := .committed }
        else failure.error⟩
  | .ok () =>
      if hadWifi then
        let finished := egpStoreForgetFinish env.finish (d.run begun)
        match finished.value with
        | none => ⟨begun ++ finished.acts, finished.error⟩
        | some () => ⟨begun ++ finished.acts, forgetResult env.raced⟩
      else ⟨begun, forgetResult env.raced⟩

/-- `forget_wifi`. -/
def forgetWifi (J : JsonParser) (env : ForgetWifiEnv) (d : Directory) (json : Bytes) : Done :=
  match parseEmpty J json with
  | .error error => ⟨[], error⟩
  | .ok () =>
      match env.authorizeAndIdle with
      | .error failure => ⟨[], failure.error⟩
      | .ok () =>
          let begun := egpStoreForgetBegin J env.begin d
          match begun.value with
          | none => ⟨begun.acts, begun.error⟩
          | some forgotten => forgetBegun env d begun.acts forgotten.isSome

/-! ## Start-up -/

structure ReconcileEnv where
  pending : Option ReadStep
  inspectLive : Bool
  /-- `egp_connman_revoke` of a pending forget. -/
  revoke : Except Failure Unit
  finish : Option FinishStep
  load : Option ReadStep
  /-- `egp_connman_remove_profile`. -/
  removeProfile : Except Failure Unit
  apply : ConnmanApply

/-- The part of `reconcile_canonical` behind a store without tombstone. -/
def reconcileLive (J : JsonParser) (env : ReconcileEnv) (d : Directory) : Done :=
  match egpStoreLoadWifi J env.load d with
  | .error error => ⟨[], error⟩
  | .ok none =>
      match env.removeProfile with
      | .error failure => ⟨[], failure.error⟩
      | .ok () => ⟨[], setSuccess .none (ascii "Absent canonical Wi-Fi reconciled")⟩
  | .ok (some _) =>
      match env.apply with
      | .failed _ failure => ⟨[], failure.error⟩
      | .applied => ⟨[], setSuccess .none (ascii "Canonical Wi-Fi reconciled")⟩

/-- `reconcile_canonical`. -/
def reconcileCanonical (J : JsonParser) (env : ReconcileEnv) (d : Directory) : Done :=
  match egpStoreForgetPending J env.pending env.inspectLive d with
  | .error error => ⟨[], error⟩
  | .ok (some _) =>
      match env.revoke with
      | .error failure => ⟨[], failure.error⟩
      | .ok () =>
          let finished := egpStoreForgetFinish env.finish d
          match finished.value with
          | none => ⟨finished.acts, finished.error⟩
          | some () =>
              ⟨finished.acts, setSuccess .committed (ascii "Pending Wi-Fi forget reconciled")⟩
  | .ok none => reconcileLive J env d

/-! ## The worker -/

/-- The request of an operation on the store, with the answers it meets. -/
inductive Operation
  | setWifi (json : Bytes) (env : ApplyWifiEnv)
  | setEndpoint (json : Bytes) (env : SetEndpointEnv)
  | forgetWifi (json : Bytes) (env : ForgetWifiEnv)

inductive Status
  | succeeded
  | failed
  deriving DecidableEq, Repr

/-- What `worker` does for a request. -/
def worker (J : JsonParser) (N : NetLibrary) (d : Directory) : Operation → Done
  | .setWifi json env => applyWifi J env d json
  | .setEndpoint json env => Operations.setEndpoint J N env d json
  | .forgetWifi json env => Operations.forgetWifi J env d json

/-- The status that `worker` publishes with a result. -/
def Done.status (done : Done) : Status :=
  if done.result.code = .none then .succeeded else .failed

/-! ## Refused requests -/

variable (J : JsonParser)

/-- A request that is no JSON object is reported with a code and no change. -/
theorem parseRequestObject_error {json : Bytes} {error : EgpError}
    (h : parseRequestObject J json = .error error) :
    error.code ≠ .none ∧ error.persistentChange = .none := by
  unfold parseRequestObject at h
  split at h
  · cases h
    exact ⟨by decide, rfl⟩
  · split at h
    · split at h
      · cases h
        exact ⟨by decide, rfl⟩
      · cases h
    · cases h
      exact ⟨by decide, rfl⟩

/-- A request without a valid network is reported with a code and no change. -/
theorem parseWifi_error {json : Bytes} {error : EgpError}
    (h : parseWifi J json = .error error) :
    error.code ≠ .none ∧ error.persistentChange = .none := by
  unfold parseWifi at h
  split at h
  · rename_i hobject
    cases h
    exact parseRequestObject_error J hobject
  · split at h
    · cases h
      exact ⟨by decide, rfl⟩
    · unfold egpWifiValidate at h
      split at h
      · rename_i hvalid
        split at hvalid
        · cases hvalid
        · cases hvalid
          cases h
          exact ⟨by decide, rfl⟩
      · cases h

/-- A request without an endpoint is reported with a code and no change. -/
theorem parseEndpoint_error {json : Bytes} {error : EgpError}
    (h : parseEndpoint J json = .error error) :
    error.code ≠ .none ∧ error.persistentChange = .none := by
  unfold parseEndpoint at h
  split at h
  · rename_i hobject
    cases h
    exact parseRequestObject_error J hobject
  · split at h
    · split at h
      · cases h
      · cases h
        exact ⟨by decide, rfl⟩
    · cases h
      exact ⟨by decide, rfl⟩

/-- A request that should be empty and is not is reported with a code and no change. -/
theorem parseEmpty_error {json : Bytes} {error : EgpError}
    (h : parseEmpty J json = .error error) :
    error.code ≠ .none ∧ error.persistentChange = .none := by
  unfold parseEmpty at h
  split at h
  · rename_i hobject
    cases h
    exact parseRequestObject_error J hobject
  · split at h
    · cases h
    · cases h
      exact ⟨by decide, rfl⟩

end EdgeGuard.Provisioning.Operations
