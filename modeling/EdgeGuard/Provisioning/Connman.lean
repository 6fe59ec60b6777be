import EdgeGuard.Base.Polling
import EdgeGuard.Provisioning.Operations

/-!
# The ConnMan adapter

`connman.c`: the observation of the provisioned service, `egp_connman_apply`
and `egp_connman_revoke`.

ConnMan, the bus, the clock and the cancellable are the environment: every call
is answered by a reply or an error, every reading of the clock is a number, and
nothing relates one answer to another.  `g_dbus_connection_call_sync` reports a
timeout, a cancellation and a lost connection as local errors, which the source
does not tell apart.  What only bounds the time of a call is left out, and of
the profile file it is said only whether it was written or removed.

A function answers `none` as long as one of its loops is still waiting.

## Main results

* `observeService_eq` — the observation record by the number of owned services.
-/

namespace EdgeGuard.Provisioning.Connman

open EdgeGuard.Base EdgeGuard.Base.CText EdgeGuard.Base.Polling
open EdgeGuard.Provisioning.Model EdgeGuard.Provisioning.Operations

/-! ## Properties -/

/-- A value of a property dictionary, as far as its type is looked at. -/
inductive Variant
  | string (text : Bytes)
  | boolean (value : Bool)
  | strings (items : List Bytes)
  | dict (entries : List (Bytes × Variant))
  | other

abbrev Properties := List (Bytes × Variant)

/-- `g_variant_lookup` with a string: the first entry of the name decides. -/
def lookupString (properties : Properties) (name : Bytes) : Option Bytes :=
  match properties.lookup name with
  | some (.string text) => some text
  | _ => none

/-- `g_variant_lookup` with a boolean that is FALSE before. -/
def lookupFlag (properties : Properties) (name : Bytes) : Bool :=
  match properties.lookup name with
  | some (.boolean value) => value
  | _ => false

/-- An entry of `GetServices` or `GetTechnologies`. -/
structure Object where
  path : Bytes
  properties : Properties

/-- `security_has_psk`. -/
def securityHasPsk (properties : Properties) : Bool :=
  match properties.lookup (ascii "Security") with
  | some (.strings items) => items.contains (ascii "psk")
  | _ => false

/-- `properties_match_wifi`. -/
def propertiesMatchWifi (properties : Properties) (wifi : EgpWifiConfig) : Bool :=
  lookupString properties (ascii "Name") == some wifi.ssid && securityHasPsk properties

/-- The address of one family. -/
def hasAddress (properties : Properties) (family : Bytes) : Bool :=
  match properties.lookup family with
  | some (.dict entries) => (lookupString entries (ascii "Address")).any (!·.isEmpty)
  | _ => false

/-- `has_ip_address`. -/
def hasIpAddress (properties : Properties) : Bool :=
  hasAddress properties (ascii "IPv4") || hasAddress properties (ascii "IPv6")

/-! ## Observing the service -/

structure ServiceObservation where
  found : Bool
  ambiguous : Bool
  connected : Bool
  provisioned : Bool
  path : Bytes
  state : Bytes
  deriving DecidableEq, Repr

def ServiceObservation.clear : ServiceObservation := ⟨false, false, false, false, [], []⟩

/-- The three markers of a service that comes from a provisioning file. -/
def owned (properties : Properties) : Bool :=
  lookupFlag properties (ascii "Immutable") && lookupFlag properties (ascii "Favorite") &&
    lookupFlag properties (ascii "AutoConnect")

/-- The record of an owned service in an empty one. -/
def ServiceObservation.record (observation : ServiceObservation) (service : Object) :
    ServiceObservation :=
  let state := ((lookupString service.properties (ascii "State")).map (·.take 31)).getD
    observation.state
  { observation with
    found := true
    provisioned := true
    path := service.path.take (egpDbusPathCap - 1)
    state
    connected := (state == ascii "ready" || state == ascii "online") &&
      hasIpAddress service.properties }

/-- One turn of the loop in `observe_service`. -/
def ServiceObservation.see (wifi : EgpWifiConfig) (observation : ServiceObservation)
    (service : Object) : ServiceObservation :=
  if propertiesMatchWifi service.properties wifi then
    if owned service.properties && observation.found then { observation with ambiguous := true }
    else if owned service.properties then observation.record service
    else observation
  else observation

/-- `observe_service` behind the reply. -/
def observeService (wifi : EgpWifiConfig) (services : List Object) : ServiceObservation :=
  let observation := services.foldl (ServiceObservation.see wifi) .clear
  if observation.ambiguous then { observation with found := false } else observation

/-- The services of an answer that match the credential and are owned. -/
def ownedServices (wifi : EgpWifiConfig) (services : List Object) : List Object :=
  services.filter fun s => propertiesMatchWifi s.properties wifi && owned s.properties

/-- The observation depends on the services of the profile alone. -/
private theorem foldl_see_owned (wifi : EgpWifiConfig) (services : List Object)
    (observation : ServiceObservation) :
    services.foldl (ServiceObservation.see wifi) observation =
      (ownedServices wifi services).foldl (ServiceObservation.see wifi) observation := by
  induction services generalizing observation with
  | nil => rfl
  | cons s services ih =>
      rw [List.foldl_cons, ih]
      by_cases hs : (propertiesMatchWifi s.properties wifi && owned s.properties) = true
      · simp [ownedServices, hs]
      · have hsee : observation.see wifi s = observation := by
          unfold ServiceObservation.see
          split
          · rename_i hmatch
            have howned : owned s.properties = false := by simpa [hmatch] using hs
            simp [howned]
          · rfl
        simp [ownedServices, hs, hsee]

/-- A record that has its service only becomes ambiguous. -/
private theorem foldl_see_found {wifi : EgpWifiConfig} {services : List Object}
    (hservices : ∀ s ∈ services, propertiesMatchWifi s.properties wifi = true ∧
      owned s.properties = true) {observation : ServiceObservation}
    (h : observation.found = true) :
    services.foldl (ServiceObservation.see wifi) observation =
      if services.isEmpty then observation else { observation with ambiguous := true } := by
  induction services generalizing observation with
  | nil => rfl
  | cons s services ih =>
      obtain ⟨hmatch, howned⟩ := hservices s List.mem_cons_self
      have hsee : observation.see wifi s = { observation with ambiguous := true } := by
        simp [ServiceObservation.see, hmatch, howned, h]
      have hrest := @ih (fun t ht => hservices t (List.mem_cons_of_mem _ ht))
        { observation with ambiguous := true } h
      rw [List.foldl_cons, hsee, hrest]
      simp

/-- The record tells apart no service, one and several. -/
theorem observeService_eq (wifi : EgpWifiConfig) (services : List Object) :
    observeService wifi services =
      match ownedServices wifi services with
      | [] => .clear
      | [s] => ServiceObservation.clear.record s
      | s :: _ :: _ => { ServiceObservation.clear.record s with found := false, ambiguous := true } := by
  have hall : ∀ s ∈ ownedServices wifi services, propertiesMatchWifi s.properties wifi = true ∧
      owned s.properties = true := by
    intro s hs
    simpa using (List.mem_filter.mp hs).2
  rw [observeService, foldl_see_owned]
  cases hlist : ownedServices wifi services with
  | nil => rfl
  | cons s rest =>
      rw [hlist] at hall
      obtain ⟨hmatch, howned⟩ := hall s List.mem_cons_self
      have hsee : ServiceObservation.clear.see wifi s = ServiceObservation.clear.record s := by
        simp [ServiceObservation.see, hmatch, howned, ServiceObservation.clear]
      rw [List.foldl_cons, hsee,
        foldl_see_found (fun t ht => hall t (List.mem_cons_of_mem _ ht)) rfl]
      cases rest with
      | nil => rfl
      | cons t rest => rfl

/-! ## Calls -/

/-- The error of a call. -/
inductive CallError
  /-- A reply that is an error, by its name. -/
  | remote (name : Bytes)
  /-- A timeout, a cancellation or a lost connection. -/
  | noReply
  deriving DecidableEq, Repr

/-- `remote_error_is`. -/
def CallError.is (error : CallError) (suffix : Bytes) : Bool :=
  match error with
  | .remote name => suffix.isSuffixOf name
  | .noReply => false

/-- `remaining_ms`, at a reading of the clock. -/
def remainingMs (deadlineUs now : Int) : Int :=
  let remaining := deadlineUs - now
  if remaining ≤ 0 then 0 else min ((remaining + 999) / 1000) (2 ^ 31 - 1)

/-- A method call: the clock when its timeout is computed, and what becomes of it. -/
structure Call (α : Type) where
  clock : Int
  answer : Except CallError α

/-- `call_sync`: behind the deadline the call is not made and has timed out. -/
def callSync {α : Type} (deadlineUs : Int) (call : Call α) : Except CallError α :=
  if remainingMs deadlineUs call.clock = 0 then .error .noReply else call.answer

/-- `connman_get_owner`, by the reply to `GetNameOwner`. -/
def connmanGetOwner (reply : Option Bytes) : Option Bytes :=
  reply.filter fun unique => unique.length < 256 && !unique.isEmpty

/-- `connman_owner_is`. -/
def connmanOwnerIs (reply : Option Bytes) (expected : Bytes) : Bool :=
  connmanGetOwner reply == some expected

/-- `find_wifi_technology`, behind the reply: the first Wi-Fi technology counts, if it
is powered. -/
def findWifiTechnology (technologies : List Object) : Option Bytes :=
  match technologies.find? fun t => lookupString t.properties (ascii "Type") == some (ascii "wifi") with
  | some t =>
      if lookupFlag t.properties (ascii "Powered") then some (t.path.take (egpDbusPathCap - 1))
      else none
  | none => none

/-- One turn of a loop around `observe_service` and `sleep_until_poll`. -/
structure Round where
  head : Int
  services : Call (List Object)
  cancelled : Bool
  clock : Int
  /-- The cancellable behind the sleep. -/
  cancelledAfter : Bool

/-- `sleep_until_poll`. -/
def sleepUntilPoll (deadlineUs : Int) (round : Round) : Bool :=
  if round.cancelled then false
  else if remainingMs deadlineUs round.clock = 0 then false
  else !round.cancelledAfter

/-- A loop around `observe_service`. -/
def serviceLoop {β : Type} (deadlineUs : Int) (wifi : EgpWifiConfig)
    (accept : ServiceObservation → Option β) : Loop Round CallError (List Object) β where
  due round := remainingMs deadlineUs round.head = 0
  ask round := callSync deadlineUs round.services
  accept services := accept (observeService wifi services)
  pause round := sleepUntilPoll deadlineUs round

/-! ## Results -/

structure EgpConnmanResult where
  disposition : EgpConnmanDisposition
  state : EgpProvisioningState
  code : EgpErrorCode
  servicePath : Bytes
  deriving DecidableEq, Repr

/-- `connman_fail`. -/
def connmanFail (code : EgpErrorCode) (message : Bytes) : EgpError :=
  egpErrorSet code true .none message

/-- `result_init`, and the state that both functions set behind it. -/
def resultInit : EgpConnmanResult := ⟨.retainCanonical, .applying, .connmanApplyFailed, []⟩

/-- What a function of the adapter returns and fills in (`none`: left alone), and what
ConnMan answered it. -/
structure ConnmanReply where
  returned : Bool
  result : Option EgpConnmanResult
  error : Option EgpError
  /-- The answers to the calls of `GetServices`. -/
  services : List (Except CallError (List Object))
  /-- The answer to `Connect`. -/
  connect : Option (Except CallError Unit)

/-- A function that fails with an error of its own. -/
def ConnmanReply.fail (result : EgpConnmanResult) (error : EgpError)
    (services : List (Except CallError (List Object))) (connect : Option (Except CallError Unit)) :
    ConnmanReply :=
  ⟨false, some result, some error, services, connect⟩

/-- `dependency_error`. -/
def dependencyError (result : EgpConnmanResult) (services : List (Except CallError (List Object)))
    (connect : Option (Except CallError Unit)) : ConnmanReply :=
  .fail { result with
      disposition := .retainCanonical
      state := .failedDependency
      code := .connmanUnavailable }
    (connmanFail .connmanUnavailable (ascii "ConnMan is unavailable")) services connect

/-! ## Applying -/

/-- What `egp_connman_apply` meets. -/
structure ApplyEnv where
  timeoutMs : Nat
  /-- `egp_connman_write_profile`. -/
  writeProfile : Except Failure Unit
  start : Int
  owner : Option Bytes
  technologies : Call (List Object)
  scan : Call Unit
  /-- The loop that looks for the service, and the owner behind it. -/
  finding : List Round
  findingOwner : Option Bytes
  connect : Call Unit
  connectOwner : Option Bytes
  /-- The loop that waits for the connection, and the owner behind it. -/
  waiting : List Round
  waitingOwner : Option Bytes

def ApplyEnv.deadline (env : ApplyEnv) : Int := env.start + env.timeoutMs * 1000

/-- The loop that looks for the service. -/
def findingLoop (deadlineUs : Int) (wifi : EgpWifiConfig) :
    Loop Round CallError (List Object) ServiceObservation :=
  serviceLoop deadlineUs wifi fun observed => if observed.found then some observed else none

/-- The loop that waits for its connection. -/
def waitingLoop (deadlineUs : Int) (wifi : EgpWifiConfig) :
    Loop Round CallError (List Object) ServiceObservation :=
  serviceLoop deadlineUs wifi fun observed =>
    if observed.found && observed.connected then some observed else none

/-- The service path behind the answers: that of the last service found. -/
def lastPath (wifi : EgpWifiConfig) (path : Bytes)
    (answers : List (Except CallError (List Object))) : Bytes :=
  answers.foldl (fun path answer =>
    match answer with
    | .ok services =>
        let observed := observeService wifi services
        if observed.found then observed.path else path
    | .error _ => path) path

/-- The part of `egp_connman_apply` that waits for the connection. -/
def applyWaiting (wifi : EgpWifiConfig) (env : ApplyEnv) (owner : Bytes)
    (result : EgpConnmanResult) (services : List (Except CallError (List Object)))
    (connect : Option (Except CallError Unit)) : Option ConnmanReply := do
  let polled ← (waitingLoop env.deadline wifi).run env.waiting
  let result := { result with servicePath := lastPath wifi result.servicePath polled.asked }
  let services := services ++ polled.asked
  match polled.value with
  | some _ =>
      return ⟨true, some { result with disposition := .connected, state := .connected, code := .none },
        some (egpErrorSet .none false .none (ascii "Wi-Fi connected")), services, connect⟩
  | none =>
      if !connmanOwnerIs env.waitingOwner owner then return dependencyError result services connect
      else
        return .fail { result with
            disposition := .retainCanonical
            state := .failedTimeout
            code := .wifiConnectTimeout }
          (connmanFail .wifiConnectTimeout
            (ascii "Wi-Fi association outcome is uncertain after timeout")) services connect

/-- The part of `egp_connman_apply` behind a service that was found. -/
def applyFound (wifi : EgpWifiConfig) (env : ApplyEnv) (owner : Bytes)
    (observed : ServiceObservation) (services : List (Except CallError (List Object))) :
    Option ConnmanReply :=
  let result := { resultInit with servicePath := observed.path, state := .associating }
  if observed.connected then applyWaiting wifi env owner result services none
  else
    let connected := callSync env.deadline env.connect
    match connected with
    | .ok () => applyWaiting wifi env owner result services (some connected)
    | .error error =>
        if error.is (ascii ".AlreadyConnected") || error.is (ascii ".InProgress") then
          applyWaiting wifi env owner result services (some connected)
        else if error.is (ascii ".InvalidKey") then
          some (.fail { result with
              disposition := .rollbackAllowed
              state := .failedAuth
              code := .wifiAuthFailed }
            (connmanFail .wifiAuthFailed (ascii "ConnMan rejected the Wi-Fi credential"))
            services (some connected))
        else if error.is (ascii ".NotFound") then
          some (.fail { result with
              disposition := .rollbackAllowed
              state := .failedNotFound
              code := .wifiApNotFound }
            (connmanFail .wifiApNotFound (ascii "Provisioned Wi-Fi service disappeared"))
            services (some connected))
        else if !connmanOwnerIs env.connectOwner owner then
          some (dependencyError result services (some connected))
        else
          some (.fail result (connmanFail .connmanApplyFailed
            (ascii "ConnMan could not start association")) services (some connected))

/-- The end of a search that is given up. -/
def serviceNotFound (services : List (Except CallError (List Object))) : ConnmanReply :=
  .fail { resultInit with
      disposition := .rollbackAllowed
      state := .failedNotFound
      code := .wifiApNotFound }
    (connmanFail .wifiApNotFound (ascii "Provisioned Wi-Fi service was not found")) services none

/-- The part of `egp_connman_apply` that looks for the service. -/
def applyFinding (wifi : EgpWifiConfig) (env : ApplyEnv) (owner : Bytes) : Option ConnmanReply := do
  let polled ← (findingLoop env.deadline wifi).run env.finding
  match polled.value with
  | some observed => applyFound wifi env owner observed polled.asked
  | none =>
      if !connmanOwnerIs env.findingOwner owner then
        return dependencyError resultInit polled.asked none
      else
        return serviceNotFound polled.asked

/-- The scan that `egp_connman_apply` asks for has begun. -/
def scanning (env : ApplyEnv) : Bool :=
  match callSync env.deadline env.technologies with
  | .error _ => false
  | .ok technologies =>
      (findWifiTechnology technologies).isSome &&
        match callSync env.deadline env.scan with
        | .ok () => true
        | .error error => error.is (ascii ".InProgress")

/-- `egp_connman_apply`. -/
def egpConnmanApply (wifi : EgpWifiConfig) (env : ApplyEnv) : Option ConnmanReply :=
  if env.timeoutMs = 0 then some ⟨false, none, none, [], none⟩
  else
    match egpWifiValidate wifi with
    | .error error => some ⟨false, none, some error, [], none⟩
    | .ok () =>
        match env.writeProfile with
        | .error failure => some (.fail resultInit failure.error [] none)
        | .ok () =>
            match connmanGetOwner env.owner with
            | none => some (dependencyError resultInit [] none)
            | some owner =>
                if !scanning env then some (dependencyError resultInit [] none)
                else applyFinding wifi env owner

/-! ## Revoking -/

/-- What `egp_connman_revoke` meets. -/
structure RevokeEnv where
  timeoutMs : Nat
  start : Int
  /-- `owned_profile_present`. -/
  profilePresent : Bool
  owner : Option Bytes
  /-- `GetServices` before the profile is removed. -/
  before : Call (List Object)
  /-- `egp_connman_remove_profile`. -/
  removeProfile : Except Failure Unit
  polling : List Round
  pollingOwner : Option Bytes

def RevokeEnv.deadline (env : RevokeEnv) : Int := env.start + env.timeoutMs * 1000

/-- The loop that waits for the service to go. -/
def revokingLoop (deadlineUs : Int) (wifi : EgpWifiConfig) :
    Loop Round CallError (List Object) Unit :=
  serviceLoop deadlineUs wifi fun observed =>
    if !observed.found || !observed.provisioned then some () else none

/-- The end of a revocation that succeeds. -/
def revoked (servicePath : Bytes) (message : Bytes)
    (services : List (Except CallError (List Object))) : ConnmanReply :=
  ⟨true, some ⟨.connected, .unprovisioned, .none, servicePath⟩,
    some (egpErrorSet .none false .none message), services, none⟩

/-- The part of `egp_connman_revoke` behind the removal of the profile, for a service
that was seen before. -/
def revokeObserved (wifi : EgpWifiConfig) (env : RevokeEnv) (owner : Bytes)
    (observed : ServiceObservation) : Option ConnmanReply := do
  let polled ← (revokingLoop env.deadline wifi).run env.polling
  let result := { resultInit with servicePath := observed.path }
  match polled.value with
  | some () =>
      return revoked observed.path (ascii "Provisioned Wi-Fi service revoked") polled.asked
  | none =>
      if !connmanOwnerIs env.pollingOwner owner then return dependencyError result polled.asked none
      else
        return .fail result (connmanFail .connmanApplyFailed
          (ascii "ConnMan revocation outcome is uncertain after timeout")) polled.asked none

/-- The service that the profile stands for, as far as it is attested: under an owned
profile, the observation and the owner it was made with.  `none` when ConnMan cannot be
asked. -/
def revokeAttest (wifi : EgpWifiConfig) (env : RevokeEnv) :
    Option (Option (Bytes × ServiceObservation)) :=
  if env.profilePresent then
    match connmanGetOwner env.owner with
    | none => none
    | some owner =>
        match callSync env.deadline env.before with
        | .error _ => none
        | .ok services =>
            let observed := observeService wifi services
            some (if observed.found && !observed.ambiguous then some (owner, observed) else none)
  else some none

/-- `egp_connman_revoke`.  The answers in the reply are those behind the removal. -/
def egpConnmanRevoke (wifi : EgpWifiConfig) (env : RevokeEnv) : Option ConnmanReply :=
  if env.timeoutMs = 0 then some ⟨false, none, none, [], none⟩
  else
    match egpWifiValidate wifi with
    | .error error => some ⟨false, none, some error, [], none⟩
    | .ok () =>
        match revokeAttest wifi env with
        | none => some (dependencyError resultInit [] none)
        | some attested =>
            match env.removeProfile with
            | .error failure => some (.fail resultInit failure.error [] none)
            | .ok () =>
                match attested with
                | none => some (revoked []
                    (ascii "Owned ConnMan profile removed without touching an unproven service") [])
                | some (owner, observed) => revokeObserved wifi env owner observed

end EdgeGuard.Provisioning.Connman
