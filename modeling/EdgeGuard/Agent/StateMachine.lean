import EdgeGuard.Agent.PersistenceRoundTrip

/-!
# The agent's state machine

`state_machine.c` and `reboot.c`: the transition table, the guarded transition
that saves before it changes memory, the recovery table that runs once after
opening, and the controlled reboot.

Every operation is a function of the machine and of the answers it gets from
outside (the first failing step of each save, the slot callback, the reboot
request).  Its `Outcome` is the machine afterwards, the acts in the order in
which they happen, the saves it began with their success, and the returned
value.  A process that dies inside an operation has performed a prefix of the
acts.

## Main results

* `transition_result` — everything a transition can do.
* `allowed_value_lt` — an allowed transition goes to IDLE or up in the order of
  the states.
* `open_result`, `recoverSlot_result`, `reboot_result` — everything the other
  operations can do, in terms of transitions and saves.
-/

namespace EdgeGuard.Agent.StateMachine

open EdgeGuard.Base.CText EdgeGuard.Base.Json EdgeGuard.Base.DurableFile
open EdgeGuard.Agent.Model EdgeGuard.Agent.Identity EdgeGuard.Agent.Persistence

/-- `OtaStateMachine`.  The injected persistence hook is the `fault` argument
of each operation. -/
structure OtaStateMachine where
  current : OtaPersistentState
  path : Bytes
  blocked : Bool
  deriving DecidableEq, Repr

/-! ## Acts -/

/-- What a service callback does outside the process. -/
inductive Effect
  /-- `edgeguard-rk-abctl get-current`, with the slot it named. -/
  | getCurrent (reading : Option OtaSlot)
  /-- `rauc install` was started. -/
  | install (current : OtaPersistentState)
  /-- The health check of a candidate returned. -/
  | health (current : OtaPersistentState) (passed : Bool)
  /-- `rauc status mark-good` was started. -/
  | markGood (current : OtaPersistentState) (release : OtaRelease)
  /-- `rauc status mark-bad` was started. -/
  | markBad (current : OtaPersistentState)
  deriving DecidableEq, Repr

/-- What the agent does to its surroundings, in order. -/
inductive Act
  /-- The process starts. -/
  | start
  | file (act : FileAct Bytes)
  /-- The phase callback is called for this state. -/
  | phase (current : OtaPersistentState)
  | service (effect : Effect)
  /-- The reboot callback is called. -/
  | rebootRequest (machine : OtaStateMachine)
  deriving DecidableEq, Repr

/-- The result of one operation on the machine. -/
structure Outcome (α : Type) where
  machine : OtaStateMachine
  acts : List Act
  /-- The states whose save was begun, and whether it was completed. -/
  saves : List (OtaPersistentState × Bool)
  result : Except OtaError α

/-- An outcome with another returned value. -/
def Outcome.map {α β : Type} (f : α → β) (outcome : Outcome α) : Outcome β :=
  ⟨outcome.machine, outcome.acts, outcome.saves, outcome.result.map f⟩

/-- An outcome with the acts and saves that came before it. -/
def Outcome.after {α : Type} (acts : List Act) (saves : List (OtaPersistentState × Bool))
    (outcome : Outcome α) : Outcome α :=
  { outcome with acts := acts ++ outcome.acts, saves := saves ++ outcome.saves }

@[simp] theorem Outcome.map_machine {α β : Type} (f : α → β) (o : Outcome α) :
    (o.map f).machine = o.machine := rfl

@[simp] theorem Outcome.map_acts {α β : Type} (f : α → β) (o : Outcome α) :
    (o.map f).acts = o.acts := rfl

@[simp] theorem Outcome.map_saves {α β : Type} (f : α → β) (o : Outcome α) :
    (o.map f).saves = o.saves := rfl

section After

variable {α : Type} (acts : List Act) (saves : List (OtaPersistentState × Bool))
  (o : Outcome α)

@[simp] theorem Outcome.after_machine : (o.after acts saves).machine = o.machine := rfl

@[simp] theorem Outcome.after_acts : (o.after acts saves).acts = acts ++ o.acts := rfl

@[simp] theorem Outcome.after_saves : (o.after acts saves).saves = saves ++ o.saves := rfl

end After

/-- The operation returned success. -/
def Outcome.succeeded {α : Type} (outcome : Outcome α) : Prop :=
  ∃ value, outcome.result = .ok value

@[simp] theorem Outcome.succeeded_map {α β : Type} (f : α → β) (o : Outcome α) :
    (o.map f).succeeded ↔ o.succeeded := by
  cases h : o.result <;> simp [Outcome.succeeded, Outcome.map, h, Except.map]

@[simp] theorem Outcome.succeeded_after {α : Type} (acts : List Act)
    (saves : List (OtaPersistentState × Bool)) (o : Outcome α) :
    (o.after acts saves).succeeded ↔ o.succeeded := Iff.rfl

/-! ## Transitions -/

/-- The table `transitions`. -/
def transitions : List (OtaState × OtaState) :=
  [(.idle, .checkNetwork),
    (.checkNetwork, .checkUpdate),
    (.checkUpdate, .precheck),
    (.checkUpdate, .idle),
    (.precheck, .idle),
    (.precheck, .downloading),
    (.downloading, .verifyDownload),
    (.verifyDownload, .raucVerify),
    (.raucVerify, .installing),
    (.installing, .rebootPending),
    (.rebootPending, .bootNewSlot),
    (.bootNewSlot, .healthCheck),
    (.bootNewSlot, .rollback),
    (.healthCheck, .markGood),
    (.healthCheck, .rollback),
    (.markGood, .reportSuccess),
    (.reportSuccess, .idle)]

/-- `ota_transition_allowed`. -/
def otaTransitionAllowed (source target : OtaState) : Bool :=
  if (otaStateName source).isNone || (otaStateName target).isNone || source == target then
    false
  else if target == .error then true
  else transitions.contains (source, target)

def sameAttempt (a b : OtaPersistentState) : Bool :=
  a.attemptId == b.attemptId && a.targetVersion == b.targetVersion &&
    a.buildId == b.buildId && a.artifactUrl == b.artifactUrl &&
    a.expectedSha256 == b.expectedSha256 && a.expectedSize == b.expectedSize

/-- The attempt, the slots or the reboot context change where they must not. -/
def identityMutated (old next : OtaPersistentState) : Bool :=
  let reset := next.state == .idle
  (!reset && hasAttempt old && !sameAttempt old next) ||
    (!reset && old.previousSlot != .unknown &&
      (old.previousSlot != next.previousSlot ||
        old.expectedCandidateSlot != next.expectedCandidateSlot ||
        old.bootIdBefore != next.bootIdBefore)) ||
    (next.rebootContext != old.rebootContext && !reset &&
      !(old.state == .raucVerify && next.state == .installing &&
        next.rebootContext == .install) &&
      !(old.state == .healthCheck && next.state == .rollback &&
        next.rebootContext == .healthFailure))

/-- The decimal text of a state in the message of a rejected transition. -/
def stateNumber (state : OtaState) : Bytes := decimal state.value

/-- `ota_state_machine_transition`. -/
def otaStateMachineTransition (fault : Option IoFault) (machine : OtaStateMachine)
    (next : OtaPersistentState) : Outcome Unit :=
  if machine.blocked then
    ⟨machine, [], [], .error (otaErrorSet .persistenceFailed
      (ascii "State machine blocked; restart and inspect durable state"))⟩
  else if !otaTransitionAllowed machine.current.state next.state then
    ⟨machine, [], [], .error (otaErrorSet .illegalTransition
      (ascii "Rejected transition " ++ stateNumber machine.current.state ++ ascii " -> " ++
        stateNumber next.state))⟩
  else
    match otaPersistentStateValidate next with
    | .error error => ⟨machine, [], [], .error error⟩
    | .ok () =>
        if identityMutated machine.current next then
          ⟨machine, [], [], .error (otaErrorSet .illegalTransition
            (ascii "Attempt or reboot identity changed mid-attempt"))⟩
        else
          match otaPersistenceSave fault next with
          | (acts, .error error) =>
              ⟨{ machine with blocked := true }, acts.map .file, [(next, false)],
                .error error⟩
          | (acts, .ok ()) =>
              ⟨{ machine with current := next }, acts.map .file, [(next, true)], .ok ()⟩

/-- `ota_state_machine_fail`. -/
def otaStateMachineFail (fault : Option IoFault) (machine : OtaStateMachine)
    (code : OtaErrorCode) (message : Bytes) : Outcome Unit :=
  otaStateMachineTransition fault machine
    { machine.current with state := .error, lastError := otaErrorSet code message }

/-! ## Opening -/

/-- The zeroed record that `ota_state_machine_open` starts from. -/
def zeroState : OtaPersistentState := { otaPersistentStateInit with schemaVersion := 0 }

/-- `ota_state_machine_open`; `path` is `none` for a null pointer. -/
def otaStateMachineOpen (J : JsonParser) (path : Option Bytes)
    (readFault : Option OtaError) (fault : Option IoFault) (file : Option Bytes) :
    Outcome Unit :=
  match path with
  | none =>
      ⟨⟨zeroState, [], true⟩, [], [],
        .error (otaErrorSet .persistenceFailed (ascii "Invalid state file path"))⟩
  | some path =>
      if otaPathCap ≤ path.length then
        ⟨⟨zeroState, [], true⟩, [], [],
          .error (otaErrorSet .persistenceFailed (ascii "Invalid state file path"))⟩
      else
        match otaPersistenceLoad J path readFault file with
        | .error error => ⟨⟨zeroState, path, true⟩, [], [], .error error⟩
        | .ok (some current) => ⟨⟨current, path, false⟩, [], [], .ok ()⟩
        | .ok none =>
            match otaPersistenceSave fault otaPersistentStateInit with
            | (acts, .error error) =>
                ⟨⟨otaPersistentStateInit, path, true⟩, acts.map .file,
                  [(otaPersistentStateInit, false)], .error error⟩
            | (acts, .ok ()) =>
                ⟨⟨otaPersistentStateInit, path, false⟩, acts.map .file,
                  [(otaPersistentStateInit, true)], .ok ()⟩

/-! ## Recovery -/

/-- States whose work may be replayed after a restart. -/
def replaySafe (state : OtaState) : Bool :=
  [OtaState.idle, .error, .rollback, .checkNetwork, .checkUpdate, .precheck, .downloading,
    .verifyDownload, .raucVerify, .reportSuccess].contains state

/-- The error code of an interrupted phase. -/
def interruptedCode : OtaState → OtaErrorCode
  | .installing => .raucInstallFailed
  | .markGood => .raucMarkGoodFailed
  | .healthCheck => .healthFailed
  | _ => .rebootContextInvalid

/-- `recover_error`: a successful recovery reports the error it recorded. -/
def recoverError (fault : Option IoFault) (machine : OtaStateMachine)
    (code : OtaErrorCode) (message : Bytes) : Outcome (Option OtaError) :=
  (otaStateMachineFail fault machine code message).map fun _ =>
    some (otaErrorSet code message)

/-- The last part of `ota_state_machine_recover`: in state BOOT_NEW_SLOT, the
slot decides between health check and rollback. -/
def recoverSlot (fault : Option IoFault) (machine : OtaStateMachine)
    (slot : Option OtaSlot) : Outcome (Option OtaError) :=
  let proceed (next : OtaPersistentState) : Outcome (Option OtaError) :=
    (otaStateMachineTransition fault machine next).map fun _ => none
  if !(slot == some .a || slot == some .b) then
    recoverError fault machine .rebootContextInvalid
      (ascii "Current slot is unavailable or ambiguous")
  else if slot == some machine.current.expectedCandidateSlot then
    proceed { machine.current with state := .healthCheck }
  else if slot == some machine.current.previousSlot then
    proceed { machine.current with
      state := .rollback
      lastError := otaErrorSet .healthFailed
        (ascii "Candidate fell back to the previous known-good slot") }
  else
    recoverError fault machine .rebootContextInvalid
      (ascii "Current slot disagrees with reboot context")

/-- `ota_state_machine_recover`.  `slot` is the answer of the slot callback,
`none` when it fails or is a null pointer; `fault₁` belongs to the transition
to BOOT_NEW_SLOT, `fault₂` to the one after the slot is known. -/
def otaStateMachineRecover (fault₁ fault₂ : Option IoFault) (machine : OtaStateMachine)
    (bootIdNow : Bytes) (slot : Option OtaSlot) : Outcome (Option OtaError) :=
  if machine.blocked then
    ⟨machine, [], [], .error (otaErrorSet .persistenceFailed
      (ascii "Cannot recover blocked state machine"))⟩
  else if replaySafe machine.current.state then ⟨machine, [], [], .ok none⟩
  else if machine.current.state != .rebootPending &&
      machine.current.state != .bootNewSlot then
    recoverError fault₁ machine (interruptedCode machine.current.state)
      (ascii "Interrupted mutating/uncertain phase; automatic replay is disabled")
  else if !otaUuidValid bootIdNow true then
    recoverError fault₁ machine .rebootContextInvalid (ascii "Invalid current boot ID")
  else if bootIdNow == machine.current.bootIdBefore then
    if machine.current.state == .rebootPending then ⟨machine, [], [], .ok none⟩
    else
      recoverError fault₁ machine .rebootContextInvalid
        (ascii "BOOT_NEW_SLOT without a changed boot ID")
  else if machine.current.state == .rebootPending then
    let booted := otaStateMachineTransition fault₁ machine
      { machine.current with state := .bootNewSlot }
    match booted.result with
    | .error error => ⟨booted.machine, booted.acts, booted.saves, .error error⟩
    | .ok () =>
        (recoverSlot fault₂ booted.machine slot).after
          (booted.acts ++ [.service (.getCurrent slot)]) booted.saves
  else (recoverSlot fault₂ machine slot).after [.service (.getCurrent slot)] []

/-! ## Controlled reboot -/

/-- The state authorises a reboot. -/
def rebootAuthorised (s : OtaPersistentState) : Bool :=
  s.state == .rebootPending ||
    (s.state == .rollback && s.rebootContext == .healthFailure)

/-- The answer of the reboot callback; a failure without a typed error gets
one. -/
def requestResult : Except OtaError Unit → Except OtaError Unit
  | .ok () => .ok ()
  | .error error =>
      if error.code == .none then
        .error (otaErrorSet .rebootFailed (ascii "Controlled reboot request failed"))
      else .error error

/-- `ota_reboot_controlled`, as an outcome that leaves the machine alone. -/
def otaRebootControlled (fault : Option IoFault) (machine : OtaStateMachine)
    (request : Except OtaError Unit) : Outcome Unit :=
  if !rebootAuthorised machine.current then
    ⟨machine, [], [], .error (otaErrorSet .rebootContextInvalid
      (ascii "State does not authorize reboot"))⟩
  else
    match otaPersistenceSave fault machine.current with
    | (acts, .error error) =>
        ⟨machine, acts.map .file, [(machine.current, false)], .error error⟩
    | (acts, .ok ()) =>
        ⟨machine, acts.map .file ++ [.rebootRequest machine], [(machine.current, true)],
          requestResult request⟩

/-- What `ota_state_machine_reboot` does with a failure: a failed save blocks
the machine, a failed request is recorded unless an error already is. -/
def rebootFailure (fault : Option IoFault) (machine : OtaStateMachine)
    (failure : OtaError) : Outcome Unit :=
  if failure.code == .persistenceFailed then
    ⟨{ machine with blocked := true }, [], [], .error failure⟩
  else if failure.code == .rebootFailed && machine.current.lastError.code == .none then
    let failed := otaStateMachineFail fault machine failure.code failure.message
    match failed.result with
    | .error error => ⟨failed.machine, failed.acts, failed.saves, .error error⟩
    | .ok () => ⟨failed.machine, failed.acts, failed.saves, .error failure⟩
  else ⟨machine, [], [], .error failure⟩

/-- `ota_state_machine_reboot`; `fault₂` belongs to the save of a failed
request. -/
def otaStateMachineReboot (fault₁ fault₂ : Option IoFault) (machine : OtaStateMachine)
    (request : Except OtaError Unit) : Outcome Unit :=
  if machine.blocked then
    ⟨machine, [], [], .error (otaErrorSet .persistenceFailed
      (ascii "Reboot prohibited after persistence failure"))⟩
  else
    let controlled := otaRebootControlled fault₁ machine request
    match controlled.result with
    | .ok () => controlled
    | .error failure =>
        (rebootFailure fault₂ machine failure).after controlled.acts controlled.saves

/-! ## What the operations can do -/

/-- The tests a proposed state has passed when it comes to be saved. -/
structure Accepts (machine : OtaStateMachine) (next : OtaPersistentState) : Prop where
  unblocked : machine.blocked = false
  allowed : otaTransitionAllowed machine.current.state next.state = true
  valid : stateValid next = true
  kept : identityMutated machine.current next = false

/-- The acts of a completed save. -/
def savedActs (s : OtaPersistentState) : List Act :=
  [.file (.replace (serialize s)), .file .sync]

/-- The possible outcomes of saving a state. -/
inductive SaveResult (s : OtaPersistentState) :
    List (FileAct Bytes) × Except OtaError Unit → Prop
  | refused (error : OtaError) (code : error.code = .persistenceFailed) :
      SaveResult s ([], .error error)
  | uncertain (error : OtaError) (code : error.code = .persistenceFailed)
      (valid : stateValid s = true) :
      SaveResult s ([.replace (serialize s)], .error error)
  | done (valid : stateValid s = true) :
      SaveResult s ([.replace (serialize s), .sync], .ok ())

theorem save_result (fault : Option IoFault) (s : OtaPersistentState) :
    SaveResult s (otaPersistenceSave fault s) := by
  rcases save_cases fault s with ⟨error, hcode, h⟩ | ⟨hv, error, hcode, h⟩ | ⟨hv, h⟩
  · rw [h]
    exact .refused error hcode
  · rw [h]
    exact .uncertain error hcode hv
  · rw [h]
    exact .done hv

/-- The possible outcomes of proposing a state. -/
inductive TransitionResult (machine : OtaStateMachine) (next : OtaPersistentState) :
    Outcome Unit → Prop
  | refused (error : OtaError) :
      TransitionResult machine next ⟨machine, [], [], .error error⟩
  | failed (error : OtaError) (accepts : Accepts machine next) :
      TransitionResult machine next
        ⟨{ machine with blocked := true }, [], [(next, false)], .error error⟩
  | uncertain (error : OtaError) (accepts : Accepts machine next) :
      TransitionResult machine next
        ⟨{ machine with blocked := true }, [.file (.replace (serialize next))],
          [(next, false)], .error error⟩
  | done (accepts : Accepts machine next) :
      TransitionResult machine next
        ⟨{ machine with current := next }, savedActs next, [(next, true)], .ok ()⟩

/-- Every proposal ends in one of the four ways. -/
theorem transition_result (fault : Option IoFault) (machine : OtaStateMachine)
    (next : OtaPersistentState) :
    TransitionResult machine next (otaStateMachineTransition fault machine next) := by
  unfold otaStateMachineTransition otaPersistentStateValidate
  by_cases hb : machine.blocked = true
  · rw [if_pos hb]
    exact .refused _
  rw [if_neg hb]
  by_cases ha : otaTransitionAllowed machine.current.state next.state = true
  · by_cases hv : stateValid next = true
    · by_cases hk : identityMutated machine.current next = true
      · simp only [ha, hv, hk, Bool.not_true, Bool.false_eq_true, if_false, if_true]
        exact .refused _
      · have haccepts : Accepts machine next :=
          ⟨by simpa using hb, ha, hv, by simpa using hk⟩
        have hsave := save_result fault next
        simp only [ha, hv, hk, Bool.not_true, Bool.false_eq_true, if_false, if_true]
        generalize otaPersistenceSave fault next = saved at hsave
        cases hsave with
        | refused error _ => exact .failed error haccepts
        | uncertain error _ _ => exact .uncertain error haccepts
        | done _ => exact .done haccepts
    · simp only [ha, hv, Bool.not_true, Bool.false_eq_true, if_false]
      exact .refused _
  · simp only [ha, Bool.not_false, if_true]
    exact .refused _

/-- The possible outcomes of opening the machine on a file: nothing usable, a
first state that could not be saved, the state found in the file, or a first
state written to it. -/
inductive OpenResult (J : JsonParser) (file : Option Bytes) :
    Option Bytes → Outcome Unit → Prop
  | refused (path : Option Bytes) (machine : OtaStateMachine) (error : OtaError)
      (hblocked : machine.blocked = true) :
      OpenResult J file path ⟨machine, [], [], .error error⟩
  | failed (path : Bytes) (error : OtaError) (hfile : file = none) :
      OpenResult J file (some path)
        ⟨⟨otaPersistentStateInit, path, true⟩, [], [(otaPersistentStateInit, false)],
          .error error⟩
  | uncertain (path : Bytes) (error : OtaError) (hfile : file = none) :
      OpenResult J file (some path)
        ⟨⟨otaPersistentStateInit, path, true⟩,
          [.file (.replace (serialize otaPersistentStateInit))],
          [(otaPersistentStateInit, false)], .error error⟩
  | loaded (path data : Bytes) (current : OtaPersistentState) (hfile : file = some data)
      (hparse : parseState J data = some current) :
      OpenResult J file (some path) ⟨⟨current, path, false⟩, [], [], .ok ()⟩
  | created (path : Bytes) (hfile : file = none) :
      OpenResult J file (some path)
        ⟨⟨otaPersistentStateInit, path, false⟩, savedActs otaPersistentStateInit,
          [(otaPersistentStateInit, true)], .ok ()⟩

/-- A state that was loaded is the one that the file spells. -/
private theorem load_some {J : JsonParser} {path : Bytes} {readFault : Option OtaError}
    {file : Option Bytes} {s : OtaPersistentState}
    (h : otaPersistenceLoad J path readFault file = .ok (some s)) :
    ∃ data, file = some data ∧ parseState J data = some s := by
  unfold otaPersistenceLoad otaFileRead at h
  cases readFault with
  | some error => simp at h
  | none =>
      cases file with
      | none => simp at h
      | some data =>
          simp only at h
          split at h
          · simp_all
          · simp_all
          · rename_i data' hread
            split at hread
            · cases hread
            · cases hread
              split at h
              · rename_i t hparse
                cases h
                exact ⟨data, rfl, hparse⟩
              · cases h

/-- Only a missing file is loaded as none. -/
private theorem load_none {J : JsonParser} {path : Bytes} {readFault : Option OtaError}
    {file : Option Bytes} (h : otaPersistenceLoad J path readFault file = .ok none) :
    file = none := by
  unfold otaPersistenceLoad otaFileRead at h
  cases readFault with
  | some error => simp at h
  | none =>
      cases file with
      | none => rfl
      | some data =>
          simp only at h
          split at h
          · simp_all
          · rename_i hread
            split at hread <;> cases hread
          · split at h <;> cases h

/-- Every opening ends in one of the five ways. -/
theorem open_result (J : JsonParser) (path : Option Bytes) (readFault : Option OtaError)
    (fault : Option IoFault) (file : Option Bytes) :
    OpenResult J file path (otaStateMachineOpen J path readFault fault file) := by
  unfold otaStateMachineOpen
  cases path with
  | none => exact .refused _ _ _ rfl
  | some path =>
      simp only
      split
      · exact .refused _ _ _ rfl
      · split
        · exact .refused _ _ _ rfl
        · rename_i current hload
          obtain ⟨data, hfile, hparse⟩ := load_some hload
          exact .loaded path data current hfile hparse
        · rename_i hload
          have hfile := load_none hload
          have hsave := save_result fault otaPersistentStateInit
          generalize otaPersistenceSave fault otaPersistentStateInit = saved at hsave
          cases hsave with
          | refused error _ => exact .failed path error hfile
          | uncertain error _ _ => exact .uncertain path error hfile
          | done _ => exact .created path hfile

/-- An allowed transition resets to IDLE or goes up in the order of the
states, so within an attempt no state is ever entered twice. -/
theorem allowed_value_lt {source target : OtaState}
    (h : otaTransitionAllowed source target = true) :
    target = .idle ∨ source.value < target.value := by
  cases source <;> cases target <;> first | exact .inl rfl | (exact .inr (by decide)) | cases h

/-- The state that `ota_state_machine_fail` proposes. -/
def failedState (machine : OtaStateMachine) (code : OtaErrorCode) (message : Bytes) :
    OtaPersistentState :=
  { machine.current with state := .error, lastError := otaErrorSet code message }

theorem fail_result (fault : Option IoFault) (machine : OtaStateMachine)
    (code : OtaErrorCode) (message : Bytes) :
    TransitionResult machine (failedState machine code message)
      (otaStateMachineFail fault machine code message) :=
  transition_result fault machine _

/-- The possible outcomes of the slot decision: each proposes one state. -/
inductive SlotResult (machine : OtaStateMachine) (slot : Option OtaSlot) :
    Outcome (Option OtaError) → Prop
  | failed (code : OtaErrorCode) (message : Bytes) (outcome : Outcome Unit)
      (value : Option OtaError)
      (result : TransitionResult machine (failedState machine code message) outcome) :
      SlotResult machine slot (outcome.map fun _ => value)
  | candidate (outcome : Outcome Unit)
      (hslot : slot = some machine.current.expectedCandidateSlot)
      (result : TransitionResult machine
        { machine.current with state := .healthCheck } outcome) :
      SlotResult machine slot (outcome.map fun _ => none)
  | previous (error : OtaError) (outcome : Outcome Unit)
      (hslot : slot = some machine.current.previousSlot)
      (result : TransitionResult machine
        { machine.current with state := .rollback, lastError := error } outcome) :
      SlotResult machine slot (outcome.map fun _ => none)

/-- How recovery goes on behind BOOT_NEW_SLOT. -/
theorem recoverSlot_result (fault : Option IoFault) (machine : OtaStateMachine)
    (slot : Option OtaSlot) : SlotResult machine slot (recoverSlot fault machine slot) := by
  unfold recoverSlot recoverError
  simp only
  split
  · exact .failed _ _ _ _ (fail_result _ _ _ _)
  split
  · rename_i h
    exact .candidate _ (beq_iff_eq.mp h) (transition_result _ _ _)
  split
  · rename_i h
    exact .previous _ _ (beq_iff_eq.mp h) (transition_result _ _ _)
  · exact .failed _ _ _ _ (fail_result _ _ _ _)

/-- The possible outcomes of a recovery. -/
inductive RecoverResult (machine : OtaStateMachine) (bootIdNow : Bytes)
    (slot : Option OtaSlot) : Outcome (Option OtaError) → Prop
  /-- The machine is blocked. -/
  | refused (error : OtaError) (hblocked : machine.blocked = true) :
      RecoverResult machine bootIdNow slot ⟨machine, [], [], .error error⟩
  /-- Replay-safe work resumes from its durable phase. -/
  | resumed (hsafe : replaySafe machine.current.state = true) :
      RecoverResult machine bootIdNow slot ⟨machine, [], [], .ok none⟩
  /-- The reboot is still to be requested. -/
  | waiting (hstate : machine.current.state = .rebootPending)
      (hboot : bootIdNow = machine.current.bootIdBefore) :
      RecoverResult machine bootIdNow slot ⟨machine, [], [], .ok none⟩
  /-- The attempt ends in ERROR. -/
  | failed (code : OtaErrorCode) (message : Bytes) (outcome : Outcome Unit)
      (value : Option OtaError)
      (result : TransitionResult machine (failedState machine code message) outcome) :
      RecoverResult machine bootIdNow slot (outcome.map fun _ => value)
  /-- The step to BOOT_NEW_SLOT could not be saved. -/
  | stuck (outcome : Outcome Unit) (error : OtaError)
      (hstate : machine.current.state = .rebootPending)
      (result : TransitionResult machine
        { machine.current with state := .bootNewSlot } outcome)
      (herror : outcome.result = .error error) :
      RecoverResult machine bootIdNow slot
        ⟨outcome.machine, outcome.acts, outcome.saves, .error error⟩
  /-- The slot decides, after the step to BOOT_NEW_SLOT. -/
  | booted (outcome : Outcome (Option OtaError))
      (hstate : machine.current.state = .rebootPending)
      (hboot : bootIdNow ≠ machine.current.bootIdBefore)
      (haccepts : Accepts machine { machine.current with state := .bootNewSlot })
      (result : SlotResult
        { machine with current := { machine.current with state := .bootNewSlot } } slot
        outcome) :
      RecoverResult machine bootIdNow slot
        (outcome.after (savedActs { machine.current with state := .bootNewSlot } ++
          [.service (.getCurrent slot)]) [({ machine.current with state := .bootNewSlot }, true)])
  /-- The slot decides, BOOT_NEW_SLOT being the durable state already. -/
  | found (outcome : Outcome (Option OtaError))
      (hstate : machine.current.state = .bootNewSlot)
      (hboot : bootIdNow ≠ machine.current.bootIdBefore)
      (result : SlotResult machine slot outcome) :
      RecoverResult machine bootIdNow slot (outcome.after [.service (.getCurrent slot)] [])

/-- Every recovery ends in one of the ways of `RecoverResult`. -/
theorem recover_result (fault₁ fault₂ : Option IoFault) (machine : OtaStateMachine)
    (bootIdNow : Bytes) (slot : Option OtaSlot) :
    RecoverResult machine bootIdNow slot
      (otaStateMachineRecover fault₁ fault₂ machine bootIdNow slot) := by
  unfold otaStateMachineRecover recoverError
  split
  · exact .refused _ ‹_›
  split
  · exact .resumed ‹_›
  split
  · exact .failed _ _ _ _ (fail_result _ _ _ _)
  rename_i hstate
  split
  · exact .failed _ _ _ _ (fail_result _ _ _ _)
  split
  · rename_i hboot
    split
    · rename_i hpending
      exact .waiting (beq_iff_eq.mp hpending) (beq_iff_eq.mp hboot)
    · exact .failed _ _ _ _ (fail_result _ _ _ _)
  rename_i hboot
  have hboot' : bootIdNow ≠ machine.current.bootIdBefore := by simpa using hboot
  split
  · rename_i hpending
    have hresult := transition_result fault₁ machine
      { machine.current with state := .bootNewSlot }
    generalize otaStateMachineTransition fault₁ machine
      { machine.current with state := .bootNewSlot } = booted at hresult
    cases hresult with
    | refused error => exact .stuck _ error (beq_iff_eq.mp hpending) (.refused error) rfl
    | failed error haccepts =>
        exact .stuck _ error (beq_iff_eq.mp hpending) (.failed error haccepts) rfl
    | uncertain error haccepts =>
        exact .stuck _ error (beq_iff_eq.mp hpending) (.uncertain error haccepts) rfl
    | done haccepts =>
        exact .booted _ (beq_iff_eq.mp hpending) hboot' haccepts (recoverSlot_result _ _ _)
  · rename_i hpending
    have hnew : machine.current.state = .bootNewSlot := by
      simp only [Bool.and_eq_true, bne_iff_ne, not_and, not_not] at hstate
      exact hstate (by simpa using hpending)
    exact .found _ hnew hboot' (recoverSlot_result _ _ _)

/-- The possible outcomes of a controlled reboot. -/
inductive RebootResult (machine : OtaStateMachine) : Outcome Unit → Prop
  /-- The machine is blocked or the state does not authorise a reboot. -/
  | refused (error : OtaError) : RebootResult machine ⟨machine, [], [], .error error⟩
  /-- The save failed before its rename. -/
  | failed (error : OtaError) (hunblocked : machine.blocked = false)
      (hauth : rebootAuthorised machine.current = true) :
      RebootResult machine
        ⟨{ machine with blocked := true }, [], [(machine.current, false)], .error error⟩
  /-- The save failed after its rename. -/
  | uncertain (error : OtaError) (hunblocked : machine.blocked = false)
      (hauth : rebootAuthorised machine.current = true)
      (hvalid : stateValid machine.current = true) :
      RebootResult machine
        ⟨{ machine with blocked := true }, [.file (.replace (serialize machine.current))],
          [(machine.current, false)], .error error⟩
  /-- The request was made. -/
  | requested (blocked : Bool) (result : Except OtaError Unit)
      (hunblocked : machine.blocked = false)
      (hauth : rebootAuthorised machine.current = true)
      (hvalid : stateValid machine.current = true) :
      RebootResult machine
        ⟨{ machine with blocked },
          savedActs machine.current ++ [.rebootRequest machine], [(machine.current, true)],
          result⟩
  /-- The request failed and the failure is recorded. -/
  | recorded (error : OtaError) (code : OtaErrorCode) (message : Bytes)
      (outcome : Outcome Unit) (hunblocked : machine.blocked = false)
      (hauth : rebootAuthorised machine.current = true)
      (hvalid : stateValid machine.current = true)
      (result : TransitionResult machine (failedState machine code message) outcome) :
      RebootResult machine
        ⟨outcome.machine,
          savedActs machine.current ++ [.rebootRequest machine] ++ outcome.acts,
          [(machine.current, true)] ++ outcome.saves, .error error⟩

/-- The outcomes of a failed request. -/
private theorem rebootFailure_result (fault : Option IoFault) (machine : OtaStateMachine)
    (failure : OtaError) (hunblocked : machine.blocked = false)
    (hauth : rebootAuthorised machine.current = true)
    (hvalid : stateValid machine.current = true) :
    RebootResult machine
      ((rebootFailure fault machine failure).after
        (savedActs machine.current ++ [.rebootRequest machine])
        [(machine.current, true)]) := by
  unfold rebootFailure
  split
  · exact .requested true _ hunblocked hauth hvalid
  split
  · have hfail := fail_result fault machine failure.code failure.message
    simp only
    split
    · exact .recorded _ _ _ (otaStateMachineFail fault machine _ _) hunblocked hauth
        hvalid hfail
    · exact .recorded _ _ _ (otaStateMachineFail fault machine _ _) hunblocked hauth
        hvalid hfail
  · exact .requested machine.blocked (.error failure) hunblocked hauth hvalid

/-- Every reboot ends in one of the ways of `RebootResult`. -/
theorem reboot_result (fault₁ fault₂ : Option IoFault) (machine : OtaStateMachine)
    (request : Except OtaError Unit) :
    RebootResult machine (otaStateMachineReboot fault₁ fault₂ machine request) := by
  unfold otaStateMachineReboot
  by_cases hb : machine.blocked = true
  · rw [if_pos hb]
    exact .refused _
  have hunblocked : machine.blocked = false := by simpa using hb
  rw [if_neg hb]
  unfold otaRebootControlled
  by_cases hauth : rebootAuthorised machine.current = true
  · have hsave := save_result fault₁ machine.current
    simp only [hauth, Bool.not_true, Bool.false_eq_true, if_false]
    generalize otaPersistenceSave fault₁ machine.current = saved at hsave
    cases hsave with
    | refused error hcode =>
        simp only [rebootFailure, hcode, beq_self_eq_true, if_true]
        exact .failed error hunblocked hauth
    | uncertain error hcode hvalid =>
        simp only [rebootFailure, hcode, beq_self_eq_true, if_true]
        exact .uncertain error hunblocked hauth hvalid
    | done hvalid =>
        cases requestResult request with
        | ok value => exact .requested machine.blocked (.ok ()) hunblocked hauth hvalid
        | error failure => exact rebootFailure_result _ _ _ hunblocked hauth hvalid
  · simp only [hauth, Bool.not_false, if_true]
    -- an unauthorised request is neither a persistence nor a reboot failure
    exact .refused _

end EdgeGuard.Agent.StateMachine
