import EdgeGuard.Base.Trace
import EdgeGuard.Agent.AttemptDiscipline
import EdgeGuard.Agent.Services

/-!
# The agent over process lifetimes, crashes and reboots

`main.c`: the start of the process up to the run loop, and one pass of the
loop.  Both are functions of the answers they get from outside; both yield the
acts in the order in which they happen and how the process stands afterwards.

The device performs the acts one by one and keeps a log of them with the
circumstances of each.  A system step is a complete start or pass, a start or
pass that dies after any number of its acts, or a power cut, which may bring
back any directory entry since the last sync and begins a new boot.

## Main results

* `Step` — what can happen to the device.
* `Reach` — the states of all runs.
-/

namespace EdgeGuard.Agent.Run

open EdgeGuard.Base.CText EdgeGuard.Base.Json EdgeGuard.Base.DurableFile EdgeGuard.Base
open EdgeGuard.Agent.Model EdgeGuard.Agent.Persistence EdgeGuard.Agent.StateMachine
open EdgeGuard.Agent.Services

/-- How the process stands. -/
inductive Proc
  | off
  | exited (code : Nat) (error : OtaError)
  /-- At the head of the run loop. -/
  | running (machine : OtaStateMachine) (release : OtaRelease) (firstPoll : Bool)

/-- The acts of a part of the program and how the process stands after it. -/
structure Progress where
  acts : List Act
  proc : Proc

/-- Progress with the acts that came before it. -/
def Progress.after (acts : List Act) (p : Progress) : Progress :=
  { p with acts := acts ++ p.acts }

@[simp] theorem Progress.after_acts (acts : List Act) (p : Progress) :
    (p.after acts).acts = acts ++ p.acts := rfl

@[simp] theorem Progress.after_proc (acts : List Act) (p : Progress) :
    (p.after acts).proc = p.proc := rfl

/-- The process exits with what the controlled reboot returned. -/
def exitReboot (outcome : Outcome Unit) : Progress :=
  match outcome.result with
  | .ok () => ⟨outcome.acts, .exited 0 .zero⟩
  | .error error => ⟨outcome.acts, .exited 1 error⟩

/-- The state is ROLLBACK after a failed health check. -/
def rollbackPending (s : OtaPersistentState) : Bool :=
  s.state == .rollback && s.rebootContext == .healthFailure

/-! ## The start of the process -/

/-- The answers from outside during a start. -/
structure StartAnswers where
  /-- Configuration, storage, lock and device identity. -/
  prepare : Except OtaError Unit
  path : Bytes
  readFault : Option OtaError
  openFault : Option IoFault
  services : Except OtaError Unit
  release : Option OtaRelease
  bootId : Except OtaError Bytes
  slot : Option OtaSlot
  recoverFault₁ : Option IoFault
  recoverFault₂ : Option IoFault
  rollbackSlot : Option OtaSlot
  rebootFault₁ : Option IoFault
  rebootFault₂ : Option IoFault
  request : Except OtaError Unit
  control : Except OtaError Unit
  refresh : Except OtaError Unit

/-- From `ota_control_open` to the head of the loop in `run`. -/
def enterRun (answers : StartAnswers) (machine : OtaStateMachine) (release : OtaRelease) :
    Progress :=
  match answers.control with
  | .error error => ⟨[], .exited 1 error⟩
  | .ok () =>
      if machine.current.state == .idle then ⟨[], .running machine release true⟩
      else
        match answers.refresh with
        | .error error => ⟨[], .exited 1 error⟩
        | .ok () => ⟨[], .running machine release true⟩

/-- The part of `main` after a successful recovery: a pending rollback reboots
from the candidate slot and only reports from the previous one. -/
def resolveRollback (answers : StartAnswers) (machine : OtaStateMachine)
    (release : OtaRelease) : Progress :=
  if rollbackPending machine.current then
    let slot := answers.rollbackSlot
    let look : List Act := [.service (.getCurrent slot)]
    if !(slot == some .a || slot == some .b) then
      ⟨look, .exited 1 (otaErrorSet .rebootContextInvalid
        (ascii "Cannot resolve persisted health rollback"))⟩
    else if slot == some machine.current.expectedCandidateSlot then
      (exitReboot (otaStateMachineReboot answers.rebootFault₁ answers.rebootFault₂ machine
        answers.request)).after look
    else if slot != some machine.current.previousSlot then
      ⟨look, .exited 1 (otaErrorSet .rebootContextInvalid
        (ascii "Persisted rollback slot identity is inconsistent"))⟩
    else (enterRun answers machine release).after look
  else enterRun answers machine release

/-- The part of `main` after a successful opening. -/
def mainOpened (answers : StartAnswers) (machine : OtaStateMachine) : Progress :=
  match answers.services with
  | .error error => ⟨[], .exited 1 error⟩
  | .ok () =>
      match answers.release with
      | none =>
          ⟨[], .exited 1 (otaErrorSet .localReleaseInvalid
            (ascii "Missing or invalid local release identity"))⟩
      | some release =>
          match answers.bootId with
          | .error error => ⟨[], .exited 1 error⟩
          | .ok bootId =>
              let recovered := otaStateMachineRecover answers.recoverFault₁
                answers.recoverFault₂ machine bootId answers.slot
              match recovered.result with
              | .error error => ⟨recovered.acts, .exited 1 error⟩
              | .ok _ =>
                  (resolveRollback answers recovered.machine release).after recovered.acts

/-- `main` up to the head of the run loop, on a state file. -/
def mainStart (J : JsonParser) (answers : StartAnswers) (file : Option Bytes) : Progress :=
  match answers.prepare with
  | .error error => ⟨[], .exited 1 error⟩
  | .ok () =>
      let opened := otaStateMachineOpen J (some answers.path) answers.readFault
        answers.openFault file
      match opened.result with
      | .error error => ⟨opened.acts, .exited 1 error⟩
      | .ok () => (mainOpened answers opened.machine).after opened.acts

/-! ## One pass of the run loop -/

/-- The answers from outside during one pass. -/
structure LoopAnswers where
  stopping : Bool
  idleWait : Except OtaError Unit
  /-- A signal came before the poll. -/
  stoppedWaiting : Bool
  refresh : Except OtaError Unit
  guardSlot : Option OtaSlot
  reply : PhaseReply
  retryWait : Except OtaError Unit
  attemptId : Except OtaError Bytes
  slot : Option OtaSlot
  bootId : Except OtaError Bytes
  fault : Option IoFault
  rebootFault₁ : Option IoFault
  rebootFault₂ : Option IoFault
  request : Except OtaError Unit

/-- `phase_may_retry`. -/
def phaseMayRetry (state : OtaState) : Bool :=
  [OtaState.checkUpdate, .downloading, .verifyDownload, .raucVerify, .reportSuccess, .error,
    .rollback].contains state

def terminal (state : OtaState) : Bool := state == .error || state == .rollback

section Pass

variable (answers : LoopAnswers) (machine : OtaStateMachine) (release : OtaRelease)
  (firstPoll : Bool)

/-- `ota_state_machine_fail`, and on with the loop. -/
def recordFailure (error : OtaError) : Progress :=
  let failed := otaStateMachineFail answers.fault machine error.code error.message
  match failed.result with
  | .error error => ⟨failed.acts, .exited 1 error⟩
  | .ok () => ⟨failed.acts, .running failed.machine release firstPoll⟩

/-- The end of a pass: the transition, and the reboot after a rollback. -/
def proposeNext (next : OtaPersistentState) : Progress :=
  let moved := otaStateMachineTransition answers.fault machine next
  match moved.result with
  | .error error => ⟨moved.acts, .exited 1 error⟩
  | .ok () =>
      if rollbackPending moved.machine.current then
        (exitReboot (otaStateMachineReboot answers.rebootFault₁ answers.rebootFault₂
          moved.machine answers.request)).after moved.acts
      else ⟨moved.acts, .running moved.machine release firstPoll⟩

/-- The error a terminal state exits with. -/
def terminalError (otherwise : OtaError) : OtaError :=
  if machine.current.lastError.code != .none then machine.current.lastError else otherwise

/-- The phase did not advance. -/
def phaseFailed (failure : OtaError) : Progress :=
  let error := if failure.code == .none then
      otaErrorSet .illegalTransition (ascii "Phase failed without a typed error")
    else failure
  if terminal machine.current.state then ⟨[], .exited 2 (terminalError machine error)⟩
  else if machine.current.state == .reportSuccess then ⟨[], .exited 1 error⟩
  else recordFailure answers machine release firstPoll error

/-- The pre-install capture of slot and boot identity. -/
def captureInstall (next : OtaPersistentState) : Progress :=
  let look : List Act := [.service (.getCurrent answers.slot)]
  let failure := otaErrorSet .rebootContextInvalid
    (ascii "Cannot rigorously capture pre-install slot and boot identity")
  match answers.slot, answers.bootId with
  | some slot, .ok bootId =>
      if slot == .a || slot == .b then
        (proposeNext answers machine release firstPoll
          { next with
            bootIdBefore := bootId
            previousSlot := slot
            expectedCandidateSlot := if slot == .a then .b else .a
            rebootContext := .install }).after look
      else (recordFailure answers machine release firstPoll failure).after look
  | _, _ => (recordFailure answers machine release firstPoll failure).after look

/-- The phase proposed its next state. -/
def phaseAdvanced (next : OtaPersistentState) : Progress :=
  let state := machine.current.state
  if terminal state then ⟨[], .exited 2 (terminalError machine .zero)⟩
  else if state == .checkUpdate && next.state == .precheck then
    match answers.attemptId with
    | .error error => ⟨[], .exited 1 error⟩
    | .ok attemptId =>
        proposeNext answers machine release firstPoll { next with attemptId }
  else if state == .raucVerify && next.state == .installing then
    captureInstall answers machine release firstPoll next
  else if state == .healthCheck && next.state == .rollback then
    proposeNext answers machine release firstPoll
      { next with
        rebootContext := .healthFailure
        lastError := if next.lastError.code == .none then
            otaErrorSet .healthFailed
              (ascii "Candidate failed health checks; mark-bad succeeded")
          else next.lastError }
  else if next.state == .idle then
    proposeNext answers machine release firstPoll otaPersistentStateInit
  else proposeNext answers machine release firstPoll next

/-- The call of the phase callback and what follows from its result. -/
def phasePass : Progress :=
  let reply := answers.reply
  let state := machine.current.state
  let rest :=
    match reply.result with
    | .advance => phaseAdvanced answers machine release firstPoll reply.next
    | .hardFailure => phaseFailed answers machine release firstPoll reply.error
    | .retry =>
        if phaseMayRetry state then
          match answers.retryWait with
          | .error error => ⟨[], .exited 1 error⟩
          | .ok () => ⟨[], .running machine release firstPoll⟩
        else
          phaseFailed answers machine release firstPoll (otaErrorSet .illegalTransition
            (ascii "State " ++ (otaStateName state).getD [] ++
              ascii " is not replay-safe"))
  rest.after (.phase machine.current :: reply.effects.map .service)

def idlePass : Progress :=
  match if firstPoll then .ok () else answers.idleWait with
  | .error error => ⟨[], .exited 1 error⟩
  | .ok () =>
      if answers.stoppedWaiting then ⟨[], .exited 0 .zero⟩
      else
        match answers.refresh with
        | .error error => ⟨[], .exited 1 error⟩
        | .ok () =>
            proposeNext answers machine release false
              { machine.current with state := .checkNetwork }

/-- The slot is checked before the callback is called in MARK_GOOD. -/
def markGoodPass : Progress :=
  let look : List Act := [.service (.getCurrent answers.guardSlot)]
  if answers.guardSlot != some machine.current.expectedCandidateSlot then
    (recordFailure answers machine release firstPoll (otaErrorSet .identityAmbiguous
      (ascii "Current slot is not the expected candidate before mark-good"))).after look
  else (phasePass answers machine release firstPoll).after look

/-- One pass of the loop in `run`. -/
def runPass : Progress :=
  if answers.stopping then ⟨[], .exited 0 .zero⟩
  else
    match machine.current.state with
    | .rebootPending =>
        exitReboot (otaStateMachineReboot answers.rebootFault₁ answers.rebootFault₂ machine
          answers.request)
    | .idle => idlePass answers machine release firstPoll
    | .markGood => markGoodPass answers machine release firstPoll
    | _ => phasePass answers machine release firstPoll

end Pass

/-! ## The device -/

/-- An act and the circumstances in which it was begun. -/
structure Entry where
  lifetime : Nat
  boot : Bytes
  /-- The last answer of `get-current` in this lifetime. -/
  reading : Option OtaSlot
  /-- The running release, as loaded in this lifetime. -/
  release : Option OtaRelease
  medium : Medium Bytes
  act : Act

structure Device where
  medium : Medium Bytes
  boot : Bytes
  lifetime : Nat
  reading : Option OtaSlot
  release : Option OtaRelease
  /-- The attempt ids that the kernel has generated. -/
  issued : List Bytes
  /-- What has been done, newest first. -/
  log : List Entry

/-- The log entry of an act begun now. -/
def Device.entry (d : Device) (act : Act) : Entry :=
  ⟨d.lifetime, d.boot, d.reading, d.release, d.medium, act⟩

def Device.perform (d : Device) (act : Act) : Device :=
  { d with
    log := d.entry act :: d.log
    medium := match act with
      | .file act => d.medium.act act
      | _ => d.medium
    reading := match act with
      | .service (.getCurrent reading) => reading
      | _ => d.reading }

abbrev Device.run (d : Device) (acts : List Act) : Device := Trace.run Device.perform d acts

/-- A new process lifetime. -/
def Device.begin (d : Device) (release : Option OtaRelease) : Device :=
  { d with lifetime := d.lifetime + 1, reading := none, release }

/-- A generated attempt id counts as issued. -/
def Device.issue (d : Device) : Except OtaError Bytes → Device
  | .ok id => { d with issued := id :: d.issued }
  | .error _ => d

structure Sys where
  device : Device
  proc : Proc

/-- The process is not there.  The lock on the state directory keeps a second
process out while one is. -/
def Proc.stopped : Proc → Prop
  | .running _ _ _ => False
  | _ => True

/-- The kernel names the boot truthfully. -/
def Truthful (d : Device) (bootId : Except OtaError Bytes) : Prop :=
  ∀ id, bootId = .ok id → id = d.boot

/-- The kernel has not generated the attempt id before. -/
def Fresh (d : Device) (attemptId : Except OtaError Bytes) : Prop :=
  ∀ id, attemptId = .ok id → id ∉ d.issued

/-- The acts of a start on a device. -/
def startOn (J : JsonParser) (answers : StartAnswers) (d : Device) : Progress :=
  (mainStart J answers d.medium.live).after [.start]

inductive Step (J : JsonParser) (P : PhaseCallback) : Sys → Sys → Prop
  | start {d : Device} {proc : Proc} (answers : StartAnswers) (hoff : proc.stopped)
      (hboot : Truthful d answers.bootId) :
      Step J P ⟨d, proc⟩
        ⟨(d.begin answers.release).run (startOn J answers d).acts, (startOn J answers d).proc⟩
  /-- The process dies during its start. -/
  | startCut {d : Device} {proc : Proc} (answers : StartAnswers) (n : Nat)
      (hoff : proc.stopped) (hboot : Truthful d answers.bootId) :
      Step J P ⟨d, proc⟩
        ⟨(d.begin answers.release).run ((startOn J answers d).acts.take n), .off⟩
  | pass {d : Device} {machine : OtaStateMachine} {release : OtaRelease} {firstPoll : Bool}
      (answers : LoopAnswers) (hreply : P.replies release machine.current answers.reply)
      (hboot : Truthful d answers.bootId) (hfresh : Fresh d answers.attemptId) :
      Step J P ⟨d, .running machine release firstPoll⟩
        ⟨(d.issue answers.attemptId).run (runPass answers machine release firstPoll).acts,
          (runPass answers machine release firstPoll).proc⟩
  /-- The process dies during a pass. -/
  | passCut {d : Device} {machine : OtaStateMachine} {release : OtaRelease}
      {firstPoll : Bool} (answers : LoopAnswers) (n : Nat)
      (hreply : P.replies release machine.current answers.reply)
      (hboot : Truthful d answers.bootId) (hfresh : Fresh d answers.attemptId) :
      Step J P ⟨d, .running machine release firstPoll⟩
        ⟨(d.issue answers.attemptId).run
          ((runPass answers machine release firstPoll).acts.take n), .off⟩
  /-- A power cut or a reboot of the device, whatever the process was doing. -/
  | powerCut {d : Device} {proc : Proc} (medium : Medium Bytes) (boot : Bytes)
      (hcut : Medium.Cut d.medium medium) :
      Step J P ⟨d, proc⟩ ⟨{ d with medium, boot }, .off⟩

/-- The device before the first run that is followed: nothing is logged, and
the attempts the state file may name have had their ids issued. -/
structure Initial (J : JsonParser) (d : Device) : Prop where
  log : d.log = []
  issued : ∀ data s, some data ∈ d.medium.contents → parseState J data = some s →
    s.attemptId ≠ [] → s.attemptId ∈ d.issued

inductive Reach (J : JsonParser) (P : PhaseCallback) : Sys → Prop
  | init {d : Device} (h : Initial J d) : Reach J P ⟨d, .off⟩
  | step {a b : Sys} (h : Reach J P a) (hstep : Step J P a b) : Reach J P b

end EdgeGuard.Agent.Run
