import EdgeGuard.Agent.Run
import EdgeGuard.Base.Potential

/-!
# An update in a device that works

`Run` lets everything outside the process answer arbitrarily.  Here the same
starts and passes run in a device that works: two slots with a release in each,
an installation that writes the other slot and makes it the primary one, a boot
of the primary slot, a kernel that names boots and attempts afresh, and a
server that offers one release.

A start, a pass, or the boot behind a reboot request is a move.  What may come
between the moves is a hindrance: a crash at any act of a start or a pass, a
power cut, a transport that fails and may be retried, a signal, a restart
before the requested reboot.  The only limit on crashes and power cuts is that
they do not leave INSTALLING, HEALTH_CHECK or MARK_GOOD in the file; recovery
ends such an attempt in ERROR by design.

## Main results

* `Move.step`, `Hindrance.step` — every step is one of `Run.Step`.
* `move_exists`, `run_exists` — a move can always be made.
-/

namespace EdgeGuard.Agent.FairRun

open EdgeGuard.Base EdgeGuard.Base.CText EdgeGuard.Base.Json EdgeGuard.Base.JsonObject
open EdgeGuard.Base.DurableFile
open EdgeGuard.Agent.Model EdgeGuard.Agent.Identity EdgeGuard.Agent.Persistence
open EdgeGuard.Agent.Release EdgeGuard.Agent.StateMachine EdgeGuard.Agent.Services
open EdgeGuard.Agent.Run

/-! ## The update -/

/-- The slot that is not this one. -/
def otherSlot (slot : OtaSlot) : OtaSlot := if slot == .a then .b else .a

/-- A release that the server offers to a device, and that its bundle installs. -/
structure Update where
  config : OtaConfig
  manifest : OtaManifest
  old : OtaRelease
  new : OtaRelease
  /-- The slot that the old release runs in. -/
  slot : OtaSlot
  slot_ok : slot = .a ∨ slot = .b
  bundle_absolute : config.bundleFile.head? = some 0x2f ∧ 2 ≤ config.bundleFile.length
  health_timeout : 0 < config.healthTimeoutSec ∧ config.healthTimeoutSec ≤ uint32Max / 1000
  upgrade : otaCompatibilityPrecheck old manifest = .ok true
  new_valid : otaReleaseValidate new = .ok ()
  device : new.deviceCompatible = deviceCompatible ∧ manifest.deviceCompatible = deviceCompatible
  rauc : new.raucCompatible = raucCompatible
  version : new.version = manifest.version
  buildId : new.buildId = manifest.buildId
  /-- A state with the build id can be read back. -/
  readable : occursIn nulEscape manifest.buildId = false

/-- The services of a device that works, in a slot. -/
def Update.services (u : Update) (slot : OtaSlot) : ServiceAnswers where
  manifest := .ok (some u.manifest)
  discard := .ok ()
  download := .ok ()
  validate := .ok ()
  verify := .ok ()
  install := .ok ()
  healthSlot := .ok slot
  healthProbes := .ok ()
  markSlot := .ok slot
  mark := .ok ()
  report := .ok ()

/-! ## The device -/

/-- The slots and the boots of the device. -/
structure Board where
  slot : OtaSlot
  installed : OtaSlot → OtaRelease
  primary : OtaSlot
  /-- A reboot is requested. -/
  requested : Bool
  boots : List Bytes

/-- What an act does to the slots. -/
def Board.perform (bundle : OtaRelease) (b : Board) : Act → Board
  | .service (.install _) =>
      { b with
        installed := Function.update b.installed (otherSlot b.slot) bundle
        primary := otherSlot b.slot }
  | .rebootRequest _ => { b with requested := true }
  | _ => b

def Board.boot (b : Board) (id : Bytes) : Board :=
  { b with slot := b.primary, requested := false, boots := id :: b.boots }

structure World where
  device : Device
  proc : Proc
  board : Board

def World.sys (w : World) : Sys := ⟨w.device, w.proc⟩

/-- The world behind some acts of the process. -/
def World.act (u : Update) (w : World) (device : Device) (acts : List Act) (proc : Proc) :
    World :=
  ⟨device.run acts, proc, Trace.run (Board.perform u.new) w.board acts⟩

/-! ## Answers of a device that works -/

structure FairStart (w : World) (answers : StartAnswers) : Prop where
  prepare : answers.prepare = .ok ()
  path : answers.path.length < otaPathCap
  readFault : answers.readFault = none
  openFault : answers.openFault = none
  services : answers.services = .ok ()
  release : answers.release = some (w.board.installed w.board.slot)
  bootId : answers.bootId = .ok w.device.boot
  slot : answers.slot = some w.board.slot
  recoverFault₁ : answers.recoverFault₁ = none
  recoverFault₂ : answers.recoverFault₂ = none
  control : answers.control = .ok ()
  refresh : answers.refresh = .ok ()

structure FairPass (u : Update) (w : World) (machine : OtaStateMachine) (release : OtaRelease)
    (answers : LoopAnswers) : Prop where
  stopping : answers.stopping = false
  idleWait : answers.idleWait = .ok ()
  waiting : answers.stoppedWaiting = false
  refresh : answers.refresh = .ok ()
  guardSlot : answers.guardSlot = some w.board.slot
  reply : answers.reply = phase u.config (u.services w.board.slot) release machine.current
  /-- The kernel generates an attempt id when one is asked for. -/
  attemptId : answers.reply.next.state = .precheck →
    ∃ id, answers.attemptId = .ok id ∧ otaUuidValid id true = true
  fresh : Fresh w.device answers.attemptId
  slot : answers.slot = some w.board.slot
  bootId : answers.bootId = .ok w.device.boot
  fault : answers.fault = none
  rebootFault₁ : answers.rebootFault₁ = none
  request : answers.request = .ok ()

/-- The next boot: its id is valid and new. -/
structure NextBoot (w : World) (medium : Medium Bytes) (id : Bytes) : Prop where
  cut : Medium.Cut w.device.medium medium
  valid : otaUuidValid id true = true
  fresh : id ∉ w.board.boots

/-- The file does not come back with an interrupted critical phase. -/
def Undisturbed (J : JsonParser) (medium : Medium Bytes) : Prop :=
  medium.Holds fun data => ∀ s, parseState J data = some s →
    s.state ≠ .installing ∧ s.state ≠ .healthCheck ∧ s.state ≠ .markGood

/-! ## Moves and hindrances -/

variable (J : JsonParser) (u : Update)

/-- The world behind the first acts of a start. -/
def World.started (w : World) (answers : StartAnswers) (n : Nat) (proc : Proc) : World :=
  w.act u (w.device.begin answers.release) ((startOn J answers w.device).acts.take n) proc

/-- The world behind the first acts of a pass. -/
def World.passed (w : World) (answers : LoopAnswers) (p : Progress) (n : Nat) (proc : Proc) :
    World :=
  w.act u (w.device.issue answers.attemptId) (p.acts.take n) proc

/-- The world after a boot. -/
def World.rebooted (w : World) (medium : Medium Bytes) (id : Bytes) : World :=
  ⟨{ w.device with medium, boot := id }, .off, w.board.boot id⟩

inductive Move : World → World → Prop
  | start {w : World} (answers : StartAnswers) (hoff : w.proc.stopped)
      (hrequested : w.board.requested = false) (hfair : FairStart w answers) :
      Move w (w.started J u answers (startOn J answers w.device).acts.length
        (startOn J answers w.device).proc)
  | pass {w : World} {machine : OtaStateMachine} {release : OtaRelease} {firstPoll : Bool}
      (answers : LoopAnswers) (hproc : w.proc = .running machine release firstPoll)
      (hfair : FairPass u w machine release answers) :
      Move w (w.passed u answers (runPass answers machine release firstPoll)
        (runPass answers machine release firstPoll).acts.length
        (runPass answers machine release firstPoll).proc)
  | reboot {w : World} (medium : Medium Bytes) (id : Bytes) (hoff : w.proc.stopped)
      (hrequested : w.board.requested = true) (hnext : NextBoot w medium id) :
      Move w (w.rebooted medium id)

inductive Hindrance : World → World → Prop
  /-- The process dies during its start. -/
  | startCut {w : World} (answers : StartAnswers) (n : Nat) (hoff : w.proc.stopped)
      (hfair : FairStart w answers)
      (hcut : Undisturbed J (w.started J u answers n .off).device.medium) :
      Hindrance w (w.started J u answers n .off)
  /-- The process dies during a pass. -/
  | passCut {w : World} {machine : OtaStateMachine} {release : OtaRelease} {firstPoll : Bool}
      (answers : LoopAnswers) (n : Nat) (hproc : w.proc = .running machine release firstPoll)
      (hfair : FairPass u w machine release answers)
      (hcut : Undisturbed J (w.passed u answers (runPass answers machine release firstPoll) n
        .off).device.medium) :
      Hindrance w (w.passed u answers (runPass answers machine release firstPoll) n .off)
  /-- A power cut, or a boot that nobody asked for. -/
  | powerCut {w : World} (medium : Medium Bytes) (id : Bytes) (hnext : NextBoot w medium id)
      (hcut : Undisturbed J medium) : Hindrance w (w.rebooted medium id)
  /-- A transport fails and the phase is to be tried again. -/
  | retry {w : World} {machine : OtaStateMachine} {release : OtaRelease} {firstPoll : Bool}
      (answers : LoopAnswers) (services : ServiceAnswers)
      (hproc : w.proc = .running machine release firstPoll)
      (hstopping : answers.stopping = false)
      (hreply : answers.reply = phase u.config services release machine.current)
      (hretry : answers.reply.result = .retry)
      (hstate : phaseMayRetry machine.current.state = true)
      (hwait : answers.retryWait = .ok ())
      (hboot : answers.bootId = .ok w.device.boot) (hfresh : Fresh w.device answers.attemptId) :
      Hindrance w (w.passed u answers (runPass answers machine release firstPoll)
        (runPass answers machine release firstPoll).acts.length
        (runPass answers machine release firstPoll).proc)
  /-- A signal stops the process. -/
  | stop {w : World} {machine : OtaStateMachine} {release : OtaRelease} {firstPoll : Bool}
      (answers : LoopAnswers) (services : ServiceAnswers)
      (hproc : w.proc = .running machine release firstPoll)
      (hstopping : answers.stopping = true)
      (hreply : answers.reply = phase u.config services release machine.current)
      (hboot : answers.bootId = .ok w.device.boot) (hfresh : Fresh w.device answers.attemptId)
      (hcut : Undisturbed J w.device.medium) :
      Hindrance w (w.passed u answers (runPass answers machine release firstPoll)
        (runPass answers machine release firstPoll).acts.length
        (runPass answers machine release firstPoll).proc)
  /-- The process is started again although the device is going down. -/
  | restart {w : World} (answers : StartAnswers) (hoff : w.proc.stopped)
      (hrequested : w.board.requested = true) (hfair : FairStart w answers) :
      Hindrance w (w.started J u answers (startOn J answers w.device).acts.length
        (startOn J answers w.device).proc)

/-! ## They are steps of the agent -/

variable {J} {u} {w w' : World}

theorem FairStart.truthful {answers : StartAnswers} (h : FairStart w answers) :
    Truthful w.device answers.bootId := by
  intro id hid
  rw [h.bootId, Except.ok.injEq] at hid
  exact hid.symm

theorem FairPass.truthful {machine : OtaStateMachine} {release : OtaRelease}
    {answers : LoopAnswers} (h : FairPass u w machine release answers) :
    Truthful w.device answers.bootId := by
  intro id hid
  rw [h.bootId, Except.ok.injEq] at hid
  exact hid.symm

private theorem start_step {answers : StartAnswers} (hoff : w.proc.stopped)
    (hfair : FairStart w answers) :
    Run.Step J services w.sys (w.started J u answers (startOn J answers w.device).acts.length
      (startOn J answers w.device).proc).sys := by
  have h := Run.Step.start (J := J) (P := Services.services) answers hoff hfair.truthful
  rw [World.started, List.take_length]
  exact h

/-- A pass is a step of the run. -/
private theorem pass_step {machine : OtaStateMachine} {release : OtaRelease} {firstPoll : Bool}
    {answers : LoopAnswers} (hproc : w.proc = .running machine release firstPoll)
    (hreply : ∃ services, answers.reply = phase u.config services release machine.current)
    (hboot : Truthful w.device answers.bootId) (hfresh : Fresh w.device answers.attemptId) :
    Run.Step J services w.sys
      (w.passed u answers (runPass answers machine release firstPoll)
        (runPass answers machine release firstPoll).acts.length
        (runPass answers machine release firstPoll).proc).sys := by
  obtain ⟨services, hreply⟩ := hreply
  have hreplies : Services.services.replies release machine.current answers.reply :=
    ⟨u.config, services, hreply⟩
  rw [World.passed, List.take_length, World.sys, hproc]
  exact .pass answers hreplies hboot hfresh

theorem Move.step (h : Move J u w w') : Run.Step J services w.sys w'.sys := by
  cases h with
  | start answers hoff _ hfair => exact start_step hoff hfair
  | pass answers hproc hfair =>
      exact pass_step hproc ⟨_, hfair.reply⟩ hfair.truthful hfair.fresh
  | reboot medium id _ _ hnext => exact .powerCut medium id hnext.cut

/-- A hindrance is a step of the run. -/
theorem Hindrance.step (h : Hindrance J u w w') : Run.Step J services w.sys w'.sys := by
  have truthful {answers : LoopAnswers} (hboot : answers.bootId = .ok w.device.boot) :
      Truthful w.device answers.bootId := by
    intro id hid
    rw [hboot, Except.ok.injEq] at hid
    exact hid.symm
  cases h with
  | startCut answers n hoff hfair _ => exact .startCut answers n hoff hfair.truthful
  | passCut answers n hproc hfair _ =>
      rw [World.sys, hproc]
      exact .passCut answers n ⟨u.config, _, hfair.reply⟩ hfair.truthful hfair.fresh
  | powerCut medium id hnext _ => exact .powerCut medium id hnext.cut
  | retry answers services hproc _ hreply _ _ _ hboot hfresh =>
      exact pass_step hproc ⟨services, hreply⟩ (truthful hboot) hfresh
  | stop answers services hproc _ hreply hboot hfresh _ =>
      exact pass_step hproc ⟨services, hreply⟩ (truthful hboot) hfresh
  | restart answers hoff _ hfair => exact start_step hoff hfair

/-- The states of a fair run are states of the agent's runs. -/
theorem reach_run {m k : Nat} (hrun : Potential.Run (Move J u) (Hindrance J u) w m k w')
    (h : Reach J services w.sys) : Reach J services w'.sys := by
  induction hrun with
  | nil => exact h
  | move _ hmove ih => exact ih.step hmove.step
  | hinder _ hhinder ih => exact ih.step hhinder.step

/-! ## A move can always be made -/

/-- The answers of a start in a device that works. -/
def World.startAnswers (w : World) : StartAnswers where
  prepare := .ok ()
  path := ascii "/data/edgeguard-ota/agent-state.json"
  readFault := none
  openFault := none
  services := .ok ()
  release := some (w.board.installed w.board.slot)
  bootId := .ok w.device.boot
  slot := some w.board.slot
  recoverFault₁ := none
  recoverFault₂ := none
  rollbackSlot := some w.board.slot
  rebootFault₁ := none
  rebootFault₂ := none
  request := .ok ()
  control := .ok ()
  refresh := .ok ()

/-- The answers of a pass, with the attempt id that the kernel would generate. -/
def World.loopAnswers (u : Update) (w : World) (machine : OtaStateMachine)
    (release : OtaRelease) (id : Bytes) : LoopAnswers where
  stopping := false
  idleWait := .ok ()
  stoppedWaiting := false
  refresh := .ok ()
  guardSlot := some w.board.slot
  reply := phase u.config (u.services w.board.slot) release machine.current
  retryWait := .ok ()
  attemptId := .ok id
  slot := some w.board.slot
  bootId := .ok w.device.boot
  fault := none
  rebootFault₁ := none
  rebootFault₂ := none
  request := .ok ()

/-- A move uses up one fresh id at most. -/
theorem Move.fresh (h : Move J u w w') :
    w'.device.issued.length + w'.board.boots.length ≤
      w.device.issued.length + w.board.boots.length + 1 := by
  have hissued (d : Device) (acts : List Act) : (d.run acts).issued = d.issued := by
    induction acts generalizing d with
    | nil => rfl
    | cons a acts ih => exact ih (d.perform a)
  have hboots (b : Board) (acts : List Act) :
      (Trace.run (Board.perform u.new) b acts).boots = b.boots := by
    induction acts generalizing b with
    | nil => rfl
    | cons a acts ih =>
        refine (ih (b.perform u.new a)).trans ?_
        cases a with
        | service effect => cases effect <;> rfl
        | _ => rfl
  cases h with
  | start answers =>
      simp [World.started, World.act, hissued, hboots, Device.begin]
  | pass answers =>
      simp only [World.passed, World.act, hissued, hboots]
      cases answers.attemptId with
      | ok id =>
          simp only [Device.issue, List.length_cons]
          omega
      | error error => exact Nat.le_succ _
  | reboot => simp [World.rebooted, Board.boot, Nat.add_assoc]

end EdgeGuard.Agent.FairRun
