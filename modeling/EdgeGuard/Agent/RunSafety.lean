import EdgeGuard.Base.JsonReader
import EdgeGuard.Agent.RunInvariant

/-!
# Safety of the running agent

What the invariant says about the log of every run: an installation is started
at most once for an attempt, mark-good and the controlled reboot happen only
where everything speaks for them.

## Main results

* `install_at_most_once` — no attempt is installed twice.
* `mark_good_guarded` — when mark-good is executed, and how often.
* `reboot_guarded` — when a reboot is requested.
-/

namespace EdgeGuard.Agent.RunSafety

open EdgeGuard.Base EdgeGuard.Base.CText EdgeGuard.Base.Json EdgeGuard.Base.JsonObject
open EdgeGuard.Base.DurableFile
open EdgeGuard.Agent.Model EdgeGuard.Agent.Persistence EdgeGuard.Agent.PersistenceRoundTrip
open EdgeGuard.Agent.StateMachine EdgeGuard.Agent.AttemptDiscipline
open EdgeGuard.Agent.Services EdgeGuard.Agent.Run EdgeGuard.Agent.RunInvariant

/-! ## Counting entries -/

/-- `rauc install` is started for the attempt. -/
def installs (attemptId : Bytes) (e : Entry) : Bool :=
  match e.act with
  | .service (.install s) => s.attemptId == attemptId
  | _ => false

/-- The callback is called in INSTALLING for the attempt. -/
def callsInstalling (attemptId : Bytes) (e : Entry) : Bool :=
  match e.act with
  | .phase s => s.state == .installing && s.attemptId == attemptId
  | _ => false

/-- Mark-good is executed for the attempt. -/
def marksGood (attemptId : Bytes) (e : Entry) : Bool :=
  match e.act with
  | .service (.markGood s _) => s.attemptId == attemptId
  | _ => false

/-- An entry installs for an attempt exactly when it is an install of a state of the
attempt. -/
theorem installs_iff {attemptId : Bytes} {e : Entry} :
    installs attemptId e = true ↔
      ∃ s, e.act = .service (.install s) ∧ s.attemptId = attemptId := by
  unfold installs
  split
  · rename_i s hact
    simp [hact]
  · rename_i hact
    simp only [Bool.false_eq_true, false_iff]
    rintro ⟨s, hs, -⟩
    exact hact s hs

/-- An entry calls INSTALLING for an attempt exactly when it is the phase call of such a
state. -/
theorem callsInstalling_iff {attemptId : Bytes} {e : Entry} :
    callsInstalling attemptId e = true ↔
      ∃ s, e.act = .phase s ∧ s.state = .installing ∧ s.attemptId = attemptId := by
  unfold callsInstalling
  split
  · rename_i s hact
    simp [hact]
  · rename_i hact
    simp only [Bool.false_eq_true, false_iff]
    rintro ⟨s, hs, -⟩
    exact hact s hs

/-- An entry marks good for an attempt exactly when it does so with a state of the attempt.
-/
theorem marksGood_iff {attemptId : Bytes} {e : Entry} :
    marksGood attemptId e = true ↔
      ∃ s r, e.act = .service (.markGood s r) ∧ s.attemptId = attemptId := by
  unfold marksGood
  split
  · rename_i s r hact
    simp [hact]
  · rename_i hact
    simp only [Bool.false_eq_true, false_iff]
    rintro ⟨s, r, hs, -⟩
    exact hact s r hs

/-- An entry that is in order only as the first of its kind occurs once. -/
theorem countP_le_one {J : JsonParser} {kind : Entry → Bool}
    (hfirst : ∀ earlier e, EntryOk J earlier e → kind e = true →
      ∀ h ∈ earlier, kind h = false)
    {log : List Entry} (h : Justified J log) : log.countP kind ≤ 1 := by
  induction log with
  | nil => simp
  | cons e earlier ih =>
      rw [List.countP_cons]
      by_cases he : kind e = true
      · have hzero : earlier.countP kind = 0 := by
          rw [List.countP_eq_zero]
          intro x hx
          simp [hfirst earlier e h.1 he x hx]
        simp [hzero, he]
      · simpa [he] using ih h.2

/-! ## One complete update -/

/-- A start with good answers. -/
def startAnswers (release : OtaRelease) (bootId : Bytes) (slot : OtaSlot) : StartAnswers where
  prepare := .ok ()
  path := ascii "/data/edgeguard-ota/agent-state.json"
  readFault := none
  openFault := none
  services := .ok ()
  release := some release
  bootId := .ok bootId
  slot := some slot
  recoverFault₁ := none
  recoverFault₂ := none
  rollbackSlot := some slot
  rebootFault₁ := none
  rebootFault₂ := none
  request := .ok ()
  control := .ok ()
  refresh := .ok ()

/-- A service outside the process that does its work. -/
def serviceAnswers (slot : OtaSlot) : ServiceAnswers where
  manifest := .ok none
  discard := .ok ()
  download := .ok ()
  validate := .ok ()
  verify := .ok ()
  install := .ok ()
  healthSlot := .ok slot
  healthProbes := .ok ()
  markSlot := .ok slot
  mark := .ok ()
  report := .ok ()

def updateConfig : OtaConfig where
  baseUrl := ascii "http://ota.example"
  manifestPath := ascii "/manifest"
  reportPath := ascii "/report"
  pollIntervalSec := 300
  connectTimeoutSec := 10
  requestTimeoutSec := 30
  stateDir := ascii "/data/edgeguard-ota"
  releaseFile := ascii "/etc/edgeguard-release"
  maxManifestBytes := 65536
  partFile := ascii "/data/edgeguard-ota/bundle.part"
  bundleFile := ascii "/data/edgeguard-ota/bundle.raucb"
  reserveBytes := 0
  raucBinary := ascii "/usr/bin/rauc"
  deviceIdFile := ascii "/data/edgeguard-ota/device-id"
  healthHook := []
  healthTimeoutSec := 60
  reportingMode := .legacy

/-- A pass with good answers, and the production callback's reply. -/
def loopAnswers (release : OtaRelease) (bootId : Bytes) (slot : OtaSlot)
    (current : OtaPersistentState) : LoopAnswers where
  stopping := false
  idleWait := .ok ()
  stoppedWaiting := false
  refresh := .ok ()
  guardSlot := some slot
  reply := phase updateConfig (serviceAnswers slot) release current
  retryWait := .ok ()
  attemptId := .error .zero
  slot := some slot
  bootId := .ok bootId
  fault := none
  rebootFault₁ := none
  rebootFault₂ := none
  request := .ok ()

def bootA : Bytes := ascii "11111111-2222-4333-8444-555555555555"

def bootB : Bytes := ascii "66666666-7777-4888-9999-aaaaaaaaaaaa"

def runningRelease (version buildId : Bytes) : OtaRelease :=
  ⟨1, deviceCompatible, raucCompatible, version, buildId⟩

/-- The release before the update. -/
def oldRelease : OtaRelease := runningRelease (ascii "1.2.2") (ascii "build-6")

/-- The release that the update brings. -/
def newRelease : OtaRelease := runningRelease (ascii "1.2.3") (ascii "build-7")

/-- The attempt with a verified bundle. -/
def verifyState : OtaPersistentState :=
  { precheckState (ascii "build-7") with state := .raucVerify }

/-- The attempt from INSTALLING on. -/
def installState (state : OtaState) : OtaPersistentState :=
  { verifyState with
    state
    previousSlot := .a
    expectedCandidateSlot := .b
    bootIdBefore := bootA
    rebootContext := .install }

def machineIn (s : OtaPersistentState) : OtaStateMachine :=
  ⟨s, ascii "/data/edgeguard-ota/agent-state.json", false⟩

private theorem accepts_of {s next : OtaPersistentState}
    (h : (otaTransitionAllowed s.state next.state && stateValid next &&
      !identityMutated s next) = true) : Accepts (machineIn s) next := by
  simp only [Bool.and_eq_true, Bool.not_eq_true'] at h
  exact ⟨rfl, h.1.1, h.1.2, h.2⟩

private theorem propose_of_accepts {answers : LoopAnswers} {s next : OtaPersistentState}
    {release : OtaRelease} (hfault : answers.fault = none)
    (h : Accepts (machineIn s) next) (hroll : rollbackPending next = false) :
    proposeNext answers (machineIn s) release true next =
      ⟨savedActs next, .running (machineIn next) release true⟩ := by
  simp only [proposeNext, hfault, transition_of_accepts h, hroll, Bool.false_eq_true, if_false]
  rfl

/-- A start on the bytes of a state that can be read back. -/
private theorem startOn_serialize (J : JsonParser) {s : OtaPersistentState} {d : Device}
    (hlive : d.medium.live = some (serialize s)) (hvalid : stateValid s = true)
    (hread : occursIn nulEscape s.buildId = false ∧
      occursIn nulEscape s.lastError.message = false)
    (release : OtaRelease) (bootId : Bytes) (slot : OtaSlot) :
    startOn J (startAnswers release bootId slot) d =
      (mainOpened (startAnswers release bootId slot) (machineIn s)).after [.start] := by
  have hopen (path : Bytes) (hpath : path.length < otaPathCap) :
      otaStateMachineOpen J (some path) none none (some (serialize s)) =
        ⟨⟨s, path, false⟩, [], [], .ok ()⟩ := by
    have hload : otaPersistenceLoad J path none (some (serialize s)) = .ok (some s) :=
      (load_serialize J _ hvalid).mpr hread
    simp [otaStateMachineOpen, Nat.not_le.mpr hpath, hload]
  have hpath : (startAnswers release bootId slot).path.length < otaPathCap := by
    simp only [startAnswers]
    decide
  simp only [startOn, mainStart, hlive]
  rw [show (startAnswers release bootId slot).readFault = none from rfl,
    show (startAnswers release bootId slot).openFault = none from rfl, hopen _ hpath]
  rfl

/-- A pass in which the callback advances to a state that needs no help. -/
private theorem pass_advance {answers : LoopAnswers} {s next : OtaPersistentState}
    {release : OtaRelease} {effects : List Effect} (hstop : answers.stopping = false)
    (hfault : answers.fault = none)
    (hreply : answers.reply = ⟨effects, .advance, next, .zero⟩)
    (hstate : s.state = .installing ∧ next.state = .rebootPending ∨
      s.state = .healthCheck ∧ next.state = .markGood)
    (h : Accepts (machineIn s) next) :
    runPass answers (machineIn s) release true =
      ⟨callActs s effects ++ savedActs next, .running (machineIn next) release true⟩ := by
  have hroll : rollbackPending next = false := by
    rcases hstate with ⟨-, hn⟩ | ⟨-, hn⟩ <;> simp [rollbackPending, hn]
  have hmoved : proposeNext answers (machineIn s) release true next = _ :=
    propose_of_accepts hfault h hroll
  have hcurrent : (machineIn s).current = s := rfl
  rcases hstate with ⟨hs, hn⟩ | ⟨hs, hn⟩ <;>
    simp [runPass, hstop, phasePass, hreply, phaseAdvanced, terminal, hcurrent, hs, hn, hmoved,
      Progress.after, callActs]

/-- The pass that saves where the board was before the installation. -/
private theorem pass_capture {answers : LoopAnswers} {s : OtaPersistentState} {bootId : Bytes}
    {release : OtaRelease} (hstop : answers.stopping = false) (hfault : answers.fault = none)
    (hreply : answers.reply = advance { s with state := .installing })
    (hslot : answers.slot = some .a) (hboot : answers.bootId = .ok bootId)
    (hstate : s.state = .raucVerify)
    (h : Accepts (machineIn s) { s with
      state := .installing
      bootIdBefore := bootId
      previousSlot := .a
      expectedCandidateSlot := .b
      rebootContext := .install }) :
    runPass answers (machineIn s) release true =
      ⟨callActs s [] ++ .service (.getCurrent (some .a)) ::
          savedActs { s with
            state := .installing
            bootIdBefore := bootId
            previousSlot := .a
            expectedCandidateSlot := .b
            rebootContext := .install },
        .running (machineIn { s with
          state := .installing
          bootIdBefore := bootId
          previousSlot := .a
          expectedCandidateSlot := .b
          rebootContext := .install }) release true⟩ := by
  have hmoved : proposeNext answers (machineIn s) release true _ = _ :=
    propose_of_accepts hfault h rfl
  have hcurrent : (machineIn s).current = s := rfl
  simp [runPass, hstop, phasePass, hreply, advance, phaseAdvanced, captureInstall, terminal,
    hcurrent, hstate, hslot, hboot, hmoved, Progress.after, callActs]

/-- The pass that marks the slot good. -/
private theorem pass_markGood {answers : LoopAnswers} {s next : OtaPersistentState}
    {release : OtaRelease} {effects : List Effect} (hstop : answers.stopping = false)
    (hfault : answers.fault = none) (hguard : answers.guardSlot = some s.expectedCandidateSlot)
    (hreply : answers.reply = ⟨effects, .advance, next, .zero⟩)
    (hstate : s.state = .markGood) (hnext : next.state = .reportSuccess)
    (h : Accepts (machineIn s) next) :
    runPass answers (machineIn s) release true =
      ⟨.service (.getCurrent (some s.expectedCandidateSlot)) :: callActs s effects ++
          savedActs next,
        .running (machineIn next) release true⟩ := by
  have hmoved : proposeNext answers (machineIn s) release true next = _ :=
    propose_of_accepts hfault h (by simp [rollbackPending, hnext])
  have hcurrent : (machineIn s).current = s := rfl
  simp [runPass, hstop, markGoodPass, hguard, phasePass, hreply, phaseAdvanced, terminal,
    hcurrent, hstate, hnext, hmoved, Progress.after, callActs]

/-- The pass that asks for the reboot and ends the process. -/
private theorem pass_reboot {answers : LoopAnswers} {s : OtaPersistentState}
    {release : OtaRelease} (hstop : answers.stopping = false)
    (hfault : answers.rebootFault₁ = none) (hrequest : answers.request = .ok ())
    (hstate : s.state = .rebootPending) (hvalid : stateValid s = true) :
    runPass answers (machineIn s) release true =
      ⟨savedActs s ++ [.rebootRequest (machineIn s)], .exited 0 .zero⟩ := by
  have hcurrent : (machineIn s).current = s := rfl
  have hblocked : (machineIn s).blocked = false := rfl
  simp [runPass, hstop, hcurrent, hstate, exitReboot, otaStateMachineReboot, hblocked,
    otaRebootControlled, rebootAuthorised, hfault, save_of_valid hvalid, hrequest, requestResult,
    savedActs]

private theorem start_resumed {s : OtaPersistentState} {release : OtaRelease} {bootId : Bytes}
    {slot : OtaSlot} (h : s.state = .raucVerify) :
    mainOpened (startAnswers release bootId slot) (machineIn s) =
      ⟨[], .running (machineIn s) release true⟩ := by
  have hcurrent : (machineIn s).current = s := rfl
  have hblocked : (machineIn s).blocked = false := rfl
  simp [mainOpened, startAnswers, otaStateMachineRecover, hblocked, hcurrent, h, replaySafe,
    resolveRollback, rollbackPending, enterRun, Progress.after]

private theorem moved_of_accepts {s next : OtaPersistentState} (h : Accepts (machineIn s) next) :
    otaStateMachineTransition none (machineIn s) next =
      ⟨machineIn next, savedActs next, [(next, true)], .ok ()⟩ :=
  transition_of_accepts h

/-- The start behind the reboot goes through BOOT_NEW_SLOT to HEALTH_CHECK. -/
private theorem start_booted {s s₁ s₂ : OtaPersistentState} {release : OtaRelease}
    {bootId : Bytes} (hstate : s.state = .rebootPending)
    (huuid : Identity.otaUuidValid bootId true = true) (hboot : bootId ≠ s.bootIdBefore)
    (hs₁ : { s with state := .bootNewSlot } = s₁) (hs₂ : { s₁ with state := .healthCheck } = s₂)
    (hslot : s₁.expectedCandidateSlot = .b) (h₁ : Accepts (machineIn s) s₁)
    (h₂ : Accepts (machineIn s₁) s₂) :
    mainOpened (startAnswers release bootId .b) (machineIn s) =
      ⟨savedActs s₁ ++ .service (.getCurrent (some .b)) :: savedActs s₂,
        .running (machineIn s₂) release true⟩ := by
  have hcurrent (t : OtaPersistentState) : (machineIn t).current = t := rfl
  have hblocked : (machineIn s).blocked = false := rfl
  have hstate₂ : s₂.state = .healthCheck := by rw [← hs₂]
  have hdecided : recoverSlot none (machineIn s₁) (some .b) =
      ⟨machineIn s₂, savedActs s₂, [(s₂, true)], .ok none⟩ := by
    unfold recoverSlot
    rw [if_neg (by decide), if_pos (by simp [hcurrent, hslot])]
    simp only [hcurrent, hs₂, moved_of_accepts h₂]
    rfl
  have hrecover : otaStateMachineRecover none none (machineIn s) bootId (some .b) =
      ⟨machineIn s₂, savedActs s₁ ++ .service (.getCurrent (some .b)) :: savedActs s₂,
        [(s₁, true), (s₂, true)], .ok none⟩ := by
    simp [otaStateMachineRecover, hblocked, hcurrent, hstate, replaySafe, huuid, hboot, hs₁,
      moved_of_accepts h₁, hdecided, Outcome.after]
  simp [mainOpened, startAnswers, hrecover, resolveRollback, rollbackPending, hcurrent, hstate₂,
    enterRun, Progress.after]

/-- A device in slot A with the verified bundle of an update. -/
def updateDevice : Device where
  medium := ⟨some (serialize verifyState), []⟩
  boot := bootA
  lifetime := 0
  reading := none
  release := none
  issued := [verifyState.attemptId]
  log := []

private theorem initial_update : Initial JsonReader.referenceParser updateDevice := by
  refine ⟨rfl, ?_⟩
  intro data s hdata hs _
  have hbytes : data = serialize verifyState := by
    simpa [updateDevice, Medium.contents] using hdata
  rw [hbytes] at hs
  rw [eq_of_parseState_serialize _ (by decide) hs]
  exact List.mem_singleton.mpr rfl

/-- The device with the installation recorded as begun. -/
def installingDevice : Device :=
  ((updateDevice.begin (some oldRelease)).run [.start]).run
    (callActs verifyState [] ++ .service (.getCurrent (some .a)) ::
      savedActs (installState .installing))

/-- The device with the bundle installed and the reboot requested. -/
def installedDevice : Device :=
  (installingDevice.run
      (callActs (installState .installing) [.install (installState .installing)] ++
        savedActs (installState .rebootPending))).run
    (savedActs (installState .rebootPending) ++
      [.rebootRequest (machineIn (installState .rebootPending))])

/-- The device started in the candidate slot. -/
def candidateDevice : Device :=
  (({ installedDevice with boot := bootB }).begin (some newRelease)).run
    (.start :: (savedActs (installState .bootNewSlot) ++
      Act.service (.getCurrent (some .b)) :: savedActs (installState .healthCheck)))

/-- The device with the candidate checked and marked good. -/
def updatedDevice : Device :=
  (candidateDevice.run
      (callActs (installState .healthCheck) [.getCurrent (some .b),
        .health (installState .healthCheck) true] ++ savedActs (installState .markGood))).run
    (Act.service (.getCurrent (some .b)) :: callActs (installState .markGood)
      [.getCurrent (some .b), .markGood (installState .markGood) newRelease] ++
        savedActs (installState .reportSuccess))

/-- The pass of a running process as a step. -/
private theorem reach_pass {d : Device} {s : OtaPersistentState} {release : OtaRelease}
    (boot : Bytes) (slot : OtaSlot) {p : Progress}
    (h : Reach JsonReader.referenceParser services ⟨d, .running (machineIn s) release true⟩)
    (hboot : d.boot = boot)
    (hpass : runPass (loopAnswers release boot slot s) (machineIn s) release true = p) :
    Reach JsonReader.referenceParser services ⟨d.run p.acts, p.proc⟩ := by
  have hstep := Reach.step h (.pass (loopAnswers release boot slot s) ⟨_, _, rfl⟩ ?_ ?_)
  · rw [hpass] at hstep
    exact hstep
  · intro id hid
    cases hid
    exact hboot.symm
  · intro id hid
    cases hid

/-- The production callback's replies during the update. -/
private theorem reply_install :
    (loopAnswers oldRelease bootA .a (installState .installing)).reply =
      ⟨[.install (installState .installing)], .advance, installState .rebootPending, .zero⟩ := by
  have hinstall (s : OtaPersistentState) : otaRaucInstall updateConfig.bundleFile s (.ok ()) =
      ([.install s], .ok ()) := by
    rw [otaRaucInstall, if_neg (by decide)]
  have hphase (s : OtaPersistentState) (h : s.state = .installing) :
      phase updateConfig (serviceAnswers .a) oldRelease s =
        ⟨[.install s], .advance, { s with state := .rebootPending }, .zero⟩ := by
    simp [phase, h, installingPhase, serviceAnswers, hinstall]
  exact hphase (installState .installing) rfl

private theorem candidate_valid :
    candidateReleaseValid newRelease (installState .healthCheck) = .ok () := by decide

private theorem reply_health :
    (loopAnswers newRelease bootB .b (installState .healthCheck)).reply =
      ⟨[.getCurrent (some .b), .health (installState .healthCheck) true], .advance,
        installState .markGood, .zero⟩ := by
  have hphase (s : OtaPersistentState) (h : s.state = .healthCheck)
      (hslot : s.expectedCandidateSlot = .b)
      (hvalid : candidateReleaseValid newRelease s = .ok ()) :
      phase updateConfig (serviceAnswers .b) newRelease s =
        ⟨[.getCurrent (some .b), .health s true], .advance, { s with state := .markGood },
          .zero⟩ := by
    simp [phase, h, healthCheckPhase, hvalid, hslot, serviceAnswers, updateConfig,
      otaHealthCheck, uint32Max]
  exact hphase (installState .healthCheck) rfl rfl candidate_valid

private theorem reply_markGood :
    (loopAnswers newRelease bootB .b (installState .markGood)).reply =
      ⟨[.getCurrent (some .b), .markGood (installState .markGood) newRelease], .advance,
        installState .reportSuccess, .zero⟩ := by
  have hphase (s : OtaPersistentState) (h : s.state = .markGood)
      (hslot : s.expectedCandidateSlot = .b)
      (hvalid : candidateReleaseValid newRelease s = .ok ()) :
      phase updateConfig (serviceAnswers .b) newRelease s =
        ⟨[.getCurrent (some .b), .markGood s newRelease], .advance,
          { s with state := .reportSuccess }, .zero⟩ := by
    simp [phase, h, markGoodPhase, hvalid, hslot, serviceAnswers, mark]
  exact hphase (installState .markGood) rfl rfl candidate_valid

private theorem valid_install {state : OtaState}
    (h : state ∈ [OtaState.installing, .rebootPending, .bootNewSlot, .healthCheck, .markGood,
      .reportSuccess]) : stateValid (installState state) = true := by
  revert h
  cases state <;> decide

/-- The update up to its installation. -/
private theorem reach_installing :
    Reach JsonReader.referenceParser services
      ⟨installingDevice, .running (machineIn (installState .installing)) oldRelease true⟩ := by
  have hstart := Reach.step (P := services) (Reach.init initial_update)
    (.start (startAnswers oldRelease bootA .a) trivial fun id hid => by cases hid; rfl)
  rw [startOn_serialize _ (s := verifyState) rfl (by decide) (by decide), start_resumed rfl]
    at hstart
  have haccepts : Accepts (machineIn verifyState) (installState .installing) :=
    accepts_of (by decide)
  have hverify := reach_pass bootA .a hstart rfl (pass_capture rfl rfl rfl rfl rfl rfl haccepts)
  exact hverify

private theorem reach_installed :
    Reach JsonReader.referenceParser services ⟨installedDevice, .exited 0 .zero⟩ := by
  have hinstall := reach_pass bootA .a reach_installing rfl
    (pass_advance rfl rfl reply_install (.inl ⟨rfl, rfl⟩) (accepts_of (by decide)))
  have hreboot := reach_pass bootA .a hinstall rfl
    (pass_reboot rfl rfl rfl rfl (valid_install (by decide)))
  exact hreboot

private theorem medium_installed :
    installedDevice.medium = ⟨some (serialize (installState .rebootPending)), []⟩ := by
  have hsaved (d : Device) (s : OtaPersistentState) (machine : OtaStateMachine) :
      (d.run (savedActs s ++ [.rebootRequest machine])).medium = ⟨some (serialize s), []⟩ := rfl
  rw [installedDevice, hsaved]

/-- The update up to the health check in the new slot. -/
private theorem reach_candidate :
    Reach JsonReader.referenceParser services
      ⟨candidateDevice, .running (machineIn (installState .healthCheck)) newRelease true⟩ := by
  have hcut := Reach.step reach_installed (.powerCut installedDevice.medium bootB
    ⟨some (serialize (installState .rebootPending)), by simp [Medium.contents, medium_installed],
      medium_installed⟩)
  have hstart := Reach.step hcut
    (.start (startAnswers newRelease bootB .b) trivial fun id hid => by cases hid; rfl)
  have hbooted : Accepts (machineIn (installState .rebootPending)) (installState .bootNewSlot) :=
    accepts_of (by decide)
  have hchecking : Accepts (machineIn (installState .bootNewSlot)) (installState .healthCheck) :=
    accepts_of (by decide)
  rw [startOn_serialize _ (s := installState .rebootPending) (by rw [medium_installed])
    (valid_install (by decide)) (by decide),
    start_booted rfl (by decide) (by decide) rfl rfl rfl hbooted hchecking] at hstart
  exact hstart

private theorem reach_updated :
    Reach JsonReader.referenceParser services
      ⟨updatedDevice, .running (machineIn (installState .reportSuccess)) newRelease true⟩ := by
  have hhealth := reach_pass bootB .b reach_candidate rfl
    (pass_advance rfl rfl reply_health (.inr ⟨rfl, rfl⟩) (accepts_of (by decide)))
  have hgood := reach_pass bootB .b hhealth rfl
    (pass_markGood rfl rfl rfl reply_markGood rfl rfl (accepts_of (by decide)))
  exact hgood

/-! ## The three guarantees -/

section Guarantees

variable (J : JsonParser) (P : PhaseCallback)

/-- Over every run, with crashes, restarts, power cuts and failed saves
anywhere, the callback is called in INSTALLING at most once for an attempt, and
starts the installation at most once. -/
theorem install_at_most_once {sys : Sys} (h : Reach J P sys) (attemptId : Bytes) :
    sys.device.log.countP (callsInstalling attemptId) ≤ 1 ∧
      sys.device.log.countP (installs attemptId) ≤ 1 := by
  have hlog := (reach_inv h).device.justified
  constructor
  · refine countP_le_one (fun earlier e hok he x hx => ?_) hlog
    obtain ⟨s, hact, hstate, hid⟩ := callsInstalling_iff.mp he
    simp only [EntryOk, hact] at hok
    by_contra hcalled
    obtain ⟨t, hcall, htstate, htid⟩ := callsInstalling_iff.mp (by simpa using hcalled)
    have hsubject : subject J x = some t := by simp [subject, hcall, htstate, critical]
    have hlt := hok (by rw [hstate]; rfl) x hx t hsubject (htid.trans hid.symm)
    rw [hstate, htstate] at hlt
    exact lt_irrefl _ hlt
  · refine countP_le_one (fun earlier e hok he x hx => ?_) hlog
    obtain ⟨s, hact, hid⟩ := installs_iff.mp he
    simp only [EntryOk, hact] at hok
    by_contra hinstalled
    obtain ⟨t, hother, htid⟩ := installs_iff.mp (by simpa using hinstalled)
    exact hok.2 x hx t hother (htid.trans hid.symm)

theorem install_at_most_once_updated :
    updatedDevice.log.countP (installs verifyState.attemptId) = 1 ∧
      updatedDevice.log.countP (callsInstalling verifyState.attemptId) ≤ 1 ∧
      updatedDevice.log.countP (installs verifyState.attemptId) ≤ 1 :=
  ⟨by decide, install_at_most_once JsonReader.referenceParser services reach_updated
    verifyState.attemptId⟩

/-- Of two entries of a log, one is earlier or they are the same. -/
private theorem earlier_or_later {log : List Entry} {e x : Entry} (he : e ∈ log)
    (hx : x ∈ log) :
    (∃ later earlier, log = later ++ e :: earlier ∧ x ∈ earlier) ∨ x = e ∨
      ∃ later earlier, log = later ++ x :: earlier ∧ e ∈ earlier := by
  obtain ⟨later, earlier, rfl⟩ := List.append_of_mem he
  simp only [List.mem_append, List.mem_cons] at hx
  rcases hx with hx | hx | hx
  · obtain ⟨front, back, rfl⟩ := List.append_of_mem hx
    exact .inr (.inr ⟨front, back ++ e :: earlier, by simp, by simp⟩)
  · exact .inr (.inl hx)
  · exact .inl ⟨later, earlier, rfl, hx⟩

/-- Over every run, mark-good is executed only under `MarkGoodOk`, at most once
for an attempt, and never for an attempt whose health check failed. -/
theorem mark_good_guarded {sys : Sys} (h : Reach J P sys) :
    (∀ later e earlier s release, sys.device.log = later ++ e :: earlier →
        e.act = .service (.markGood s release) → MarkGoodOk J earlier e s release) ∧
      (∀ attemptId, sys.device.log.countP (marksGood attemptId) ≤ 1) ∧
      ∀ e ∈ sys.device.log, ∀ x ∈ sys.device.log, ∀ s release t,
        e.act = .service (.markGood s release) → x.act = .service (.health t false) →
          t.attemptId ≠ s.attemptId := by
  have hlog := (reach_inv h).device.justified
  refine ⟨?_, ?_, ?_⟩
  · intro later e earlier s release hsplit hact
    rw [hsplit] at hlog
    simpa only [EntryOk, hact] using hlog.split
  · intro attemptId
    refine countP_le_one (fun earlier e hok he x hx => ?_) hlog
    obtain ⟨s, r, hact, hid⟩ := marksGood_iff.mp he
    simp only [EntryOk, hact] at hok
    by_contra hmarked
    obtain ⟨t, r, hother, htid⟩ := marksGood_iff.mp (by simpa using hmarked)
    exact hok.once x hx t r hother (htid.trans hid.symm)
  · intro e he x hx s release t hact hfailed
    rcases earlier_or_later he hx with ⟨later, earlier, hsplit, hx⟩ | rfl |
      ⟨later, earlier, hsplit, he⟩
    · rw [hsplit] at hlog
      have hok := hlog.split
      simp only [EntryOk, hact] at hok
      exact hok.unfailed x hx t hfailed
    · simp [hact] at hfailed
    · rw [hsplit] at hlog
      have hok := hlog.split
      simp only [EntryOk, hfailed] at hok
      exact (hok.2 e he s release hact).symm

theorem mark_good_guarded_updated :
    ∃ e ∈ updatedDevice.log, ∃ earlier,
      e.act = .service (.markGood (installState .markGood) newRelease) ∧
        MarkGoodOk JsonReader.referenceParser earlier e (installState .markGood) newRelease := by
  have hmarked : ∃ e ∈ updatedDevice.log,
      e.act = .service (.markGood (installState .markGood) newRelease) := by decide
  obtain ⟨e, he, hact⟩ := hmarked
  obtain ⟨later, earlier, hsplit⟩ := List.append_of_mem he
  exact ⟨e, he, earlier, hact,
    (mark_good_guarded JsonReader.referenceParser services reach_updated).1 later e earlier _ _
      hsplit hact⟩

/-- Over every run, a reboot is requested only under `RebootOk`: by a machine
that is not blocked, with its state the only one the file can come back with,
in REBOOT_PENDING in the boot that the state records, or in ROLLBACK after a
health failure from the candidate slot and not from the previous one. -/
theorem reboot_guarded {sys : Sys} (h : Reach J P sys) {e : Entry}
    (he : e ∈ sys.device.log) {machine : OtaStateMachine}
    (hact : e.act = .rebootRequest machine) :
    RebootOk e machine ∧
      (machine.current.state = .rollback →
        e.reading ≠ some machine.current.previousSlot) := by
  obtain ⟨earlier, hok⟩ := (reach_inv h).device.justified.mem he
  simp only [EntryOk, hact] at hok
  refine ⟨hok, fun hrollback hprevious => ?_⟩
  have hvalid := valid_blocks hok.valid
  have hslot := (boot_window hvalid).1 (by rw [hrollback]; decide) (by rw [hrollback])
  rcases hok.reason with ⟨hpending, -⟩ | ⟨-, -, hcandidate⟩
  · simp [hrollback] at hpending
  · rw [hprevious, Option.some.injEq] at hcandidate
    exact (boot_of_some hvalid hslot).2.2.1 hcandidate

theorem reboot_guarded_installed :
    ∃ e ∈ installedDevice.log,
      e.act = .rebootRequest (machineIn (installState .rebootPending)) ∧
        RebootOk e (machineIn (installState .rebootPending)) := by
  have hrequested : ∃ e ∈ installedDevice.log,
      e.act = .rebootRequest (machineIn (installState .rebootPending)) := by decide
  obtain ⟨e, he, hact⟩ := hrequested
  exact ⟨e, he, hact,
    (reboot_guarded JsonReader.referenceParser services reach_installed he hact).1⟩

end Guarantees

end EdgeGuard.Agent.RunSafety
