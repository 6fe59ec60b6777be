import EdgeGuard.Agent.RunSafety

/-!
# Recording failures

A failure is recorded with its message, which `ota_error_set` cuts to the 511
bytes that its array holds.  `ota_persistent_state_validate` takes the message
only as valid UTF-8, so a failure whose message is cut inside a character is
not recorded: the attempt does not end in ERROR, and a candidate that fails its
health check is neither recorded as ROLLBACK nor left by a reboot.

## Main results

* `accepts_failed_iff`, `accepts_rolledBack_iff` — when the two states are accepted.
* `failures_recorded_iff` — when a failure is recorded.
-/

namespace EdgeGuard.Agent.FailureRecords

open EdgeGuard.Base.CText EdgeGuard.Base.Utf8 EdgeGuard.Base.DurableFile
open EdgeGuard.Agent.Model EdgeGuard.Agent.Persistence EdgeGuard.Agent.PersistenceRoundTrip
open EdgeGuard.Agent.StateMachine EdgeGuard.Agent.AttemptDiscipline
open EdgeGuard.Agent.Services EdgeGuard.Agent.Run EdgeGuard.Agent.RunSafety

/-! ## The message -/

/-- The message array ends inside a character of the message. -/
def CutsCharacter (message : Bytes) : Prop :=
  ∃ b, message[otaErrorCap - 1]? = some b ∧ isContinuation b = true

/-- What is left of a message is valid exactly when the cut does not split a character. -/
theorem boundedText_message_iff (code : OtaErrorCode) {message : Bytes}
    (hutf8 : valid message = true) (hcontrol : controlFree message = true) :
    boundedText otaErrorCap (otaErrorSet code message).message = true ↔
      ¬ CutsCharacter message := by
  have hlength : (message.take (otaErrorCap - 1)).length < otaErrorCap := by
    rw [List.length_take]
    unfold otaErrorCap
    omega
  have hclean : controlFree (message.take (otaErrorCap - 1)) = true := by
    simp only [controlFree, List.all_eq_true] at hcontrol ⊢
    intro b hb
    exact hcontrol b (List.mem_of_mem_take hb)
  have hcut := valid_take_iff hutf8 (otaErrorCap - 1)
  show (decide ((message.take (otaErrorCap - 1)).length < otaErrorCap) &&
    valid (message.take (otaErrorCap - 1)) && controlFree (message.take (otaErrorCap - 1))) =
      true ↔ _
  simp only [hlength, hclean, decide_true, Bool.true_and, Bool.and_true, hcut, CutsCharacter,
    not_exists, not_and, Bool.not_eq_true]

/-! ## The recorded states -/

section Machine

variable {machine : OtaStateMachine} {code : OtaErrorCode} {message : Bytes}

/-- The state that a failed health check is recorded as. -/
def rolledBackState (machine : OtaStateMachine) (error : OtaError) : OtaPersistentState :=
  { machine.current with
    state := .rollback
    rebootContext := .healthFailure
    lastError := error }

/-- Of the texts of a state only the message is new. -/
theorem textsOk_iff {s : OtaPersistentState} (hvalid : Valid s) (state : OtaState)
    (context : OtaRebootContext) (error : OtaError) :
    textsOk { s with state := state, rebootContext := context, lastError := error } = true ↔
      boundedText otaErrorCap error.message = true := by
  have htexts := hvalid.texts
  simp only [textsOk, Bool.and_eq_true] at htexts ⊢
  constructor
  · intro h
    exact h.1.2
  · intro h
    exact ⟨⟨htexts.1.1, h⟩, htexts.2⟩

theorem headerOk_of {s : OtaPersistentState} (hvalid : Valid s) {state : OtaState}
    (hstate : (otaStateName state).isSome = true) (context : OtaRebootContext)
    (hcode : (otaErrorCodeName code).isSome = true) :
    headerOk { s with
      state := state, rebootContext := context, lastError := otaErrorSet code message } =
        true := by
  have hheader := hvalid.header
  simp only [headerOk, Bool.and_eq_true] at hheader ⊢
  exact ⟨⟨hheader.1.1, hstate⟩, hcode⟩

/-- An ERROR state is as valid as its message. -/
theorem stateValid_failed_iff (hvalid : stateValid machine.current = true)
    (hcode : code ≠ .none) (hnamed : (otaErrorCodeName code).isSome = true) :
    stateValid (failedState machine code message) = true ↔
      boundedText otaErrorCap (otaErrorSet code message).message = true := by
  have hblocks := valid_blocks hvalid
  have hheader : headerOk (failedState machine code message) = true :=
    headerOk_of hblocks (by rfl) machine.current.rebootContext hnamed
  have htexts := textsOk_iff hblocks .error machine.current.rebootContext
    (otaErrorSet code message)
  have hattempt : attemptOk (failedState machine code message) = true := hblocks.attempt
  have hwindow : attemptWindowOk (failedState machine code message) = true := by
    simp [attemptWindowOk, failedState, OtaState.value]
  have henums : enumsOk (failedState machine code message) = true := hblocks.enums
  have hboot : bootOk (failedState machine code message) = true := hblocks.boot
  have hbootWindow : bootWindowOk (failedState machine code message) = true := by
    simp [bootWindowOk, failedState, OtaState.value]
  have hcontext : contextOk (failedState machine code message) = true := by
    simp [contextOk, failedState]
  have herror : errorOk (failedState machine code message) = true := by
    simp [errorOk, failedState, otaErrorSet, hcode]
  simp only [stateValid, hheader, hattempt, hwindow, henums, hboot, hbootWindow, hcontext,
    herror, Bool.true_and, Bool.and_true]
  exact htexts

/-- The machine takes a failure in every state but ERROR as long as its message lasts. -/
theorem accepts_failed_iff (hunblocked : machine.blocked = false)
    (hvalid : stateValid machine.current = true) (hstate : machine.current.state ≠ .error)
    (hcode : code ≠ .none) (hnamed : (otaErrorCodeName code).isSome = true)
    (hutf8 : valid message = true) (hcontrol : controlFree message = true) :
    Accepts machine (failedState machine code message) ↔ ¬ CutsCharacter message := by
  rw [← boundedText_message_iff code hutf8 hcontrol,
    ← stateValid_failed_iff hvalid hcode hnamed]
  constructor
  · intro h
    exact h.valid
  · intro h
    have hname : (otaStateName machine.current.state).isSome = true := by
      have hheader := (valid_blocks hvalid).header
      simp only [headerOk, Bool.and_eq_true] at hheader
      exact hheader.1.2
    refine ⟨hunblocked, ?_, h, ?_⟩
    · show otaTransitionAllowed machine.current.state .error = true
      unfold otaTransitionAllowed
      rw [if_neg]
      · rfl
      · simp only [Option.isNone_eq_false_iff.mpr hname, Bool.false_or, Bool.or_eq_true,
          beq_iff_eq, hstate, or_false]
        decide
    · simp [identityMutated, failedState, sameAttempt]

/-- A ROLLBACK state after a health check is as valid as its message. -/
theorem stateValid_rolledBack_iff (hvalid : stateValid machine.current = true)
    (hstate : machine.current.state = .healthCheck) (hcode : code ≠ .none)
    (hnamed : (otaErrorCodeName code).isSome = true) :
    stateValid (rolledBackState machine (otaErrorSet code message)) = true ↔
      boundedText otaErrorCap (otaErrorSet code message).message = true := by
  have hblocks := valid_blocks hvalid
  have hsome : machine.current.previousSlot ≠ .unknown :=
    (boot_window hblocks).1 (by simp [hstate, OtaState.value]) (by simp [hstate, OtaState.value])
  obtain ⟨hid, hcandidate, hslots, huuid, -⟩ := boot_of_some hblocks hsome
  generalize hnext : rolledBackState machine (otaErrorSet code message) = next
  have hheader : headerOk next = true := by
    rw [← hnext]
    exact headerOk_of hblocks (by rfl) .healthFailure hnamed
  have htexts := textsOk_iff hblocks .rollback .healthFailure (otaErrorSet code message)
  have hattempt : attemptOk next = true := by
    rw [← hnext]
    exact hblocks.attempt
  have hwindow : attemptWindowOk next = true := by
    rw [← hnext]
    simp [attemptWindowOk, rolledBackState, hasAttempt, hid, OtaState.value]
  have henums : enumsOk next = true := by
    have h := hblocks.enums
    simp only [enumsOk, Bool.and_eq_true] at h
    rw [← hnext]
    simp only [enumsOk, rolledBackState, Bool.and_eq_true]
    exact ⟨h.1, rfl⟩
  have hboot : bootOk next = true := by
    rw [← hnext]
    simp [bootOk, rolledBackState, hasBoot, hasAttempt, hid, hsome, hcandidate, hslots, huuid]
  have hbootWindow : bootWindowOk next = true := by
    rw [← hnext]
    simp [bootWindowOk, rolledBackState, hasBoot, hsome, OtaState.value]
  have hcontext : contextOk next = true := by
    rw [← hnext]
    simp [contextOk, rolledBackState]
  have herror : errorOk next = true := by
    rw [← hnext]
    simp [errorOk, rolledBackState, otaErrorSet, hcode]
  simp only [stateValid, hheader, hattempt, hwindow, henums, hboot, hbootWindow, hcontext,
    herror, Bool.true_and, Bool.and_true]
  rw [← hnext]
  exact htexts

/-- The rollback behind a failed health check is accepted exactly when its message is. -/
theorem accepts_rolledBack_iff (hunblocked : machine.blocked = false)
    (hvalid : stateValid machine.current = true) (hstate : machine.current.state = .healthCheck)
    (hcode : code ≠ .none) (hnamed : (otaErrorCodeName code).isSome = true)
    (hutf8 : valid message = true) (hcontrol : controlFree message = true) :
    Accepts machine (rolledBackState machine (otaErrorSet code message)) ↔
      ¬ CutsCharacter message := by
  rw [← boundedText_message_iff code hutf8 hcontrol,
    ← stateValid_rolledBack_iff hvalid hstate hcode hnamed]
  constructor
  · intro h
    exact h.valid
  · intro h
    refine ⟨hunblocked, ?_, h, ?_⟩
    · show otaTransitionAllowed machine.current.state .rollback = true
      rw [hstate]
      rfl
    · simp [identityMutated, rolledBackState, sameAttempt, hstate]

end Machine

/-! ## The end of a failure -/

/-- The failure is durable: the machine is in ERROR with the code, and has saved it. -/
structure Recorded (code : OtaErrorCode) (outcome : Outcome Unit) : Prop where
  succeeded : outcome.succeeded
  state : outcome.machine.current.state = .error
  code : outcome.machine.current.lastError.code = code
  durable : outcome.acts = savedActs outcome.machine.current

theorem not_accepts_of_refused {machine : OtaStateMachine} {next : OtaPersistentState}
    {error : OtaError}
    (h : otaStateMachineTransition none machine next = ⟨machine, [], [], .error error⟩) :
    ¬ Accepts machine next := by
  intro haccepts
  have hdone := congrArg Outcome.saves (transition_of_accepts haccepts)
  rw [h] at hdone
  cases hdone

/-- A failure is recorded exactly when the failed state is accepted. -/
theorem recorded_iff (machine : OtaStateMachine) (code : OtaErrorCode) (message : Bytes) :
    Recorded code (otaStateMachineFail none machine code message) ↔
      Accepts machine (failedState machine code message) := by
  have hfail : otaStateMachineFail none machine code message =
      otaStateMachineTransition none machine (failedState machine code message) := rfl
  rw [hfail]
  rcases transition_none machine (failedState machine code message) with
    ⟨error, hrefused⟩ | ⟨haccepts, hdone⟩
  · rw [hrefused]
    constructor
    · intro h
      obtain ⟨value, hvalue⟩ := h.succeeded
      cases hvalue
    · intro h
      exact absurd h (not_accepts_of_refused hrefused)
  · rw [hdone]
    constructor
    · intro _
      exact haccepts
    · intro _
      exact ⟨⟨(), rfl⟩, rfl, rfl, rfl⟩

/-- ROLLBACK is saved, and the reboot is requested from it. -/
def RolledBack (machine : OtaStateMachine) (error : OtaError) (p : Progress) : Prop :=
  ∃ front back, p.acts = front ++ savedActs (rolledBackState machine error) ++ back ∧
    .rebootRequest { machine with current := rolledBackState machine error } ∈ back

/-- A controlled reboot that is authorised saves once more and is requested. -/
theorem reboot_acts (machine : OtaStateMachine) (hunblocked : machine.blocked = false)
    (hvalid : stateValid machine.current = true)
    (hauthorised : rebootAuthorised machine.current = true) (fault : Option IoFault)
    (request : Except OtaError Unit) :
    ∃ more, (otaStateMachineReboot none fault machine request).acts =
      savedActs machine.current ++ [.rebootRequest machine] ++ more := by
  have hcontrolled : otaRebootControlled none machine request =
      ⟨machine, savedActs machine.current ++ [.rebootRequest machine],
        [(machine.current, true)], requestResult request⟩ := by
    simp [otaRebootControlled, hauthorised, save_of_valid hvalid, savedActs]
  unfold otaStateMachineReboot
  rw [hcontrolled]
  simp only [hunblocked, Bool.false_eq_true, if_false]
  cases requestResult request with
  | ok value => exact ⟨[], by simp⟩
  | error failure => exact ⟨_, rfl⟩

theorem exitReboot_acts (outcome : Outcome Unit) : (exitReboot outcome).acts = outcome.acts := by
  unfold exitReboot
  split <;> rfl

/-- The end of the pass that proposes ROLLBACK. -/
theorem propose_rolledBack_iff (answers : LoopAnswers) (machine : OtaStateMachine)
    (release : OtaRelease) (firstPoll : Bool) (error : OtaError)
    (hfault : answers.fault = none) (hreboot : answers.rebootFault₁ = none)
    {effects : List Act} (heffects : ∀ data, .file (.replace data) ∉ effects) :
    RolledBack machine error ((proposeNext answers machine release firstPoll
      (rolledBackState machine error)).after effects) ↔
        Accepts machine (rolledBackState machine error) := by
  unfold proposeNext
  simp only [hfault, hreboot]
  rcases transition_none machine (rolledBackState machine error) with
    ⟨failure, hrefused⟩ | ⟨haccepts, hdone⟩
  · rw [hrefused]
    constructor
    · intro h
      -- nothing was saved, and the callback saves nothing
      obtain ⟨front, back, hacts, -⟩ := h
      have hsaved : Act.file (.replace (serialize (rolledBackState machine error))) ∈
          effects ++ [] := by
        have hmem : Act.file (.replace (serialize (rolledBackState machine error))) ∈
            front ++ savedActs (rolledBackState machine error) ++ back := by
          simp [savedActs]
        rw [← hacts] at hmem
        exact hmem
      rw [List.append_nil] at hsaved
      exact absurd hsaved (heffects _)
    · intro h
      exact absurd h (not_accepts_of_refused hrefused)
  · rw [hdone]
    constructor
    · intro _
      exact haccepts
    · intro _
      have hpending : rollbackPending (rolledBackState machine error) = true := rfl
      obtain ⟨more, hmore⟩ := reboot_acts
        { machine with current := rolledBackState machine error }
        haccepts.unblocked haccepts.valid rfl answers.rebootFault₂ answers.request
      simp only [hpending, if_true]
      refine ⟨effects, savedActs (rolledBackState machine error) ++
        [.rebootRequest { machine with current := rolledBackState machine error }] ++ more,
        ?_, by simp⟩
      rw [Progress.after_acts, Progress.after_acts, exitReboot_acts, hmore, ← List.append_assoc]

/-- A candidate fails its health check and is marked bad. -/
structure FailedCheck (config : OtaConfig) (services : ServiceAnswers) (release : OtaRelease)
    (current : OtaPersistentState) (failure : OtaError) : Prop where
  candidate : candidateReleaseValid release current = .ok ()
  failed : (otaHealthCheck config.healthTimeoutSec current.expectedCandidateSlot
    services.healthSlot services.healthProbes).2 = .error failure
  marked : (mark current.expectedCandidateSlot services.markSlot (.markBad current)
    services.mark).2 = .ok ()

/-- The phase of a failed health check asks for ROLLBACK with the failure. -/
theorem phase_of_failedCheck {config : OtaConfig} {services : ServiceAnswers}
    {release : OtaRelease} {current : OtaPersistentState} {failure : OtaError}
    (hstate : current.state = .healthCheck)
    (h : FailedCheck config services release current failure) :
    ∃ effects, phase config services release current =
      ⟨effects, .advance, { current with state := .rollback, lastError := failure },
        failure⟩ := by
  have hfailed := h.failed
  have hmarked := h.marked
  unfold phase
  simp only [hstate]
  unfold healthCheckPhase
  simp only [h.candidate]
  generalize otaHealthCheck config.healthTimeoutSec current.expectedCandidateSlot
    services.healthSlot services.healthProbes = checked at hfailed
  generalize mark current.expectedCandidateSlot services.markSlot (.markBad current)
    services.mark = marked at hmarked
  obtain ⟨looked, verdict⟩ := checked
  obtain ⟨seen, result⟩ := marked
  simp only at hfailed hmarked
  subst hfailed
  subst hmarked
  exact ⟨_, rfl⟩

/-- The pass in HEALTH_CHECK proposes the rollback. -/
theorem runPass_of_failedCheck {answers : LoopAnswers} {machine : OtaStateMachine}
    {release : OtaRelease} (firstPoll : Bool) {config : OtaConfig} {services : ServiceAnswers}
    {failure : OtaError} (hstate : machine.current.state = .healthCheck)
    (hcode : failure.code ≠ .none) (hrunning : answers.stopping = false)
    (hreply : answers.reply = phase config services release machine.current)
    (h : FailedCheck config services release machine.current failure) :
    ∃ effects : List Effect, runPass answers machine release firstPoll =
      (proposeNext answers machine release firstPoll (rolledBackState machine failure)).after
        (.phase machine.current :: effects.map .service) := by
  obtain ⟨effects, hphase⟩ := phase_of_failedCheck hstate h
  refine ⟨effects, ?_⟩
  have hadvanced : phaseAdvanced answers machine release firstPoll
      { machine.current with state := .rollback, lastError := failure } =
        proposeNext answers machine release firstPoll (rolledBackState machine failure) := by
    simp [phaseAdvanced, terminal, hstate, hcode, rolledBackState]
  unfold runPass
  simp only [hrunning, hstate, Bool.false_eq_true, if_false]
  unfold phasePass
  simp only [hreply, hphase]
  rw [hadvanced]

/-- Every failure in a state other than ERROR ends durably in ERROR, and every failed health
check of a candidate that is then marked bad is durably recorded as ROLLBACK and followed by
the reboot, if and only if the 511 bytes of the message array do not end inside a character
of the message. -/
theorem failures_recorded_iff (machine : OtaStateMachine) (code : OtaErrorCode)
    (message : Bytes) (hunblocked : machine.blocked = false)
    (hvalid : stateValid machine.current = true)
    (hnamed : (otaErrorCodeName code).isSome = true) (hcode : code ≠ .none)
    (hutf8 : valid message = true) (hcontrol : controlFree message = true) :
    (machine.current.state ≠ .error →
        (Recorded code (otaStateMachineFail none machine code message) ↔
          ¬ CutsCharacter message)) ∧
      ∀ (config : OtaConfig) (services : ServiceAnswers) (release : OtaRelease)
        (answers : LoopAnswers) (firstPoll : Bool),
        machine.current.state = .healthCheck → answers.stopping = false →
        answers.reply = phase config services release machine.current →
        answers.fault = none → answers.rebootFault₁ = none →
        FailedCheck config services release machine.current (otaErrorSet code message) →
          (RolledBack machine (otaErrorSet code message)
            (runPass answers machine release firstPoll) ↔ ¬ CutsCharacter message) := by
  constructor
  · intro hstate
    rw [recorded_iff]
    exact accepts_failed_iff hunblocked hvalid hstate hcode hnamed hutf8 hcontrol
  · intro config services release answers firstPoll hstate hrunning hreply hfault hreboot hcheck
    obtain ⟨effects, hpass⟩ := runPass_of_failedCheck firstPoll hstate (by exact hcode) hrunning
      hreply hcheck
    rw [hpass, propose_rolledBack_iff answers machine release firstPoll _ hfault hreboot]
    · exact accepts_rolledBack_iff hunblocked hvalid hstate hcode hnamed hutf8 hcontrol
    · intro data hmem
      simp at hmem

/-- A message of 620 bytes, all of them ASCII. -/
def longMessage : Bytes := ascii "Health hook failed: " ++ List.replicate 600 0x61

/-- A candidate whose health check fails with the message. -/
def unhealthyServices (message : Bytes) : ServiceAnswers :=
  { serviceAnswers .b with healthProbes := .error (otaErrorSet .healthFailed message) }

/-- The pass in which it does. -/
def unhealthyAnswers (message : Bytes) : LoopAnswers :=
  { loopAnswers newRelease bootB .b (installState .healthCheck) with
    reply := phase updateConfig (unhealthyServices message) newRelease
      (installState .healthCheck) }

theorem failures_recorded_iff_long_message :
    Recorded .healthFailed (otaStateMachineFail none (machineIn (installState .healthCheck))
        .healthFailed longMessage) ∧
      RolledBack (machineIn (installState .healthCheck))
        (otaErrorSet .healthFailed longMessage)
        (runPass (unhealthyAnswers longMessage) (machineIn (installState .healthCheck))
          newRelease true) := by
  have hwhole : ¬ CutsCharacter longMessage := by
    rintro ⟨b, hb, hinside⟩
    have hascii : longMessage[otaErrorCap - 1]? = some 0x61 := by decide +kernel
    rw [hascii] at hb
    cases hb
    exact absurd hinside (by decide)
  obtain ⟨hfail, hhealth⟩ := failures_recorded_iff
    (machineIn (installState .healthCheck)) .healthFailed longMessage rfl (by decide +kernel) rfl
    (by decide) (by decide +kernel) (by decide +kernel)
  refine ⟨(hfail (by decide)).mpr hwhole, ?_⟩
  apply (hhealth updateConfig (unhealthyServices longMessage) newRelease
    (unhealthyAnswers longMessage) true rfl rfl rfl rfl rfl ?_).mpr hwhole
  exact ⟨by decide +kernel, rfl, rfl⟩

/-- 510 ASCII bytes and a character of two: the array ends between them. -/
def splitMessage : Bytes := List.replicate 510 0x61 ++ [0xc3, 0xa9]

theorem split_message_not_recorded :
    ¬ ∀ (machine : OtaStateMachine) (code : OtaErrorCode) (message : Bytes),
      machine.blocked = false → stateValid machine.current = true →
      machine.current.state ≠ .error → code ≠ .none → (otaErrorCodeName code).isSome = true →
      valid message = true → controlFree message = true →
        Recorded code (otaStateMachineFail none machine code message) := by
  intro hclaim
  have hrecorded := hclaim (machineIn otaPersistentStateInit) .configInvalid splitMessage rfl
    (by decide) (by decide) (by decide) rfl (by decide +kernel) (by decide +kernel)
  rw [recorded_iff] at hrecorded
  have hinvalid : stateValid (failedState (machineIn otaPersistentStateInit) .configInvalid
      splitMessage) = false := by
    decide +kernel
  exact Bool.eq_false_iff.mp hinvalid hrecorded.valid

end EdgeGuard.Agent.FailureRecords
