import EdgeGuard.Agent.StateMachine

/-!
# What a sequence of accepted transitions looks like

`ota_state_machine_transition` takes a complete proposed state, and each of its
three tests leaves holes of its own: the transition table lets every state go
to ERROR, the identity guard looks only at what the old state already fixes,
and the cross-field validation knows nothing of the old state.  Together they
pin an attempt down.  This module follows arbitrary sequences of proposals from
the initial state, with saves that succeed.

## Main results

* `chain_accepted` — the accepted states form a chain of accepted steps.
* `discipline_accepted` — the rules that every such sequence obeys.
-/

namespace EdgeGuard.Agent.AttemptDiscipline

open EdgeGuard.Base.CText EdgeGuard.Base.DurableFile
open EdgeGuard.Agent.Model EdgeGuard.Agent.Identity EdgeGuard.Agent.Persistence
open EdgeGuard.Agent.PersistenceRoundTrip EdgeGuard.Agent.StateMachine

/-! ## Sequences of proposals -/

/-- One call of `ota_state_machine_transition` whose save succeeds, with the
accepted states so far, newest first. -/
def propose (run : OtaStateMachine × List OtaPersistentState)
    (next : OtaPersistentState) : OtaStateMachine × List OtaPersistentState :=
  let outcome := otaStateMachineTransition none run.1 next
  match outcome.result with
  | .ok () => (outcome.machine, next :: run.2)
  | .error _ => (outcome.machine, run.2)

/-- The machine in its initial state. -/
def initialMachine (path : Bytes) : OtaStateMachine :=
  ⟨otaPersistentStateInit, path, false⟩

/-- The accepted states of a sequence of proposals, newest first, down to the
initial state. -/
def accepted (path : Bytes) (calls : List OtaPersistentState) : List OtaPersistentState :=
  (calls.foldl propose (initialMachine path, [otaPersistentStateInit])).2

/-- A proposal that passes the three tests. -/
structure Step (old next : OtaPersistentState) : Prop where
  allowed : otaTransitionAllowed old.state next.state = true
  valid : stateValid next = true
  kept : identityMutated old next = false

/-- Lists of states, newest first, in which every state follows from the one
before it. -/
inductive Chain : List OtaPersistentState → Prop
  | init : Chain [otaPersistentStateInit]
  | step {old next : OtaPersistentState} {rest : List OtaPersistentState} :
      Chain (old :: rest) → Step old next → Chain (next :: old :: rest)

theorem transition_of_accepts {machine : OtaStateMachine} {next : OtaPersistentState}
    (h : Accepts machine next) :
    otaStateMachineTransition none machine next =
      ⟨{ machine with current := next }, savedActs next, [(next, true)], .ok ()⟩ := by
  simp [otaStateMachineTransition, otaPersistentStateValidate, h.unblocked, h.allowed,
    h.valid, h.kept, save_of_valid h.valid, savedActs]

/-- A call without faults is refused or done. -/
theorem transition_none (machine : OtaStateMachine) (next : OtaPersistentState) :
    (∃ error, otaStateMachineTransition none machine next =
        ⟨machine, [], [], .error error⟩) ∨
      (Accepts machine next ∧ otaStateMachineTransition none machine next =
        ⟨{ machine with current := next }, savedActs next, [(next, true)], .ok ()⟩) := by
  by_cases h : Accepts machine next
  · exact .inr ⟨h, transition_of_accepts h⟩
  · have hresult := transition_result none machine next
    generalize otaStateMachineTransition none machine next = outcome at hresult
    cases hresult with
    | refused error => exact .inl ⟨error, rfl⟩
    | failed _ haccepts => exact absurd haccepts h
    | uncertain _ haccepts => exact absurd haccepts h
    | done haccepts => exact absurd haccepts h

/-- The machine's state is the newest accepted one. -/
structure Follows (run : OtaStateMachine × List OtaPersistentState) : Prop where
  unblocked : run.1.blocked = false
  chain : Chain run.2
  head : ∃ rest, run.2 = run.1.current :: rest

/-- A proposal prolongs the chain or is dropped. -/
theorem Follows.propose {run : OtaStateMachine × List OtaPersistentState}
    (h : Follows run) (next : OtaPersistentState) : Follows (propose run next) := by
  obtain ⟨machine, trace⟩ := run
  obtain ⟨rest, hrest⟩ := h.head
  simp only at hrest
  rcases transition_none machine next with ⟨error, hstep⟩ | ⟨haccepts, hstep⟩
  · simp only [AttemptDiscipline.propose, hstep]
    exact h
  · simp only [AttemptDiscipline.propose, hstep]
    have hchain := h.chain
    simp only [hrest] at hchain
    refine ⟨h.unblocked, ?_, trace, rfl⟩
    rw [hrest]
    exact .step hchain ⟨haccepts.allowed, haccepts.valid, haccepts.kept⟩

theorem chain_accepted (path : Bytes) (calls : List OtaPersistentState) :
    Chain (accepted path calls) := by
  have hrun : ∀ run, Follows run → Follows (calls.foldl propose run) := by
    induction calls with
    | nil => exact fun _ h => h
    | cons next calls ih => exact fun run h => ih _ (h.propose next)
  exact (hrun _ ⟨rfl, .init, [], rfl⟩).chain

/-! ## Facts about valid states -/

/-- The fields that identify an attempt. -/
def attemptFields (s : OtaPersistentState) :
    Bytes × Bytes × Bytes × Bytes × Nat × Bytes :=
  (s.attemptId, s.targetVersion, s.buildId, s.artifactUrl, s.expectedSize,
    s.expectedSha256)

/-- The fields that identify a reboot. -/
def bootFields (s : OtaPersistentState) : OtaSlot × OtaSlot × Bytes :=
  (s.previousSlot, s.expectedCandidateSlot, s.bootIdBefore)

/-- The blocks of the validation, one by one. -/
structure Valid (s : OtaPersistentState) : Prop where
  header : headerOk s = true
  texts : textsOk s = true
  attempt : attemptOk s = true
  attemptWindow : attemptWindowOk s = true
  enums : enumsOk s = true
  boot : bootOk s = true
  bootWindow : bootWindowOk s = true
  context : contextOk s = true
  error : errorOk s = true

theorem valid_blocks {s : OtaPersistentState} (h : stateValid s = true) : Valid s := by
  simp only [stateValid, Bool.and_eq_true] at h
  obtain ⟨⟨⟨⟨⟨⟨⟨⟨h1, h2⟩, h3⟩, h4⟩, h5⟩, h6⟩, h7⟩, h8⟩, h9⟩ := h
  exact ⟨h1, h2, h3, h4, h5, h6, h7, h8, h9⟩

theorem valid_init : stateValid otaPersistentStateInit = true := by decide

/-- Without an attempt every field of one is empty. -/
theorem attemptFields_of_none {s : OtaPersistentState} (h : Valid s)
    (hnone : s.attemptId = []) : attemptFields s = ([], [], [], [], 0, []) := by
  have hattempt := h.attempt
  simp only [attemptOk, hasAttempt, hnone, List.isEmpty_nil, Bool.not_true,
    Bool.false_eq_true, if_false, Bool.and_eq_true, List.isEmpty_iff, beq_iff_eq] at hattempt
  simp [attemptFields, hnone, hattempt]

/-- The states up to CHECK_UPDATE have no attempt. -/
theorem attemptId_of_early {s : OtaPersistentState} (h : Valid s)
    (hearly : s.state.value ≤ OtaState.checkUpdate.value) : s.attemptId = [] := by
  have hwindow := h.attemptWindow
  simp only [attemptWindowOk, hasAttempt, Bool.and_eq_true] at hwindow
  simpa [hearly] using hwindow.2

/-- Without a previous slot the rest of the reboot identity is empty. -/
theorem boot_of_none {s : OtaPersistentState} (h : Valid s)
    (hnone : s.previousSlot = .unknown) :
    s.expectedCandidateSlot = .unknown ∧ s.bootIdBefore = [] ∧ s.rebootContext = .none := by
  have hboot := h.boot
  simp only [bootOk, hasBoot, hnone, bne_self_eq_false, Bool.false_eq_true, if_false,
    Bool.and_eq_true, beq_iff_eq, List.isEmpty_iff] at hboot
  exact ⟨hboot.1.1, hboot.1.2, hboot.2⟩

/-- With a previous slot all of it is there. -/
theorem boot_of_some {s : OtaPersistentState} (h : Valid s)
    (hsome : s.previousSlot ≠ .unknown) :
    s.attemptId ≠ [] ∧ s.expectedCandidateSlot ≠ .unknown ∧
      s.previousSlot ≠ s.expectedCandidateSlot ∧ otaUuidValid s.bootIdBefore true = true ∧
      s.rebootContext ≠ .none := by
  have hboot := h.boot
  have hhas : hasBoot s = true := by simpa [hasBoot] using hsome
  simp only [bootOk, hhas, if_true, Bool.and_eq_true, bne_iff_ne] at hboot
  obtain ⟨⟨⟨⟨h1, h2⟩, h3⟩, h4⟩, h5⟩ := hboot
  exact ⟨by simpa [hasAttempt] using h1, h2, h3, h4, h5⟩

/-- INSTALLING to ROLLBACK have a reboot identity, earlier states have none. -/
theorem boot_window {s : OtaPersistentState} (h : Valid s) :
    (OtaState.installing.value ≤ s.state.value → s.state.value ≤ OtaState.rollback.value →
        s.previousSlot ≠ .unknown) ∧
      (s.state.value < OtaState.installing.value → s.previousSlot = .unknown) := by
  have hwindow := h.bootWindow
  simp only [bootWindowOk, hasBoot, Bool.and_eq_true] at hwindow
  constructor
  · intro hlo hhi
    simpa [hlo, hhi] using hwindow.1
  · intro hlt
    simpa [hlt] using hwindow.2

/-- The only valid IDLE state is the freshly initialised one. -/
theorem eq_init_of_idle {s : OtaPersistentState} (h : Valid s) (hidle : s.state = .idle) :
    s = otaPersistentStateInit := by
  have hid : s.attemptId = [] := attemptId_of_early h (by rw [hidle]; decide)
  have hfields := attemptFields_of_none h hid
  have hslot : s.previousSlot = .unknown := (boot_window h).2 (by rw [hidle]; decide)
  obtain ⟨hcand, hboot, hctx⟩ := boot_of_none h hslot
  have hheader := h.header
  have herror := h.error
  simp only [headerOk, Bool.and_eq_true, beq_iff_eq] at hheader
  simp only [errorOk, hidle, Bool.and_eq_true] at herror
  have hcode : s.lastError.code = .none := by simpa using herror.1.2
  have hmessage : s.lastError.message = [] := by simpa [hcode] using herror.2
  obtain ⟨schema, state, id, version, build, url, size, sha, ⟨code, message⟩, prev, cand,
    bootId, ctx⟩ := s
  simp only [attemptFields, Prod.mk.injEq] at hfields hid
  simp only at *
  obtain ⟨-, rfl, rfl, rfl, rfl, rfl⟩ := hfields
  simp [otaPersistentStateInit, OtaError.zero, hheader, hidle, hid, hslot, hcand, hboot,
    hctx, hcode, hmessage]

/-! ## Facts about one step -/

theorem sameAttempt_iff (a b : OtaPersistentState) :
    sameAttempt a b = true ↔ attemptFields a = attemptFields b := by
  simp only [sameAttempt, attemptFields, Bool.and_eq_true, beq_iff_eq, Prod.mk.injEq]
  tauto

/-- The identity guard, clause by clause. -/
theorem Step.identity {old next : OtaPersistentState} (h : Step old next)
    (hidle : next.state ≠ .idle) :
    (old.attemptId ≠ [] → attemptFields next = attemptFields old) ∧
      (old.previousSlot ≠ .unknown → bootFields next = bootFields old) ∧
      (next.rebootContext ≠ old.rebootContext →
        (old.state = .raucVerify ∧ next.state = .installing ∧
            next.rebootContext = .install) ∨
          (old.state = .healthCheck ∧ next.state = .rollback ∧
            next.rebootContext = .healthFailure)) := by
  have hkept := h.kept
  have hreset : (next.state == .idle) = false := by simpa using hidle
  simp only [identityMutated, hreset, Bool.not_false, Bool.true_and, Bool.and_true,
    Bool.or_eq_false_iff] at hkept
  obtain ⟨⟨hattempt, hboot⟩, hcontext⟩ := hkept
  refine ⟨?_, ?_, ?_⟩
  · intro hold
    have hhas : hasAttempt old = true := by simpa [hasAttempt] using hold
    have hsame : sameAttempt old next = true := by simpa [hhas] using hattempt
    exact ((sameAttempt_iff old next).mp hsame).symm
  · intro hold
    have hne : (old.previousSlot != .unknown) = true := by simpa using hold
    simp only [hne, Bool.true_and, Bool.or_eq_false_iff, bne_eq_false_iff_eq] at hboot
    simp [bootFields, hboot]
  · intro hchange
    have hne : (next.rebootContext != old.rebootContext) = true := by simpa using hchange
    simp only [hne, Bool.true_and] at hcontext
    by_cases h1 : old.state = .raucVerify ∧ next.state = .installing ∧
        next.rebootContext = .install
    · exact .inl h1
    · by_cases h2 : old.state = .healthCheck ∧ next.state = .rollback ∧
          next.rebootContext = .healthFailure
      · exact .inr h2
      · exfalso
        simp only [Bool.and_eq_false_iff, Bool.not_eq_false', Bool.and_eq_true,
          beq_iff_eq] at hcontext
        tauto

/-- The rows of the transition table that lead to a given state. -/
private theorem allowed_to {source target : OtaState}
    (h : otaTransitionAllowed source target = true) :
    source ≠ .error ∧ (source = .rollback → target = .error) ∧
      (target = .installing → source = .raucVerify) ∧
      (target = .raucVerify → source = .verifyDownload) ∧
      (target = .verifyDownload → source = .downloading) ∧
      (target = .downloading → source = .precheck) ∧
      (target = .precheck → source = .checkUpdate) := by
  cases source <;> cases target <;> first | decide | cases h

/-! ## Facts about chains -/

/-- Every state of a chain is valid. -/
theorem Chain.valid {trace : List OtaPersistentState} (h : Chain trace) :
    ∀ s ∈ trace, Valid s := by
  induction h with
  | init =>
      intro s hs
      rw [List.mem_singleton.mp hs]
      exact valid_blocks valid_init
  | step _ hstep ih =>
      intro s hs
      rcases List.mem_cons.mp hs with rfl | hs
      · exact valid_blocks hstep.valid
      · exact ih s hs

/-- What remains after dropping the newest states is a chain. -/
theorem Chain.suffix (later : List OtaPersistentState) {s : OtaPersistentState}
    {rest : List OtaPersistentState} (h : Chain (later ++ s :: rest)) : Chain (s :: rest) := by
  induction later with
  | nil => exact h
  | cons next later ih =>
      rw [List.cons_append] at h
      generalize htail : later ++ s :: rest = tail at h ih
      cases h with
      | init => simp at htail
      | step hchain _ => exact ih hchain

/-- Two neighbours in a chain are a step. -/
theorem Chain.step_of_adjacent (later : List OtaPersistentState)
    {next old : OtaPersistentState} {rest : List OtaPersistentState}
    (h : Chain (later ++ next :: old :: rest)) : Step old next := by
  have hsuffix := h.suffix later
  cases hsuffix with
  | step _ hstep => exact hstep

/-- A value that every step away from IDLE keeps is kept over any stretch
without IDLE. -/
theorem Chain.stretch {α : Type} {field : OtaPersistentState → α}
    (set : OtaPersistentState → Prop)
    (hkeep : ∀ old next, Step old next → next.state ≠ .idle → set old →
      field next = field old ∧ set next)
    {b a : OtaPersistentState} {mid earlier : List OtaPersistentState}
    (h : Chain (b :: (mid ++ a :: earlier))) (ha : set a)
    (hidle : ∀ c ∈ b :: mid, c.state ≠ .idle) : field b = field a ∧ set b := by
  induction mid generalizing b with
  | nil =>
      cases h with
      | step _ hstep => exact hkeep a b hstep (hidle b (by simp)) ha
  | cons c mid ih =>
      cases h with
      | step hchain hstep =>
          obtain ⟨hfield, hset⟩ := ih hchain fun x hx => hidle x (by simp_all)
          obtain ⟨hfield', hset'⟩ := hkeep c b hstep (hidle b (by simp)) hset
          exact ⟨hfield'.trans hfield, hset'⟩

theorem attempt_kept {old next : OtaPersistentState} (h : Step old next)
    (hidle : next.state ≠ .idle) (hold : old.attemptId ≠ []) :
    attemptFields next = attemptFields old ∧ next.attemptId ≠ [] := by
  have hfields := (h.identity hidle).1 hold
  refine ⟨hfields, ?_⟩
  have hid : next.attemptId = old.attemptId := congrArg Prod.fst hfields
  rw [hid]
  exact hold

theorem boot_kept {old next : OtaPersistentState} (h : Step old next)
    (hidle : next.state ≠ .idle) (hold : old.previousSlot ≠ .unknown) :
    bootFields next = bootFields old ∧ next.previousSlot ≠ .unknown := by
  have hfields := (h.identity hidle).2.1 hold
  refine ⟨hfields, ?_⟩
  have hslot : next.previousSlot = old.previousSlot := congrArg Prod.fst hfields
  rw [hslot]
  exact hold

/-- The reboot identity appears at the step into INSTALLING and nowhere else. -/
theorem boot_set_iff {old next : OtaPersistentState} (hold : Valid old) (h : Step old next) :
    (old.previousSlot = .unknown ∧ next.previousSlot ≠ .unknown) ↔
      (old.state = .raucVerify ∧ next.state = .installing) := by
  have hnext := valid_blocks h.valid
  constructor
  · rintro ⟨hunset, hset⟩
    have hidle : next.state ≠ .idle := by
      intro hi
      exact hset ((boot_window hnext).2 (by rw [hi]; decide))
    -- a reboot identity needs a reboot context, and that changes at two steps only
    have hctx : next.rebootContext ≠ old.rebootContext := by
      rw [(boot_of_none hold hunset).2.2]
      exact (boot_of_some hnext hset).2.2.2.2
    rcases (h.identity hidle).2.2 hctx with ⟨h1, h2, -⟩ | ⟨h1, -, -⟩
    · exact ⟨h1, h2⟩
    · exact absurd hunset ((boot_window hold).1 (by rw [h1]; decide) (by rw [h1]; decide))
  · rintro ⟨h1, h2⟩
    exact ⟨(boot_window hold).2 (by rw [h1]; decide),
      (boot_window hnext).1 (by rw [h2]) (by rw [h2]; decide)⟩

/-- What precedes INSTALLING in a chain. -/
theorem Chain.before_installing {s : OtaPersistentState} {rest : List OtaPersistentState}
    (h : Chain (s :: rest)) (hs : s.state = .installing) :
    ∃ verified checked downloading precheck earlier,
      rest = verified :: checked :: downloading :: precheck :: earlier ∧
      verified.state = .raucVerify ∧ checked.state = .verifyDownload ∧
      downloading.state = .downloading ∧ precheck.state = .precheck := by
  -- peel one state off at a time; the table names its only predecessor
  cases h with
  | init => simp [otaPersistentStateInit] at hs
  | @step verified _ rest1 h1 hstep1 =>
      have hv := (allowed_to hstep1.allowed).2.2.1 hs
      cases h1 with
      | init => simp [otaPersistentStateInit] at hv
      | @step checked _ rest2 h2 hstep2 =>
          have hc := (allowed_to hstep2.allowed).2.2.2.1 hv
          cases h2 with
          | init => simp [otaPersistentStateInit] at hc
          | @step downloading _ rest3 h3 hstep3 =>
              have hd := (allowed_to hstep3.allowed).2.2.2.2.1 hc
              cases h3 with
              | init => simp [otaPersistentStateInit] at hd
              | @step precheck _ rest4 h4 hstep4 =>
                  have hp := (allowed_to hstep4.allowed).2.2.2.2.2.1 hd
                  exact ⟨verified, checked, downloading, precheck, rest4, rfl, hv, hc, hd, hp⟩

/-! ## The discipline -/

/-- The rules an attempt obeys in a list of accepted states, newest first. -/
structure Discipline (trace : List OtaPersistentState) : Prop where
  /-- Once set, the attempt does not change until the next IDLE. -/
  attempt : ∀ later b mid a earlier, trace = later ++ b :: (mid ++ a :: earlier) →
    a.attemptId ≠ [] → (∀ c ∈ b :: mid, c.state ≠ .idle) →
    attemptFields b = attemptFields a
  /-- The reboot identity is set exactly by the step from RAUC_VERIFY to
  INSTALLING, all of it at once. -/
  bootSet : ∀ later next old earlier, trace = later ++ next :: old :: earlier →
    ((bootFields old = (.unknown, .unknown, []) ∧
        next.previousSlot ≠ .unknown ∧ next.expectedCandidateSlot ≠ .unknown ∧
        next.bootIdBefore ≠ []) ↔
      (old.state = .raucVerify ∧ next.state = .installing))
  /-- Any of its fields is set only when all are. -/
  bootWhole : ∀ s ∈ trace, bootFields s = (.unknown, .unknown, []) ∨
    (s.previousSlot ≠ .unknown ∧ s.expectedCandidateSlot ≠ .unknown ∧ s.bootIdBefore ≠ [])
  /-- Once set, the reboot identity does not change until the next IDLE. -/
  boot : ∀ later b mid a earlier, trace = later ++ b :: (mid ++ a :: earlier) →
    a.previousSlot ≠ .unknown → (∀ c ∈ b :: mid, c.state ≠ .idle) →
    bootFields b = bootFields a
  /-- The reboot context changes at two steps, or is reset by IDLE. -/
  context : ∀ later next old earlier, trace = later ++ next :: old :: earlier →
    next.rebootContext ≠ old.rebootContext →
    (old.state = .raucVerify ∧ next.state = .installing) ∨
      (old.state = .healthCheck ∧ next.state = .rollback) ∨ next.state = .idle
  /-- Every accepted IDLE state is the freshly initialised one. -/
  idle : ∀ s ∈ trace, s.state = .idle → s = otaPersistentStateInit
  /-- INSTALLING follows the four checking phases of the same attempt. -/
  installing : ∀ later s earlier, trace = later ++ s :: earlier → s.state = .installing →
    ∃ verified checked downloading precheck rest,
      earlier = verified :: checked :: downloading :: precheck :: rest ∧
      (verified.state = .raucVerify ∧ attemptFields verified = attemptFields s) ∧
      (checked.state = .verifyDownload ∧ attemptFields checked = attemptFields s) ∧
      (downloading.state = .downloading ∧ attemptFields downloading = attemptFields s) ∧
      (precheck.state = .precheck ∧ attemptFields precheck = attemptFields s)
  /-- ERROR is never left and ROLLBACK only for ERROR. -/
  terminal : ∀ later next old earlier, trace = later ++ next :: old :: earlier →
    old.state ≠ .error ∧ (old.state = .rollback → next.state = .error)

private theorem attemptId_of_precheck {s : OtaPersistentState} (h : Valid s)
    (hs : s.state = .precheck) : s.attemptId ≠ [] := by
  have hwindow := h.attemptWindow
  simp only [attemptWindowOk, hasAttempt, hs, Bool.and_eq_true] at hwindow
  simpa [OtaState.value] using hwindow.1

private theorem bootFields_of_none {s : OtaPersistentState} (h : Valid s)
    (hnone : s.previousSlot = .unknown) : bootFields s = (.unknown, .unknown, []) := by
  obtain ⟨hcand, hboot, -⟩ := boot_of_none h hnone
  simp [bootFields, hnone, hcand, hboot]

private theorem bootFields_of_some {s : OtaPersistentState} (h : Valid s)
    (hsome : s.previousSlot ≠ .unknown) :
    s.previousSlot ≠ .unknown ∧ s.expectedCandidateSlot ≠ .unknown ∧ s.bootIdBefore ≠ [] := by
  obtain ⟨-, hcand, -, huuid, -⟩ := boot_of_some h hsome
  exact ⟨hsome, hcand, ne_nil_of_uuid huuid⟩

/-- A chain of legal steps keeps the discipline; the attempt and the boot record are
followed from one entry to the next. -/
theorem discipline_of_chain {trace : List OtaPersistentState} (h : Chain trace) :
    Discipline trace where
  attempt := by
    rintro later b mid a earlier rfl ha hidle
    exact ((h.suffix _).stretch (fun s => s.attemptId ≠ [])
      (fun _ _ hstep hi hold => attempt_kept hstep hi hold) ha hidle).1
  boot := by
    rintro later b mid a earlier rfl ha hidle
    exact ((h.suffix _).stretch (fun s => s.previousSlot ≠ .unknown)
      (fun _ _ hstep hi hold => boot_kept hstep hi hold) ha hidle).1
  bootSet := by
    rintro later next old earlier rfl
    have hold := h.valid old (by simp)
    have hnext := h.valid next (by simp)
    rw [← boot_set_iff hold (h.step_of_adjacent _)]
    constructor
    · rintro ⟨hfields, hset, -⟩
      exact ⟨congrArg Prod.fst hfields, hset⟩
    · rintro ⟨hunset, hset⟩
      exact ⟨bootFields_of_none hold hunset, bootFields_of_some hnext hset⟩
  bootWhole := by
    intro s hs
    by_cases hslot : s.previousSlot = .unknown
    · exact .inl (bootFields_of_none (h.valid s hs) hslot)
    · exact .inr (bootFields_of_some (h.valid s hs) hslot)
  context := by
    rintro later next old earlier rfl hchange
    by_cases hidle : next.state = .idle
    · exact .inr (.inr hidle)
    · rcases ((h.step_of_adjacent _).identity hidle).2.2 hchange with ⟨h1, h2, -⟩ | ⟨h1, h2, -⟩
      · exact .inl ⟨h1, h2⟩
      · exact .inr (.inl ⟨h1, h2⟩)
  idle := fun s hs hidle => eq_init_of_idle (h.valid s hs) hidle
  installing := by
    rintro later s earlier rfl hs
    have hchain := h.suffix _
    obtain ⟨verified, checked, downloading, precheck, rest, rfl, hv, hc, hd, hp⟩ :=
      hchain.before_installing hs
    have hid := attemptId_of_precheck (hchain.valid precheck (by simp)) hp
    -- each of the three later states keeps the attempt of PRECHECK, and so does `s`
    have hsame : ∀ next old tail, Chain (next :: old :: tail) → next.state ≠ .idle →
        old.attemptId ≠ [] →
        attemptFields next = attemptFields old ∧ next.attemptId ≠ [] :=
      fun next old tail hc hi ho =>
        attempt_kept (Chain.step_of_adjacent [] hc) hi ho
    have hchain1 := Chain.suffix [s] hchain
    have hchain2 := Chain.suffix [verified] hchain1
    have hchain3 := Chain.suffix [checked] hchain2
    obtain ⟨hfd, hdid⟩ := hsame _ _ _ hchain3 (by rw [hd]; decide) hid
    obtain ⟨hfc, hcid⟩ := hsame _ _ _ hchain2 (by rw [hc]; decide) hdid
    obtain ⟨hfv, hvid⟩ := hsame _ _ _ hchain1 (by rw [hv]; decide) hcid
    obtain ⟨hfs, -⟩ := hsame _ _ _ hchain (by rw [hs]; decide) hvid
    exact ⟨verified, checked, downloading, precheck, rest, rfl, ⟨hv, hfs.symm⟩,
      ⟨hc, by rw [hfs, hfv]⟩, ⟨hd, by rw [hfs, hfv, hfc]⟩,
      ⟨hp, by rw [hfs, hfv, hfc, hfd]⟩⟩
  terminal := by
    rintro later next old earlier rfl
    have hallowed := allowed_to (h.step_of_adjacent _).allowed
    exact ⟨hallowed.1, hallowed.2.1⟩

/-- Whatever states are proposed, in whatever order, the accepted ones keep the
discipline of an attempt. -/
theorem discipline_accepted (path : Bytes) (calls : List OtaPersistentState) :
    Discipline (accepted path calls) :=
  discipline_of_chain (chain_accepted path calls)

end EdgeGuard.Agent.AttemptDiscipline
