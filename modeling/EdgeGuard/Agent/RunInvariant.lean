import EdgeGuard.Agent.Run

/-!
# The invariant of the running agent

An attempt goes up through the states, and the three phases that must not be
repeated (INSTALLING, HEALTH_CHECK, MARK_GOOD) are entered only after a
completed save.  So a record of such a phase in the log is a lower bound for
every state the file may come back with: that is `DeviceInv`, which holds after
every single act.  At the head of the run loop `Ready` adds what the process
knows about its current state, boot and slot.

## Main results

* `good_start`, `good_pass` — a start and a pass keep `DeviceInv` at every
  crash point, and leave a running process `Ready`.
* `reach_inv` — the invariant holds in every run.
-/

namespace EdgeGuard.Agent.RunInvariant

open EdgeGuard.Base.CText EdgeGuard.Base.Json EdgeGuard.Base.DurableFile EdgeGuard.Base
open EdgeGuard.Base.Trace
open EdgeGuard.Agent.Model EdgeGuard.Agent.Persistence EdgeGuard.Agent.PersistenceRoundTrip
open EdgeGuard.Agent.StateMachine EdgeGuard.Agent.AttemptDiscipline
open EdgeGuard.Agent.Services EdgeGuard.Agent.Run

/-! ## Critical work in the log -/

/-- The phases whose work is never repeated. -/
def critical (state : OtaState) : Bool :=
  [OtaState.installing, .healthCheck, .markGood].contains state

/-- The state whose critical work an entry records: a call of the phase
callback, an effect of the call, or a start that finds the phase durable, that
is, interrupted. -/
def subject (J : JsonParser) (e : Entry) : Option OtaPersistentState :=
  match e.act with
  | .phase s => if critical s.state then some s else none
  | .service (.install s) => some s
  | .service (.health s _) => some s
  | .service (.markGood s _) => some s
  | .service (.markBad s) => some s
  | .start =>
      match e.medium.older, e.medium.live with
      | [], some data => (parseState J data).filter fun s => critical s.state
      | _, _ => none
  | _ => none

/-- The entry records critical work of the attempt in the given phase. -/
def Works (J : JsonParser) (attemptId : Bytes) (state : OtaState) (e : Entry) : Prop :=
  ∃ t, subject J e = some t ∧ t.attemptId = attemptId ∧ t.state = state

/-- What an execution of mark-good needs, given the log before it. -/
structure MarkGoodOk (J : JsonParser) (earlier : List Entry) (e : Entry)
    (s : OtaPersistentState) (release : OtaRelease) : Prop where
  state : s.state = .markGood
  durable : e.medium.contents = [some (serialize s)]
  running : e.release = some release
  version : release.version = s.targetVersion
  build : release.buildId = s.buildId
  boot : e.boot ≠ s.bootIdBefore
  slot : e.reading = some s.expectedCandidateSlot
  passed : ∃ h ∈ earlier, h.lifetime = e.lifetime ∧ h.boot = e.boot ∧
    ∃ t, h.act = .service (.health t true) ∧ t.attemptId = s.attemptId
  once : ∀ h ∈ earlier, ∀ t r, h.act = .service (.markGood t r) → t.attemptId ≠ s.attemptId
  unfailed : ∀ h ∈ earlier, ∀ t, h.act = .service (.health t false) →
    t.attemptId ≠ s.attemptId
  /-- All work of HEALTH_CHECK and MARK_GOOD was done in this lifetime. -/
  uninterrupted : ∀ h ∈ earlier, ∀ state,
    OtaState.healthCheck.value ≤ state.value → Works J s.attemptId state h →
      h.lifetime = e.lifetime ∧ h.act ≠ .start

/-- What a reboot request needs. -/
structure RebootOk (e : Entry) (machine : OtaStateMachine) : Prop where
  unblocked : machine.blocked = false
  valid : stateValid machine.current = true
  durable : e.medium.contents = [some (serialize machine.current)]
  reason : (machine.current.state = .rebootPending ∧ e.boot = machine.current.bootIdBefore) ∨
    (machine.current.state = .rollback ∧ machine.current.rebootContext = .healthFailure ∧
      e.reading = some machine.current.expectedCandidateSlot)

/-- The entry is in order, given the log before it. -/
def EntryOk (J : JsonParser) (earlier : List Entry) (e : Entry) : Prop :=
  match e.act with
  | .phase s => critical s.state = true → ∀ h ∈ earlier, ∀ t, subject J h = some t →
      t.attemptId = s.attemptId → t.state.value < s.state.value
  | .service (.install s) => s.state = .installing ∧
      ∀ h ∈ earlier, ∀ t, h.act = .service (.install t) → t.attemptId ≠ s.attemptId
  | .service (.health s _) => s.state = .healthCheck ∧
      ∀ h ∈ earlier, ∀ t r, h.act = .service (.markGood t r) → t.attemptId ≠ s.attemptId
  | .service (.markGood s r) => MarkGoodOk J earlier e s r
  | .rebootRequest machine => RebootOk e machine
  | _ => True

/-- Every entry of a log is in order. -/
def Justified (J : JsonParser) : List Entry → Prop
  | [] => True
  | e :: earlier => EntryOk J earlier e ∧ Justified J earlier

theorem Justified.split {J : JsonParser} {later : List Entry} {e : Entry}
    {earlier : List Entry} (h : Justified J (later ++ e :: earlier)) :
    EntryOk J earlier e := by
  induction later with
  | nil => exact h.1
  | cons _ later ih => exact ih h.2

theorem Justified.mem {J : JsonParser} {log : List Entry} (h : Justified J log) {e : Entry}
    (he : e ∈ log) : ∃ earlier, EntryOk J earlier e := by
  obtain ⟨later, earlier, rfl⟩ := List.append_of_mem he
  exact ⟨earlier, h.split⟩

/-! ## The invariant of the device -/

/-- The recorded critical work of the state's attempt is not beyond the state.
ERROR states are left out: nothing ever follows them. -/
def Covered (J : JsonParser) (d : Device) (s : OtaPersistentState) : Prop :=
  s.state ≠ .error → s.attemptId ≠ [] →
    s.attemptId ∈ d.issued ∧
      ∀ e ∈ d.log, ∀ t, subject J e = some t → t.attemptId = s.attemptId →
        t.state.value ≤ s.state.value

/-- The invariant at every point of every run. -/
structure DeviceInv (J : JsonParser) (d : Device) : Prop where
  covered : d.medium.Holds fun data => ∀ s, parseState J data = some s → Covered J d s
  issued : ∀ e ∈ d.log, ∀ t, subject J e = some t → t.attemptId ∈ d.issued
  justified : Justified J d.log

variable {J : JsonParser}

/-! ### Frame facts -/

section Frame

variable (d : Device) (a : Act) (acts : List Act)

@[simp] theorem perform_boot : (d.perform a).boot = d.boot := rfl

@[simp] theorem perform_lifetime : (d.perform a).lifetime = d.lifetime := rfl

@[simp] theorem perform_release : (d.perform a).release = d.release := rfl

@[simp] theorem perform_issued : (d.perform a).issued = d.issued := rfl

@[simp] theorem run_boot : (d.run acts).boot = d.boot := by
  induction acts generalizing d with
  | nil => rfl
  | cons a acts ih => exact ih (d.perform a)

@[simp] theorem run_lifetime : (d.run acts).lifetime = d.lifetime := by
  induction acts generalizing d with
  | nil => rfl
  | cons a acts ih => exact ih (d.perform a)

@[simp] theorem run_release : (d.run acts).release = d.release := by
  induction acts generalizing d with
  | nil => rfl
  | cons a acts ih => exact ih (d.perform a)

@[simp] theorem run_issued : (d.run acts).issued = d.issued := by
  induction acts generalizing d with
  | nil => rfl
  | cons a acts ih => exact ih (d.perform a)

/-- The log grows by one entry for each act. -/
theorem mem_log_run {e : Entry} :
    e ∈ (d.run acts).log ↔
      e ∈ d.log ∨ ∃ front a back, acts = front ++ a :: back ∧ e = (d.run front).entry a := by
  induction acts generalizing d with
  | nil => simp
  | cons a acts ih =>
      have hstep := ih (d.perform a)
      rw [show d.run (a :: acts) = (d.perform a).run acts from rfl, hstep]
      constructor
      · rintro (h | ⟨front, b, back, rfl, rfl⟩)
        · rcases List.mem_cons.mp h with rfl | h
          · exact .inr ⟨[], a, acts, rfl, rfl⟩
          · exact .inl h
        · exact .inr ⟨a :: front, b, back, rfl, rfl⟩
      · rintro (h | ⟨front, b, back, hsplit, rfl⟩)
        · exact .inl (List.mem_cons_of_mem _ h)
        · cases front with
          | nil =>
              simp only [List.nil_append, List.cons.injEq] at hsplit
              obtain ⟨rfl, rfl⟩ := hsplit
              exact .inl (List.mem_cons_self ..)
          | cons c front =>
              simp only [List.cons_append, List.cons.injEq] at hsplit
              obtain ⟨rfl, rfl⟩ := hsplit
              exact .inr ⟨front, b, back, rfl, rfl⟩

end Frame

/-- Acts that record no critical work. -/
def quiet : Act → Bool
  | .file _ => true
  | .service (.getCurrent _) => true
  | .rebootRequest _ => true
  | _ => false

theorem subject_of_quiet {d : Device} {a : Act} (h : quiet a = true) :
    subject J (d.entry a) = none := by
  cases a with
  | file => rfl
  | rebootRequest => rfl
  | service effect => cases effect <;> first | rfl | cases h
  | start => cases h
  | phase => cases h

/-- Quiet acts record nothing. -/
theorem mem_log_of_quiet {d : Device} {acts : List Act} (hquiet : ∀ a ∈ acts, quiet a = true)
    {e : Entry} {t : OtaPersistentState} (he : e ∈ (d.run acts).log)
    (ht : subject J e = some t) : e ∈ d.log := by
  rcases (mem_log_run d acts).mp he with he | ⟨front, a, back, rfl, rfl⟩
  · exact he
  · rw [subject_of_quiet (hquiet a (by simp))] at ht
    cases ht

theorem covered_quiet {d : Device} {acts : List Act} {s : OtaPersistentState}
    (hquiet : ∀ a ∈ acts, quiet a = true) (h : Covered J d s) : Covered J (d.run acts) s := by
  intro hstate hattempt
  obtain ⟨hissued, hlog⟩ := h hstate hattempt
  refine ⟨by simpa using hissued, fun e he t ht => ?_⟩
  exact hlog e (mem_log_of_quiet hquiet he ht) t ht

/-! ### One act -/

/-- What an act must satisfy to keep the invariant. -/
structure Permits (J : JsonParser) (d : Device) (a : Act) : Prop where
  entry : EntryOk J d.log (d.entry a)
  file : ∀ c, a = .file (.replace c) → ∀ s, parseState J c = some s → Covered J d s
  subject : ∀ t, subject J (d.entry a) = some t → t.attemptId ∈ d.issued ∧
    ∀ data, some data ∈ d.medium.contents → ∀ s, parseState J data = some s →
      s.state ≠ .error → s.attemptId = t.attemptId → t.state.value ≤ s.state.value

/-- An act leaves a state covered unless it is about a later state of the same attempt. -/
private theorem covered_perform {d : Device} {a : Act} {s : OtaPersistentState}
    (h : Covered J d s)
    (ha : ∀ t, subject J (d.entry a) = some t → s.state ≠ .error →
      t.attemptId = s.attemptId → t.state.value ≤ s.state.value) :
    Covered J (d.perform a) s := by
  intro hstate hattempt
  obtain ⟨hissued, hlog⟩ := h hstate hattempt
  refine ⟨hissued, fun e he t ht hid => ?_⟩
  rcases List.mem_cons.mp he with rfl | he
  · exact ha t ht hstate hid
  · exact hlog e he t ht hid

/-- The invariant is kept by every act that is permitted. -/
theorem DeviceInv.perform {d : Device} (h : DeviceInv J d) {a : Act} (ha : Permits J d a) :
    DeviceInv J (d.perform a) := by
  refine ⟨?_, ?_, ha.entry, h.justified⟩
  · cases a with
    | file act =>
        have hkeep : ∀ s, Covered J d s → Covered J (d.perform (.file act)) s :=
          fun s hs => covered_perform hs fun t ht => by cases ht
        refine Medium.Holds.act (h.covered.mono fun c hc s hs => hkeep s (hc s hs)) ?_
        rintro c rfl s hs
        exact hkeep s (ha.file c rfl s hs)
    | _ =>
        intro data hdata s hs
        exact covered_perform (h.covered data hdata s hs) fun t ht hstate hid =>
          (ha.subject t ht).2 data hdata s hs hstate hid.symm
  · intro e he t ht
    rcases List.mem_cons.mp he with rfl | he
    · exact (ha.subject t ht).1
    · exact h.issued e he t ht

private theorem permits_quiet {d : Device} {a : Act} (hquiet : quiet a = true)
    (hentry : EntryOk J d.log (d.entry a))
    (hfile : ∀ c, a = .file (.replace c) → ∀ s, parseState J c = some s → Covered J d s) :
    Permits J d a := by
  refine ⟨hentry, hfile, fun t ht => ?_⟩
  rw [subject_of_quiet hquiet] at ht
  cases ht

theorem permits_look (d : Device) (slot : Option OtaSlot) :
    Permits J d (.service (.getCurrent slot)) :=
  permits_quiet rfl trivial (by simp)

theorem permits_sync (d : Device) : Permits J d (.file .sync) :=
  permits_quiet rfl trivial (by simp)

theorem permits_replace {d : Device} {s : OtaPersistentState} (hvalid : stateValid s = true)
    (h : Covered J d s) : Permits J d (.file (.replace (serialize s))) := by
  refine permits_quiet rfl trivial ?_
  intro c hc t ht
  cases hc
  rw [eq_of_parseState_serialize J hvalid ht]
  exact h

theorem permits_request {d : Device} {machine : OtaStateMachine}
    (h : RebootOk (d.entry (.rebootRequest machine)) machine) :
    Permits J d (.rebootRequest machine) :=
  permits_quiet rfl h (by simp)

/-! ### Sequences of acts -/

/-- The invariant holds wherever the acts are interrupted. -/
abbrev Safe (J : JsonParser) (d : Device) (acts : List Act) : Prop :=
  Keeps Device.perform (DeviceInv J) d acts

theorem safe_one {d : Device} (h : DeviceInv J d) {a : Act} (ha : Permits J d a) :
    Safe J d [a] :=
  keeps_cons h (keeps_nil (h.perform ha))

theorem safe_saved {d : Device} (h : DeviceInv J d) {s : OtaPersistentState}
    (hvalid : stateValid s = true) (hs : Covered J d s) : Safe J d (savedActs s) := by
  have hreplace := h.perform (permits_replace hvalid hs)
  exact keeps_cons h (keeps_cons hreplace (keeps_nil (hreplace.perform (permits_sync _))))

theorem quiet_saved (s : OtaPersistentState) : ∀ a ∈ savedActs s, quiet a = true := by
  simp [savedActs, quiet]

@[simp] theorem reading_run_saved (d : Device) (s : OtaPersistentState) :
    (d.run (savedActs s)).reading = d.reading := rfl

/-- A proposed state keeps the invariant at every crash point of its save. -/
theorem safe_transition {d : Device} (h : DeviceInv J d) {machine : OtaStateMachine}
    {next : OtaPersistentState} {outcome : Outcome Unit}
    (hresult : TransitionResult machine next outcome)
    (hnext : Accepts machine next → Covered J d next) : Safe J d outcome.acts := by
  cases hresult with
  | refused => exact keeps_nil h
  | failed => exact keeps_nil h
  | uncertain _ haccepts =>
      exact safe_one h (permits_replace haccepts.valid (hnext haccepts))
  | done haccepts => exact safe_saved h haccepts.valid (hnext haccepts)

/-- A reboot keeps the invariant at every crash point. -/
theorem safe_reboot {d : Device} (h : DeviceInv J d) {machine : OtaStateMachine}
    {outcome : Outcome Unit} (hresult : RebootResult machine outcome)
    (hcurrent : Covered J d machine.current)
    (hreason : rebootAuthorised machine.current = true →
      (machine.current.state = .rebootPending ∧ d.boot = machine.current.bootIdBefore) ∨
        (machine.current.state = .rollback ∧ machine.current.rebootContext = .healthFailure ∧
          d.reading = some machine.current.expectedCandidateSlot)) :
    Safe J d outcome.acts := by
  have hrequest (hunblocked : machine.blocked = false)
      (hauth : rebootAuthorised machine.current = true)
      (hvalid : stateValid machine.current = true) :
      Safe J d (savedActs machine.current ++ [.rebootRequest machine]) := by
    have hsaved := safe_saved h hvalid hcurrent
    refine hsaved.append (safe_one hsaved.last (permits_request ?_))
    exact ⟨hunblocked, hvalid, rfl, hreason hauth⟩
  cases hresult with
  | refused => exact keeps_nil h
  | failed => exact keeps_nil h
  | uncertain _ _ _ hvalid => exact safe_one h (permits_replace hvalid hcurrent)
  | requested _ _ hunblocked hauth hvalid => exact hrequest hunblocked hauth hvalid
  | recorded _ code message outcome hunblocked hauth hvalid result =>
      have hdone := hrequest hunblocked hauth hvalid
      -- an ERROR state is covered whatever the log says
      exact hdone.append (safe_transition hdone.last result fun _ hstate => absurd rfl hstate)

/-! ## The head of the run loop -/

/-- In the lifetime and boot of now, the health check of the attempt passed, and
all its work from HEALTH_CHECK on was done. -/
structure Passed (J : JsonParser) (d : Device) (s : OtaPersistentState) : Prop where
  health : ∃ e ∈ d.log, e.lifetime = d.lifetime ∧ e.boot = d.boot ∧
    ∃ t, e.act = .service (.health t true) ∧ t.attemptId = s.attemptId
  clean : ∀ e ∈ d.log, ∀ t, subject J e = some t → t.attemptId = s.attemptId →
    OtaState.healthCheck.value ≤ t.state.value →
      e.lifetime = d.lifetime ∧ e.act ≠ .start ∧ ∀ t', e.act ≠ .service (.health t' false)

/-- What is known of the current state at the head of the run loop. -/
structure Stands (J : JsonParser) (d : Device) (s : OtaPersistentState) : Prop where
  valid : Valid s
  covered : Covered J d s
  resolved : s.state ≠ .bootNewSlot
  saved : critical s.state = true → d.medium.contents = [some (serialize s)]
  untouched : critical s.state = true → ∀ e ∈ d.log, ∀ t, subject J e = some t →
    t.attemptId = s.attemptId → t.state.value < s.state.value
  beforeBoot : s.state = .installing ∨ s.state = .rebootPending → d.boot = s.bootIdBefore
  afterBoot : s.state = .healthCheck ∨ s.state = .markGood →
    d.boot ≠ s.bootIdBefore ∧ d.reading = some s.expectedCandidateSlot
  passed : s.state = .markGood → Passed J d s

/-- States about which nothing more need be known. -/
def plain (state : OtaState) : Bool :=
  !critical state && state != .rebootPending && state != .bootNewSlot

/-- In a plain state nothing is asked of the log but that it covers the state. -/
theorem stands_of_plain {d : Device} {s : OtaPersistentState} (hvalid : Valid s)
    (hcovered : Covered J d s) (hplain : plain s.state = true) : Stands J d s := by
  refine ⟨hvalid, hcovered, ?_, ?_, ?_, ?_, ?_, ?_⟩ <;> intro h
  · rw [h] at hplain
    cases hplain
  · simp [plain, h] at hplain
  · simp [plain, h] at hplain
  · rcases h with h | h <;> (rw [h] at hplain; cases hplain)
  · rcases h with h | h <;> (rw [h] at hplain; cases hplain)
  · rw [h] at hplain
    cases hplain

structure Ready (J : JsonParser) (d : Device) (machine : OtaStateMachine)
    (release : OtaRelease) : Prop where
  unblocked : machine.blocked = false
  release : d.release = some release
  stands : Stands J d machine.current

/-- A part of the program keeps the invariant at every crash point, and leaves
a running process ready. -/
structure Good (J : JsonParser) (d : Device) (p : Progress) : Prop where
  safe : Safe J d p.acts
  ready : ∀ machine release firstPoll, p.proc = .running machine release firstPoll →
    Ready J (d.run p.acts) machine release

theorem good_exit {d : Device} {acts : List Act} {code : Nat} {error : OtaError}
    (h : Safe J d acts) : Good J d ⟨acts, .exited code error⟩ :=
  ⟨h, fun _ _ _ hproc => by cases hproc⟩

theorem good_running {d : Device} {acts : List Act} {machine : OtaStateMachine}
    {release : OtaRelease} {firstPoll : Bool} (h : Safe J d acts)
    (hready : Ready J (d.run acts) machine release) :
    Good J d ⟨acts, .running machine release firstPoll⟩ := by
  refine ⟨h, fun _ _ _ hproc => ?_⟩
  cases hproc
  exact hready

theorem Good.after {d : Device} {acts : List Act} {p : Progress} (hacts : Safe J d acts)
    (h : Good J (d.run acts) p) : Good J d (p.after acts) := by
  refine ⟨hacts.append h.safe, fun machine release firstPoll hproc => ?_⟩
  have hready := h.ready machine release firstPoll hproc
  simpa using hready

theorem good_reboot {d : Device} {outcome : Outcome Unit} (h : Safe J d outcome.acts) :
    Good J d (exitReboot outcome) := by
  unfold exitReboot
  split
  · exact good_exit h
  · exact good_exit h

/-! ## Accepted transitions -/

/-- The states from PRECHECK to ROLLBACK have an attempt. -/
theorem attemptId_of_window {s : OtaPersistentState} (h : Valid s)
    (hlo : OtaState.precheck.value ≤ s.state.value)
    (hhi : s.state.value ≤ OtaState.rollback.value) : s.attemptId ≠ [] := by
  have hwindow := h.attemptWindow
  simp only [attemptWindowOk, hasAttempt, Bool.and_eq_true] at hwindow
  simpa [hlo, hhi] using hwindow.1

theorem window_of_critical {state : OtaState} (h : critical state = true) :
    OtaState.installing.value ≤ state.value ∧ state.value ≤ OtaState.rollback.value ∧
      state ≠ .error := by
  cases state <;> first | (exact by decide) | cases h

/-- The rows of the table as the run loop needs them. -/
theorem allowed_rows {source target : OtaState}
    (h : otaTransitionAllowed source target = true) :
    source ≠ .error ∧ source ≠ .count ∧
      (source.value ≤ OtaState.checkUpdate.value → OtaState.precheck.value ≤ target.value →
        target ≠ .error → source = .checkUpdate ∧ target = .precheck) ∧
      (target = .precheck → source = .checkUpdate) ∧
      (target = .installing → source = .raucVerify) ∧
      (target = .rebootPending → source = .installing) ∧
      (target = .bootNewSlot → source = .rebootPending) ∧
      (target = .healthCheck → source = .bootNewSlot) ∧
      (target = .markGood → source = .healthCheck) ∧
      (target = .rollback → source = .bootNewSlot ∨ source = .healthCheck) := by
  cases source <;> cases target <;> first | decide | cases h

section Accepted

variable {d : Device} {machine : OtaStateMachine} {next : OtaPersistentState}

theorem Accepts.step (h : Accepts machine next) :
    AttemptDiscipline.Step machine.current next :=
  ⟨h.allowed, h.valid, h.kept⟩

/-- Every state after PRECHECK carries the attempt of the one before it. -/
theorem attempt_carried (h : Accepts machine next) (hvalid : Valid machine.current)
    (herror : next.state ≠ .error) (hattempt : next.attemptId ≠ [])
    (hnew : ¬(machine.current.state = .checkUpdate ∧ next.state = .precheck)) :
    next.attemptId = machine.current.attemptId ∧ machine.current.state ≠ .error ∧
      machine.current.attemptId ≠ [] ∧ machine.current.state.value < next.state.value := by
  have hrows := allowed_rows h.allowed
  have hnext := valid_blocks h.valid
  have hlate : OtaState.precheck.value ≤ next.state.value := by
    by_contra hearly
    refine hattempt (attemptId_of_early hnext ?_)
    simp only [OtaState.value] at hearly ⊢
    omega
  have hidle : next.state ≠ .idle := by
    intro hidle
    rw [hidle] at hlate
    exact absurd hlate (by decide)
  have hold : machine.current.attemptId ≠ [] := by
    refine attemptId_of_window hvalid ?_ ?_
    · by_contra hearly
      refine hnew (hrows.2.2.1 ?_ hlate herror)
      simp only [OtaState.value] at hearly ⊢
      omega
    · revert hrows
      cases machine.current.state <;> first | (intro; decide) | simp
  have hid := congrArg Prod.fst ((Accepts.step h).identity hidle |>.1 hold)
  exact ⟨hid, hrows.1, hold, (allowed_value_lt h.allowed).resolve_left hidle⟩

/-- Critical work of the attempt so far lies below an accepted critical
state. -/
theorem untouched_next (h : Accepts machine next) (hvalid : Valid machine.current)
    (hcurrent : Covered J d machine.current) (hcritical : critical next.state = true) :
    ∀ e ∈ d.log, ∀ t, subject J e = some t → t.attemptId = next.attemptId →
      t.state.value < next.state.value := by
  obtain ⟨hlo, hhi, herror⟩ := window_of_critical hcritical
  have hattempt : next.attemptId ≠ [] :=
    attemptId_of_window (valid_blocks h.valid) (le_trans (by decide) hlo) hhi
  have hnew : ¬(machine.current.state = .checkUpdate ∧ next.state = .precheck) := by
    rintro ⟨-, hprecheck⟩
    rw [hprecheck] at hcritical
    cases hcritical
  obtain ⟨hid, hstate, hold, hlt⟩ := attempt_carried h hvalid herror hattempt hnew
  intro e he t ht hsame
  exact lt_of_le_of_lt ((hcurrent hstate hold).2 e he t ht (hsame.trans hid)) hlt

/-- An accepted state is covered, if the attempt it may begin is a new one. -/
theorem covered_next (h : Accepts machine next) (hvalid : Valid machine.current)
    (hcurrent : Covered J d machine.current)
    (hfresh : machine.current.state = .checkUpdate → next.state = .precheck →
      next.attemptId ∈ d.issued ∧
        ∀ e ∈ d.log, ∀ t, subject J e = some t → t.attemptId ≠ next.attemptId) :
    Covered J d next := by
  intro herror hattempt
  by_cases hnew : machine.current.state = .checkUpdate ∧ next.state = .precheck
  · obtain ⟨hissued, hlog⟩ := hfresh hnew.1 hnew.2
    exact ⟨hissued, fun e he t ht hid => absurd hid (hlog e he t ht)⟩
  · obtain ⟨hid, hstate, hold, hlt⟩ := attempt_carried h hvalid herror hattempt hnew
    obtain ⟨hissued, hlog⟩ := hcurrent hstate hold
    rw [hid]
    exact ⟨hissued, fun e he t ht hsame => (hlog e he t ht hsame).trans hlt.le⟩

/-- From INSTALLING on the slots and the boot id stay. -/
theorem boot_carried (h : Accepts machine next) (hvalid : Valid machine.current)
    (hidle : next.state ≠ .idle)
    (hlo : OtaState.installing.value ≤ machine.current.state.value)
    (hhi : machine.current.state.value ≤ OtaState.rollback.value) :
    next.expectedCandidateSlot = machine.current.expectedCandidateSlot ∧
      next.bootIdBefore = machine.current.bootIdBefore := by
  have hslot := (boot_window hvalid).1 hlo hhi
  have hfields := ((Accepts.step h).identity hidle).2.1 hslot
  simp only [bootFields, Prod.mk.injEq] at hfields
  exact hfields.2

end Accepted

/-! ## The call of the phase callback -/

/-- The acts of a call. -/
def callActs (s : OtaPersistentState) (effects : List Effect) : List Act :=
  .phase s :: effects.map .service

theorem mem_log_acts {d : Device} {acts : List Act} {e : Entry}
    (he : e ∈ (d.run acts).log) :
    e ∈ d.log ∨ (e.act ∈ acts ∧ e.lifetime = d.lifetime ∧ e.boot = d.boot) := by
  rcases (mem_log_run d acts).mp he with he | ⟨front, a, back, rfl, rfl⟩
  · exact .inl he
  · exact .inr ⟨by simp [Device.entry], run_lifetime d front, run_boot d front⟩

private theorem run_services (d : Device) (effects : List Effect) :
    (d.run (effects.map .service)).medium = d.medium ∧
      (d.run (effects.map .service)).reading = readingAfter d.reading effects := by
  induction effects generalizing d with
  | nil => exact ⟨rfl, rfl⟩
  | cons e effects ih =>
      have hstep := ih (d.perform (.service e))
      cases e <;> exact hstep

theorem medium_run_call (d : Device) (s : OtaPersistentState) (effects : List Effect) :
    (d.run (callActs s effects)).medium = d.medium :=
  (run_services (d.perform (.phase s)) effects).1

theorem reading_run_call (d : Device) (s : OtaPersistentState) (effects : List Effect) :
    (d.run (callActs s effects)).reading = readingAfter d.reading effects :=
  (run_services (d.perform (.phase s)) effects).2

/-- What an effect of a call found in the log is. -/
theorem mem_log_call {d : Device} {s : OtaPersistentState} {effects : List Effect} {e : Entry}
    (he : e ∈ (d.run (callActs s effects)).log) :
    e ∈ d.log ∨ (e.lifetime = d.lifetime ∧ e.boot = d.boot ∧
      (e.act = .phase s ∨ ∃ x ∈ effects, e.act = .service x)) := by
  rcases mem_log_acts he with he | ⟨hact, hlifetime, hboot⟩
  · exact .inl he
  · refine .inr ⟨hlifetime, hboot, ?_⟩
    simp only [callActs, List.mem_cons, List.mem_map] at hact
    rcases hact with hact | ⟨x, hx, hact⟩
    · exact .inl hact
    · exact .inr ⟨x, hx, hact.symm⟩

section Call

variable {P : PhaseCallback} {d : Device} {machine : OtaStateMachine} {release : OtaRelease}
  {reply : PhaseReply}

/-- Recording critical work of the saved current state is in order. -/
private theorem subject_current (hstands : Stands J d machine.current)
    (hcritical : critical machine.current.state = true) :
    machine.current.attemptId ∈ d.issued ∧
      ∀ data, some data ∈ d.medium.contents → ∀ s, parseState J data = some s →
        s.state ≠ .error → s.attemptId = machine.current.attemptId →
          machine.current.state.value ≤ s.state.value := by
  obtain ⟨hlo, hhi, herror⟩ := window_of_critical hcritical
  have hattempt := attemptId_of_window hstands.valid (le_trans (by decide) hlo) hhi
  refine ⟨(hstands.covered herror hattempt).1, ?_⟩
  intro data hdata s hs _ _
  rw [hstands.saved hcritical, List.mem_singleton, Option.some.injEq] at hdata
  rw [hdata] at hs
  have hvalid : stateValid machine.current = true := by
    have hv := hstands.valid
    simp [stateValid, hv.header, hv.texts, hv.attempt, hv.attemptWindow, hv.enums, hv.boot,
      hv.bootWindow, hv.context, hv.error]
  rw [eq_of_parseState_serialize J hvalid hs]

private theorem permits_phase (hstands : Stands J d machine.current) :
    Permits J d (.phase machine.current) := by
  refine ⟨hstands.untouched, by simp, ?_⟩
  intro t ht
  simp only [subject, Device.entry] at ht
  split at ht
  · rename_i hcritical
    cases ht
    exact subject_current hstands hcritical
  · cases ht

/-- The effects before one do not repeat it. -/
private theorem not_mem_front {p : Effect → Bool} {front back : List Effect} {e : Effect}
    (honce : (front ++ e :: back).countP p ≤ 1) (he : p e = true) :
    ∀ x ∈ front, p x = false := by
  rw [List.countP_append, List.countP_cons, he, if_pos rfl] at honce
  have hzero : front.countP p = 0 := by omega
  intro x hx
  simpa using List.countP_eq_zero.mp hzero x hx

/-- Mark-good is executed only when everything speaks for it. -/
private theorem markGood_ok (hinv : DeviceInv J d) (hready : Ready J d machine release)
    (hreply : P.replies release machine.current reply) {front back : List Effect}
    {s : OtaPersistentState} {r : OtaRelease}
    (hsplit : reply.effects = front ++ .markGood s r :: back) :
    MarkGoodOk J (d.run (callActs machine.current front)).log
      ((d.run (callActs machine.current front)).entry (.service (.markGood s r))) s r := by
  have hstands := hready.stands
  have hmem {x : Effect} (hx : x ∈ front) : x ∈ reply.effects := by simp [hsplit, hx]
  obtain ⟨rfl, hstate, rfl, hversion, hbuild⟩ :=
    P.belongs hreply (.markGood s r) (by simp [hsplit])
  have hcritical : critical machine.current.state = true := by rw [hstate]; rfl
  obtain ⟨hboot, hslot⟩ := hstands.afterBoot (.inr hstate)
  have hpassed := hstands.passed hstate
  have honce := not_mem_front (hsplit ▸ P.markGoodOnce hreply) rfl
  refine ⟨hstate, ?_, by simpa [Device.entry] using hready.release, hversion, hbuild,
    by simpa [Device.entry] using hboot, ?_, ?_, ?_, ?_, ?_⟩
  · simpa [Device.entry, medium_run_call] using hstands.saved hcritical
  · simp only [Device.entry, reading_run_call, hslot]
    exact P.markGoodSlot hreply hsplit
  · obtain ⟨h, hh, hlifetime, hsame, t, ht, hid⟩ := hpassed.health
    refine ⟨h, (mem_log_run d _).mpr (.inl hh), ?_, ?_, t, ht, hid⟩
    · simpa [Device.entry] using hlifetime
    · simpa [Device.entry] using hsame
  · intro h hh t r ht hid
    rcases mem_log_call hh with hh | ⟨-, -, hact | ⟨x, hx, hact⟩⟩
    · have hsubject : subject J h = some t := by simp [subject, ht]
      obtain ⟨earlier, hok⟩ := hinv.justified.mem hh
      simp only [EntryOk, ht] at hok
      have hlt := hstands.untouched hcritical h hh t hsubject hid
      rw [hok.state, hstate] at hlt
      exact absurd hlt (lt_irrefl _)
    · simp [hact] at ht
    · rw [hact, Act.service.injEq] at ht
      rw [ht] at hx
      cases honce _ hx
  · intro h hh t ht hid
    rcases mem_log_call hh with hh | ⟨-, -, hact | ⟨x, hx, hact⟩⟩
    · have hsubject : subject J h = some t := by simp [subject, ht]
      obtain ⟨earlier, hok⟩ := hinv.justified.mem hh
      simp only [EntryOk, ht] at hok
      exact (hpassed.clean h hh t hsubject hid (by rw [hok.1])).2.2 t ht
    · simp [hact] at ht
    · rw [hact, Act.service.injEq] at ht
      rw [ht] at hx
      have hother := (P.belongs hreply _ (hmem hx)).2
      simp [hstate] at hother
  · rintro h hh state hlate ⟨t, ht, hid, rfl⟩
    rcases mem_log_call hh with hh | ⟨hlifetime, -, hact⟩
    · obtain ⟨hlifetime, hstart, -⟩ := hpassed.clean h hh t ht hid hlate
      exact ⟨by simpa [Device.entry] using hlifetime, hstart⟩
    · refine ⟨by simpa [Device.entry] using hlifetime, ?_⟩
      rcases hact with hact | ⟨x, -, hact⟩ <;> simp [hact]

/-- Each effect of a phase is justified by the log in front of it, the earlier effects
included. -/
private theorem entry_effect (hinv : DeviceInv J d) (hready : Ready J d machine release)
    (hreply : P.replies release machine.current reply) {front back : List Effect}
    {e : Effect} (hsplit : reply.effects = front ++ e :: back) :
    EntryOk J (d.run (callActs machine.current front)).log
      ((d.run (callActs machine.current front)).entry (.service e)) := by
  have hstands := hready.stands
  have hmem {x : Effect} (hx : x ∈ front) : x ∈ reply.effects := by simp [hsplit, hx]
  have hbelongs := P.belongs hreply e (by simp [hsplit])
  cases e with
  | getCurrent => trivial
  | markBad => trivial
  | markGood s r => exact markGood_ok hinv hready hreply hsplit
  | install s =>
      obtain ⟨rfl, hstate⟩ := hbelongs
      have hcritical : critical machine.current.state = true := by rw [hstate]; rfl
      have honce := not_mem_front (hsplit ▸ P.installOnce hreply) rfl
      refine ⟨hstate, fun h hh t ht hid => ?_⟩
      rcases mem_log_call hh with hh | ⟨-, -, hact | ⟨x, hx, hact⟩⟩
      · have hsubject : subject J h = some t := by simp [subject, ht]
        obtain ⟨earlier, hok⟩ := hinv.justified.mem hh
        simp only [EntryOk, ht] at hok
        have hlt := hstands.untouched hcritical h hh t hsubject hid
        rw [hok.1, hstate] at hlt
        exact absurd hlt (lt_irrefl _)
      · simp [hact] at ht
      · rw [hact, Act.service.injEq] at ht
        rw [ht] at hx
        cases honce _ hx
  | health s passed =>
      obtain ⟨rfl, hstate⟩ := hbelongs
      have hcritical : critical machine.current.state = true := by rw [hstate]; rfl
      refine ⟨hstate, fun h hh t r ht hid => ?_⟩
      rcases mem_log_call hh with hh | ⟨-, -, hact | ⟨x, hx, hact⟩⟩
      · have hsubject : subject J h = some t := by simp [subject, ht]
        obtain ⟨earlier, hok⟩ := hinv.justified.mem hh
        simp only [EntryOk, ht] at hok
        have hlt := hstands.untouched hcritical h hh t hsubject hid
        rw [hok.state, hstate] at hlt
        exact absurd hlt (by decide)
      · simp [hact] at ht
      · rw [hact, Act.service.injEq] at ht
        rw [ht] at hx
        have hother := (P.belongs hreply _ (hmem hx)).2.1
        simp [hstate] at hother

/-- Critical effects are effects of the current state in a critical phase. -/
private theorem subject_effect (hreply : P.replies release machine.current reply)
    {h : Entry} {e : Effect} (hact : h.act = .service e) (he : e ∈ reply.effects)
    {t : OtaPersistentState} (ht : subject J h = some t) :
    t = machine.current ∧ critical machine.current.state = true := by
  have hbelongs := P.belongs hreply e he
  cases e with
  | getCurrent =>
      simp [subject, hact] at ht
  | install =>
      simp only [subject, hact, Option.some.injEq] at ht
      exact ⟨ht.symm.trans hbelongs.1, by rw [hbelongs.2]; rfl⟩
  | health =>
      simp only [subject, hact, Option.some.injEq] at ht
      exact ⟨ht.symm.trans hbelongs.1, by rw [hbelongs.2]; rfl⟩
  | markBad =>
      simp only [subject, hact, Option.some.injEq] at ht
      exact ⟨ht.symm.trans hbelongs.1, by rw [hbelongs.2]; rfl⟩
  | markGood =>
      simp only [subject, hact, Option.some.injEq] at ht
      exact ⟨ht.symm.trans hbelongs.1, by rw [hbelongs.2.1]; rfl⟩

/-- The acts of a phase call are safe, whatever the services answer under their contract. -/
theorem safe_call (hinv : DeviceInv J d) (hready : Ready J d machine release)
    (hreply : P.replies release machine.current reply) :
    Safe J d (callActs machine.current reply.effects) := by
  refine keeps_of_splits hinv fun front a back hsplit hfront => hfront.perform ?_
  rw [callActs] at hsplit
  cases front with
  | nil =>
      simp only [List.nil_append, List.cons.injEq] at hsplit
      rw [← hsplit.1]
      exact permits_phase hready.stands
  | cons b front =>
      simp only [List.cons_append, List.cons.injEq] at hsplit
      obtain ⟨rfl, hsplit⟩ := hsplit
      obtain ⟨xs, ys, heffects, rfl, hys⟩ := List.map_eq_append_iff.mp hsplit
      obtain ⟨e, ys, rfl, rfl, -⟩ := List.map_eq_cons_iff.mp hys
      refine ⟨entry_effect hinv hready hreply heffects, by simp, ?_⟩
      intro t ht
      obtain ⟨rfl, hcritical⟩ := subject_effect hreply rfl (by simp [heffects]) ht
      have hcurrent := subject_current hready.stands hcritical
      rw [show (Act.phase machine.current :: xs.map .service) =
        callActs machine.current xs from rfl, medium_run_call, run_issued]
      exact hcurrent

/-- What a call leaves behind. -/
structure Called (J : JsonParser) (d d' : Device) (s : OtaPersistentState) : Prop where
  covered : Covered J d' s
  work : ∀ e ∈ d'.log, ∀ t, subject J e = some t →
    e ∈ d.log ∨ (critical s.state = true ∧ e.lifetime = d'.lifetime ∧ e.act ≠ .start)

/-- What the log says behind a phase call. -/
theorem called (hready : Ready J d machine release)
    (hreply : P.replies release machine.current reply) :
    Called J d (d.run (callActs machine.current reply.effects)) machine.current := by
  have hwork : ∀ e ∈ (d.run (callActs machine.current reply.effects)).log, ∀ t,
      subject J e = some t → e ∈ d.log ∨ (t = machine.current ∧
        critical machine.current.state = true ∧ e.lifetime = d.lifetime ∧ e.act ≠ .start) := by
    intro e he t ht
    rcases mem_log_call he with he | ⟨hlifetime, -, hact | ⟨x, hx, hact⟩⟩
    · exact .inl he
    · simp only [subject, hact] at ht
      split at ht
      · cases ht
        exact .inr ⟨rfl, ‹_›, hlifetime, by simp [hact]⟩
      · cases ht
    · obtain ⟨rfl, hcritical⟩ := subject_effect hreply hact hx ht
      exact .inr ⟨rfl, hcritical, hlifetime, by simp [hact]⟩
  refine ⟨fun hstate hattempt => ?_, fun e he t ht => ?_⟩
  · obtain ⟨hissued, hlog⟩ := hready.stands.covered hstate hattempt
    refine ⟨by simpa using hissued, fun e he t ht hid => ?_⟩
    rcases hwork e he t ht with he | ⟨rfl, -⟩
    · exact hlog e he t ht hid
    · exact le_rfl
  · rcases hwork e he t ht with he | ⟨-, hrest⟩
    · exact .inl he
    · exact .inr (by simpa using hrest)

end Call

/-! ## One pass of the run loop -/

/-- A generated attempt id is issued, and no critical work bears it. -/
def FreshNow (J : JsonParser) (d : Device) (attemptId : Except OtaError Bytes) : Prop :=
  ∀ id, attemptId = .ok id →
    id ∈ d.issued ∧ ∀ e ∈ d.log, ∀ t, subject J e = some t → t.attemptId ≠ id

section Pass

variable {P : PhaseCallback} {answers : LoopAnswers} {d : Device} {machine : OtaStateMachine}
  {release : OtaRelease} {firstPoll : Bool}

/-- A pass that records a failure is good. -/
theorem good_record (hinv : DeviceInv J d) (hrelease : d.release = some release)
    (error : OtaError) : Good J d (recordFailure answers machine release firstPoll error) := by
  unfold recordFailure
  have hresult := fail_result answers.fault machine error.code error.message
  have hcovered (d : Device) : Covered J d (failedState machine error.code error.message) :=
    fun hstate => absurd rfl hstate
  have hsafe := safe_transition hinv hresult fun _ => hcovered d
  generalize otaStateMachineFail answers.fault machine error.code error.message = failed
    at hresult hsafe
  cases hresult with
  | refused => exact good_exit hsafe
  | failed => exact good_exit hsafe
  | uncertain => exact good_exit hsafe
  | done haccepts =>
      refine good_running hsafe ⟨haccepts.unblocked, by simpa using hrelease, ?_⟩
      exact stands_of_plain (valid_blocks haccepts.valid) (hcovered _) rfl

/-- A pass that proposes a state is good when the log covers the state once it is accepted,
and stands behind it once it is saved. -/
theorem good_propose (hinv : DeviceInv J d) (hrelease : d.release = some release)
    {next : OtaPersistentState} (hnext : Accepts machine next → Covered J d next)
    (hstands : Accepts machine next → rollbackPending next = false →
      Stands J (d.run (savedActs next)) next)
    (hrollback : Accepts machine next → rollbackPending next = true →
      d.reading = some next.expectedCandidateSlot) :
    Good J d (proposeNext answers machine release firstPoll next) := by
  unfold proposeNext
  have hresult := transition_result answers.fault machine next
  have hsafe := safe_transition hinv hresult hnext
  generalize otaStateMachineTransition answers.fault machine next = moved at hresult hsafe
  cases hresult with
  | refused => exact good_exit hsafe
  | failed => exact good_exit hsafe
  | uncertain => exact good_exit hsafe
  | done haccepts =>
      simp only
      by_cases hpending : rollbackPending next = true
      · rw [if_pos hpending]
        have hreboot := reboot_result answers.rebootFault₁ answers.rebootFault₂
          { machine with current := next } answers.request
        refine Good.after hsafe (good_reboot (safe_reboot hsafe.last hreboot ?_ fun _ => ?_))
        · exact covered_quiet (quiet_saved next) (hnext haccepts)
        · have hstate := hpending
          simp only [rollbackPending, Bool.and_eq_true, beq_iff_eq] at hstate
          exact .inr ⟨hstate.1, hstate.2, hrollback haccepts hpending⟩
      · rw [if_neg hpending]
        refine good_running hsafe ⟨haccepts.unblocked, by simpa using hrelease, ?_⟩
        exact hstands haccepts (by simpa using hpending)

/-- The states between two boots that need no look at the slot. -/
theorem good_propose_plain (hinv : DeviceInv J d) (hrelease : d.release = some release)
    {next : OtaPersistentState} (hnext : Accepts machine next → Covered J d next)
    (hplain : plain next.state = true) (hrollback : next.state ≠ .rollback) :
    Good J d (proposeNext answers machine release firstPoll next) := by
  refine good_propose hinv hrelease hnext (fun haccepts _ => ?_) fun _ hpending => ?_
  · exact stands_of_plain (valid_blocks haccepts.valid)
      (covered_quiet (quiet_saved next) (hnext haccepts)) hplain
  · simp [rollbackPending, hrollback] at hpending

/-- Looking at the slot that is expected keeps what the log says of the attempt. -/
theorem Stands.look {s : OtaPersistentState} (h : Stands J d s) {slot : Option OtaSlot}
    (hslot : slot = some s.expectedCandidateSlot) :
    Stands J (d.run [.service (.getCurrent slot)]) s := by
  have hquiet : ∀ a ∈ [Act.service (.getCurrent slot)], quiet a = true := by simp [quiet]
  refine ⟨h.valid, covered_quiet hquiet h.covered, h.resolved, h.saved, ?_, h.beforeBoot, ?_,
    fun hstate => ⟨?_, ?_⟩⟩
  · exact fun hcritical e he t ht =>
      h.untouched hcritical e (mem_log_of_quiet hquiet he ht) t ht
  · exact fun hstate => ⟨(h.afterBoot hstate).1, hslot⟩
  · obtain ⟨e, he, hrest⟩ := (h.passed hstate).health
    exact ⟨e, List.mem_cons_of_mem _ he, hrest⟩
  · exact fun e he t ht => (h.passed hstate).clean e (mem_log_of_quiet hquiet he ht) t ht

/-- A safe look at the slot. -/
theorem safe_look (hinv : DeviceInv J d) (slot : Option OtaSlot) :
    Safe J d [.service (.getCurrent slot)] :=
  safe_one hinv (permits_look d slot)

theorem good_failed (hinv : DeviceInv J d) (hrelease : d.release = some release)
    (failure : OtaError) :
    Good J d (phaseFailed answers machine release firstPoll failure) := by
  unfold phaseFailed
  simp only
  split
  · exact good_exit (keeps_nil hinv)
  split
  · exact good_exit (keeps_nil hinv)
  · exact good_record hinv hrelease _

/-- INSTALLING begins in the boot it records. -/
theorem good_capture (hinv : DeviceInv J d) (hrelease : d.release = some release)
    (hvalid : Valid machine.current) (hcovered : Covered J d machine.current)
    (hboot : Truthful d answers.bootId) {next : OtaPersistentState}
    (hnext : next.state = .installing) :
    Good J d (captureInstall answers machine release firstPoll next) := by
  unfold captureInstall
  simp only
  have hlook := safe_look hinv answers.slot
  have hquiet : ∀ a ∈ [Act.service (.getCurrent answers.slot)], quiet a = true := by
    simp [quiet]
  split
  · rename_i slot bootId hslot hid
    split
    · refine Good.after hlook (good_propose hlook.last (by simpa using hrelease) ?_ ?_ ?_)
      · intro haccepts
        refine covered_next haccepts hvalid (covered_quiet hquiet hcovered) ?_
        intro _ hprecheck
        simp [hnext] at hprecheck
      · intro haccepts _
        have hcurrent := covered_quiet hquiet hcovered
        have hprecheck : ¬next.state = .precheck := by simp [hnext]
        refine ⟨valid_blocks haccepts.valid, ?_, by simp [hnext], fun _ => rfl, ?_, ?_,
          by simp [hnext], by simp [hnext]⟩
        · exact covered_quiet (quiet_saved _)
            (covered_next haccepts hvalid hcurrent fun _ h => absurd h hprecheck)
        · intro hcritical e he t ht
          exact untouched_next haccepts hvalid hcurrent hcritical e
            (mem_log_of_quiet (quiet_saved _) he ht) t ht
        · intro _
          simpa using (hboot bootId hid).symm
      · intro _ hpending
        simp [rollbackPending, hnext] at hpending
    · exact Good.after hlook (good_record hlook.last (by simpa using hrelease) _)
  · exact Good.after hlook (good_record hlook.last (by simpa using hrelease) _)

/-- The process goes on from a healthy candidate to MARK_GOOD. -/
theorem stands_markGood (hready : Ready J d machine release)
    (hreply : P.replies release machine.current answers.reply)
    (hstate : machine.current.state = .healthCheck) (hresult : answers.reply.result = .advance)
    (hnext : answers.reply.next.state = .markGood)
    (haccepts : Accepts machine answers.reply.next) :
    Stands J ((d.run (callActs machine.current answers.reply.effects)).run
      (savedActs answers.reply.next)) answers.reply.next := by
  have hstands := hready.stands
  have hcalled := called hready hreply
  have hcritical : critical machine.current.state = true := by rw [hstate]; rfl
  have hattempt : answers.reply.next.attemptId ≠ [] :=
    attemptId_of_window (valid_blocks haccepts.valid) (by rw [hnext]; decide)
      (by rw [hnext]; decide)
  obtain ⟨hid, -⟩ := attempt_carried haccepts hstands.valid (by simp [hnext]) hattempt
    (by simp [hnext])
  obtain ⟨hcandidate, hbootId⟩ := boot_carried haccepts hstands.valid (by simp [hnext])
    (by rw [hstate]; decide) (by rw [hstate]; decide)
  obtain ⟨hboot, hslot⟩ := hstands.afterBoot (.inl hstate)
  obtain ⟨hpassed, hfailed⟩ := P.healthPassed hreply hstate hresult hnext
  have hread := P.healthSlot hreply hstate hresult (.inl hnext)
  refine ⟨valid_blocks haccepts.valid, ?_, by simp [hnext], fun _ => rfl, ?_, by simp [hnext],
    fun _ => ⟨?_, ?_⟩, fun _ => ⟨?_, ?_⟩⟩
  · exact covered_quiet (quiet_saved _)
      (covered_next haccepts hstands.valid hcalled.covered fun _ h => by simp [hnext] at h)
  · intro hcritical' e he t ht
    exact untouched_next haccepts hstands.valid hcalled.covered hcritical' e
      (mem_log_of_quiet (quiet_saved _) he ht) t ht
  · simpa [hbootId] using hboot
  · simp only [reading_run_saved, reading_run_call, hslot, hcandidate]
    exact hread
  · -- the verdict is in the log of this call
    obtain ⟨front, back, hsplit⟩ := List.append_of_mem hpassed
    refine ⟨(d.run (callActs machine.current front)).entry
      (.service (.health machine.current true)), ?_, by simp [Device.entry],
      by simp [Device.entry], machine.current, rfl, hid.symm⟩
    refine (mem_log_run _ _).mpr (.inl ((mem_log_run _ _).mpr (.inr ?_)))
    exact ⟨callActs machine.current front, _, back.map .service, by simp [callActs, hsplit], rfl⟩
  · intro e he t ht hsame hlate
    have he := mem_log_of_quiet (quiet_saved _) he ht
    have hid' : t.attemptId = machine.current.attemptId := hsame.trans hid
    rcases mem_log_call he with hold | ⟨hlifetime, -, hact⟩
    · have hlt := hstands.untouched hcritical e hold t ht hid'
      rw [hstate] at hlt
      exact absurd hlate (not_le.mpr hlt)
    · refine ⟨by simpa using hlifetime, ?_, ?_⟩
      · rcases hact with hact | ⟨x, -, hact⟩ <;> simp [hact]
      · intro t' ht'
        rcases hact with hact | ⟨x, hx, hact⟩
        · simp [hact] at ht'
        · rw [hact, Act.service.injEq] at ht'
          rw [ht'] at hx
          have hbelongs := (P.belongs hreply _ hx).1
          rw [hbelongs] at hx
          exact hfailed hx

/-- The callback advanced, outside the transitions that the loop completes. -/
private theorem good_other (hinv : DeviceInv J d) (hready : Ready J d machine release)
    (hreply : P.replies release machine.current answers.reply)
    (hresult : answers.reply.result = .advance)
    (hpending : machine.current.state ≠ .rebootPending)
    (hprecheck : ¬(machine.current.state = .checkUpdate ∧
      answers.reply.next.state = .precheck))
    (hinstalling : ¬(machine.current.state = .raucVerify ∧
      answers.reply.next.state = .installing))
    (hrollback : ¬(machine.current.state = .healthCheck ∧
      answers.reply.next.state = .rollback)) :
    Good J (d.run (callActs machine.current answers.reply.effects))
      (proposeNext answers machine release firstPoll answers.reply.next) := by
  have hstands := hready.stands
  have hcalled := called hready hreply
  have hsafe := safe_call hinv hready hreply
  have hcovered (haccepts : Accepts machine answers.reply.next) :
      Covered J (d.run (callActs machine.current answers.reply.effects)) answers.reply.next :=
    covered_next haccepts hstands.valid hcalled.covered
      fun h₁ h₂ => absurd ⟨h₁, h₂⟩ hprecheck
  refine good_propose hsafe.last (by simpa using hready.release) hcovered
    (fun haccepts hroll => ?_) fun haccepts hroll => ?_
  · obtain ⟨-, -, -, -, rinstalling, rpending, rboot, rhealth, rgood, -⟩ :=
      allowed_rows haccepts.allowed
    have hcovered' := covered_quiet (quiet_saved answers.reply.next) (hcovered haccepts)
    by_cases hgood : answers.reply.next.state = .markGood
    · exact stands_markGood hready hreply (rgood hgood) hresult hgood haccepts
    by_cases hnext : answers.reply.next.state = .rebootPending
    · have hstate := rpending hnext
      obtain ⟨-, hbootId⟩ := boot_carried haccepts hstands.valid (by simp [hnext])
        (by rw [hstate]) (by rw [hstate]; decide)
      refine ⟨valid_blocks haccepts.valid, hcovered', by simp [hnext], by simp [hnext, critical],
        by simp [hnext, critical], fun _ => ?_, by simp [hnext], by simp [hnext]⟩
      simpa [hbootId] using hstands.beforeBoot (.inl hstate)
    · refine stands_of_plain (valid_blocks haccepts.valid) hcovered' ?_
      have h₁ : answers.reply.next.state ≠ .installing := fun h => hinstalling ⟨rinstalling h, h⟩
      have h₂ : answers.reply.next.state ≠ .healthCheck := fun h => hstands.resolved (rhealth h)
      have h₃ : answers.reply.next.state ≠ .bootNewSlot := fun h => hpending (rboot h)
      simp [plain, critical, h₁, h₂, h₃, hgood, hnext]
  · simp only [rollbackPending, Bool.and_eq_true, beq_iff_eq] at hroll
    rcases (allowed_rows haccepts.allowed).2.2.2.2.2.2.2.2.2 hroll.1 with h | h
    · exact absurd h hstands.resolved
    · exact absurd ⟨h, hroll.1⟩ hrollback

/-- A pass whose phase advances is good: the new state is covered, and where it is critical
the phase call is what stands behind it. -/
theorem good_advanced (hinv : DeviceInv J d) (hready : Ready J d machine release)
    (hreply : P.replies release machine.current answers.reply)
    (hboot : Truthful d answers.bootId) (hfresh : FreshNow J d answers.attemptId)
    (hresult : answers.reply.result = .advance)
    (hpending : machine.current.state ≠ .rebootPending) :
    Good J (d.run (callActs machine.current answers.reply.effects))
      (phaseAdvanced answers machine release firstPoll answers.reply.next) := by
  have hstands := hready.stands
  have hcalled := called hready hreply
  have hsafe := safe_call hinv hready hreply
  have hrelease : (d.run (callActs machine.current answers.reply.effects)).release =
    some release := by simpa using hready.release
  unfold phaseAdvanced
  simp only [Bool.and_eq_true, beq_iff_eq]
  split
  · exact good_exit (keeps_nil hsafe.last)
  by_cases hprecheck : machine.current.state = .checkUpdate ∧
      answers.reply.next.state = .precheck
  · rw [if_pos hprecheck]
    split
    · exact good_exit (keeps_nil hsafe.last)
    · rename_i id hid
      refine good_propose_plain hsafe.last hrelease (fun haccepts => ?_)
        (by simp [hprecheck.2, plain, critical]) (by simp [hprecheck.2])
      refine covered_next haccepts hstands.valid hcalled.covered fun _ _ => ?_
      obtain ⟨hissued, hunused⟩ := hfresh id hid
      refine ⟨by simpa using hissued, fun e he t ht => ?_⟩
      rcases hcalled.work e he t ht with he | ⟨hcritical, -⟩
      · exact hunused e he t ht
      · simp [hprecheck.1, critical] at hcritical
  rw [if_neg hprecheck]
  by_cases hinstalling : machine.current.state = .raucVerify ∧
      answers.reply.next.state = .installing
  · rw [if_pos hinstalling]
    exact good_capture hsafe.last hrelease hstands.valid hcalled.covered
      (fun id hid => by simpa using hboot id hid) hinstalling.2
  rw [if_neg hinstalling]
  by_cases hrollback : machine.current.state = .healthCheck ∧
      answers.reply.next.state = .rollback
  · rw [if_pos hrollback]
    refine good_propose hsafe.last hrelease (fun haccepts => ?_) (fun _ hroll => ?_)
      fun haccepts _ => ?_
    · exact covered_next haccepts hstands.valid hcalled.covered
        fun h _ => by simp [hrollback.1] at h
    · simp [rollbackPending, hrollback.2] at hroll
    · have hread := P.healthSlot hreply hrollback.1 hresult (.inr hrollback.2)
      obtain ⟨-, hslot⟩ := hstands.afterBoot (.inl hrollback.1)
      obtain ⟨hcandidate, -⟩ := boot_carried haccepts hstands.valid
        (by simp [hrollback.2]) (by rw [hrollback.1]; decide) (by rw [hrollback.1]; decide)
      rw [reading_run_call, hslot, hread]
      exact congrArg some hcandidate.symm
  rw [if_neg hrollback]
  split
  · refine good_propose_plain hsafe.last hrelease (fun _ _ hattempt => ?_) rfl (by decide)
    exact absurd rfl hattempt
  · exact good_other hinv hready hreply hresult hpending hprecheck hinstalling hrollback

theorem plain_of_mayRetry {state : OtaState} (h : phaseMayRetry state = true) :
    plain state = true := by
  cases state <;> first | rfl | cases h

/-- A pass that calls its phase is good. -/
theorem good_phase (hinv : DeviceInv J d) (hready : Ready J d machine release)
    (hreply : P.replies release machine.current answers.reply)
    (hboot : Truthful d answers.bootId) (hfresh : FreshNow J d answers.attemptId)
    (hpending : machine.current.state ≠ .rebootPending) :
    Good J d (phasePass answers machine release firstPoll) := by
  have hsafe := safe_call hinv hready hreply
  have hrelease : (d.run (callActs machine.current answers.reply.effects)).release =
    some release := by simpa using hready.release
  refine Good.after hsafe ?_
  cases hresult : answers.reply.result with
  | advance => exact good_advanced hinv hready hreply hboot hfresh hresult hpending
  | hardFailure => exact good_failed hsafe.last hrelease _
  | retry =>
      simp only
      split
      · rename_i hretry
        cases answers.retryWait with
        | error => exact good_exit (keeps_nil hsafe.last)
        | ok =>
            refine good_running (keeps_nil hsafe.last) ⟨hready.unblocked, hrelease, ?_⟩
            exact stands_of_plain hready.stands.valid (called hready hreply).covered
              (plain_of_mayRetry hretry)
      · exact good_failed hsafe.last hrelease _

/-- A pass in IDLE is good. -/
theorem good_idle (hinv : DeviceInv J d) (hready : Ready J d machine release)
    (hidle : machine.current.state = .idle) :
    Good J d (idlePass answers machine release firstPoll) := by
  unfold idlePass
  split
  · exact good_exit (keeps_nil hinv)
  split
  · exact good_exit (keeps_nil hinv)
  split
  · exact good_exit (keeps_nil hinv)
  · refine good_propose_plain hinv hready.release (fun haccepts => ?_) rfl (by simp)
    exact covered_next haccepts hready.stands.valid hready.stands.covered
      fun h _ => by simp [hidle] at h

/-- A pass in MARK_GOOD, with its look at the slot in front of the phase, is good. -/
theorem good_markGood (hinv : DeviceInv J d) (hready : Ready J d machine release)
    (hreply : P.replies release machine.current answers.reply)
    (hboot : Truthful d answers.bootId) (hfresh : FreshNow J d answers.attemptId)
    (hstate : machine.current.state = .markGood) :
    Good J d (markGoodPass answers machine release firstPoll) := by
  unfold markGoodPass
  simp only
  have hlook := safe_look hinv answers.guardSlot
  split
  · exact Good.after hlook (good_record hlook.last (by simpa using hready.release) _)
  · rename_i hslot
    have hslot : answers.guardSlot = some machine.current.expectedCandidateSlot := by
      simpa using hslot
    refine Good.after hlook (good_phase hlook.last ?_ hreply ?_ ?_ (by simp [hstate]))
    · exact ⟨hready.unblocked, hready.release, hready.stands.look hslot⟩
    · exact fun id hid => hboot id hid
    · intro id hid
      obtain ⟨hissued, hunused⟩ := hfresh id hid
      exact ⟨hissued, fun e he t ht =>
        hunused e (mem_log_of_quiet (by simp [quiet]) he ht) t ht⟩

/-- One pass of the run loop is safe at every crash point. -/
theorem good_pass (hinv : DeviceInv J d) (hready : Ready J d machine release)
    (hreply : P.replies release machine.current answers.reply)
    (hboot : Truthful d answers.bootId) (hfresh : FreshNow J d answers.attemptId) :
    Good J d (runPass answers machine release firstPoll) := by
  unfold runPass
  split
  · exact good_exit (keeps_nil hinv)
  split
  · rename_i hstate
    have hreboot := reboot_result answers.rebootFault₁ answers.rebootFault₂ machine
      answers.request
    exact good_reboot (safe_reboot hinv hreboot hready.stands.covered fun _ =>
      .inl ⟨hstate, hready.stands.beforeBoot (.inr hstate)⟩)
  · exact good_idle hinv hready ‹_›
  · exact good_markGood hinv hready hreply hboot hfresh ‹_›
  · exact good_phase hinv hready hreply hboot hfresh ‹_›

end Pass

/-! ## The start of the process -/

/-- What a recovery leaves behind. -/
structure Recovers (J : JsonParser) (d : Device) (outcome : Outcome (Option OtaError)) :
    Prop where
  safe : Safe J d outcome.acts
  stands : outcome.succeeded → outcome.machine.blocked = false ∧
    Stands J (d.run outcome.acts) outcome.machine.current

section Start

variable {answers : StartAnswers} {d : Device} {machine : OtaStateMachine}
  {release : OtaRelease}

theorem Recovers.after {acts : List Act} {saves : List (OtaPersistentState × Bool)}
    {outcome : Outcome (Option OtaError)} (hacts : Safe J d acts)
    (h : Recovers J (d.run acts) outcome) : Recovers J d (outcome.after acts saves) := by
  refine ⟨hacts.append h.safe, fun hok => ?_⟩
  simpa using h.stands hok

/-- A recovery that ends in a transition. -/
private theorem recovers_transition (hinv : DeviceInv J d) {next : OtaPersistentState}
    {outcome : Outcome Unit} (hresult : TransitionResult machine next outcome)
    (hnext : Accepts machine next → Covered J d next)
    (hstands : Accepts machine next → Stands J (d.run (savedActs next)) next)
    (value : Option OtaError) : Recovers J d (outcome.map fun _ => value) := by
  refine ⟨safe_transition hinv hresult hnext, fun hok => ?_⟩
  cases hresult with
  | refused => obtain ⟨_, hok⟩ := hok; cases hok
  | failed => obtain ⟨_, hok⟩ := hok; cases hok
  | uncertain => obtain ⟨_, hok⟩ := hok; cases hok
  | done haccepts => exact ⟨haccepts.unblocked, hstands haccepts⟩

/-- An attempt that ends in ERROR. -/
private theorem recovers_failed (hinv : DeviceInv J d) {code : OtaErrorCode}
    {message : Bytes} {outcome : Outcome Unit}
    (hresult : TransitionResult machine (failedState machine code message) outcome)
    (value : Option OtaError) : Recovers J d (outcome.map fun _ => value) := by
  have hcovered (d : Device) : Covered J d (failedState machine code message) :=
    fun hstate => absurd rfl hstate
  refine recovers_transition hinv hresult (fun _ => hcovered d) (fun haccepts => ?_) value
  exact stands_of_plain (valid_blocks haccepts.valid) (hcovered _) rfl

/-- The slot decides about a new boot. -/
private theorem recovers_slot {slot : Option OtaSlot}
    {outcome : Outcome (Option OtaError)} (hresult : SlotResult machine slot outcome)
    (hinv : DeviceInv J d) (hvalid : Valid machine.current)
    (hcovered : Covered J d machine.current)
    (hboot : d.boot ≠ machine.current.bootIdBefore) (hslot : d.reading = slot)
    (hstate : machine.current.state = .bootNewSlot) : Recovers J d outcome := by
  have hnew {next : OtaPersistentState} : machine.current.state = .checkUpdate →
      next.state = .precheck → next.attemptId ∈ d.issued ∧
        ∀ e ∈ d.log, ∀ t, subject J e = some t → t.attemptId ≠ next.attemptId :=
    fun h _ => by simp [hstate] at h
  cases hresult with
  | failed code message outcome value result => exact recovers_failed hinv result value
  | candidate outcome hcandidate result =>
      have hnext (haccepts : Accepts machine { machine.current with state := .healthCheck }) :=
        covered_next haccepts hvalid hcovered hnew
      refine recovers_transition hinv result hnext (fun haccepts => ?_) none
      refine ⟨valid_blocks haccepts.valid, covered_quiet (quiet_saved _) (hnext haccepts),
        by simp, fun _ => rfl, ?_, by simp, fun _ => ⟨hboot, ?_⟩, by simp⟩
      · intro hcritical e he t ht
        exact untouched_next haccepts hvalid hcovered hcritical e
          (mem_log_of_quiet (quiet_saved _) he ht) t ht
      · simpa [hslot] using hcandidate
  | previous error outcome _ result =>
      have hnext (haccepts : Accepts machine
          { machine.current with state := .rollback, lastError := error }) :=
        covered_next haccepts hvalid hcovered hnew
      refine recovers_transition hinv result hnext (fun haccepts => ?_) none
      exact stands_of_plain (valid_blocks haccepts.valid)
        (covered_quiet (quiet_saved _) (hnext haccepts)) rfl

theorem plain_of_replaySafe {state : OtaState} (h : replaySafe state = true) :
    plain state = true := by
  cases state <;> first | rfl | cases h

/-- Every recovery is good: it resumes, waits, goes on behind the reboot or ends the
attempt. -/
theorem recovers (hinv : DeviceInv J d) (hunblocked : machine.blocked = false)
    (hvalid : Valid machine.current) (hcovered : Covered J d machine.current)
    {bootId : Bytes} (hboot : bootId = d.boot) {slot : Option OtaSlot}
    {outcome : Outcome (Option OtaError)}
    (hresult : RecoverResult machine bootId slot outcome) : Recovers J d outcome := by
  cases hresult with
  | refused _ hblocked => rw [hunblocked] at hblocked; cases hblocked
  | resumed hsafe =>
      refine ⟨keeps_nil hinv, fun _ => ⟨hunblocked, ?_⟩⟩
      exact stands_of_plain hvalid hcovered (plain_of_replaySafe hsafe)
  | waiting hstate hsame =>
      refine ⟨keeps_nil hinv, fun _ => ⟨hunblocked, ?_⟩⟩
      refine ⟨hvalid, hcovered, by simp [hstate], by simp [hstate, critical],
        by simp [hstate, critical], fun _ => hboot.symm.trans hsame, by simp [hstate],
        by simp [hstate]⟩
  | failed code message outcome value result => exact recovers_failed hinv result value
  | stuck outcome error hstate result _ =>
      refine ⟨safe_transition hinv result fun haccepts => ?_, fun hok => ?_⟩
      · exact covered_next haccepts hvalid hcovered fun h _ => by simp [hstate] at h
      · obtain ⟨_, hok⟩ := hok
        cases hok
  | booted outcome hstate hchanged haccepts result =>
      have hnext := covered_next haccepts hvalid hcovered fun h _ => by simp [hstate] at h
      have hsaved := safe_saved hinv haccepts.valid hnext
      have hlook := safe_look hsaved.last slot
      have hacts := hsaved.append hlook
      refine Recovers.after hacts (recovers_slot result hacts.last
        (valid_blocks haccepts.valid) ?_ ?_ ?_ rfl)
      · refine covered_quiet ?_ hnext
        simp [savedActs, quiet]
      · rw [hboot] at hchanged
        simpa using hchanged
      · rfl
  | found outcome hstate hchanged result =>
      have hlook := safe_look hinv slot
      refine Recovers.after hlook (recovers_slot result hlook.last hvalid ?_ ?_ rfl hstate)
      · refine covered_quiet ?_ hcovered
        simp [quiet]
      · rw [hboot] at hchanged
        simpa using hchanged

theorem good_enter (hinv : DeviceInv J d) (hready : Ready J d machine release) :
    Good J d (enterRun answers machine release) := by
  unfold enterRun
  split
  · exact good_exit (keeps_nil hinv)
  split
  · exact good_running (keeps_nil hinv) hready
  split
  · exact good_exit (keeps_nil hinv)
  · exact good_running (keeps_nil hinv) hready

/-- A pending rollback reboots only from the candidate slot. -/
theorem good_resolve (hinv : DeviceInv J d) (hready : Ready J d machine release) :
    Good J d (resolveRollback answers machine release) := by
  unfold resolveRollback
  by_cases hpending : rollbackPending machine.current = true
  swap
  · rw [if_neg hpending]
    exact good_enter hinv hready
  rw [if_pos hpending]
  simp only
  have hlook := safe_look hinv answers.rollbackSlot
  have hcovered : Covered J (d.run [.service (.getCurrent answers.rollbackSlot)])
      machine.current := covered_quiet (by simp [quiet]) hready.stands.covered
  simp only [rollbackPending, Bool.and_eq_true, beq_iff_eq] at hpending
  split
  · exact good_exit hlook
  split
  · rename_i hslot
    have hreboot := reboot_result answers.rebootFault₁ answers.rebootFault₂ machine
      answers.request
    refine Good.after hlook (good_reboot (safe_reboot hlook.last hreboot hcovered fun _ => ?_))
    exact .inr ⟨hpending.1, hpending.2, beq_iff_eq.mp hslot⟩
  split
  · exact good_exit hlook
  · refine Good.after hlook (good_enter hlook.last ⟨hready.unblocked, hready.release, ?_⟩)
    exact stands_of_plain hready.stands.valid hcovered (by rw [hpending.1]; rfl)

/-- A start behind a machine that was opened is good. -/
theorem good_opened (hinv : DeviceInv J d) (hunblocked : machine.blocked = false)
    (hvalid : Valid machine.current) (hcovered : Covered J d machine.current)
    (hboot : Truthful d answers.bootId) (hrelease : d.release = answers.release) :
    Good J d (mainOpened answers machine) := by
  unfold mainOpened
  split
  · exact good_exit (keeps_nil hinv)
  split
  · exact good_exit (keeps_nil hinv)
  rename_i release hloaded
  split
  · exact good_exit (keeps_nil hinv)
  rename_i bootId hid
  have hresult := recover_result answers.recoverFault₁ answers.recoverFault₂ machine bootId
    answers.slot
  have hrecovers := recovers hinv hunblocked hvalid hcovered (hboot bootId hid) hresult
  generalize otaStateMachineRecover answers.recoverFault₁ answers.recoverFault₂ machine bootId
    answers.slot = recovered at hrecovers
  simp only
  split
  · exact good_exit hrecovers.safe
  · rename_i value hok
    obtain ⟨hb, hstands⟩ := hrecovers.stands ⟨value, hok⟩
    refine Good.after hrecovers.safe (good_resolve hrecovers.safe.last ⟨hb, ?_, hstands⟩)
    simpa [hloaded] using hrelease

/-- A start of the process is good, whatever the file holds. -/
theorem good_main (hinv : DeviceInv J d) (hboot : Truthful d answers.bootId)
    (hrelease : d.release = answers.release) :
    Good J d (mainStart J answers d.medium.live) := by
  unfold mainStart
  split
  · exact good_exit (keeps_nil hinv)
  have hresult := open_result J (some answers.path) answers.readFault answers.openFault
    d.medium.live
  generalize otaStateMachineOpen J (some answers.path) answers.readFault answers.openFault
    d.medium.live = opened at hresult
  have hinit (d : Device) : Covered J d otaPersistentStateInit :=
    fun _ hattempt => absurd rfl hattempt
  cases hresult with
  | refused => exact good_exit (keeps_nil hinv)
  | failed => exact good_exit (keeps_nil hinv)
  | uncertain => exact good_exit (safe_one hinv (permits_replace valid_init (hinit d)))
  | loaded path data current hfile hparse =>
      refine Good.after (keeps_nil hinv) (good_opened hinv rfl
        (valid_blocks (valid_of_parseState J hparse)) ?_ hboot hrelease)
      exact hinv.covered data (by simp [Medium.contents, hfile]) current hparse
  | created path =>
      have hsaved := safe_saved hinv valid_init (hinit d)
      exact Good.after hsaved (good_opened hsaved.last rfl (valid_blocks valid_init) (hinit _)
        hboot hrelease)

/-- A start that finds a critical phase durable may say so. -/
private theorem permits_start (hinv : DeviceInv J d) : Permits J d .start := by
  refine ⟨trivial, by simp, ?_⟩
  intro t ht
  simp only [subject, Device.entry] at ht
  split at ht
  · rename_i data holder hlive
    obtain ⟨hparse, hcritical⟩ := Option.filter_eq_some_iff.mp ht
    obtain ⟨hlo, hhi, herror⟩ := window_of_critical hcritical
    have hattempt := attemptId_of_window (valid_blocks (valid_of_parseState J hparse))
      (le_trans (by decide) hlo) hhi
    have hcovered := hinv.covered data (by simp [Medium.contents, hlive]) t hparse
    refine ⟨(hcovered herror hattempt).1, ?_⟩
    intro other hother s hs _ _
    -- the file can only come back as it is
    simp only [Medium.contents, holder, hlive, List.mem_singleton, Option.some.injEq] at hother
    rw [hother, hparse] at hs
    cases hs
    exact le_rfl
  · cases ht

theorem good_start (hinv : DeviceInv J d) (hboot : Truthful d answers.bootId)
    (hrelease : d.release = answers.release) : Good J d (startOn J answers d) := by
  have hstart := safe_one hinv (permits_start hinv)
  exact Good.after hstart (good_main hstart.last hboot hrelease)

end Start

/-! ## Every run -/

/-- The invariant of the system. -/
structure SysInv (J : JsonParser) (sys : Sys) : Prop where
  device : DeviceInv J sys.device
  ready : ∀ machine release firstPoll, sys.proc = .running machine release firstPoll →
    Ready J sys.device machine release

theorem DeviceInv.begin {d : Device} (h : DeviceInv J d) (release : Option OtaRelease) :
    DeviceInv J (d.begin release) :=
  ⟨h.covered, h.issued, h.justified⟩

private theorem mem_issue {d : Device} {attemptId : Except OtaError Bytes} {id : Bytes}
    (h : id ∈ d.issued) : id ∈ (d.issue attemptId).issued := by
  cases attemptId with
  | ok => exact List.mem_cons_of_mem _ h
  | error => exact h

private theorem issue_eq (d : Device) (attemptId : Except OtaError Bytes) :
    d.issue attemptId = { d with issued := (d.issue attemptId).issued } := by
  cases attemptId <;> rfl

private theorem covered_issue {d : Device} {s : OtaPersistentState} (h : Covered J d s)
    (attemptId : Except OtaError Bytes) : Covered J (d.issue attemptId) s := by
  intro hstate hattempt
  obtain ⟨hissued, hlog⟩ := h hstate hattempt
  refine ⟨mem_issue hissued, ?_⟩
  rw [issue_eq]
  exact hlog

theorem DeviceInv.issue {d : Device} (h : DeviceInv J d)
    (attemptId : Except OtaError Bytes) : DeviceInv J (d.issue attemptId) := by
  refine ⟨?_, ?_, ?_⟩
  · have hcovered := h.covered.mono fun data hdata s hs => covered_issue (hdata s hs) attemptId
    rw [issue_eq] at hcovered ⊢
    exact hcovered
  · intro e he t ht
    rw [issue_eq] at he
    exact mem_issue (h.issued e he t ht)
  · rw [issue_eq]
    exact h.justified

theorem Ready.issue {d : Device} {machine : OtaStateMachine} {release : OtaRelease}
    (h : Ready J d machine release) (attemptId : Except OtaError Bytes) :
    Ready J (d.issue attemptId) machine release := by
  have hcovered := covered_issue h.stands.covered attemptId
  obtain ⟨hunblocked, hrelease, hs⟩ := h
  rw [issue_eq] at hcovered ⊢
  exact ⟨hunblocked, hrelease, hs.valid, hcovered, hs.resolved, hs.saved, hs.untouched,
    hs.beforeBoot, hs.afterBoot, fun hstate => ⟨(hs.passed hstate).health,
      (hs.passed hstate).clean⟩⟩

theorem freshNow_issue {d : Device} (h : DeviceInv J d) {attemptId : Except OtaError Bytes}
    (hfresh : Fresh d attemptId) : FreshNow J (d.issue attemptId) attemptId := by
  rintro id rfl
  refine ⟨List.mem_cons_self .., ?_⟩
  intro e he t ht hid
  exact hfresh id rfl (hid ▸ h.issued e he t ht)

/-- The invariant is kept by every step: starts, passes, crashes, power cuts and boots. -/
theorem SysInv.step {P : PhaseCallback} {a b : Sys} (h : SysInv J a) (hstep : Step J P a b) :
    SysInv J b := by
  have hpass {d : Device} {machine : OtaStateMachine} {release : OtaRelease}
      {firstPoll : Bool} {answers : LoopAnswers}
      (h : SysInv J ⟨d, .running machine release firstPoll⟩)
      (hreply : P.replies release machine.current answers.reply)
      (hboot : Truthful d answers.bootId) (hfresh : Fresh d answers.attemptId) :
      Good J (d.issue answers.attemptId) (runPass answers machine release firstPoll) := by
    refine good_pass (h.device.issue _) ((h.ready _ _ _ rfl).issue _) hreply ?_
      (freshNow_issue h.device hfresh)
    rw [issue_eq]
    exact hboot
  cases hstep with
  | start answers hoff hboot =>
      have hgood := good_start (h.device.begin answers.release) hboot rfl
      exact ⟨hgood.safe.last, hgood.ready⟩
  | startCut answers n hoff hboot =>
      have hgood := good_start (h.device.begin answers.release) hboot rfl
      exact ⟨hgood.safe n, fun _ _ _ hproc => by cases hproc⟩
  | pass answers hreply hboot hfresh =>
      have hgood := hpass h hreply hboot hfresh
      exact ⟨hgood.safe.last, hgood.ready⟩
  | passCut answers n hreply hboot hfresh =>
      have hgood := hpass h hreply hboot hfresh
      exact ⟨hgood.safe n, fun _ _ _ hproc => by cases hproc⟩
  | powerCut medium boot hcut =>
      refine ⟨⟨?_, h.device.issued, h.device.justified⟩, fun _ _ _ hproc => by cases hproc⟩
      exact h.device.covered.cut hcut

theorem reach_inv {P : PhaseCallback} {sys : Sys} (h : Reach J P sys) : SysInv J sys := by
  induction h with
  | init hinit =>
      refine ⟨⟨?_, ?_, ?_⟩, fun _ _ _ hproc => by cases hproc⟩
      · intro data hdata s hs _ hattempt
        refine ⟨hinit.issued data s hdata hs hattempt, ?_⟩
        simp [hinit.log]
      · simp [hinit.log]
      · simp [hinit.log, Justified]
  | step _ hstep ih => exact ih.step hstep

end EdgeGuard.Agent.RunInvariant
