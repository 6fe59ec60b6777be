import EdgeGuard.Agent.Release
import EdgeGuard.Agent.StateMachine

/-!
# The phase callback

The run loop hands every state to one callback, which performs the action that
belongs to the state and proposes the next one.  `PhaseCallback` is the
callback's contract, as `state_machine.h` words it: it executes only the action
of the current state, never retries an installation, checks the running slot at
the last moment before marking it good, and goes from HEALTH_CHECK to MARK_GOOD
or ROLLBACK only with the verdict and the slot that justify it.  What it
returns is otherwise free.

`phase` is the production callback of `services.c`, with the RAUC adapter and
the health check around its effects; everything outside the process answers
arbitrarily through `ServiceAnswers`.

## Main results

* `services` — the production callback keeps the contract.
-/

namespace EdgeGuard.Agent.Services

open EdgeGuard.Base.CText
open EdgeGuard.Agent.Model EdgeGuard.Agent.Release EdgeGuard.Agent.StateMachine

inductive OtaPhaseResult
  | advance | retry | hardFailure
  deriving DecidableEq, Repr

/-- What one call of the phase callback does and returns. -/
structure PhaseReply where
  effects : List Effect
  result : OtaPhaseResult
  next : OtaPersistentState
  error : OtaError

/-! ## The contract -/

/-- The effect belongs to the state the callback was called for. -/
def Effect.BelongsTo (release : OtaRelease) (current : OtaPersistentState) : Effect → Prop
  | .getCurrent _ => True
  | .install s => s = current ∧ current.state = .installing
  | .health s _ => s = current ∧ current.state = .healthCheck
  | .markBad s => s = current ∧ current.state = .healthCheck
  | .markGood s r =>
      s = current ∧ current.state = .markGood ∧ r = release ∧
        release.version = current.targetVersion ∧ release.buildId = current.buildId

/-- The last slot named, after some effects. -/
def readingAfter (reading : Option OtaSlot) (effects : List Effect) : Option OtaSlot :=
  effects.foldl (fun reading e =>
    match e with
    | .getCurrent r => r
    | _ => reading) reading

def Effect.isInstall : Effect → Bool
  | .install _ => true
  | _ => false

def Effect.isMarkGood : Effect → Bool
  | .markGood _ _ => true
  | _ => false

/-- The contract of the phase callback. -/
structure PhaseCallback where
  /-- The replies that are possible for a release and a state. -/
  replies : OtaRelease → OtaPersistentState → PhaseReply → Prop
  belongs : ∀ {release current reply}, replies release current reply →
    ∀ e ∈ reply.effects, Effect.BelongsTo release current e
  installOnce : ∀ {release current reply}, replies release current reply →
    reply.effects.countP Effect.isInstall ≤ 1
  markGoodOnce : ∀ {release current reply}, replies release current reply →
    reply.effects.countP Effect.isMarkGood ≤ 1
  /-- Called in the candidate slot, it still sees the candidate slot when it
  marks it good. -/
  markGoodSlot : ∀ {release current reply}, replies release current reply →
    ∀ {front back s r}, reply.effects = front ++ .markGood s r :: back →
      readingAfter (some current.expectedCandidateSlot) front =
        some current.expectedCandidateSlot
  /-- HEALTH_CHECK advances to MARK_GOOD only when the check passed. -/
  healthPassed : ∀ {release current reply}, replies release current reply →
    current.state = .healthCheck → reply.result = .advance → reply.next.state = .markGood →
      .health current true ∈ reply.effects ∧ .health current false ∉ reply.effects
  /-- Called in the candidate slot, HEALTH_CHECK advances only from there. -/
  healthSlot : ∀ {release current reply}, replies release current reply →
    current.state = .healthCheck → reply.result = .advance →
      (reply.next.state = .markGood ∨ reply.next.state = .rollback) →
      readingAfter (some current.expectedCandidateSlot) reply.effects =
        some current.expectedCandidateSlot

/-! ## The RAUC adapter and the health check -/

/-- The slot an answer of `get-current` names. -/
def reading : Except OtaError OtaSlot → Option OtaSlot
  | .ok slot => some slot
  | .error _ => none

/-- `ota_rauc_install`; `run` is the answer of the started command. -/
def otaRaucInstall (bundle : Bytes) (current : OtaPersistentState)
    (run : Except OtaError Unit) : List Effect × Except OtaError Unit :=
  if bundle.head? != some 0x2f || bundle.length < 2 then
    ([], .error (otaErrorSet .raucInstallFailed
      (ascii "Bundle must be an absolute file path")))
  else ([.install current], run)

/-- `mark`: `mark-good` and `mark-bad` differ in the effect. -/
def mark (expected : OtaSlot) (slot : Except OtaError OtaSlot) (effect : Effect)
    (run : Except OtaError Unit) : List Effect × Except OtaError Unit :=
  if !(expected == .a || expected == .b) then
    ([], .error (otaErrorSet .identityAmbiguous (ascii "Invalid expected candidate")))
  else
    match slot with
    | .error error => ([.getCurrent none], .error error)
    | .ok current =>
        if current != expected then
          ([.getCurrent (some current)], .error (otaErrorSet .identityAmbiguous
            (ascii "Current slot is not expected candidate")))
        else ([.getCurrent (some current), effect], run)

/-- `ota_health_check`: the bounds on its arguments and the slot; `probes` is
the answer of the remaining probes of the system. -/
def otaHealthCheck (timeoutSec : Nat) (expected : OtaSlot)
    (slot : Except OtaError OtaSlot) (probes : Except OtaError Unit) :
    List Effect × Except OtaError Unit :=
  if timeoutSec == 0 || uint32Max / 1000 < timeoutSec ||
      !(expected == .a || expected == .b) then
    ([], .error (otaErrorSet .healthFailed
      (ascii "Invalid health configuration/candidate")))
  else
    let unexpected := otaErrorSet .healthFailed
      (ascii "Candidate identity failed: unexpected current slot")
    match slot with
    | .error cause =>
        ([.getCurrent none], .error (if cause.code == .none then unexpected
          else otaErrorSet .healthFailed
            (ascii "Candidate identity failed: " ++ cause.message)))
    | .ok current =>
        if current != expected then ([.getCurrent (some current)], .error unexpected)
        else ([.getCurrent (some current)], probes)

/-! ## The production callback -/

/-- The answers of everything outside the process during one call.  The flag
beside a transport error says whether it may be retried. -/
structure ServiceAnswers where
  manifest : Except (Bool × OtaError) (Option OtaManifest)
  discard : Except OtaError Unit
  download : Except (Bool × OtaError) Unit
  validate : Except OtaError Unit
  verify : Except OtaError Unit
  install : Except OtaError Unit
  healthSlot : Except OtaError OtaSlot
  healthProbes : Except OtaError Unit
  markSlot : Except OtaError OtaSlot
  mark : Except OtaError Unit
  report : Except (Bool × OtaError) Unit

def deviceCompatible : Bytes := ascii "atk-dlrk3588"

def raucCompatible : Bytes := ascii "EdgeGuard-ATK-DLRK3588-RK3588"

/-- `attempt_manifest`. -/
def attemptManifest (release : OtaRelease) (state : OtaPersistentState) : OtaManifest where
  schemaVersion := otaSchemaVersion
  deviceCompatible := strlcpy otaTextCap release.deviceCompatible
  version := strlcpy otaTextCap state.targetVersion
  buildId := strlcpy otaTextCap state.buildId
  artifactUrl := strlcpy otaPathCap state.artifactUrl
  sha256 := strlcpy otaSha256Cap state.expectedSha256
  size := state.expectedSize
  mandatory := false

/-- `candidate_release_valid`. -/
def candidateReleaseValid (release : OtaRelease) (state : OtaPersistentState) :
    Except OtaError Unit :=
  match otaReleaseValidate release with
  | .error error => .error error
  | .ok () =>
      if release.deviceCompatible != deviceCompatible ||
          release.raucCompatible != raucCompatible ||
          release.version != state.targetVersion || release.buildId != state.buildId then
        .error (otaErrorSet .raucIdentityMismatch
          (ascii "Booted release identity differs from the durable candidate attempt"))
      else .ok ()

def transportResult (retryable : Bool) : OtaPhaseResult :=
  if retryable then .retry else .hardFailure

/-- A reply without effects that gives up. -/
def hardFailure (current : OtaPersistentState) (error : OtaError) : PhaseReply :=
  ⟨[], .hardFailure, current, error⟩

/-- The reply to a failed transport. -/
def transportFailure (current : OtaPersistentState) (failure : Bool × OtaError) : PhaseReply :=
  ⟨[], transportResult failure.1, current, failure.2⟩

/-- A reply without effects that moves on to a state. -/
def advance (next : OtaPersistentState) : PhaseReply := ⟨[], .advance, next, .zero⟩

/-- `report_phase`, with the state it advances to. -/
def reportPhase (current next : OtaPersistentState)
    (report : Except (Bool × OtaError) Unit) : PhaseReply :=
  match report with
  | .error failure => transportFailure current failure
  | .ok () => advance next

def checkUpdatePhase (release : OtaRelease) (current : OtaPersistentState)
    (fetched : Except (Bool × OtaError) (Option OtaManifest)) : PhaseReply :=
  match fetched with
  | .error failure => transportFailure current failure
  | .ok none => advance { current with state := .idle }
  | .ok (some manifest) =>
      match otaCompatibilityPrecheck release manifest with
      | .error error => hardFailure current error
      | .ok false => advance { current with state := .idle }
      | .ok true =>
          advance { current with
            state := .precheck
            targetVersion := strlcpy otaTextCap manifest.version
            buildId := strlcpy otaTextCap manifest.buildId
            artifactUrl := strlcpy otaPathCap manifest.artifactUrl
            expectedSize := manifest.size
            expectedSha256 := strlcpy otaSha256Cap manifest.sha256 }

def precheckPhase (release : OtaRelease) (current : OtaPersistentState)
    (discard : Except OtaError Unit) : PhaseReply :=
  match otaCompatibilityPrecheck release (attemptManifest release current) with
  | .error error => hardFailure current error
  | .ok false => hardFailure current (otaErrorSet .illegalTransition
      (ascii "Persisted PRECHECK attempt is not an upgrade"))
  | .ok true =>
      match discard with
      | .error error => hardFailure current error
      | .ok () => advance { current with state := .downloading }

def installingPhase (config : OtaConfig) (current : OtaPersistentState)
    (run : Except OtaError Unit) : PhaseReply :=
  let (effects, result) := otaRaucInstall config.bundleFile current run
  match result with
  | .error error => ⟨effects, .hardFailure, current, error⟩
  | .ok () => ⟨effects, .advance, { current with state := .rebootPending }, .zero⟩

def healthCheckPhase (config : OtaConfig) (answers : ServiceAnswers) (release : OtaRelease)
    (current : OtaPersistentState) : PhaseReply :=
  match candidateReleaseValid release current with
  | .error error => hardFailure current error
  | .ok () =>
      let (looked, verdict) := otaHealthCheck config.healthTimeoutSec
        current.expectedCandidateSlot answers.healthSlot answers.healthProbes
      match verdict with
      | .ok () =>
          ⟨looked ++ [.health current true], .advance, { current with state := .markGood },
            .zero⟩
      | .error healthError =>
          let (effects, marked) := mark current.expectedCandidateSlot answers.markSlot
            (.markBad current) answers.mark
          let effects := looked ++ .health current false :: effects
          match marked with
          | .error error => ⟨effects, .hardFailure, current, error⟩
          | .ok () =>
              ⟨effects, .advance,
                { current with state := .rollback, lastError := healthError }, healthError⟩

def markGoodPhase (answers : ServiceAnswers) (release : OtaRelease)
    (current : OtaPersistentState) : PhaseReply :=
  match candidateReleaseValid release current with
  | .error error => hardFailure current error
  | .ok () =>
      let (effects, marked) := mark current.expectedCandidateSlot answers.markSlot
        (.markGood current release) answers.mark
      match marked with
      | .error error => ⟨effects, .hardFailure, current, error⟩
      | .ok () => ⟨effects, .advance, { current with state := .reportSuccess }, .zero⟩

/-- `phase`, the production callback. -/
def phase (config : OtaConfig) (answers : ServiceAnswers) (release : OtaRelease)
    (current : OtaPersistentState) : PhaseReply :=
  match current.state with
  | .checkNetwork => advance { current with state := .checkUpdate }
  | .checkUpdate => checkUpdatePhase release current answers.manifest
  | .precheck => precheckPhase release current answers.discard
  | .downloading =>
      match answers.download with
      | .error failure => transportFailure current failure
      | .ok () => advance { current with state := .verifyDownload }
  | .verifyDownload =>
      match answers.validate with
      | .error error => hardFailure current error
      | .ok () => advance { current with state := .raucVerify }
  | .raucVerify =>
      match answers.verify with
      | .error error => hardFailure current error
      | .ok () => advance { current with state := .installing }
  | .installing => installingPhase config current answers.install
  | .healthCheck => healthCheckPhase config answers release current
  | .markGood => markGoodPhase answers release current
  | .reportSuccess => reportPhase current { current with state := .idle } answers.report
  | .error => reportPhase current current answers.report
  | .rollback => reportPhase current current answers.report
  | state => hardFailure current (otaErrorSet .illegalTransition
      (ascii "No service action exists for state " ++ (otaStateName state).getD []))

/-! ## The production callback keeps the contract -/

section Contract

variable {config : OtaConfig} {answers : ServiceAnswers} {release : OtaRelease}
  {current : OtaPersistentState}

/-- The health check only looks at the slot, and passes only in the expected
one. -/
theorem healthCheck_effects (timeoutSec : Nat) (expected : OtaSlot)
    (slot : Except OtaError OtaSlot) (probes : Except OtaError Unit) :
    (∀ e ∈ (otaHealthCheck timeoutSec expected slot probes).1, ∃ r, e = .getCurrent r) ∧
      ((otaHealthCheck timeoutSec expected slot probes).2 = .ok () →
        (otaHealthCheck timeoutSec expected slot probes).1 =
          [.getCurrent (some expected)]) := by
  unfold otaHealthCheck
  split
  · simp
  · cases slot with
    | error cause => simp
    | ok slot =>
        simp only
        split
        · simp
        · rename_i hslot
          have heq : slot = expected := by simpa using hslot
          simp [heq]

/-- The mark commands look at the slot, and go on only in the expected one. -/
theorem mark_effects (expected : OtaSlot) (slot : Except OtaError OtaSlot)
    (effect : Effect) (run : Except OtaError Unit) :
    (∃ r, (mark expected slot effect run).1 = [.getCurrent r] ∧
        ∃ error, (mark expected slot effect run).2 = .error error) ∨
      ((mark expected slot effect run).1 = [] ∧
        ∃ error, (mark expected slot effect run).2 = .error error) ∨
      (mark expected slot effect run).1 = [.getCurrent (some expected), effect] := by
  unfold mark
  split
  · exact .inr (.inl ⟨rfl, _, rfl⟩)
  · cases slot with
    | error error => exact .inl ⟨none, rfl, error, rfl⟩
    | ok slot =>
        simp only
        split
        · exact .inl ⟨some slot, rfl, _, rfl⟩
        · rename_i hslot
          have heq : slot = expected := by simpa using hslot
          exact .inr (.inr (by rw [heq]))

/-- The release that runs is the target of the attempt. -/
theorem release_of_candidateReleaseValid
    (h : candidateReleaseValid release current = .ok ()) :
    release.version = current.targetVersion ∧ release.buildId = current.buildId := by
  unfold candidateReleaseValid at h
  split at h
  · cases h
  · split at h
    · cases h
    · rename_i hne
      simp only [Bool.or_eq_true, bne_iff_ne, not_or, not_not] at hne
      exact ⟨hne.1.2, hne.2⟩

/-- Everything a call in HEALTH_CHECK can do: nothing, a check that passed, or
a check that failed and what marking the candidate bad did. -/
inductive HealthReply (current : OtaPersistentState) : PhaseReply → Prop
  | refused (error : OtaError) : HealthReply current (hardFailure current error)
  | passed :
      HealthReply current
        ⟨[.getCurrent (some current.expectedCandidateSlot), .health current true], .advance,
          { current with state := .markGood }, .zero⟩
  | unmarked (looked seen : List Effect) (error : OtaError)
      (hlooked : ∀ e ∈ looked, ∃ r, e = .getCurrent r)
      (hseen : ∀ e ∈ seen, (∃ r, e = .getCurrent r) ∨ e = .markBad current) :
      HealthReply current
        ⟨looked ++ .health current false :: seen, .hardFailure, current, error⟩
  | marked (looked : List Effect) (error : OtaError)
      (hlooked : ∀ e ∈ looked, ∃ r, e = .getCurrent r) :
      HealthReply current
        ⟨looked ++ .health current false ::
            [.getCurrent (some current.expectedCandidateSlot), .markBad current], .advance,
          { current with state := .rollback, lastError := error }, error⟩

/-- What the health phase does, and what it may answer behind it. -/
theorem healthCheckPhase_reply (config : OtaConfig) (answers : ServiceAnswers)
    (release : OtaRelease) (current : OtaPersistentState) :
    HealthReply current (healthCheckPhase config answers release current) := by
  unfold healthCheckPhase
  split
  · exact .refused _
  have hcheck := healthCheck_effects config.healthTimeoutSec current.expectedCandidateSlot
    answers.healthSlot answers.healthProbes
  generalize otaHealthCheck config.healthTimeoutSec current.expectedCandidateSlot
    answers.healthSlot answers.healthProbes = check at hcheck
  obtain ⟨looked, verdict⟩ := check
  obtain ⟨hlooked, hpassed⟩ := hcheck
  cases verdict with
  | ok value =>
      have hseen : looked = [.getCurrent (some current.expectedCandidateSlot)] := hpassed rfl
      rw [hseen]
      exact .passed
  | error healthError =>
      have hmark := mark_effects current.expectedCandidateSlot answers.markSlot
        (.markBad current) answers.mark
      generalize mark current.expectedCandidateSlot answers.markSlot (.markBad current)
        answers.mark = marked at hmark
      obtain ⟨seen, result⟩ := marked
      simp only at hmark hlooked ⊢
      rcases hmark with ⟨r, rfl, error, rfl⟩ | ⟨rfl, error, rfl⟩ | rfl
      · exact .unmarked looked _ error hlooked (by simp)
      · exact .unmarked looked _ error hlooked (by simp)
      · cases result with
        | ok value => exact .marked looked healthError hlooked
        | error error => exact .unmarked looked _ error hlooked (by simp)

/-- Everything a call in MARK_GOOD can do. -/
inductive MarkGoodReply (release : OtaRelease) (current : OtaPersistentState) :
    PhaseReply → Prop
  | failed (seen : List Effect) (error : OtaError)
      (hseen : ∀ e ∈ seen, ∃ r, e = .getCurrent r) :
      MarkGoodReply release current ⟨seen, .hardFailure, current, error⟩
  | started (result : OtaPhaseResult) (next : OtaPersistentState) (error : OtaError)
      (hversion : release.version = current.targetVersion)
      (hbuild : release.buildId = current.buildId) :
      MarkGoodReply release current
        ⟨[.getCurrent (some current.expectedCandidateSlot), .markGood current release],
          result, next, error⟩

/-- What the phase of mark-good does, and what it may answer. -/
theorem markGoodPhase_reply (answers : ServiceAnswers) (release : OtaRelease)
    (current : OtaPersistentState) :
    MarkGoodReply release current (markGoodPhase answers release current) := by
  unfold markGoodPhase
  split
  · exact .failed [] _ (by simp)
  rename_i hvalid
  obtain ⟨hversion, hbuild⟩ := release_of_candidateReleaseValid hvalid
  have hmark := mark_effects current.expectedCandidateSlot answers.markSlot
    (.markGood current release) answers.mark
  generalize mark current.expectedCandidateSlot answers.markSlot (.markGood current release)
    answers.mark = marked at hmark
  obtain ⟨seen, result⟩ := marked
  simp only at hmark ⊢
  rcases hmark with ⟨r, rfl, error, rfl⟩ | ⟨rfl, error, rfl⟩ | rfl
  · exact .failed _ error (by simp)
  · exact .failed _ error (by simp)
  · cases result with
    | ok value => exact .started _ _ _ hversion hbuild
    | error error => exact .started _ _ _ hversion hbuild

/-- Everything a call can do, by the state it is made for. -/
inductive ServiceReply (release : OtaRelease) (current : OtaPersistentState) :
    PhaseReply → Prop
  | quiet (result : OtaPhaseResult) (next : OtaPersistentState) (error : OtaError)
      (hstate : current.state ≠ .healthCheck) :
      ServiceReply release current ⟨[], result, next, error⟩
  | installed (result : OtaPhaseResult) (next : OtaPersistentState) (error : OtaError)
      (hstate : current.state = .installing) :
      ServiceReply release current ⟨[.install current], result, next, error⟩
  | health (reply : PhaseReply) (hstate : current.state = .healthCheck)
      (h : HealthReply current reply) : ServiceReply release current reply
  | markGood (reply : PhaseReply) (hstate : current.state = .markGood)
      (h : MarkGoodReply release current reply) : ServiceReply release current reply

private theorem quiet_of_effects {reply : PhaseReply} (hstate : current.state ≠ .healthCheck)
    (h : reply.effects = []) : ServiceReply release current reply := by
  obtain ⟨effects, result, next, error⟩ := reply
  simp only at h
  subst h
  exact .quiet _ _ _ hstate

/-- Every phase answers as the contract of the services says. -/
theorem phase_reply (config : OtaConfig) (answers : ServiceAnswers) (release : OtaRelease)
    (current : OtaPersistentState) :
    ServiceReply release current (phase config answers release current) := by
  unfold phase
  split
  case h_7 hstate =>
    simp only [installingPhase, otaRaucInstall]
    by_cases hpath : (config.bundleFile.head? != some 0x2f ||
        decide (config.bundleFile.length < 2)) = true
    · rw [if_pos hpath]
      exact .quiet _ _ _ (by simp [hstate])
    · rw [if_neg hpath]
      cases answers.install with
      | ok value => exact .installed _ _ _ hstate
      | error error => exact .installed _ _ _ hstate
  case h_8 hstate => exact .health _ hstate (healthCheckPhase_reply _ _ _ _)
  case h_9 hstate => exact .markGood _ hstate (markGoodPhase_reply _ _ _)
  -- the other states only talk to the server and to local files
  all_goals
    refine quiet_of_effects (by simp_all) ?_
    simp only [checkUpdatePhase, precheckPhase, reportPhase, transportFailure, hardFailure,
      advance]
    repeat' split
    all_goals rfl

end Contract
section Reply

variable {release : OtaRelease} {current : OtaPersistentState} {reply : PhaseReply}

/-- The effects of a phase belong to the attempt that it serves. -/
private theorem belongs_of_reply (h : ServiceReply release current reply) :
    ∀ e ∈ reply.effects, Effect.BelongsTo release current e := by
  cases h with
  | quiet => simp
  | installed _ _ _ hstate => simp [Effect.BelongsTo, hstate]
  | health _ hstate h =>
      cases h with
      | refused => simp [hardFailure]
      | passed => simp [Effect.BelongsTo, hstate]
      | unmarked looked seen _ hlooked hseen =>
          intro e he
          simp only [List.mem_append, List.mem_cons] at he
          rcases he with he | rfl | he
          · obtain ⟨r, rfl⟩ := hlooked e he
            trivial
          · exact ⟨rfl, hstate⟩
          · rcases hseen e he with ⟨r, rfl⟩ | rfl
            · trivial
            · exact ⟨rfl, hstate⟩
      | marked looked _ hlooked =>
          intro e he
          simp only [List.mem_append, List.mem_cons, List.not_mem_nil, or_false] at he
          rcases he with he | rfl | rfl | rfl
          · obtain ⟨r, rfl⟩ := hlooked e he
            trivial
          · exact ⟨rfl, hstate⟩
          · trivial
          · exact ⟨rfl, hstate⟩
  | markGood _ hstate h =>
      cases h with
      | failed seen _ hseen =>
          intro e he
          obtain ⟨r, rfl⟩ := hseen e he
          trivial
      | started _ _ _ hversion hbuild => simp [Effect.BelongsTo, hstate, hversion, hbuild]

/-- Effects of a kind that cannot occur are not counted. -/
private theorem countP_eq_zero_of_belongs {p : Effect → Bool}
    (h : ∀ e ∈ reply.effects, Effect.BelongsTo release current e)
    (hp : ∀ e, Effect.BelongsTo release current e → p e = false) :
    reply.effects.countP p = 0 := by
  rw [List.countP_eq_zero]
  intro e he
  simp [hp e (h e he)]

/-- A phase installs at most once and marks good at most once. -/
private theorem counts_of_reply (h : ServiceReply release current reply) :
    reply.effects.countP Effect.isInstall ≤ 1 ∧
      reply.effects.countP Effect.isMarkGood ≤ 1 := by
  have hbelongs := belongs_of_reply h
  constructor
  · by_cases hstate : current.state = .installing
    · cases h with
      | quiet => simp
      | installed => simp [Effect.isInstall]
      | health _ hother h => simp [hother] at hstate
      | markGood _ hother h => simp [hother] at hstate
    · have hzero : reply.effects.countP Effect.isInstall = 0 := by
        refine countP_eq_zero_of_belongs hbelongs ?_
        rintro (_ | _ | _ | _ | _) he
        case install => exact absurd he.2 hstate
        all_goals rfl
      omega
  · by_cases hstate : current.state = .markGood
    · cases h with
      | quiet => simp
      | installed => simp [Effect.isMarkGood]
      | health _ hother h => simp [hother] at hstate
      | markGood _ _ h =>
          cases h with
          | failed seen _ hseen =>
              have hzero : seen.countP Effect.isMarkGood = 0 := by
                rw [List.countP_eq_zero]
                intro e he
                obtain ⟨r, rfl⟩ := hseen e he
                simp [Effect.isMarkGood]
              simp [hzero]
          | started => simp [List.countP_cons, Effect.isMarkGood]
    · have hzero : reply.effects.countP Effect.isMarkGood = 0 := by
        refine countP_eq_zero_of_belongs hbelongs ?_
        rintro (_ | _ | _ | _ | _) he
        case markGood => exact absurd he.2.1 hstate
        all_goals rfl
      omega

/-- The mark-good is behind a reading of the expected slot. -/
private theorem slot_of_reply (h : ServiceReply release current reply)
    {front back : List Effect} {s : OtaPersistentState} {r : OtaRelease}
    (heffects : reply.effects = front ++ .markGood s r :: back) :
    readingAfter (some current.expectedCandidateSlot) front =
      some current.expectedCandidateSlot := by
  have hmem : .markGood s r ∈ reply.effects := by simp [heffects]
  have hstate := (belongs_of_reply h _ hmem).2.1
  cases h with
  | quiet => simp at hmem
  | installed => simp at hmem
  | health _ hother h => simp [hother] at hstate
  | markGood _ _ h =>
      cases h with
      | failed seen _ hseen =>
          obtain ⟨r, hr⟩ := hseen _ hmem
          cases hr
      | started =>
          -- the command is the second effect, right after the look at the slot
          match front, heffects with
          | [], heffects => simp at heffects
          | [e], heffects =>
              simp only [List.cons_append, List.nil_append, List.cons.injEq] at heffects
              rw [← heffects.1]
              rfl
          | _ :: _ :: rest, heffects => simp at heffects

/-- MARK_GOOD is entered behind a health check that passed. -/
private theorem passed_of_reply (h : ServiceReply release current reply)
    (hstate : current.state = .healthCheck) (hresult : reply.result = .advance)
    (hnext : reply.next.state = .markGood) :
    .health current true ∈ reply.effects ∧ .health current false ∉ reply.effects := by
  cases h with
  | quiet _ _ _ hother => exact absurd hstate hother
  | installed _ _ _ hother => simp [hother] at hstate
  | markGood _ hother h => simp [hother] at hstate
  | health _ _ h =>
      cases h with
      | refused => cases hresult
      | passed => simp
      | unmarked => cases hresult
      | marked => cases hnext

private theorem readingAfter_append (reading : Option OtaSlot) (xs ys : List Effect) :
    readingAfter reading (xs ++ ys) = readingAfter (readingAfter reading xs) ys := by
  simp [readingAfter]

/-- MARK_GOOD is entered behind a reading of the expected slot. -/
private theorem healthSlot_of_reply (h : ServiceReply release current reply)
    (hstate : current.state = .healthCheck) (hresult : reply.result = .advance) :
    readingAfter (some current.expectedCandidateSlot) reply.effects =
      some current.expectedCandidateSlot := by
  cases h with
  | quiet _ _ _ hother => exact absurd hstate hother
  | installed _ _ _ hother => simp [hother] at hstate
  | markGood _ hother h => simp [hother] at hstate
  | health _ _ h =>
      cases h with
      | refused => cases hresult
      | passed => rfl
      | unmarked => cases hresult
      | marked looked _ _ =>
          rw [readingAfter_append]
          rfl

end Reply

/-- The production callback, with any configuration and any answers. -/
def services : PhaseCallback where
  replies release current reply :=
    ∃ config answers, reply = phase config answers release current
  belongs := by
    rintro release current _ ⟨config, answers, rfl⟩
    exact belongs_of_reply (phase_reply config answers release current)
  installOnce := by
    rintro release current _ ⟨config, answers, rfl⟩
    exact (counts_of_reply (phase_reply config answers release current)).1
  markGoodOnce := by
    rintro release current _ ⟨config, answers, rfl⟩
    exact (counts_of_reply (phase_reply config answers release current)).2
  markGoodSlot := by
    rintro release current _ ⟨config, answers, rfl⟩ front back s r heffects
    exact slot_of_reply (phase_reply config answers release current) heffects
  healthPassed := by
    rintro release current _ ⟨config, answers, rfl⟩ hstate hresult hnext
    exact passed_of_reply (phase_reply config answers release current) hstate hresult hnext
  healthSlot := by
    rintro release current _ ⟨config, answers, rfl⟩ hstate hresult _
    exact healthSlot_of_reply (phase_reply config answers release current) hstate hresult

end EdgeGuard.Agent.Services
