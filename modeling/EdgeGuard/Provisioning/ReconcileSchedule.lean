import EdgeGuard.Base.History
import EdgeGuard.Provisioning.ResultRouting

/-!
# When the daemon reconciles

`main.c` around ConnMan: as long as ConnMan is there, what the store says about Wi-Fi is
brought to it, again and again until an attempt has a final result.  One worker serves
this and the requests of the peers, so an attempt may find it busy.

The timer is part of the state, by the time at which it is due.  A callback that sets it
is given its clock and its random number; what the worker found is an argument too.
`g_bus_watch_name` reports the owner that goes before the one that comes.

## Main results

* `reconcile_pursued` — while ConnMan is there an attempt is due within a minute, under
  way, or has ended with a final result; one from before ConnMan went is cancelled.
-/

namespace EdgeGuard.Provisioning.ReconcileSchedule

open EdgeGuard.Base.CText EdgeGuard.Base.History
open EdgeGuard.Provisioning.Model EdgeGuard.Provisioning.Security
open EdgeGuard.Provisioning.Protocol (EgpProtocolOutput)
open EdgeGuard.Provisioning.Callbacks
open EdgeGuard.Provisioning.ResultRouting (dispatch_complete resultPublished_frame)

/-- `egp_connman_retry_delay_ms`. -/
def egpConnmanRetryDelayMs (attempt randomValue : Nat) : Nat :=
  let base := min (1000 <<< min attempt 6) 60000
  let spread := base / 5
  let range := spread * 2 + 1
  let jitter : Int := (randomValue % range : Nat) - (spread : Int)
  (max 800 (min (base + jitter) 60000)).toNat

/-- What a callback reads to set the timer: the clock, in microseconds, and
`g_random_int`. -/
structure Draw where
  now : Int
  random : Nat

structure System where
  daemon : Daemon
  /-- `active_cancellable` is cancelled. -/
  cancelled : Bool
  /-- What `egp_status_set_provisioning` was told last. -/
  provisioning : EgpProvisioningState × Bool
  connmanPresent : Bool
  /-- When `connman_retry_source` is due. -/
  connmanRetrySource : Option Int
  connmanRetryAttempt : Nat
  shuttingDown : Bool

/-- The daemon before its main loop runs. -/
def systemNew : System := ⟨daemonNew, false, (.unprovisioned, false), false, none, 0, false⟩

/-- `schedule_connman_reconcile`. -/
def scheduleConnmanReconcile (s : System) (draw : Draw) : System :=
  if s.shuttingDown || !s.connmanPresent || s.connmanRetrySource.isSome then s
  else
    let delay : Int := egpConnmanRetryDelayMs s.connmanRetryAttempt draw.random
    { s with connmanRetrySource := some (draw.now + delay * 1000) }

/-- `connman_reconciled`. -/
def connmanReconciled (s : System) (error : EgpError) (draw : Draw) : System :=
  if s.shuttingDown then s
  else if error.code = .none then { s with connmanRetryAttempt := 0 }
  else if error.retryable then scheduleConnmanReconcile s draw
  else s

/-- `egp_operations_reconcile`. -/
def operationsReconcile (s : System) : System × Except EgpError Unit :=
  if s.daemon.work.isSome || s.daemon.closing then
    (s, .error (egpErrorSet .provisioningBusy true .none
      (ascii "Another provisioning operation is in progress")))
  else
    ({ s with daemon := egpOperationsReconcile s.daemon, cancelled := false }, .ok ())

/-- `connman_reconcile_retry`. -/
def connmanReconcileRetry (s : System) (draw : Draw) : System :=
  let s := { s with connmanRetrySource := none }
  if s.shuttingDown || !s.connmanPresent then s
  else
    let attempt := s.connmanRetryAttempt
    let s := { s with
      connmanRetryAttempt := if attempt < 2 ^ 32 - 1 then attempt + 1 else attempt }
    match operationsReconcile s with
    | (s, .ok ()) => s
    | (s, .error error) => connmanReconciled s error draw

/-- `connman_appeared`. -/
def connmanAppeared (s : System) (draw : Draw) : System :=
  scheduleConnmanReconcile { s with connmanPresent := true, connmanRetryAttempt := 0 } draw

/-- `connman_vanished`, with `egp_operations_connman_lost`. -/
def connmanVanished (s : System) : System :=
  { s with
    connmanPresent := false
    connmanRetryAttempt := 0
    connmanRetrySource := none
    cancelled := s.cancelled || s.daemon.work.isSome
    provisioning := (.failedDependency, false) }

/-- `completed`, when the worker is done with an attempt. -/
def reconcileCompleted (s : System) (error : EgpError) (draw : Draw) : System :=
  connmanReconciled { s with daemon := { s.daemon with work := none } } error draw

/-- The end of `main`, up to the loop of `egp_operations_free`. -/
def stopDaemon (s : System) : System :=
  { s with
    shuttingDown := true
    connmanRetrySource := none
    daemon := { inputLost s.daemon with closing := true } }

/-! ## Runs -/

inductive Event
  | appeared (draw : Draw)
  | vanished
  | retry (draw : Draw)
  /-- The worker is done with an attempt. -/
  | completed (error : EgpError) (draw : Draw)
  | callback (event : Callbacks.Event)
  /-- `egp_status_set_provisioning` in the worker. -/
  | provisioning (state : EgpProvisioningState) (wifiConnected : Bool)
  | stop

/-- A callback of the daemon; a request that it submits has its own cancellable. -/
def System.callback (sha256 : Bytes → Bytes) (s : System) (event : Callbacks.Event) : System :=
  let daemon := (Callbacks.step sha256 s.daemon event).1
  { s with
    daemon := daemon
    cancelled := s.cancelled && !(s.daemon.work.isNone && daemon.work.isSome) }

def step (sha256 : Bytes → Bytes) (s : System) : Event → System
  | .appeared draw => connmanAppeared s draw
  | .vanished => connmanVanished s
  | .retry draw => connmanReconcileRetry s draw
  | .completed error draw => reconcileCompleted s error draw
  | .callback event => s.callback sha256 event
  | .provisioning state wifiConnected => { s with provisioning := (state, wifiConnected) }
  | .stop => stopDaemon s

/-- The event may come now.  The callbacks are those that have no event of their own
here. -/
inductive Enabled (s : System) : Event → Prop
  | appeared (draw : Draw) (up : s.shuttingDown = false) (absent : s.connmanPresent = false) :
      Enabled s (.appeared draw)
  | vanished (up : s.shuttingDown = false) : Enabled s .vanished
  | retry (draw : Draw) (due : Int) (source : s.connmanRetrySource = some due)
      (le : due ≤ draw.now) : Enabled s (.retry draw)
  | completed (error : EgpError) (draw : Draw) (work : s.daemon.work = some .reconcile) :
      Enabled s (.completed error draw)
  | callback (event : Callbacks.Event) (other : event ≠ .reconcile ∧ event ≠ .shutDown)
      (request : ∀ o now outcome, event = .completed o now outcome →
        s.daemon.work ≠ some .reconcile) : Enabled s (.callback event)
  | provisioning (state : EgpProvisioningState) (wifiConnected : Bool)
      (work : s.daemon.work.isSome = true) : Enabled s (.provisioning state wifiConnected)
  | stop (up : s.shuttingDown = false) : Enabled s .stop

/-- An event, between two states. -/
structure Entry where
  before : System
  event : Event
  after : System

/-- The states that are reached in any order, with the log of the events. -/
inductive Run (sha256 : Bytes → Bytes) : List Entry → System → Prop
  | start : Run sha256 [] systemNew
  | step {log : List Entry} {s : System} (h : Run sha256 log s) (event : Event)
      (enabled : Enabled s event) :
      Run sha256 (log ++ [⟨s, event, step sha256 s event⟩])
        (ReconcileSchedule.step sha256 s event)

/-! ## Attempts -/

/-- An attempt begins, with ConnMan there. -/
def Starts (x : Entry) : Prop :=
  x.before.connmanPresent = true ∧ x.before.daemon.work = none ∧
    x.after.daemon.work = some .reconcile

/-- An attempt has been under way since it began, and ConnMan there. -/
def InFlight : List Entry → Prop :=
  Since (fun _ x => Starts x)
    (fun y => y.before.daemon.work = some .reconcile ∧ y.event ≠ .vanished)

/-- An attempt ends, and no other one would change its result. -/
def Final (x : Entry) : Prop :=
  ∃ error draw, x.event = .completed error draw ∧ (error.code = .none ∨ error.retryable = false)

/-- An attempt has had a final result, and ConnMan has been there since it began. -/
def Settled : List Entry → Prop :=
  Since (fun front x => Final x ∧ InFlight front) (fun y => y.event ≠ .vanished)

/-- What the callback of an event reads to set the timer. -/
def Event.draw : Event → Option Draw
  | .appeared draw | .retry draw | .completed _ draw => some draw
  | _ => none

/-- The timer was set for this time, at most a minute ahead, and has not been touched
since. -/
def Scheduled (due : Int) : List Entry → Prop :=
  Since
    (fun _ x => ∃ draw, x.event.draw = some draw ∧ draw.now + 800 * 1000 ≤ due ∧
      due ≤ draw.now + 60000 * 1000)
    (fun y => y.before.connmanRetrySource = some due ∧ y.after.connmanRetrySource = some due)

structure Sound (log : List Entry) (s : System) : Prop where
  timer : ∀ due, s.connmanRetrySource = some due →
    Scheduled due log ∧ s.connmanPresent = true ∧ s.shuttingDown = false
  flight : s.daemon.work = some .reconcile → InFlight log ∨ s.cancelled = true
  pursued : s.connmanPresent = true → s.shuttingDown = false →
    s.connmanRetrySource ≠ none ∨ (s.daemon.work = some .reconcile ∧ InFlight log) ∨ Settled log

theorem delay_bounds (attempt randomValue : Nat) :
    800 ≤ egpConnmanRetryDelayMs attempt randomValue ∧
      egpConnmanRetryDelayMs attempt randomValue ≤ 60000 := by
  unfold egpConnmanRetryDelayMs
  simp only
  omega

section

variable {sha256 : Bytes → Bytes} {log : List Entry} {s : System} {x : Entry}

/-! ## The steps -/

/-- What scheduling comes to, where ConnMan is there: the timer is set. -/
theorem schedule_sets (hpresent : s.connmanPresent = true) (hup : s.shuttingDown = false)
    (draw : Draw) :
    ∃ due, scheduleConnmanReconcile s draw = { s with connmanRetrySource := some due } ∧
      (s.connmanRetrySource = some due ∨ draw.now + 800 * 1000 ≤ due ∧
        due ≤ draw.now + 60000 * 1000) := by
  unfold scheduleConnmanReconcile
  cases hsource : s.connmanRetrySource with
  | some due =>
      refine ⟨due, ?_, .inl rfl⟩
      rw [if_pos (by simp), ← hsource]
  | none =>
      obtain ⟨hlow, hhigh⟩ := delay_bounds s.connmanRetryAttempt draw.random
      rw [if_neg (by simp [hpresent, hup])]
      exact ⟨_, rfl, .inr ⟨by omega, by omega⟩⟩

/-- What a result comes to, where ConnMan is there: it is final, or the timer is set. -/
theorem reconciled_cases (s : System) (error : EgpError) (draw : Draw)
    (hup : s.shuttingDown = false) :
    (∃ attempt, connmanReconciled s error draw = { s with connmanRetryAttempt := attempt } ∧
        (error.code = .none ∨ error.retryable = false)) ∨
      connmanReconciled s error draw = scheduleConnmanReconcile s draw := by
  unfold connmanReconciled
  rw [if_neg (by simp [hup])]
  by_cases hcode : error.code = .none
  · rw [if_pos hcode]
    exact .inl ⟨0, rfl, .inl hcode⟩
  · rw [if_neg hcode]
    by_cases hretryable : error.retryable = true
    · rw [if_pos hretryable]
      exact .inr rfl
    · rw [if_neg hretryable]
      exact .inl ⟨s.connmanRetryAttempt, rfl, .inr (by simpa using hretryable)⟩

/-- What a result comes to, where the daemon ends or ConnMan is away. -/
theorem reconciled_idle (s : System) (error : EgpError) (draw : Draw)
    (h : s.connmanPresent = true → s.shuttingDown = true) :
    ∃ attempt, connmanReconciled s error draw = { s with connmanRetryAttempt := attempt } := by
  unfold connmanReconciled scheduleConnmanReconcile
  by_cases hup : s.shuttingDown = true
  · rw [if_pos hup]
    exact ⟨s.connmanRetryAttempt, rfl⟩
  · have habsent : s.connmanPresent = false := by
      by_contra hpresent
      exact hup (h (by simpa using hpresent))
    rw [if_neg hup]
    by_cases hcode : error.code = .none
    · rw [if_pos hcode]
      exact ⟨0, rfl⟩
    · rw [if_neg hcode, if_pos (c := (s.shuttingDown || _ || _) = true) (by simp [habsent])]
      exact ⟨s.connmanRetryAttempt, ite_self s⟩

/-- What the timer comes to: an attempt begins, or the timer is set again. -/
theorem retry_cases (s : System) (draw : Draw) (hpresent : s.connmanPresent = true)
    (hup : s.shuttingDown = false) :
    (∃ attempt, s.daemon.work = none ∧ connmanReconcileRetry s draw =
        { s with
          connmanRetrySource := none
          connmanRetryAttempt := attempt
          daemon := { s.daemon with work := some .reconcile }
          cancelled := false }) ∨
      ∃ attempt, connmanReconcileRetry s draw =
        scheduleConnmanReconcile
          { s with connmanRetrySource := none, connmanRetryAttempt := attempt } draw := by
  unfold connmanReconcileRetry
  simp only
  rw [if_neg (by simp [hpresent, hup])]
  unfold operationsReconcile
  by_cases hbusy : (s.daemon.work.isSome || s.daemon.closing) = true
  · right
    refine ⟨if s.connmanRetryAttempt < 2 ^ 32 - 1 then s.connmanRetryAttempt + 1
      else s.connmanRetryAttempt, ?_⟩
    simp only
    rw [if_pos hbusy]
    unfold connmanReconciled
    simp only
    rw [if_neg (by simp [hup]), if_neg (by simp), if_pos (by rfl)]
  · left
    have hwork : s.daemon.work = none := by
      simp only [Bool.or_eq_true, not_or] at hbusy
      simpa using hbusy.1
    refine ⟨if s.connmanRetryAttempt < 2 ^ 32 - 1 then s.connmanRetryAttempt + 1
      else s.connmanRetryAttempt, hwork, ?_⟩
    simp only
    rw [if_neg hbusy]
    simp only [egpOperationsReconcile, if_neg hbusy]

theorem moved_work (d : Daemon) (m : Moved) : (d.moved m).work = d.work := by
  unfold Daemon.moved
  simp only
  split <;> rfl

/-- No callback ends an attempt. -/
theorem callback_work (sha256 : Bytes → Bytes) {d : Daemon} {event : Callbacks.Event}
    (hwork : d.work = some .reconcile) (h : ∀ o now outcome, event ≠ .completed o now outcome) :
    (Callbacks.step sha256 d event).1.work = some .reconcile := by
  cases event with
  | writeValue env characteristic peerPath value =>
      show (Callbacks.writeValue sha256 env d characteristic peerPath value).1.work = _
      unfold Callbacks.writeValue
      cases characteristic with
      | none => exact hwork
      | some writable =>
          simp only
          rw [if_pos (by rw [hwork]; rfl)]
          exact hwork
  | readResult env peerPath => exact hwork
  | physicalPresence now => exact (moved_work d _).trans hwork
  | inputLost => exact (moved_work d _).trans hwork
  | windowTick now => exact (moved_work d _).trans hwork
  | bluezLost => exact hwork
  | peerDisconnected peerPath => exact hwork
  | expireProtocol o now => exact hwork
  | completed o now outcome => exact absurd rfl (h o now outcome)
  | reconcile =>
      show (egpOperationsReconcile d).work = _
      rw [egpOperationsReconcile, if_pos (by simp [hwork])]
      exact hwork
  | shutDown => exact hwork

/-- The work of a write is its request. -/
theorem authorizeWrite_work (env : PeerEnv) {d : Daemon} (hwork : d.work = none)
    (peerPath : Bytes) (peer : EgpPeerSecurity) (output : EgpProtocolOutput) :
    (authorizeWrite env d peerPath peer output).1.work ≠ some .reconcile := by
  have hidle : d.work ≠ some .reconcile := by
    rw [hwork]
    exact nofun
  unfold authorizeWrite
  simp only
  generalize egpSecurityAuthorizeSensitive d.security peerPath peer true env.authorizeUs =
    authorized
  obtain ⟨security, answer⟩ := authorized
  cases answer with
  | error error =>
      simp only
      split
      · rw [moved_work]
        exact hidle
      · exact hidle
  | ok u =>
      simp only
      cases output with
      | incomplete => exact hidle
      | replay request cached =>
          unfold dispatch
          simp only
          split <;> exact hidle
      | complete request =>
          rcases dispatch_complete (d := { d with security }) env hwork peerPath peer request with
            heq | heq
          · rw [heq]
            exact hidle
          · rw [heq, (resultPublished_frame _ _ _ _ _).2]
            exact nofun

/-- No callback but the attempt's own begins one. -/
theorem callback_begun (sha256 : Bytes → Bytes) {d : Daemon} {event : Callbacks.Event}
    (h : event ≠ .reconcile)
    (hbegun : (Callbacks.step sha256 d event).1.work = some .reconcile) :
    d.work = some .reconcile := by
  cases event with
  | writeValue env characteristic peerPath value =>
      replace hbegun : (Callbacks.writeValue sha256 env d characteristic peerPath value).1.work =
        some .reconcile := hbegun
      unfold Callbacks.writeValue at hbegun
      cases characteristic with
      | none => exact hbegun
      | some writable =>
          simp only at hbegun
          by_cases hbusy : d.work.isSome = true
          · rw [if_pos hbusy] at hbegun
            exact hbegun
          · have hwork : d.work = none := by simpa using hbusy
            rw [if_neg hbusy] at hbegun
            split at hbegun
            · exact hbegun
            · split at hbegun
              · exact hbegun
              · split at hbegun
                · exact hbegun
                · split at hbegun
                  · exact hbegun
                  · exact absurd hbegun (authorizeWrite_work env (by exact hwork) peerPath _ _)
  | readResult env peerPath => exact hbegun
  | physicalPresence now => exact (moved_work d _).symm.trans hbegun
  | inputLost => exact (moved_work d _).symm.trans hbegun
  | windowTick now => exact (moved_work d _).symm.trans hbegun
  | bluezLost => exact hbegun
  | peerDisconnected peerPath => exact hbegun
  | expireProtocol o now => exact hbegun
  | completed o now outcome =>
      replace hbegun : (Callbacks.completed o now d outcome).work = some .reconcile := hbegun
      unfold Callbacks.completed at hbegun
      split at hbegun
      · exact hbegun
      · cases hbegun
      · rw [(resultPublished_frame _ _ _ _ _).2] at hbegun
        cases hbegun
  | reconcile => exact absurd rfl h
  | shutDown => exact hbegun

/-! ## Every run -/

/-- Behind a callback that has set the timer, or has found it set. -/
theorem sound_scheduled (h : Sound log s) (hbefore : x.before = s) (s' : System) {draw : Draw}
    (hsource : s'.connmanRetrySource = none ∨ s'.connmanRetrySource = s.connmanRetrySource)
    (hpresent : s'.connmanPresent = true) (hup : s'.shuttingDown = false)
    (hdraw : x.event.draw = some draw) (hafter : x.after = scheduleConnmanReconcile s' draw)
    (hflight : s'.daemon.work = some .reconcile → InFlight (log ++ [x]) ∨ s'.cancelled = true) :
    Sound (log ++ [x]) x.after := by
  obtain ⟨due, heq, hdue⟩ := schedule_sets hpresent hup draw
  have hset : x.after.connmanRetrySource = some due := by rw [hafter, heq]
  have hscheduled : Scheduled due (log ++ [x]) := by
    rcases hdue with hfound | hset'
    · rcases hsource with hnone | hsame
      · rw [hnone] at hfound
        cases hfound
      · rw [hsame] at hfound
        exact (h.timer due hfound).1.snoc ⟨hbefore ▸ hfound, hset⟩
    · exact since_last ⟨draw, hdraw, hset'⟩
  rw [hafter, heq]
  refine ⟨?_, hflight, fun _ _ => .inl nofun⟩
  rintro due' ⟨⟩
  exact ⟨hscheduled, hpresent, hup⟩

/-- An event that leaves the timer and ConnMan alone, and ends no attempt. -/
theorem sound_other (h : Sound log s) (hbefore : x.before = s)
    (hsource : x.after.connmanRetrySource = s.connmanRetrySource)
    (hpresent : x.after.connmanPresent = s.connmanPresent)
    (hup : x.after.shuttingDown = s.shuttingDown) (hevent : x.event ≠ .vanished)
    (hwork : s.daemon.work = some .reconcile → x.after.daemon.work = some .reconcile)
    (hbegun : x.after.daemon.work = some .reconcile → s.daemon.work = some .reconcile ∧
      x.after.cancelled = s.cancelled) : Sound (log ++ [x]) x.after := by
  have hinflight : s.daemon.work = some .reconcile → InFlight log → InFlight (log ++ [x]) :=
    fun hwork hflight => hflight.snoc ⟨hbefore ▸ hwork, hevent⟩
  refine ⟨?_, ?_, ?_⟩
  · intro due hdue
    obtain ⟨hscheduled, hthere, hrunning⟩ := h.timer due (hsource ▸ hdue)
    have hkept : x.before.connmanRetrySource = some due := by rw [hbefore, ← hsource, hdue]
    exact ⟨hscheduled.snoc ⟨hkept, hdue⟩, hpresent.trans hthere, hup.trans hrunning⟩
  · intro hreconcile
    obtain ⟨hsame, hcancelled⟩ := hbegun hreconcile
    rw [hcancelled]
    exact (h.flight hsame).imp_left (hinflight hsame)
  · intro hthere hrunning
    rw [hsource]
    rcases h.pursued (hpresent ▸ hthere) (hup ▸ hrunning) with
      hset | ⟨hreconcile, hflight⟩ | hsettled
    · exact .inl hset
    · exact .inr (.inl ⟨hwork hreconcile, hinflight hreconcile hflight⟩)
    · exact .inr (.inr (hsettled.snoc hevent))

theorem inFlight_snoc (h : Sound log s) (hbefore : x.before = s) (hevent : x.event ≠ .vanished)
    (hwork : s.daemon.work = some .reconcile) :
    InFlight (log ++ [x]) ∨ s.cancelled = true :=
  (h.flight hwork).imp_left fun hflight => hflight.snoc ⟨hbefore ▸ hwork, hevent⟩

/-- The timer that is due keeps the relation: it starts a reconciliation or is set again. -/
theorem Sound.retry (h : Sound log s) {draw : Draw} {due : Int}
    (hsource : s.connmanRetrySource = some due) (hbefore : x.before = s)
    (hevent : x.event = .retry draw) (hafter : x.after = connmanReconcileRetry s draw) :
    Sound (log ++ [x]) x.after := by
  obtain ⟨-, hpresent, hup⟩ := h.timer due hsource
  rcases retry_cases s draw hpresent hup with ⟨attempt, hidle, heq⟩ | ⟨attempt, heq⟩
  · rw [heq] at hafter
    have hstarts : Starts x := by
      refine ⟨hbefore ▸ hpresent, hbefore ▸ hidle, ?_⟩
      rw [hafter]
    have hflight : InFlight (log ++ [x]) := since_last hstarts
    rw [hafter]
    exact ⟨nofun, fun _ => .inl hflight, fun _ _ => .inr (.inl ⟨rfl, hflight⟩)⟩
  · rw [heq] at hafter
    have hflight := inFlight_snoc h hbefore (by rw [hevent]; exact nofun)
    exact sound_scheduled h hbefore
      { s with connmanRetrySource := none, connmanRetryAttempt := attempt } (.inl rfl) hpresent hup
      (by rw [hevent]; rfl) hafter hflight

/-- The end of a reconciliation keeps the relation: unless its result is final the timer is
set. -/
theorem Sound.completed (h : Sound log s) {error : EgpError} {draw : Draw}
    (hbefore : x.before = s) (hevent : x.event = .completed error draw)
    (hafter : x.after = reconcileCompleted s error draw) : Sound (log ++ [x]) x.after := by
  have hother : x.event ≠ .vanished := by
    rw [hevent]
    exact nofun
  unfold reconcileCompleted at hafter
  by_cases hthere : s.connmanPresent = true ∧ s.shuttingDown = false
  · obtain ⟨hpresent, hup⟩ := hthere
    rcases reconciled_cases { s with daemon := { s.daemon with work := none } } error draw hup with
      ⟨attempt, heq, hfinal⟩ | heq
    · rw [heq] at hafter
      rw [hafter]
      refine ⟨?_, nofun, ?_⟩
      · intro due hdue
        have hkept : x.after.connmanRetrySource = some due := by
          rw [hafter]
          exact hdue
        exact ⟨(h.timer due hdue).1.snoc ⟨by rw [hbefore]; exact hdue, hkept⟩, hpresent, hup⟩
      · intro _ _
        rcases h.pursued hpresent hup with hset | ⟨-, hflight⟩ | hsettled
        · exact .inl hset
        · exact .inr (.inr (since_last ⟨⟨error, draw, hevent, hfinal⟩, hflight⟩))
        · exact .inr (.inr (hsettled.snoc hother))
    · rw [heq] at hafter
      exact sound_scheduled h hbefore { s with daemon := { s.daemon with work := none } } (.inr rfl)
        hpresent hup (by rw [hevent]; rfl) hafter nofun
  · have hidle : s.connmanPresent = true → s.shuttingDown = true := by
      intro hpresent
      by_contra hup
      exact hthere ⟨hpresent, by simpa using hup⟩
    obtain ⟨attempt, heq⟩ :=
      reconciled_idle { s with daemon := { s.daemon with work := none } } error draw hidle
    rw [heq] at hafter
    rw [hafter]
    refine ⟨?_, nofun, fun hpresent hup => absurd ⟨hpresent, hup⟩ hthere⟩
    intro due hdue
    obtain ⟨-, hpresent, hup⟩ := h.timer due hdue
    exact absurd ⟨hpresent, hup⟩ hthere

/-- One event keeps the relation between the log and the schedule. -/
theorem sound_step (h : Sound log s) {event : Event} (henabled : Enabled s event) :
    Sound (log ++ [⟨s, event, step sha256 s event⟩]) (step sha256 s event) := by
  generalize hx : (⟨s, event, step sha256 s event⟩ : Entry) = x
  have hbefore : x.before = s := by rw [← hx]
  have hevent : x.event = event := by rw [← hx]
  have hafter : x.after = step sha256 s event := by rw [← hx]
  rw [← hafter]
  cases henabled with
  | appeared draw hup habsent =>
      have hflight := inFlight_snoc h hbefore (by rw [hevent]; exact nofun)
      exact sound_scheduled h hbefore { s with connmanPresent := true, connmanRetryAttempt := 0 }
        (.inr rfl) rfl hup (by rw [hevent]; rfl) hafter hflight
  | vanished hup =>
      rw [hafter]
      refine ⟨nofun, fun hwork => .inr ?_, nofun⟩
      show (s.cancelled || s.daemon.work.isSome) = true
      rw [show s.daemon.work = some .reconcile from hwork, Option.isSome_some, Bool.or_true]
  | retry draw due hsource hdue => exact h.retry hsource hbefore hevent hafter
  | completed error draw hwork => exact h.completed hbefore hevent hafter
  | callback event hother hrequest =>
      refine sound_other h hbefore ?_ ?_ ?_ (by rw [hevent]; exact nofun) ?_ ?_
      · rw [hafter]
        rfl
      · rw [hafter]
        rfl
      · rw [hafter]
        rfl
      · intro hwork
        rw [hafter]
        exact callback_work sha256 hwork fun o now outcome heq => hrequest o now outcome heq hwork
      · intro hwork
        rw [hafter] at hwork ⊢
        have hsame := callback_begun sha256 hother.1 hwork
        refine ⟨hsame, ?_⟩
        show (s.cancelled && !(s.daemon.work.isNone && _)) = s.cancelled
        rw [hsame, Option.isNone_some, Bool.false_and, Bool.not_false, Bool.and_true]
  | provisioning state wifiConnected hwork =>
      refine sound_other h hbefore ?_ ?_ ?_ (by rw [hevent]; exact nofun) ?_ ?_
      · rw [hafter]
        rfl
      · rw [hafter]
        rfl
      · rw [hafter]
        rfl
      · intro hwork
        rw [hafter]
        exact hwork
      · intro hwork
        rw [hafter] at hwork ⊢
        exact ⟨hwork, rfl⟩
  | stop hup =>
      rw [hafter]
      refine ⟨nofun, fun hwork => ?_, nofun⟩
      have hsame : s.daemon.work = some .reconcile := (moved_work s.daemon _).symm.trans hwork
      show InFlight _ ∨ s.cancelled = true
      exact inFlight_snoc h hbefore (by rw [hevent]; exact nofun) hsame

/-- In every run, as long as ConnMan is there and the daemon stays up, a reconciliation is
scheduled or in flight, or one had its final result. -/
theorem sound_run (h : Run sha256 log s) : Sound log s := by
  induction h with
  | start => exact ⟨nofun, nofun, nofun⟩
  | step h event henabled ih => exact sound_step ih henabled

/-- In every order of the events: while ConnMan is there and the daemon runs, the timer
is set for the next attempt, at most a minute after the callback that set it; or an
attempt has been under way since it began with ConnMan there; or one that did so has
ended with success or with a failure that no other attempt would cure.  An attempt that
ConnMan has left since it began is cancelled, and without ConnMan nothing is set. -/
theorem reconcile_pursued (h : Run sha256 log s) :
    (s.connmanPresent = true → s.shuttingDown = false →
      (∃ due, s.connmanRetrySource = some due ∧ Scheduled due log) ∨
        (s.daemon.work = some .reconcile ∧ InFlight log) ∨ Settled log) ∧
    (s.daemon.work = some .reconcile → InFlight log ∨ s.cancelled = true) ∧
    (∀ due, s.connmanRetrySource = some due →
      s.connmanPresent = true ∧ s.shuttingDown = false) := by
  have hsound := sound_run h
  refine ⟨?_, hsound.flight, fun due hdue => (hsound.timer due hdue).2⟩
  intro hpresent hup
  rcases hsound.pursued hpresent hup with hset | hrest
  · obtain ⟨due, hdue⟩ := Option.ne_none_iff_exists'.mp hset
    exact .inl ⟨due, hdue, (hsound.timer due hdue).1⟩
  · exact .inr hrest

end

/-- ConnMan comes, and the timer of the first attempt is due. -/
theorem reconcile_pursued_attempt :
    ∃ log s, Run id log s ∧ s.connmanPresent = true ∧
      ((∃ due, s.connmanRetrySource = some due ∧ Scheduled due log) ∨
        (s.daemon.work = some .reconcile ∧ InFlight log) ∨ Settled log) := by
  have hstart : Run id [] systemNew := .start
  have hcame := hstart.step (.appeared ⟨1000, 200⟩) (.appeared _ rfl rfl)
  have hbegun := hcame.step (.retry ⟨1001000, 0⟩) (.retry _ 1001000 rfl (by decide))
  exact ⟨_, _, hbegun, rfl, (reconcile_pursued hbegun).1 rfl rfl⟩

end EdgeGuard.Provisioning.ReconcileSchedule
