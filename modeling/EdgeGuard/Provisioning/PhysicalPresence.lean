import EdgeGuard.Base.History
import EdgeGuard.Provisioning.Input
import EdgeGuard.Provisioning.ResultRouting

/-!
# Physical presence

The key of the board and the daemon together.  Whatever may be done to the device over
the air is behind the window, and only the timer of the key opens it: here every order
of the key's events, of the callbacks and of the worker's checks is a run.

The two sources of the key come when the main loop has them: a read while the descriptor
has its source, the timer when it is due.  `physical_presence` has no other caller, so it
is not among the callbacks; the event `inputLost` is here for `close_one_shot`.

## Main results

* `physical_presence` — whoever is granted something, someone has held the key of the
  board within the last two minutes; and a key that is held long enough opens the window.
-/

namespace EdgeGuard.Provisioning.PhysicalPresence

open EdgeGuard.Base.CText EdgeGuard.Base.History EdgeGuard.Base.Hold EdgeGuard.Base.Trace
open EdgeGuard.Provisioning.Model EdgeGuard.Provisioning.Protocol
open EdgeGuard.Provisioning.Security EdgeGuard.Provisioning.Input
open EdgeGuard.Provisioning.Authorization (egpStatusAgentIdle)
open EdgeGuard.Provisioning.Callbacks (Daemon PeerEnv daemonNew)
open EdgeGuard.Provisioning.ResultRouting (dispatch_security resultPublished_frame readResult_ok)

/-! ## The device -/

structure System where
  /-- `none` where `egp_input_new` has failed. -/
  input : Option EgpInput
  daemon : Daemon

inductive Event
  /-- `input_ready`. -/
  | ready (hangUp : Bool) (turns : List Turn)
  /-- `hold_elapsed`, with the clock of `physical_presence`. -/
  | timer (now : Int)
  | callback (event : Callbacks.Event)
  /-- `allow_pairing`. -/
  | allowPairing (peerPath : Bytes) (now : Int)
  /-- `authorize_commit` in the worker, behind `egp_bluez_peer_security`. -/
  | authorizeCommit (peerPath : Bytes) (peer : EgpPeerSecurity)
      (windowEpoch connectionEpoch : Nat) (now : Int)

inductive Reply
  | answer (answer : Answer)
  | callback (reply : Callbacks.Reply)
  | none

/-- The main loop has the source of the event. -/
inductive Enabled (s : System) : Event → Prop
  | ready (hangUp : Bool) (turns : List Turn) (input : EgpInput) (some : s.input = some input)
      (isOpen : input.isOpen = true) : Enabled s (.ready hangUp turns)
  | timer (now due : Int) (input : EgpInput) (some : s.input = some input)
      (source : input.holdSource = .some due) (le : due ≤ now) : Enabled s (.timer now)
  | callback (event : Callbacks.Event) (ne : ∀ now, event ≠ .physicalPresence now) :
      Enabled s (.callback event)
  | allowPairing (peerPath : Bytes) (now : Int) : Enabled s (.allowPairing peerPath now)
  | authorizeCommit (peerPath : Bytes) (peer : EgpPeerSecurity)
      (windowEpoch connectionEpoch : Nat) (now : Int) :
      Enabled s (.authorizeCommit peerPath peer windowEpoch connectionEpoch now)

/-- The callback of the descriptor, with what it calls in the daemon. -/
def System.ready (s : System) (hangUp : Bool) (turns : List Turn) : System :=
  match s.input with
  | none => s
  | some input =>
      let readied := inputReady input hangUp turns
      ⟨some readied.input, if readied.lost then Callbacks.inputLost s.daemon else s.daemon⟩

/-- The callback of the timer, with what it calls in the daemon. -/
def System.timer (s : System) (now : Int) : System :=
  match s.input with
  | none => s
  | some input =>
      let elapsed := holdElapsed input
      ⟨some elapsed.1, if elapsed.2 then Callbacks.physicalPresence s.daemon now else s.daemon⟩

def step (sha256 : Bytes → Bytes) (s : System) : Event → System × Reply
  | .ready hangUp turns => (s.ready hangUp turns, .none)
  | .timer now => (s.timer now, .none)
  | .callback event =>
      let r := Callbacks.step sha256 s.daemon event
      ({ s with daemon := r.1 }, .callback r.2)
  | .allowPairing peerPath now =>
      (s, .answer (egpSecurityAllowPairing s.daemon.security peerPath now))
  | .authorizeCommit peerPath peer windowEpoch connectionEpoch now =>
      (s, .answer (egpSecurityAuthorizeCommit s.daemon.security peerPath peer windowEpoch
        connectionEpoch now))

/-- An event, between two states. -/
structure Entry where
  before : System
  event : Event
  reply : Reply
  after : System

/-- The states that are reached in any order, with the log of the events. -/
inductive Run (sha256 : Bytes → Bytes) (directory : InputDirectory) (keyCode holdMs : Nat) :
    List Entry → System → Prop
  | start : Run sha256 directory keyCode holdMs []
      ⟨(egpInputNew directory keyCode holdMs).toOption, daemonNew⟩
  | step {log : List Entry} {s : System} (h : Run sha256 directory keyCode holdMs log s)
      (event : Event) (enabled : Enabled s event) :
      Run sha256 directory keyCode holdMs
        (log ++ [⟨s, event, (step sha256 s event).2, (step sha256 s event).1⟩])
        (PhysicalPresence.step sha256 s event).1

/-- What is granted to a peer, and the time at which the window was looked at. -/
inductive Grants : Event → Reply → Int → Prop
  | pairing (peerPath : Bytes) (now : Int) :
      Grants (.allowPairing peerPath now) (.answer (.ok ())) now
  | commit (peerPath : Bytes) (peer : EgpPeerSecurity) (windowEpoch connectionEpoch : Nat)
      (now : Int) :
      Grants (.authorizeCommit peerPath peer windowEpoch connectionEpoch now)
        (.answer (.ok ())) now
  | write (env : PeerEnv) (characteristic : Option EgpWritableCharacteristic)
      (peerPath value : Bytes) :
      Grants (.callback (.writeValue env characteristic peerPath value))
        (.callback (.wrote (.ok ()))) env.authorizeUs
  | result (env : PeerEnv) (peerPath value : Bytes) :
      Grants (.callback (.readResult env peerPath)) (.callback (.read (.ok value)))
        env.authorizeUs

/-! ## What a run says about the key -/

/-- The acts of an event. -/
def Event.acts (keyCode : Nat) : Event → List (Act Int)
  | .ready hangUp turns => readyActs keyCode hangUp turns
  | .timer _ => [.elapsed]
  | _ => []

/-- What has happened to the key. -/
def keyActs (keyCode : Nat) (log : List Entry) : List (Act Int) :=
  log.flatMap fun x => x.event.acts keyCode

/-- The key that is asked for is there, and has to be held. -/
structure Usable (directory : InputDirectory) (keyCode holdMs : Nat) : Prop where
  key : 0 < keyCode ∧ keyCode ≤ keyMax
  hold : 500 ≤ holdMs ∧ holdMs ≤ 10000
  device : ∃ list entry, directory = .entries list ∧ list.filter DirEntry.isAdcKeys = [entry]

/-- The timer of a press opened the window that has this deadline; it has been open
since, and the key has been there. -/
def Opened (keyCode holdMs : Nat) (deadlineUs : Int) : List Entry → Prop :=
  Since
    (fun earlier x => ∃ t start, x.event = .timer t ∧ Holding (keyActs keyCode earlier) start ∧
      start + holdMs * 1000 ≤ t ∧ deadlineUs = t + egpWindowDurationUs)
    (fun y => y.after.daemon.security.isOpen = true ∧ Act.gone ∉ y.event.acts keyCode)

structure Sound (directory : InputDirectory) (keyCode holdMs : Nat) (log : List Entry)
    (s : System) : Prop where
  tracks : ∀ input, s.input = some input → Tracks keyCode holdMs input (keyActs keyCode log)
  absent : s.input = none → keyActs keyCode log = []
  usable : ∀ input, s.input = some input → input.isOpen = true ∨ input.holdSource ≠ none →
    Usable directory keyCode holdMs
  opened : s.daemon.security.isOpen = true →
    Usable directory keyCode holdMs ∧ Opened keyCode holdMs s.daemon.security.deadlineUs log

section

variable {sha256 : Bytes → Bytes} {directory : InputDirectory} {keyCode holdMs : Nat}
  {log : List Entry} {s : System} {d : Daemon}

theorem keyActs_snoc (log : List Entry) (x : Entry) :
    keyActs keyCode (log ++ [x]) = keyActs keyCode log ++ x.event.acts keyCode := by
  rw [keyActs, List.flatMap_append]
  simp [keyActs]

theorem input_new {input : EgpInput}
    (h : (egpInputNew directory keyCode holdMs).toOption = some input) :
    egpInputNew directory keyCode holdMs = .ok input := by
  cases hnew : egpInputNew directory keyCode holdMs with
  | error error =>
      rw [hnew] at h
      cases h
  | ok input' =>
      rw [hnew] at h
      cases h
      rfl

/-- A descriptor with its source is the one of the only device. -/
theorem usable_new {input : EgpInput} (h : egpInputNew directory keyCode holdMs = .ok input)
    (hopen : input.isOpen = true ∨ input.holdSource ≠ none) :
    Usable directory keyCode holdMs := by
  unfold egpInputNew at h
  split at h
  · cases h
  · rename_i hvalid
    split at h
    · cases h
      simp at hopen
    · rename_i hkey
      cases hfound : findAdcKeys directory with
      | error error =>
          rw [hfound] at h
          cases h
      | ok entry =>
          refine ⟨by omega, by omega, ?_⟩
          cases directory with
          | unavailable => cases hfound
          | unreadable => cases hfound
          | entries list => exact ⟨list, entry, rfl, (findAdcKeys_ok_iff list entry).mp hfound⟩

/-! ## Callbacks -/

/-- A window that is open afterwards was open before, and has kept its deadline. -/
def Kept (s s' : EgpSecurity) : Prop :=
  s'.isOpen = true → s.isOpen = true ∧ s'.deadlineUs = s.deadlineUs

theorem Kept.refl (s : EgpSecurity) : Kept s s := fun h => ⟨h, rfl⟩

theorem kept_of_eq {s s' : EgpSecurity} (h : s' = s) : Kept s s' := h ▸ .refl s

theorem kept_closeWindow (s : EgpSecurity) : Kept s (egpSecurityCloseWindow s).security := by
  unfold egpSecurityCloseWindow
  split
  · exact fun h => nomatch h
  · exact fun h => nomatch h

theorem kept_expiryTick (s : EgpSecurity) (now : Int) : Kept s (expiryTick s now).security := by
  unfold expiryTick
  split
  · exact .refl s
  · split
    · exact fun h => nomatch h
    · exact .refl s

theorem moved_security (d : Daemon) (m : Moved) : (d.moved m).security = m.security := by
  unfold Daemon.moved
  simp only
  split <;> rfl

theorem kept_moved {m : Moved} (h : Kept d.security m.security) :
    Kept d.security (d.moved m).security := by
  rw [moved_security]
  exact h

theorem inputLost_isOpen (d : Daemon) : (Callbacks.inputLost d).security.isOpen = false := by
  rw [Callbacks.inputLost, moved_security, egpSecurityCloseWindow]
  split <;> rfl

theorem physicalPresence_security (d : Daemon) {now : Int} (h : 0 < now) :
    (Callbacks.physicalPresence d now).security =
      ⟨true, now + egpWindowDurationUs, advanceEpoch d.security.windowEpoch, []⟩ := by
  rw [Callbacks.physicalPresence, moved_security, egpSecurityOpenWindow, if_neg (by omega)]

/-- The clock before it has started. -/
theorem physicalPresence_early (d : Daemon) {now : Int} (h : now ≤ 0) :
    (Callbacks.physicalPresence d now).security = d.security := by
  rw [Callbacks.physicalPresence, moved_security, egpSecurityOpenWindow, if_pos h]

/-- An authorization opens no window. -/
theorem kept_authorizeSensitive (s : EgpSecurity) (peerPath : Bytes) (peer : EgpPeerSecurity)
    (claim : Bool) (now : Int) :
    Kept s (egpSecurityAuthorizeSensitive s peerPath peer claim now).1 := by
  unfold egpSecurityAuthorizeSensitive
  split
  · exact .refl s
  · split
    · exact .refl s
    · split
      · exact .refl s
      · split
        · exact fun h => ⟨h, rfl⟩
        · split <;> exact .refl s

/-- A sensitive request is granted only while the window is open. -/
theorem authorizeSensitive_granted {s : EgpSecurity} {peerPath : Bytes} {peer : EgpPeerSecurity}
    {claim : Bool} {now : Int}
    (h : (egpSecurityAuthorizeSensitive s peerPath peer claim now).2 = .ok ()) :
    s.openAt now = true := by
  unfold egpSecurityAuthorizeSensitive at h
  split at h
  · cases h
  · split at h
    · cases h
    · split at h
      · cases h
      · rename_i hopen
        simpa using hopen

/-- A write behind its accepted frame: the window is only looked at, and an answer
without an error says that it was open. -/
theorem authorizeWrite_window (env : PeerEnv) (hwork : d.work = none) (peerPath : Bytes)
    (peer : EgpPeerSecurity) (output : EgpProtocolOutput) :
    Kept d.security (Callbacks.authorizeWrite env d peerPath peer output).1.security ∧
      ((Callbacks.authorizeWrite env d peerPath peer output).2 = .ok () →
        d.security.openAt env.authorizeUs = true) := by
  have hkept := kept_authorizeSensitive d.security peerPath peer true env.authorizeUs
  have hgranted := @authorizeSensitive_granted d.security peerPath peer true env.authorizeUs
  unfold Callbacks.authorizeWrite
  simp only
  generalize egpSecurityAuthorizeSensitive d.security peerPath peer true env.authorizeUs =
    authorized at hkept hgranted
  obtain ⟨security, answer⟩ := authorized
  cases answer with
  | error error =>
      refine ⟨?_, nofun⟩
      simp only
      split
      · exact kept_moved (d := { d with protocol := egpProtocolDropAll d.protocol })
          (kept_closeWindow d.security)
      · exact .refl d.security
  | ok u =>
      refine ⟨?_, fun _ => hgranted rfl⟩
      simp only
      rw [dispatch_security env (by exact hwork)]
      exact hkept

/-- A write opens no window, and is granted only in an open one. -/
theorem writeValue_window (env : PeerEnv) (characteristic : Option EgpWritableCharacteristic)
    (peerPath value : Bytes) :
    Kept d.security
        (Callbacks.writeValue sha256 env d characteristic peerPath value).1.security ∧
      ((Callbacks.writeValue sha256 env d characteristic peerPath value).2 = .ok () →
        d.security.openAt env.authorizeUs = true) := by
  unfold Callbacks.writeValue
  cases characteristic with
  | none => exact ⟨.refl _, nofun⟩
  | some writable =>
      simp only
      by_cases hbusy : d.work.isSome = true
      · rw [if_pos hbusy]
        exact ⟨.refl _, nofun⟩
      · rw [if_neg hbusy]
        have hwork : d.work = none := by simpa using hbusy
        cases env.peer with
        | error error => exact ⟨.refl _, nofun⟩
        | ok peer =>
            simp only
            split
            · exact ⟨.refl _, nofun⟩
            · split
              · exact ⟨.refl _, nofun⟩
              · split
                · exact ⟨.refl _, nofun⟩
                · exact authorizeWrite_window
                    (d := { d with protocol := (egpProtocolAccept sha256 env.visits d.protocol
                      peerPath writable value env.acceptUs).1 }) env hwork peerPath peer _

/-- No callback but `physical_presence` opens the window or moves its deadline. -/
theorem kept_step (sha256 : Bytes → Bytes) (d : Daemon) {event : Callbacks.Event}
    (h : ∀ now, event ≠ .physicalPresence now) :
    Kept d.security (Callbacks.step sha256 d event).1.security := by
  cases event with
  | writeValue env characteristic peerPath value =>
      exact (writeValue_window env characteristic peerPath value).1
  | readResult env peerPath => exact .refl _
  | physicalPresence now => exact absurd rfl (h now)
  | inputLost => exact kept_moved (kept_closeWindow d.security)
  | windowTick now => exact kept_moved (kept_expiryTick d.security now)
  | bluezLost => exact fun h => ⟨h, rfl⟩
  | peerDisconnected peerPath => exact .refl _
  | expireProtocol o now => exact .refl _
  | completed o now outcome =>
      refine kept_of_eq ?_
      show (Callbacks.completed o now d outcome).security = d.security
      unfold Callbacks.completed
      split
      · rfl
      · rfl
      · exact (resultPublished_frame _ _ _ _ _).1
  | reconcile =>
      refine kept_of_eq ?_
      show (Callbacks.egpOperationsReconcile d).security = d.security
      unfold Callbacks.egpOperationsReconcile
      split <;> rfl
  | shutDown => exact .refl _

/-- Whatever is granted is behind the window. -/
theorem openAt_of_grants {event : Event} {now : Int}
    (h : Grants event (step sha256 s event).2 now) : s.daemon.security.openAt now = true := by
  generalize hreply : (step sha256 s event).2 = reply at h
  cases h with
  | pairing peerPath now =>
      have hanswer : egpSecurityAllowPairing s.daemon.security peerPath now = .ok () := by
        injection hreply
      unfold egpSecurityAllowPairing at hanswer
      split at hanswer
      · cases hanswer
      · split at hanswer
        · cases hanswer
        · rename_i hopen
          simpa using hopen
  | commit peerPath peer windowEpoch connectionEpoch now =>
      have hanswer : egpSecurityAuthorizeCommit s.daemon.security peerPath peer windowEpoch
          connectionEpoch now = .ok () := by
        injection hreply
      have hcommit := authorizeCommit_granted (by rw [hanswer]; rfl)
      exact openAt_iff.mpr ⟨hcommit.isOpen, hcommit.positive, hcommit.deadline⟩
  | write env characteristic peerPath value =>
      have hwritten : (Callbacks.writeValue sha256 env s.daemon characteristic peerPath value).2 =
          .ok () := by
        injection hreply with hreply
        injection hreply
      exact (writeValue_window env characteristic peerPath value).2 hwritten
  | result env peerPath value =>
      have hread : Callbacks.readResult env s.daemon peerPath = .ok value := by
        injection hreply with hreply
        injection hreply
      exact (readResult_ok hread).2.1

/-! ## Every run -/

/-- An event that leaves the key alone. -/
theorem Sound.other (h : Sound directory keyCode holdMs log s) {x : Entry}
    (hinput : x.after.input = s.input) (hacts : x.event.acts keyCode = [])
    (hkept : Kept s.daemon.security x.after.daemon.security) :
    Sound directory keyCode holdMs (log ++ [x]) x.after := by
  have hlog : keyActs keyCode (log ++ [x]) = keyActs keyCode log := by
    rw [keyActs_snoc, hacts, List.append_nil]
  refine ⟨?_, ?_, ?_, ?_⟩
  · rw [hinput, hlog]
    exact h.tracks
  · rw [hinput, hlog]
    exact h.absent
  · rw [hinput]
    exact h.usable
  · intro hopen
    obtain ⟨hbefore, hdeadline⟩ := hkept hopen
    obtain ⟨husable, hopened⟩ := h.opened hbefore
    rw [hdeadline]
    exact ⟨husable, hopened.snoc ⟨hopen, by rw [hacts]; exact List.not_mem_nil⟩⟩

/-- Reading the device keeps the relation: the key starts a hold, its release ends it. -/
theorem Sound.ready (h : Sound directory keyCode holdMs log s) {hangUp : Bool}
    {turns : List Turn} {input : EgpInput} (hinput : s.input = some input)
    (hready : input.isOpen = true) {x : Entry} (hevent : x.event = .ready hangUp turns)
    (hafter : x.after = s.ready hangUp turns) :
    Sound directory keyCode holdMs (log ++ [x]) x.after := by
  have hstate : x.after = ⟨some (inputReady input hangUp turns).input,
      if (inputReady input hangUp turns).lost then Callbacks.inputLost s.daemon
      else s.daemon⟩ := by
    rw [hafter, System.ready, hinput]
  have hlog : keyActs keyCode (log ++ [x]) =
      keyActs keyCode log ++ readyActs keyCode hangUp turns := by
    rw [keyActs_snoc, hevent]
    rfl
  have husable := h.usable input hinput (.inl hready)
  refine ⟨?_, ?_, ?_, ?_⟩
  · intro input' hinput'
    rw [hstate] at hinput'
    cases hinput'
    rw [hlog]
    exact tracks_inputReady hangUp turns (h.tracks input hinput)
  · intro hnone
    rw [hstate] at hnone
    cases hnone
  · exact fun _ _ _ => husable
  · intro hopen
    have hpresent : (inputReady input hangUp turns).lost = false := by
      by_contra hlost
      rw [hstate, if_pos (by simpa using hlost), inputLost_isOpen] at hopen
      cases hopen
    have hsame : x.after.daemon = s.daemon := by
      rw [hstate, hpresent]
      rfl
    refine ⟨husable, ?_⟩
    rw [hsame]
    refine (h.opened (hsame ▸ hopen)).2.snoc ⟨hopen, ?_⟩
    rw [hevent]
    exact gone_of_lost keyCode hpresent

/-- The timer that is due keeps the relation: it opens the window behind a whole hold. -/
theorem Sound.timer (h : Sound directory keyCode holdMs log s) {now due : Int} {input : EgpInput}
    (hinput : s.input = some input) (hsource : input.holdSource = some due) (hdue : due ≤ now)
    {x : Entry} (hevent : x.event = .timer now) (hafter : x.after = s.timer now) :
    Sound directory keyCode holdMs (log ++ [x]) x.after := by
  have htracks := h.tracks input hinput
  obtain ⟨start, hholding, rfl, hpressed⟩ := holding_of_due htracks hsource
  have husable := h.usable input hinput (.inr (by rw [hsource]; exact nofun))
  have hstate : x.after =
      ⟨some (holdElapsed input).1, Callbacks.physicalPresence s.daemon now⟩ := by
    rw [hafter, System.timer, hinput]
    show System.mk _ (if input.pressed then _ else _) = _
    rw [if_pos hpressed]
  have hlog : keyActs keyCode (log ++ [x]) = keyActs keyCode log ++ [.elapsed] := by
    rw [keyActs_snoc, hevent]
    rfl
  refine ⟨?_, ?_, fun _ _ _ => husable, ?_⟩
  · intro input' hinput'
    rw [hstate] at hinput'
    cases hinput'
    rw [hlog]
    exact tracks_holdElapsed htracks
  · intro hnone
    rw [hstate] at hnone
    cases hnone
  · intro hopen
    refine ⟨husable, ?_⟩
    rcases Int.lt_or_le 0 now with hpositive | hearly
    · refine since_last ⟨now, start, hevent, hholding, hdue, ?_⟩
      rw [hstate, physicalPresence_security s.daemon hpositive]
    · have hsame : x.after.daemon.security = s.daemon.security := by
        rw [hstate]
        exact physicalPresence_early s.daemon hearly
      rw [hsame]
      refine (h.opened (hsame ▸ hopen)).2.snoc ⟨hopen, ?_⟩
      rw [hevent]
      exact nofun

/-- One event keeps the relation between the log and the state. -/
theorem sound_step (h : Sound directory keyCode holdMs log s) {event : Event}
    (henabled : Enabled s event) :
    Sound directory keyCode holdMs
      (log ++ [⟨s, event, (step sha256 s event).2, (step sha256 s event).1⟩])
      (step sha256 s event).1 := by
  cases henabled with
  | ready hangUp turns input hinput hopen => exact h.ready hinput hopen rfl rfl
  | timer now due input hinput hsource hdue => exact h.timer hinput hsource hdue rfl rfl
  | callback event hother => exact h.other rfl rfl (kept_step sha256 s.daemon hother)
  | allowPairing peerPath now => exact h.other rfl rfl (.refl _)
  | authorizeCommit peerPath peer windowEpoch connectionEpoch now =>
      exact h.other rfl rfl (.refl _)

/-- In every run a hold that is timed is one of the key in the log, and an open window
stands behind a whole hold. -/
theorem sound_run (h : Run sha256 directory keyCode holdMs log s) :
    Sound directory keyCode holdMs log s := by
  induction h with
  | start =>
      refine ⟨?_, fun _ => rfl, ?_, nofun⟩
      · intro input hinput
        exact tracks_new (input_new hinput)
      · intro input hinput
        exact usable_new (input_new hinput)
  | step h event henabled ih => exact sound_step ih henabled

theorem run_entries (h : Run sha256 directory keyCode holdMs log s) :
    Throughout (fun front (x : Entry) => Run sha256 directory keyCode holdMs front x.before ∧
      x.reply = (step sha256 x.before x.event).2) log := by
  induction h with
  | start => exact throughout_nil _
  | step h event henabled ih => exact ih.snoc ⟨h, rfl⟩

/-- A pairing that is allowed, a write that is taken, a result that is read and a commit
that is authorized: in every order of events each comes when the only device of that name
was there, and its key was pressed and held for the time that is asked for, and the timer
of this press opened the window less than two minutes ago; nothing has closed it since,
and the device has not gone.  And whenever a press is held that long the timer is there
to open the window, for nobody yet. -/
theorem physical_presence (h : Run sha256 directory keyCode holdMs log s) :
    (∀ front x back now, log = front ++ x :: back → Grants x.event x.reply now →
      Usable directory keyCode holdMs ∧
        ∃ deadlineUs, Opened keyCode holdMs deadlineUs front ∧ 0 < now ∧ now < deadlineUs) ∧
    ∀ start now, Holding (keyActs keyCode log) start → start + holdMs * 1000 ≤ now → 0 < now →
      Enabled s (.timer now) ∧
        (step sha256 s (.timer now)).1.daemon.security =
          ⟨true, now + egpWindowDurationUs, advanceEpoch s.daemon.security.windowEpoch, []⟩ := by
  have hsound := sound_run h
  refine ⟨?_, ?_⟩
  · intro front x back now hlog hgrants
    obtain ⟨hrun, hreply⟩ := run_entries h front x back hlog
    rw [hreply] at hgrants
    obtain ⟨hopen, hpositive, hdeadline⟩ := openAt_iff.mp (openAt_of_grants hgrants)
    obtain ⟨husable, hopened⟩ := (sound_run hrun).opened hopen
    exact ⟨husable, _, hopened, hpositive, hdeadline⟩
  · intro start now hholding hdue hpositive
    cases hinput : s.input with
    | none =>
        rw [hsound.absent hinput] at hholding
        obtain ⟨front, back, hacts, -⟩ := hholding.press
        simp at hacts
    | some input =>
        have htracks := hsound.tracks input hinput
        have hsource := due_of_holding htracks hholding
        obtain ⟨start', -, -, hpressed⟩ := holding_of_due htracks hsource
        refine ⟨.timer now _ input hinput hsource hdue, ?_⟩
        show (s.timer now).daemon.security = _
        rw [System.timer, hinput]
        show (if input.pressed then Callbacks.physicalPresence s.daemon now
          else s.daemon).security = _
        rw [if_pos hpressed]
        exact physicalPresence_security s.daemon hpositive

end

def sampleDirectory : InputDirectory :=
  .entries [⟨ascii "event0", true, true, some (ascii "rk805 pwrkey")⟩,
    ⟨ascii "event1", true, true, some (ascii "adc-keys")⟩]

/-- The key that is asked for goes down. -/
def samplePress : Event := .ready false [.event ⟨evKey, 114, 1⟩ 1000, .again]

/-- A device whose key was held for three seconds. -/
def sampleSystem : System :=
  (step id (step id ⟨(egpInputNew sampleDirectory 114 3000).toOption, daemonNew⟩ samplePress).1
    (.timer 3002000)).1

/-- The peer that pairs then. -/
theorem physical_presence_sample :
    ∃ log s front x, Run id sampleDirectory 114 3000 log s ∧ log = front ++ [x] ∧
      Grants x.event x.reply 3003000 ∧
      ∃ deadlineUs, Opened 114 3000 deadlineUs front ∧ (3003000 : Int) < deadlineUs := by
  have hstart : Run id sampleDirectory 114 3000 [] _ := .start
  have hpressed := hstart.step samplePress (.ready _ _ _ rfl rfl)
  have hopened := hpressed.step (.timer 3002000) (.timer _ 3001000 _ rfl rfl (by decide))
  have hpaired := hopened.step (.allowPairing ProtocolRun.samplePeer 3003000) (.allowPairing _ _)
  have hgrants : Grants (.allowPairing ProtocolRun.samplePeer 3003000)
      (step id sampleSystem (.allowPairing ProtocolRun.samplePeer 3003000)).2 3003000 :=
    .pairing _ _
  obtain ⟨-, deadlineUs, hwindow, -, hdeadline⟩ :=
    (physical_presence hpaired).1 _ _ [] 3003000 rfl hgrants
  exact ⟨_, _, _, _, hpaired, rfl, hgrants, deadlineUs, hwindow, hdeadline⟩

end EdgeGuard.Provisioning.PhysicalPresence
