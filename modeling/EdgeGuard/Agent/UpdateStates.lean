import EdgeGuard.Agent.AttemptValidation
import EdgeGuard.Agent.FairRun

/-!
# How far an update is

The states that an update goes through, from IDLE to IDLE, what the device
looks like in each of them, and how many phases are left.  `AtMost` is the
invariant of a device that works: the file, whatever a power cut makes of it,
and the running process stand for states of the update, with at most so many
phases left.

## Main results

* `Left.valid`, `Left.parse` — the states can be saved and are read back.
-/

namespace EdgeGuard.Agent.UpdateStates

open EdgeGuard.Base EdgeGuard.Base.CText EdgeGuard.Base.Json EdgeGuard.Base.JsonObject
open EdgeGuard.Base.DurableFile
open EdgeGuard.Agent.Model EdgeGuard.Agent.Identity EdgeGuard.Agent.Release
open EdgeGuard.Agent.Persistence EdgeGuard.Agent.PersistenceRoundTrip
open EdgeGuard.Agent.StateMachine EdgeGuard.Agent.AttemptDiscipline
open EdgeGuard.Agent.AttemptValidation EdgeGuard.Agent.Services EdgeGuard.Agent.Run
open EdgeGuard.Agent.FairRun

/-! ## The states of an update -/

/-- A state before an attempt. -/
def checking (state : OtaState) : OtaPersistentState := { otaPersistentStateInit with state }

/-- The attempt, up to the verified bundle. -/
def attempting (u : Update) (id : Bytes) (state : OtaState) : OtaPersistentState :=
  { snapshot (checking .checkUpdate) u.manifest id with state }

/-- The attempt from INSTALLING on. -/
def switching (u : Update) (id boot : Bytes) (state : OtaState) : OtaPersistentState :=
  { attempting u id state with
    previousSlot := u.slot
    expectedCandidateSlot := otherSlot u.slot
    bootIdBefore := boot
    rebootContext := .install }

@[simp] theorem checking_state (state : OtaState) : (checking state).state = state := rfl

@[simp] theorem attempting_state (u : Update) (id : Bytes) (state : OtaState) :
    (attempting u id state).state = state := rfl

@[simp] theorem switching_state (u : Update) (id boot : Bytes) (state : OtaState) :
    (switching u id boot state).state = state := rfl

@[simp] theorem switching_candidate (u : Update) (id boot : Bytes) (state : OtaState) :
    (switching u id boot state).expectedCandidateSlot = otherSlot u.slot := rfl

@[simp] theorem switching_boot (u : Update) (id boot : Bytes) (state : OtaState) :
    (switching u id boot state).bootIdBefore = boot := rfl

/-! ## They are valid -/

section Valid

variable {u : Update} {id boot : Bytes} {state : OtaState}

/-- What a completed compatibility check has found. -/
theorem precheck_ok {r : OtaRelease} {m : OtaManifest} {b : Bool}
    (h : otaCompatibilityPrecheck r m = .ok b) :
    otaReleaseValidate r = .ok () ∧ otaManifestValidate m = .ok () ∧
      r.deviceCompatible = m.deviceCompatible := by
  unfold otaCompatibilityPrecheck at h
  cases hrelease : otaReleaseValidate r with
  | error error =>
      rw [hrelease] at h
      cases h
  | ok value =>
      cases hmanifest : otaManifestValidate m with
      | error error =>
          rw [hrelease, hmanifest] at h
          cases h
      | ok value =>
          refine ⟨rfl, rfl, ?_⟩
          by_contra hne
          rw [hrelease, hmanifest] at h
          simp only [bne_iff_ne.mpr hne, if_true] at h
          cases h

theorem manifest_valid (u : Update) : otaManifestValidate u.manifest = .ok () :=
  (precheck_ok u.upgrade).2.1

theorem admitted (u : Update) : Admitted u.manifest := (manifest_ok_iff.mp (manifest_valid u)).2.2

/-- A valid state stays valid when it moves on within its part of the update. -/
theorem valid_moved {s : OtaPersistentState} (h : stateValid s = true)
    (hpart : (3 ≤ s.state.value ∧ s.state.value ≤ 6 ∧ 3 ≤ state.value ∧ state.value ≤ 6) ∨
      (7 ≤ s.state.value ∧ s.state.value ≤ 12 ∧ 7 ≤ state.value ∧ state.value ≤ 12)) :
    stateValid { s with state } = true := by
  have hv := valid_blocks h
  obtain ⟨hheader, htexts, hattempt, hwindow, henums, hboot, hbootWindow, hcontext, herror⟩ := hv
  have hstate (t : OtaState) (ht : t.value ≤ 12) :
      t ≠ .error ∧ t ≠ .rollback ∧ (otaStateName t).isSome = true := by
    cases t <;> simp_all [OtaState.value, otaStateName]
  obtain ⟨herr, hroll, -⟩ := hstate s.state (by omega)
  obtain ⟨herr', hroll', hname⟩ := hstate state (by omega)
  have hupdate : OtaState.checkUpdate.value = 2 := rfl
  have hprecheck : OtaState.precheck.value = 3 := rfl
  have hinstalling : OtaState.installing.value = 7 := rfl
  have hrollback : OtaState.rollback.value = 13 := rfl
  simp only [headerOk, Bool.and_eq_true] at hheader
  simp only [stateValid, Bool.and_eq_true]
  refine ⟨⟨⟨⟨⟨⟨⟨⟨?_, htexts⟩, hattempt⟩, ?_⟩, henums⟩, hboot⟩, ?_⟩, ?_⟩, ?_⟩
  · simp only [headerOk, Bool.and_eq_true]
    exact ⟨⟨hheader.1.1, hname⟩, hheader.2⟩
  · have hhas : hasAttempt s = true := by
      simp only [attemptWindowOk, Bool.and_eq_true, Bool.not_eq_true', Bool.and_eq_false_iff,
        decide_eq_false_iff_not, Bool.not_eq_false'] at hwindow
      rcases hwindow.1 with hlow | hhas
      · omega
      · exact hhas
    have hhas' : hasAttempt { s with state } = true := hhas
    have hlate : ¬ state.value ≤ OtaState.checkUpdate.value := by omega
    simp [attemptWindowOk, hhas', hlate]
  · have hkeep : hasBoot { s with state } = hasBoot s := rfl
    simp only [bootWindowOk, Bool.and_eq_true, Bool.not_eq_true', Bool.and_eq_false_iff,
      decide_eq_false_iff_not, Bool.not_eq_false', hkeep] at hbootWindow ⊢
    rcases hpart with ⟨h1, h2, h3, h4⟩ | ⟨h1, h2, h3, h4⟩
    · exact ⟨.inl (.inl (by omega)), hbootWindow.2.imp (fun hlow => by omega) fun hb => hb⟩
    · refine ⟨hbootWindow.1.imp (fun hlow => ?_) fun hb => hb, .inl (by omega)⟩
      rcases hlow with hlow | hlow <;> omega
  · simpa [contextOk, herr, hroll, herr', hroll'] using hcontext
  · simpa [errorOk, herr, hroll, herr', hroll'] using herror

theorem valid_checking (h : state.value ≤ 2) : stateValid (checking state) = true := by
  cases state <;> first | decide | (simp [OtaState.value] at h)

theorem valid_attempting (u : Update) (hid : otaUuidValid id true = true)
    (hstate : 3 ≤ state.value ∧ state.value ≤ 6) :
    stateValid (attempting u id state) = true :=
  valid_moved (s := snapshot (checking .checkUpdate) u.manifest id)
    (valid_snapshot (valid_checking (by decide)) rfl (admitted u) hid)
    (.inl ⟨show 3 ≤ OtaState.precheck.value by decide,
      show OtaState.precheck.value ≤ 6 by decide, hstate⟩)

/-- The states of an attempt from the installation on are valid. -/
theorem valid_switching (u : Update) (hid : otaUuidValid id true = true)
    (hboot : otaUuidValid boot true = true) (hstate : 7 ≤ state.value ∧ state.value ≤ 12) :
    stateValid (switching u id boot state) = true := by
  have hinstalling : stateValid (switching u id boot .installing) = true := by
    have hv : Valid (attempting u id .raucVerify) :=
      valid_blocks (valid_attempting u hid (by decide))
    have htexts := hv.texts
    have hhas : hasAttempt (switching u id boot .installing) = true := by
      simpa [hasAttempt, switching, attempting, snapshot] using ne_nil_of_uuid hid
    have hslot : u.slot ≠ .unknown ∧ u.slot ≠ .invalid ∧ otherSlot u.slot ≠ .unknown ∧
        otherSlot u.slot ≠ .invalid ∧ u.slot ≠ otherSlot u.slot := by
      rcases u.slot_ok with h | h <;> rw [h] <;> decide
    simp only [textsOk, Bool.and_eq_true] at htexts
    simp only [stateValid, Bool.and_eq_true]
    refine ⟨⟨⟨⟨⟨⟨⟨⟨hv.header, ?_⟩, hv.attempt⟩, ?_⟩, ?_⟩, ?_⟩, ?_⟩, rfl⟩, hv.error⟩
    · simp only [textsOk, Bool.and_eq_true]
      exact ⟨htexts.1, boundedText_uuid hboot⟩
    · simp [attemptWindowOk, hhas, OtaState.value]
    · simp [enumsOk, switching, hslot]
    · have hhasBoot : hasBoot (switching u id boot .installing) = true := by
        simpa [hasBoot, switching] using hslot.1
      rw [bootOk, if_pos hhasBoot]
      simp only [Bool.and_eq_true, bne_iff_ne]
      exact ⟨⟨⟨⟨hhas, hslot.2.2.1⟩, hslot.2.2.2.2⟩, hboot⟩, OtaRebootContext.noConfusion⟩
    · simp [bootWindowOk, hasBoot, switching, hslot, OtaState.value, attempting]
  exact valid_moved (s := switching u id boot .installing) hinstalling
    (.inr ⟨show 7 ≤ OtaState.installing.value by decide,
      show OtaState.installing.value ≤ 12 by decide, hstate⟩)

end Valid

/-! ## How far the update is -/

/-- What a phase needs to know of the device. -/
structure Situation where
  board : Board
  boot : Bytes
  installs : Nat
  marks : Nat

def isInstall : Act → Bool
  | .service (.install _) => true
  | _ => false

def isMarkGood : Act → Bool
  | .service (.markGood _ _) => true
  | _ => false

def situation (w : World) : Situation where
  board := w.board
  boot := w.device.boot
  installs := w.device.log.countP fun e => isInstall e.act
  marks := w.device.log.countP fun e => isMarkGood e.act

def Situation.perform (bundle : OtaRelease) (x : Situation) (a : Act) : Situation where
  board := x.board.perform bundle a
  boot := x.boot
  installs := x.installs + if isInstall a then 1 else 0
  marks := x.marks + if isMarkGood a then 1 else 0

def Situation.reboot (x : Situation) (id : Bytes) : Situation :=
  { x with board := x.board.boot id, boot := id }

/-- The act leaves everything as it is that a phase needs to know, and the file. -/
def still : Act → Bool
  | .start => true
  | .phase _ => true
  | .service (.getCurrent _) => true
  | .service (.health _ _) => true
  | _ => false

def isFile : Act → Bool
  | .file _ => true
  | _ => false

/-- Before the installation. -/
structure Old (u : Update) (x : Situation) : Prop where
  slot : x.board.slot = u.slot
  primary : x.board.primary = u.slot
  running : x.board.installed u.slot = u.old
  calm : x.board.requested = false
  installs : x.installs = 0
  marks : x.marks = 0

/-- The new release is installed and not booted. -/
structure Installed (u : Update) (x : Situation) : Prop where
  slot : x.board.slot = u.slot
  primary : x.board.primary = otherSlot u.slot
  installed : x.board.installed (otherSlot u.slot) = u.new
  installs : x.installs = 1
  marks : x.marks = 0

/-- The new release runs. -/
structure Booted (u : Update) (marks : Nat) (x : Situation) : Prop where
  slot : x.board.slot = otherSlot u.slot
  primary : x.board.primary = otherSlot u.slot
  running : x.board.installed (otherSlot u.slot) = u.new
  calm : x.board.requested = false
  installs : x.installs = 1
  marks : x.marks = marks

/-- The phases that are left with a state in a situation. -/
inductive Left (u : Update) (x : Situation) : Nat → OtaPersistentState → Prop
  | checking (state : OtaState) (hstate : state.value ≤ 2) (h : Old u x) :
      Left u x (14 - state.value) (checking state)
  | attempting (id : Bytes) (hid : otaUuidValid id true = true) (state : OtaState)
      (hstate : 3 ≤ state.value ∧ state.value ≤ 6) (h : Old u x) :
      Left u x (14 - state.value) (attempting u id state)
  | installing (id : Bytes) (hid : otaUuidValid id true = true) (h : Old u x) :
      Left u x 7 (switching u id x.boot .installing)
  | pending (id : Bytes) (hid : otaUuidValid id true = true) (h : Installed u x) :
      Left u x 6 (switching u id x.boot .rebootPending)
  /-- REBOOT_PENDING to MARK_GOOD, in the new slot. -/
  | booted (id : Bytes) (hid : otaUuidValid id true = true) (boot : Bytes)
      (hvalid : otaUuidValid boot true = true) (hboot : boot ≠ x.boot)
      (hboots : boot ∈ x.board.boots) (state : OtaState)
      (hstate : 8 ≤ state.value ∧ state.value ≤ 11) (h : Booted u 0 x) :
      Left u x (13 - state.value) (switching u id boot state)
  | reporting (id : Bytes) (hid : otaUuidValid id true = true) (boot : Bytes)
      (hvalid : otaUuidValid boot true = true) (h : Booted u 1 x) :
      Left u x 1 (switching u id boot .reportSuccess)
  | updated (state : OtaState) (hstate : state.value ≤ 2) (h : Booted u 1 x) :
      Left u x 0 (checking state)

section Left

variable {u : Update} {x : Situation} {k : Nat} {s : OtaPersistentState}

/-- What is left of an update is a valid state. -/
theorem Left.valid (h : Left u x k s) (hboot : otaUuidValid x.boot true = true) :
    stateValid s = true := by
  cases h with
  | checking state hstate => exact valid_checking hstate
  | attempting id hid state hstate => exact valid_attempting u hid hstate
  | installing id hid => exact valid_switching u hid hboot (by decide)
  | pending id hid => exact valid_switching u hid hboot (by decide)
  | booted id hid boot hvalid _ _ state hstate =>
      exact valid_switching u hid hvalid ⟨by omega, by omega⟩
  | reporting id hid boot hvalid => exact valid_switching u hid hvalid (by decide)
  | updated state hstate => exact valid_checking hstate

private theorem attempting_buildId (u : Update) (id : Bytes) (state : OtaState) :
    (attempting u id state).buildId = u.manifest.buildId :=
  strlcpy_bounded (admitted u).buildId.1

theorem Left.buildId (h : Left u x k s) : s.buildId = [] ∨ s.buildId = u.manifest.buildId := by
  cases h with
  | checking => exact .inl rfl
  | updated => exact .inl rfl
  | attempting id _ state => exact .inr (attempting_buildId u id state)
  | installing id => exact .inr (attempting_buildId u id .installing)
  | pending id => exact .inr (attempting_buildId u id .rebootPending)
  | booted id _ _ _ _ _ state => exact .inr (attempting_buildId u id state)
  | reporting id => exact .inr (attempting_buildId u id .reportSuccess)

theorem Left.lastError (h : Left u x k s) : s.lastError = .zero := by
  cases h <;> rfl

theorem Left.readable (h : Left u x k s) :
    occursIn nulEscape s.buildId = false ∧ occursIn nulEscape s.lastError.message = false := by
  refine ⟨?_, ?_⟩
  · rcases h.buildId with hbuild | hbuild
    · rw [hbuild]
      decide
    · rw [hbuild, u.readable]
  · rw [h.lastError]
    decide

/-- What is saved is read back. -/
theorem Left.parse (J : JsonParser) (h : Left u x k s)
    (hboot : otaUuidValid x.boot true = true) : parseState J (serialize s) = some s := by
  rw [parseState_serialize J (h.valid hboot), h.readable.1, h.readable.2]
  rfl

end Left

/-! ## The whole device -/

/-- The content stands for at most so many phases. -/
def FileLeft (u : Update) (x : Situation) (r : Nat) (c : Option Bytes) : Prop :=
  (c = none ∧ Old u x ∧ 14 ≤ r) ∨ ∃ k s, k ≤ r ∧ c = some (serialize s) ∧ Left u x k s

/-- The process runs in a phase with at most so many behind it. -/
structure Runs (u : Update) (r : Nat) (w : World) (machine : OtaStateMachine)
    (release : OtaRelease) : Prop where
  unblocked : machine.blocked = false
  release : release = w.board.installed w.board.slot
  saved : w.device.medium.live = some (serialize machine.current)
  left : ∃ k ≤ r, Left u (situation w) k machine.current ∧
    machine.current.state ≠ .bootNewSlot ∧ (machine.current.state = .rebootPending → k = 6)

/-- At most so many phases are left, whatever the file comes back with. -/
structure AtMost (J : JsonParser) (u : Update) (r : Nat) (w : World) : Prop where
  contents : ∀ c ∈ w.device.medium.contents, FileLeft u (situation w) r c
  runs : ∀ machine release firstPoll, w.proc = .running machine release firstPoll →
    Runs u r w machine release
  stopped : w.proc.stopped → Undisturbed J w.device.medium
  bootValid : otaUuidValid w.device.boot true = true
  booted : w.device.boot ∈ w.board.boots

theorem AtMost.mono {J : JsonParser} {u : Update} {r q : Nat} {w : World} (h : AtMost J u r w)
    (hle : r ≤ q) : AtMost J u q w := by
  refine ⟨?_, ?_, h.stopped, h.bootValid, h.booted⟩
  · intro c hc
    rcases h.contents c hc with ⟨hnone, hold, hr⟩ | ⟨k, s, hk, hs, hleft⟩
    · exact .inl ⟨hnone, hold, by omega⟩
    · exact .inr ⟨k, s, by omega, hs, hleft⟩
  · intro machine release firstPoll hproc
    obtain ⟨hblocked, hrelease, hsaved, k, hk, hleft⟩ := h.runs machine release firstPoll hproc
    exact ⟨hblocked, hrelease, hsaved, k, by omega, hleft⟩

/-! ## The reboot -/

def Situation.request (x : Situation) : Situation :=
  { x with board := { x.board with requested := true } }

section Reboot

variable {u : Update} {x : Situation} {k r : Nat} {s : OtaPersistentState} {c : Option Bytes}

theorem otherSlot_ne (slot : OtaSlot) : otherSlot slot ≠ slot := by
  cases slot <;> decide

/-- With the new release installed and not booted, only the reboot is pending. -/
theorem FileLeft.pending (h : FileLeft u x r c) (hinstalled : Installed u x) :
    6 ≤ r ∧ ∃ id, otaUuidValid id true = true ∧
      c = some (serialize (switching u id x.boot .rebootPending)) := by
  have hcount : x.installs ≠ 0 := by
    rw [hinstalled.installs]
    decide
  have hslot : x.board.slot ≠ otherSlot u.slot := by
    rw [hinstalled.slot]
    exact (otherSlot_ne u.slot).symm
  rcases h with ⟨-, hold, -⟩ | ⟨k, s, hk, rfl, hleft⟩
  · exact absurd hold.installs hcount
  · cases hleft with
    | checking _ _ hold => exact absurd hold.installs hcount
    | attempting _ _ _ _ hold => exact absurd hold.installs hcount
    | installing _ _ hold => exact absurd hold.installs hcount
    | pending id hid _ => exact ⟨hk, id, hid, rfl⟩
    | booted _ _ _ _ _ _ _ _ hbooted => exact absurd hbooted.slot hslot
    | reporting _ _ _ _ hbooted => exact absurd hbooted.slot hslot
    | updated _ _ hbooted => exact absurd hbooted.slot hslot

theorem Installed.request (h : Installed u x) : Installed u x.request :=
  ⟨h.slot, h.primary, h.installed, h.installs, h.marks⟩

theorem FileLeft.request (h : FileLeft u x r c) (hinstalled : Installed u x) :
    FileLeft u x.request r c := by
  obtain ⟨hr, id, hid, rfl⟩ := h.pending hinstalled
  exact .inr ⟨6, _, hr, rfl, .pending id hid hinstalled.request⟩

theorem Old.reboot (h : Old u x) (id : Bytes) : Old u (x.reboot id) :=
  ⟨h.primary, h.primary, h.running, rfl, h.installs, h.marks⟩

theorem Installed.reboot (h : Installed u x) (id : Bytes) : Booted u 0 (x.reboot id) :=
  ⟨h.primary, h.primary, h.installed, rfl, h.installs, h.marks⟩

theorem Booted.reboot {marks : Nat} (h : Booted u marks x) (id : Bytes) :
    Booted u marks (x.reboot id) :=
  ⟨h.primary, h.primary, h.running, rfl, h.installs, h.marks⟩

/-- A boot takes nothing back; it is the next phase where it was requested. -/
theorem Left.reboot {id : Bytes} (h : Left u x k s) (hcalm : s.state ≠ .installing)
    (hvalid : otaUuidValid x.boot true = true) (hboot : x.boot ∈ x.board.boots)
    (hfresh : id ∉ x.board.boots) :
    ∃ l ≤ k, Left u (x.reboot id) l s ∧ (x.board.requested = true → l + 1 ≤ k) := by
  have hquiet {a b : Nat} (hnone : x.board.requested = false)
      (hreq : x.board.requested = true) : a ≤ b := by
    rw [hnone] at hreq
    cases hreq
  cases h with
  | checking state hstate hold =>
      exact ⟨_, Nat.le_refl _, .checking state hstate (hold.reboot id), hquiet hold.calm⟩
  | attempting attempt hid state hstate hold =>
      exact ⟨_, Nat.le_refl _, .attempting attempt hid state hstate (hold.reboot id),
        hquiet hold.calm⟩
  | installing => exact absurd rfl hcalm
  | pending attempt hid hinstalled =>
      have hnew : x.boot ≠ id := fun heq => hfresh (heq ▸ hboot)
      exact ⟨5, by decide, .booted attempt hid x.boot hvalid hnew (List.mem_cons_of_mem id hboot)
        .rebootPending (by decide) (hinstalled.reboot id), fun _ => Nat.le_refl 6⟩
  | booted attempt hid before hbefore hne hboots state hstate hbooted =>
      have hnew : before ≠ id := fun heq => hfresh (heq ▸ hboots)
      exact ⟨_, Nat.le_refl _, .booted attempt hid before hbefore hnew
        (List.mem_cons_of_mem id hboots) state hstate (hbooted.reboot id), hquiet hbooted.calm⟩
  | reporting attempt hid before hbefore hbooted =>
      exact ⟨_, Nat.le_refl _, .reporting attempt hid before hbefore (hbooted.reboot id),
        hquiet hbooted.calm⟩
  | updated state hstate hbooted =>
      exact ⟨_, Nat.le_refl _, .updated state hstate (hbooted.reboot id), hquiet hbooted.calm⟩

end Reboot

end EdgeGuard.Agent.UpdateStates
