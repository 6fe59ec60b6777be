import EdgeGuard.Agent.AttemptDiscipline
import Mathlib.Logic.Function.Basic

/-!
# The state file and the machine in memory

Sequences of calls on one state machine, with a fault injected at any step of
any save.  A `Session` is the machine in memory and the files that paths lead to,
with a ghost beside them: the content that the current state was loaded from, kept
as long as nothing was saved since.  The state file is the one at the path that the
machine was opened with.

`ota_state_machine_open` builds the machine anew, so it has clauses of its own:
it may leave the machine blocked whatever it was before.

## Main results

* `consistent_run` — file and memory agree whenever the machine is usable.
* `call_spec` — what one call may do, by its kind.
* `run_of_blocked` — a blocked machine stays as it is, and the file with it.
-/

namespace EdgeGuard.Agent.StateFile

open EdgeGuard.Base.CText EdgeGuard.Base.Json EdgeGuard.Base.DurableFile
open EdgeGuard.Base
open EdgeGuard.Agent.Model EdgeGuard.Agent.Persistence EdgeGuard.Agent.StateMachine
open EdgeGuard.Agent.PersistenceRoundTrip EdgeGuard.Agent.AttemptDiscipline

/-! ## Sessions -/

/-- The calls on a machine, with their arguments and injected faults. -/
inductive Call
  | opening (path : Option Bytes) (readFault : Option OtaError) (fault : Option IoFault)
  | transition (fault : Option IoFault) (next : OtaPersistentState)
  | fail (fault : Option IoFault) (code : OtaErrorCode) (message : Bytes)
  | recover (fault₁ fault₂ : Option IoFault) (bootIdNow : Bytes) (slot : Option OtaSlot)
  | reboot (fault₁ fault₂ : Option IoFault) (request : Except OtaError Unit)

def Call.isOpening : Call → Bool
  | .opening _ _ _ => true
  | _ => false

/-- The files that path names lead to.  Several paths may lead to one file. -/
structure Disk (ι : Type) where
  locate : Bytes → ι
  files : ι → Option Bytes
  /-- The content found at opening, until something is saved. -/
  loaded : Option Bytes

variable {ι : Type} [DecidableEq ι]

/-- The content of the file at a path. -/
def Disk.content (d : Disk ι) (path : Bytes) : Option Bytes := d.files (d.locate path)

/-- The file at a path is replaced. -/
def Disk.replace (d : Disk ι) (path data : Bytes) : Disk ι :=
  { d with files := Function.update d.files (d.locate path) (some data), loaded := none }

@[simp] theorem Disk.content_replace (d : Disk ι) (path data : Bytes) :
    (d.replace path data).content path = some data := by
  simp [Disk.content, Disk.replace]

@[simp] theorem Disk.loaded_replace (d : Disk ι) (path data : Bytes) :
    (d.replace path data).loaded = none := rfl

/-- What an act of a machine on the path does to the files. -/
def Disk.perform (path : Bytes) (d : Disk ι) : Act → Disk ι
  | .file (.replace data) => d.replace path data
  | _ => d

/-- The acts of a machine on one path leave the other files alone. -/
theorem Disk.files_perform {d : Disk ι} {path : Bytes} {i : ι} (hi : i ≠ d.locate path)
    (acts : List Act) : (acts.foldl (Disk.perform path) d).files i = d.files i := by
  induction acts generalizing d with
  | nil => rfl
  | cons a acts ih =>
      have hlocate : (d.perform path a).locate = d.locate := by
        unfold Disk.perform
        split
        · rfl
        · rfl
      have hstep : (d.perform path a).files i = d.files i := by
        unfold Disk.perform
        split
        · exact Function.update_of_ne hi _ _
        · rfl
      rw [List.foldl_cons, ih (by rwa [hlocate]), hstep]

structure Session (ι : Type) where
  machine : OtaStateMachine
  disk : Disk ι

/-- The state file: the one at the path of the machine. -/
def Session.file (s : Session ι) : Option Bytes := s.disk.content s.machine.path

/-- The session after an outcome. -/
def Session.after (s : Session ι) (outcome : Outcome Unit) : Session ι :=
  ⟨outcome.machine, outcome.acts.foldl (Disk.perform outcome.machine.path) s.disk⟩

/-- What a call does; the returned value is dropped to success or failure. -/
def Call.outcome (J : JsonParser) (s : Session ι) : Call → Outcome Unit
  | .opening path readFault fault =>
      otaStateMachineOpen J path readFault fault (path.bind s.disk.content)
  | .transition fault next => otaStateMachineTransition fault s.machine next
  | .fail fault code message => otaStateMachineFail fault s.machine code message
  | .recover fault₁ fault₂ bootIdNow slot =>
      (otaStateMachineRecover fault₁ fault₂ s.machine bootIdNow slot).map fun _ => ()
  | .reboot fault₁ fault₂ request => otaStateMachineReboot fault₁ fault₂ s.machine request

/-- One call.  An opening takes the content of the file at its path as what it
loads. -/
def Session.call (J : JsonParser) (s : Session ι) (c : Call) : Session ι :=
  match c with
  | .opening path _ _ =>
      Session.after ⟨s.machine, { s.disk with loaded := path.bind s.disk.content }⟩
        (c.outcome J s)
  | _ => s.after (c.outcome J s)

def Session.run (J : JsonParser) (s : Session ι) (calls : List Call) : Session ι :=
  calls.foldl (Session.call J) s

/-- Before the first opening: no usable machine, any files. -/
def Session.initial (locate : Bytes → ι) (files : ι → Option Bytes) : Session ι :=
  ⟨⟨zeroState, [], true⟩, ⟨locate, files, none⟩⟩

/-! ## The relation between file and memory -/

/-- The file at the path holds the state: it is the content the state was loaded
from, with nothing saved since, or the serialisation of the state. -/
def Holds (J : JsonParser) (d : Disk ι) (path : Bytes) (current : OtaPersistentState) : Prop :=
  (∃ data, d.content path = some data ∧ d.loaded = some data ∧
    parseState J data = some current) ∨
    (d.content path = some (serialize current) ∧ d.loaded = none)

theorem holds_replace (J : JsonParser) (d : Disk ι) (path : Bytes)
    (current : OtaPersistentState) :
    Holds J (d.replace path (serialize current)) path current :=
  .inr ⟨d.content_replace path _, rfl⟩

/-- A usable machine holds a valid state that its file holds too. -/
def Consistent (J : JsonParser) (s : Session ι) : Prop :=
  s.machine.blocked = false →
    stateValid s.machine.current = true ∧ Holds J s.disk s.machine.path s.machine.current

/-- The state in memory and the file when a save begins, after the completed
saves `before` of the same call. -/
def whenBegun (s : Session ι) (before : List (OtaPersistentState × Bool)) :
    OtaPersistentState × Option Bytes :=
  match before.getLast? with
  | none => (s.machine.current, s.file)
  | some (saved, _) => (saved, some (serialize saved))

/-- What an outcome, other than of an opening, may do to a session. -/
structure Spec (s : Session ι) (outcome : Outcome Unit) : Prop where
  path : outcome.machine.path = s.machine.path
  /-- A failed save blocks the machine, ends the call in failure, and leaves
  memory as it was and the file in full as it was or as it was to be. -/
  failedSave : ∀ next, (next, false) ∈ outcome.saves →
    (s.after outcome).machine.blocked = true ∧ ¬ outcome.succeeded ∧
      ∃ before, outcome.saves = before ++ [(next, false)] ∧
        (s.after outcome).machine.current = (whenBegun s before).1 ∧
        ((s.after outcome).file = (whenBegun s before).2 ∨
          (s.after outcome).file = some (serialize next))
  /-- Without a save neither memory nor any file changes. -/
  unsaved : outcome.saves = [] → s.after outcome = s
  /-- No other file changes. -/
  others : ∀ i, i ≠ s.disk.locate s.machine.path →
    (s.after outcome).disk.files i = s.disk.files i

/-- A blocked machine succeeds in nothing and writes nothing. -/
structure Inert (s : Session ι) (outcome : Outcome Unit) : Prop where
  fails : ¬ outcome.succeeded
  noActs : outcome.acts = []
  noSaves : outcome.saves = []
  same : s.after outcome = s

/-- What an opening may do: it succeeds or leaves the machine blocked, and it
writes only the initial state, into a missing file at its path. -/
structure OpeningSpec (s : Session ι) (path : Option Bytes) (outcome : Outcome Unit) : Prop where
  usable : outcome.succeeded ↔ (s.after outcome).machine.blocked = false
  disk : (s.after outcome).disk = s.disk ∨
    ∃ at_, path = some at_ ∧ s.disk.content at_ = none ∧
      (s.after outcome).disk = s.disk.replace at_ (serialize otaPersistentStateInit)
  unsaved : outcome.saves = [] → (s.after outcome).disk = s.disk
  failedSave : ∀ next, (next, false) ∈ outcome.saves →
    (s.after outcome).machine.blocked = true ∧ path.bind s.disk.content = none ∧
      (s.after outcome).machine.current = next

/-- An outcome that keeps the path keeps the other files. -/
theorem Spec.of_path {s : Session ι} {outcome : Outcome Unit}
    (path : outcome.machine.path = s.machine.path)
    (failedSave : ∀ next, (next, false) ∈ outcome.saves →
      (s.after outcome).machine.blocked = true ∧ ¬ outcome.succeeded ∧
        ∃ before, outcome.saves = before ++ [(next, false)] ∧
          (s.after outcome).machine.current = (whenBegun s before).1 ∧
          ((s.after outcome).file = (whenBegun s before).2 ∨
            (s.after outcome).file = some (serialize next)))
    (unsaved : outcome.saves = [] → s.after outcome = s) : Spec s outcome := by
  refine ⟨path, failedSave, unsaved, fun i hi => ?_⟩
  rw [← path] at hi
  exact Disk.files_perform hi outcome.acts

/-! ## One transition -/

/-- A transition keeps to the specification. -/
theorem spec_transition {s : Session ι} {next : OtaPersistentState} {outcome : Outcome Unit}
    (h : TransitionResult s.machine next outcome) : Spec s outcome := by
  cases h with
  | refused error => exact .of_path rfl (by simp) fun _ => rfl
  | failed error accepts =>
      refine .of_path rfl ?_ (by simp)
      intro next' hmem
      obtain rfl : next' = next := by simpa using hmem
      exact ⟨rfl, by simp [Outcome.succeeded], [], rfl, rfl, .inl rfl⟩
  | uncertain error accepts =>
      refine .of_path rfl ?_ (by simp)
      intro next' hmem
      obtain rfl : next' = next := by simpa using hmem
      exact ⟨rfl, by simp [Outcome.succeeded], [], rfl, rfl,
        .inr (s.disk.content_replace s.machine.path _)⟩
  | done accepts => exact .of_path rfl (by simp) (by simp)

theorem consistent_transition {J : JsonParser} {s : Session ι} {next : OtaPersistentState}
    {outcome : Outcome Unit} (hs : Consistent J s)
    (h : TransitionResult s.machine next outcome) : Consistent J (s.after outcome) := by
  cases h with
  | refused error => exact hs
  | failed error accepts => exact fun hb => absurd hb (by simp [Session.after])
  | uncertain error accepts => exact fun hb => absurd hb (by simp [Session.after])
  | done accepts =>
      exact fun _ => ⟨accepts.valid, holds_replace J s.disk s.machine.path next⟩

/-- A transition proposed to a blocked machine is refused. -/
theorem inert_transition {s : Session ι} {next : OtaPersistentState} {outcome : Outcome Unit}
    (hb : s.machine.blocked = true) (h : TransitionResult s.machine next outcome) :
    Inert s outcome := by
  cases h with
  | refused error => exact ⟨by simp [Outcome.succeeded], rfl, rfl, rfl⟩
  | failed error accepts => exact absurd accepts.unblocked (by simp [hb])
  | uncertain error accepts => exact absurd accepts.unblocked (by simp [hb])
  | done accepts => exact absurd accepts.unblocked (by simp [hb])

/-! ## Recovery -/

/-- The session after a completed save. -/
def Session.saved (s : Session ι) (t : OtaPersistentState) : Session ι :=
  ⟨{ s.machine with current := t }, s.disk.replace s.machine.path (serialize t)⟩

theorem Session.after_saved (s : Session ι) (t : OtaPersistentState) (effect : Effect)
    {outcome : Outcome Unit} (hpath : outcome.machine.path = s.machine.path) :
    s.after (outcome.after (savedActs t ++ [.service effect]) [(t, true)]) =
      (s.saved t).after outcome := by
  simp [Session.after, Session.saved, savedActs, Disk.perform, hpath]

/-- The spec of an outcome depends on the session only through its state and
file, so a completed save in front of it moves the session on. -/
theorem Spec.after_saved {s : Session ι} {t : OtaPersistentState} {effect : Effect}
    {outcome : Outcome Unit}
    (h : Spec (s.saved t) outcome) :
    Spec s (outcome.after (savedActs t ++ [.service effect]) [(t, true)]) := by
  have hafter := s.after_saved t effect h.path
  refine .of_path h.path ?_ (by simp)
  intro next hmem
  have hmem' : (next, false) ∈ outcome.saves := by simpa using hmem
  obtain ⟨hblocked, hfails, before, hsaves, hcurrent, hfile⟩ := h.failedSave next hmem'
  rw [hafter]
  refine ⟨hblocked, hfails, (t, true) :: before, by simp [hsaves], ?_⟩
  have hbegun : whenBegun s ((t, true) :: before) = whenBegun (s.saved t) before := by
    cases before with
    | nil => simp [whenBegun, Session.saved, Session.file]
    | cons entry before => simp [whenBegun, List.getLast?_cons]
  rw [hbegun]
  exact ⟨hcurrent, hfile⟩

/-- The transition behind a slot decision. -/
private theorem slot_transition {machine : OtaStateMachine} {slot : Option OtaSlot}
    {outcome : Outcome (Option OtaError)} (h : SlotResult machine slot outcome) :
    ∃ next inner value, TransitionResult machine next inner ∧
      outcome = inner.map fun _ => value := by
  cases h with
  | failed code message inner value result => exact ⟨_, inner, value, result, rfl⟩
  | candidate inner hslot result => exact ⟨_, inner, none, result, rfl⟩
  | previous error inner hslot result => exact ⟨_, inner, none, result, rfl⟩

/-- Dropping a returned value that was put there changes nothing. -/
private theorem map_map (outcome : Outcome Unit) (value : Option OtaError) :
    (outcome.map fun _ => value).map (fun _ => ()) = outcome := by
  obtain ⟨machine, acts, saves, result⟩ := outcome
  cases result <;> rfl

/-- A property of outcomes that transitions have, that survives a look at the
slot, and that a completed save in front carries back, holds of recoveries. -/
private theorem recover_induction {P : Session ι → Outcome Unit → Prop}
    (stay : ∀ s result, P s ⟨s.machine, [], [], result⟩)
    (step : ∀ s next outcome, TransitionResult s.machine next outcome → P s outcome)
    (refail : ∀ s outcome error, P s outcome → outcome.result = .error error →
      P s ⟨outcome.machine, outcome.acts, outcome.saves, .error error⟩)
    (look : ∀ s effect outcome, P s outcome → P s (outcome.after [.service effect] []))
    (saved : ∀ (s : Session ι) t effect outcome, Accepts s.machine t →
      P (s.saved t) outcome →
      P s (outcome.after (savedActs t ++ [.service effect]) [(t, true)]))
    (s : Session ι) {bootIdNow : Bytes} {slot : Option OtaSlot}
    {outcome : Outcome (Option OtaError)}
    (h : RecoverResult s.machine bootIdNow slot outcome) : P s (outcome.map fun _ => ()) := by
  cases h with
  | refused error hblocked => exact stay s _
  | resumed hsafe => exact stay s _
  | waiting hstate hboot => exact stay s _
  | failed code message inner value result =>
      rw [map_map]
      exact step s _ _ result
  | stuck inner error hstate result herror =>
      exact refail s inner error (step s _ _ result) herror
  | booted inner hstate hboot haccepts result =>
      obtain ⟨next, deep, value, hdeep, rfl⟩ := slot_transition result
      have hp := saved s _ (.getCurrent slot) deep haccepts (step (s.saved _) next deep hdeep)
      obtain ⟨machine, acts, saves, answer⟩ := deep
      cases answer <;> exact hp
  | found inner hstate hboot result =>
      obtain ⟨next, deep, value, hdeep, rfl⟩ := slot_transition result
      have hp := look s (.getCurrent slot) deep (step s next deep hdeep)
      obtain ⟨machine, acts, saves, answer⟩ := deep
      cases answer <;> exact hp

/-- Recovery keeps to the specification, with one save or two. -/
theorem spec_recover {s : Session ι} {bootIdNow : Bytes} {slot : Option OtaSlot}
    {outcome : Outcome (Option OtaError)}
    (h : RecoverResult s.machine bootIdNow slot outcome) :
    Spec s (outcome.map fun _ => ()) := by
  refine recover_induction ?_ (fun _ _ _ => spec_transition) ?_ ?_ ?_ s h
  · exact fun s result => .of_path rfl (by simp) fun _ => rfl
  · intro s outcome error hspec herror
    obtain ⟨machine, acts, saves, result⟩ := outcome
    cases herror
    exact hspec
  · exact fun s effect outcome hspec => .of_path hspec.path hspec.failedSave hspec.unsaved
  · exact fun s t effect outcome _ hspec => hspec.after_saved

/-- Recovery keeps memory and file consistent. -/
theorem consistent_recover {J : JsonParser} {s : Session ι} {bootIdNow : Bytes}
    {slot : Option OtaSlot} {outcome : Outcome (Option OtaError)} (hs : Consistent J s)
    (h : RecoverResult s.machine bootIdNow slot outcome) :
    Consistent J (s.after (outcome.map fun _ => ())) := by
  refine (recover_induction
    (P := fun s outcome => outcome.machine.path = s.machine.path ∧
      (Consistent J s → Consistent J (s.after outcome)))
    (fun _ _ => ⟨rfl, id⟩) ?_ ?_ ?_ ?_ s h).2 hs
  · exact fun s next outcome hresult =>
      ⟨(spec_transition hresult).path, fun hs => consistent_transition hs hresult⟩
  · exact fun s outcome error hc _ => hc
  · exact fun s effect outcome hc => hc
  · intro s t effect outcome haccepts hc
    refine ⟨hc.1, fun _ => ?_⟩
    rw [s.after_saved t effect hc.1]
    exact hc.2 fun _ => ⟨haccepts.valid, holds_replace J s.disk s.machine.path t⟩

/-! ## Reboot -/

/-- A reboot keeps to the specification, with the record of a refused request. -/
theorem spec_reboot {s : Session ι} {outcome : Outcome Unit}
    (h : RebootResult s.machine outcome) : Spec s outcome := by
  cases h with
  | refused error => exact .of_path rfl (by simp) fun _ => rfl
  | failed error hunblocked hauth =>
      refine .of_path rfl ?_ (by simp)
      intro next hmem
      obtain rfl : next = s.machine.current := by simpa using hmem
      exact ⟨rfl, by simp [Outcome.succeeded], [], rfl, rfl, .inl rfl⟩
  | uncertain error hunblocked hauth hvalid =>
      refine .of_path rfl ?_ (by simp)
      intro next hmem
      obtain rfl : next = s.machine.current := by simpa using hmem
      exact ⟨rfl, by simp [Outcome.succeeded], [], rfl, rfl,
        .inr (s.disk.content_replace s.machine.path _)⟩
  | requested blocked result hunblocked hauth hvalid => exact .of_path rfl (by simp) (by simp)
  | recorded error code message inner hunblocked hauth hvalid result =>
      refine .of_path (spec_transition (s := s) result).path ?_ (by simp)
      intro next hmem
      have hmem' : (next, false) ∈ inner.saves := by simpa using hmem
      -- the failed record follows the completed save of the current state
      cases result with
      | refused error' => simp at hmem'
      | failed error' accepts =>
          obtain rfl : next = failedState s.machine code message := by simpa using hmem'
          exact ⟨rfl, by simp [Outcome.succeeded], [(s.machine.current, true)], rfl, rfl,
            .inl (s.disk.content_replace s.machine.path _)⟩
      | uncertain error' accepts =>
          obtain rfl : next = failedState s.machine code message := by simpa using hmem'
          exact ⟨rfl, by simp [Outcome.succeeded], [(s.machine.current, true)], rfl, rfl,
            .inr (Disk.content_replace _ s.machine.path _)⟩
      | done accepts => simp at hmem'

/-- A reboot keeps memory and file consistent. -/
theorem consistent_reboot {J : JsonParser} {s : Session ι} {outcome : Outcome Unit}
    (hs : Consistent J s) (h : RebootResult s.machine outcome) :
    Consistent J (s.after outcome) := by
  cases h with
  | refused error => exact hs
  | failed error hunblocked hauth => exact fun hb => absurd hb (by simp [Session.after])
  | uncertain error hunblocked hauth hvalid =>
      exact fun hb => absurd hb (by simp [Session.after])
  | requested blocked result hunblocked hauth hvalid =>
      exact fun _ => ⟨hvalid, holds_replace J s.disk s.machine.path _⟩
  | recorded error code message inner hunblocked hauth hvalid result =>
      cases result with
      | refused error' => exact fun _ => ⟨hvalid, holds_replace J s.disk s.machine.path _⟩
      | failed error' accepts => exact fun hb => absurd hb (by simp [Session.after])
      | uncertain error' accepts => exact fun hb => absurd hb (by simp [Session.after])
      | done accepts => exact fun _ => ⟨accepts.valid, holds_replace J _ s.machine.path _⟩

/-! ## Opening -/

/-- An opening keeps to its own specification. -/
theorem openingSpec_open {J : JsonParser} {s : Session ι} {path : Option Bytes}
    {outcome : Outcome Unit} (h : OpenResult J (path.bind s.disk.content) path outcome) :
    OpeningSpec s path outcome := by
  cases h with
  | refused path machine error hblocked =>
      refine ⟨?_, .inl rfl, fun _ => rfl, by simp⟩
      simp [Outcome.succeeded, Session.after, hblocked]
  | failed path error hfile =>
      refine ⟨by simp [Outcome.succeeded, Session.after], .inl rfl, by simp, ?_⟩
      intro next hmem
      obtain rfl : next = otaPersistentStateInit := by simpa using hmem
      exact ⟨rfl, hfile, rfl⟩
  | uncertain path error hfile =>
      refine ⟨by simp [Outcome.succeeded, Session.after], .inr ⟨path, rfl, hfile, rfl⟩,
        by simp, ?_⟩
      intro next hmem
      obtain rfl : next = otaPersistentStateInit := by simpa using hmem
      exact ⟨rfl, hfile, rfl⟩
  | loaded path data current hfile hparse =>
      exact ⟨by simp [Outcome.succeeded, Session.after], .inl rfl, fun _ => rfl, by simp⟩
  | created path hfile =>
      exact ⟨by simp [Outcome.succeeded, Session.after], .inr ⟨path, rfl, hfile, rfl⟩,
        by simp, by simp⟩

/-- Whatever was open before, memory and file are consistent behind an opening. -/
theorem consistent_open {J : JsonParser} {s : Session ι} {path : Option Bytes}
    {outcome : Outcome Unit} (h : OpenResult J (path.bind s.disk.content) path outcome) :
    Consistent J
      (Session.after ⟨s.machine, { s.disk with loaded := path.bind s.disk.content }⟩ outcome) := by
  cases h with
  | refused path machine error hblocked =>
      exact fun hb => absurd hb (by simp [Session.after, hblocked])
  | failed path error hfile => exact fun hb => absurd hb (by simp [Session.after])
  | uncertain path error hfile => exact fun hb => absurd hb (by simp [Session.after])
  | loaded path data current hfile hparse =>
      exact fun _ => ⟨valid_of_parseState J hparse, .inl ⟨data, hfile, hfile, hparse⟩⟩
  | created path hfile => exact fun _ => ⟨valid_init, holds_replace J _ path _⟩

/-! ## Whole sessions -/

variable (J : JsonParser)

theorem consistent_call {s : Session ι} (hs : Consistent J s) (c : Call) :
    Consistent J (s.call J c) := by
  cases c with
  | opening path readFault fault =>
      exact consistent_open (open_result J path readFault fault _)
  | transition fault next => exact consistent_transition hs (transition_result _ _ _)
  | fail fault code message => exact consistent_transition hs (fail_result _ _ _ _)
  | recover fault₁ fault₂ bootIdNow slot =>
      exact consistent_recover hs (recover_result _ _ _ _ _)
  | reboot fault₁ fault₂ request => exact consistent_reboot hs (reboot_result _ _ _ _)

/-- File and memory agree whenever the machine is usable. -/
theorem consistent_run (locate : Bytes → ι) (files : ι → Option Bytes) (calls : List Call) :
    Consistent J ((Session.initial locate files).run J calls) := by
  have hrun : ∀ s : Session ι, Consistent J s → Consistent J (s.run J calls) := by
    induction calls with
    | nil => exact fun _ h => h
    | cons c calls ih => exact fun s h => ih _ (consistent_call J h c)
  exact hrun _ fun hb => absurd hb (by simp [Session.initial])

theorem call_spec (s : Session ι) {c : Call} (hc : c.isOpening = false) :
    Spec s (c.outcome J s) := by
  cases c with
  | opening path readFault fault => cases hc
  | transition fault next => exact spec_transition (transition_result _ _ _)
  | fail fault code message => exact spec_transition (fail_result _ _ _ _)
  | recover fault₁ fault₂ bootIdNow slot => exact spec_recover (recover_result _ _ _ _ _)
  | reboot fault₁ fault₂ request => exact spec_reboot (reboot_result _ _ _ _)

/-- A blocked machine does nothing. -/
theorem inert_call {s : Session ι} (hb : s.machine.blocked = true) {c : Call}
    (hc : c.isOpening = false) : Inert s (c.outcome J s) := by
  cases c with
  | opening path readFault fault => cases hc
  | transition fault next => exact inert_transition hb (transition_result _ _ _)
  | fail fault code message => exact inert_transition hb (fail_result _ _ _ _)
  | recover fault₁ fault₂ bootIdNow slot =>
      simp only [Call.outcome, otaStateMachineRecover, hb, if_true]
      exact ⟨by simp [Outcome.succeeded, Outcome.map, Except.map], rfl, rfl, rfl⟩
  | reboot fault₁ fault₂ request =>
      simp only [Call.outcome, otaStateMachineReboot, hb, if_true]
      exact ⟨by simp [Outcome.succeeded], rfl, rfl, rfl⟩

theorem call_eq (s : Session ι) {c : Call} (hc : c.isOpening = false) :
    s.call J c = s.after (c.outcome J s) := by
  cases c with
  | opening path readFault fault => cases hc
  | transition fault next => rfl
  | fail fault code message => rfl
  | recover fault₁ fault₂ bootIdNow slot => rfl
  | reboot fault₁ fault₂ request => rfl

/-- Nothing comes of a sequence of calls without an opening. -/
theorem run_of_blocked {s : Session ι} (hb : s.machine.blocked = true) {calls : List Call}
    (hcalls : ∀ c ∈ calls, c.isOpening = false) : s.run J calls = s := by
  induction calls with
  | nil => rfl
  | cons c calls ih =>
      have hc := hcalls c (by simp)
      have hsame : s.call J c = s := by
        rw [call_eq J s hc]
        exact (inert_call J hb hc).same
      change Session.run J (s.call J c) calls = s
      rw [hsame]
      exact ih fun d hd => hcalls d (by simp [hd])

/-- The state file under any sequence of calls with any faults, on any files, where
paths may share files: whenever the machine is usable it is valid and the file at
its path holds it; a failed save leaves the old or the new content in full, memory
as it was, and the machine blocked; a blocked machine never succeeds or writes
again until it is opened anew; a call that begins no save changes nothing, and no
call touches a file other than that of the machine.  An opening builds the machine
anew, writes nothing but the initial state into a missing file at its path, and
leaves the machine blocked when it fails. -/
theorem state_file_discipline (locate : Bytes → ι) (files : ι → Option Bytes)
    (calls : List Call) :
    let s := (Session.initial locate files).run J calls
    Consistent J s ∧
      (∀ c : Call, c.isOpening = false → Spec s (c.outcome J s)) ∧
      (s.machine.blocked = true → ∀ c : Call, c.isOpening = false →
        Inert s (c.outcome J s)) ∧
      (s.machine.blocked = true → ∀ later : List Call,
        (∀ c ∈ later, c.isOpening = false) → s.run J later = s) ∧
      (∀ path readFault fault,
        OpeningSpec s path (Call.outcome J s (.opening path readFault fault))) :=
  ⟨consistent_run J locate files calls, fun _ hc => call_spec J _ hc,
    fun hb _ hc => inert_call J hb hc, fun hb _ hlater => run_of_blocked J hb hlater,
    fun path readFault fault =>
      openingSpec_open (open_result J path readFault fault _)⟩

/-- Every path leads to a file of its own, and none of them is there. -/
def emptySession : Session Bytes := .initial id fun _ => none

/-- The session after a first opening. -/
def openedSession : Session Bytes :=
  ⟨⟨otaPersistentStateInit, ascii "/state", false⟩,
    emptySession.disk.replace (ascii "/state") (serialize otaPersistentStateInit)⟩

theorem openedSession_reached :
    emptySession.run J [.opening (some (ascii "/state")) none none] = openedSession := by
  have hopen : otaStateMachineOpen J (some (ascii "/state")) none none none =
      ⟨⟨otaPersistentStateInit, ascii "/state", false⟩,
        savedActs otaPersistentStateInit, [(otaPersistentStateInit, true)], .ok ()⟩ := by
    simp [otaStateMachineOpen, otaPersistenceLoad, otaFileRead,
      save_of_valid valid_init, savedActs, otaPathCap, ascii]
  have hmissing : (some (ascii "/state")).bind emptySession.disk.content = none := rfl
  simp only [Session.run, List.foldl_cons, List.foldl_nil, Session.call, Call.outcome,
    hmissing, hopen, Session.after, savedActs, Disk.perform, openedSession]
  rfl

/-- An opening that is refused before any save does change memory: on a usable
machine, opening a null path leaves a zeroed, blocked machine. -/
theorem refused_opening_changes_memory :
    (∃ calls, emptySession.run JsonReader.referenceParser calls = openedSession) ∧
      openedSession.machine.blocked = false ∧
      ¬ (Call.outcome JsonReader.referenceParser openedSession
        (.opening none none none)).succeeded ∧
      (Call.outcome JsonReader.referenceParser openedSession
        (.opening none none none)).saves = [] ∧
      (openedSession.call JsonReader.referenceParser
        (.opening none none none)).machine ≠ openedSession.machine := by
  refine ⟨⟨_, openedSession_reached _⟩, rfl, ?_, rfl, ?_⟩
  · simp [Call.outcome, otaStateMachineOpen, Outcome.succeeded]
  · simp [Session.call, Call.outcome, otaStateMachineOpen, Session.after, openedSession]

end EdgeGuard.Agent.StateFile
