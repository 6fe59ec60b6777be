import EdgeGuard.Base.Hold
import EdgeGuard.Provisioning.Model

/-!
# The button of the board

`input.c`: the key of `adc-keys` that opens the window when it is held.

What the kernel says is an argument: the entries of `/dev/input`, and the turns of
`read`, each event with the time at which it is taken.  The sources of the main loop are
part of the state: `isOpen` is the descriptor with its source, and `holdSource` is the
time at which the timer is due.

## Main results

* `findAdcKeys_ok_iff` — the device is found exactly when it is the only one.
* `tracks_inputReady`, `tracks_holdElapsed` — the machine is the button that its events
  tell of.
-/

namespace EdgeGuard.Provisioning.Input

open EdgeGuard.Base EdgeGuard.Base.CText EdgeGuard.Base.Hold EdgeGuard.Provisioning.Model

/-- `KEY_MAX`. -/
def keyMax : Nat := 0x2ff

/-- `EV_KEY`. -/
def evKey : Nat := 1

/-- The error of `input_fail`. -/
def inputFail (message : String) : EgpError :=
  egpErrorSet .internalError true .none (ascii message)

/-! ## The device -/

/-- An entry of `/dev/input`, with what opening it shows. -/
structure DirEntry where
  name : Bytes
  opens : Bool
  isCharacterDevice : Bool
  /-- The answer of `EVIOCGNAME`. -/
  deviceName : Option Bytes
  deriving DecidableEq, Repr

/-- The tests of `find_adc_keys` on an entry. -/
def DirEntry.isAdcKeys (entry : DirEntry) : Bool :=
  (ascii "event").isPrefixOf entry.name && !(entry.name.drop 5).isEmpty &&
    (entry.name.drop 5).all isDigit && entry.opens && entry.isCharacterDevice &&
    entry.deviceName == some (ascii "adc-keys")

/-- The loop of `find_adc_keys`: the last match and the number of matches. -/
def scanEntries (found : Option DirEntry) (matched : Nat) :
    List DirEntry → Option DirEntry × Nat
  | [] => (found, matched)
  | entry :: entries =>
      if entry.isAdcKeys then scanEntries (some entry) (matched + 1) entries
      else scanEntries found matched entries

/-- What opening `/dev/input` comes to. -/
inductive InputDirectory
  | unavailable
  | unreadable
  | entries (list : List DirEntry)

/-- `find_adc_keys`. -/
def findAdcKeys : InputDirectory → Except EgpError DirEntry
  | .unavailable => .error (inputFail "adc-keys input directory is unavailable")
  | .unreadable => .error (inputFail "adc-keys discovery could not start")
  | .entries list =>
      match scanEntries none 0 list with
      | (some entry, 1) => .ok entry
      | (_, matched) =>
          .error (if matched = 0 then inputFail "adc-keys input source was not found"
            else inputFail "adc-keys input source is ambiguous")

/-! ## The machine -/

structure EgpInput where
  isOpen : Bool
  /-- In microseconds. -/
  holdSource : Option Int
  keyCode : Nat
  holdMs : Nat
  pressed : Bool
  deriving DecidableEq, Repr

/-- `egp_input_new`. -/
def egpInputNew (directory : InputDirectory) (keyCode holdMs : Nat) : Except EgpError EgpInput :=
  if (keyCode = 0 ∧ holdMs ≠ 0) ∨ (keyCode ≠ 0 ∧ holdMs = 0) ∨ keyMax < keyCode ∨
      (holdMs ≠ 0 ∧ (holdMs < 500 ∨ 10000 < holdMs)) then
    .error (inputFail "Physical-presence key mapping is invalid")
  else if keyCode = 0 then .ok ⟨false, none, keyCode, holdMs, false⟩
  else
    match findAdcKeys directory with
    | .error error => .error error
    | .ok _ => .ok ⟨true, none, keyCode, holdMs, false⟩

/-- `hold_ms` in microseconds. -/
def EgpInput.holdUs (input : EgpInput) : Int := input.holdMs * 1000

/-- `struct input_event`. -/
structure InputEvent where
  type : Nat
  code : Nat
  value : Int
  deriving DecidableEq, Repr

/-- What a call of `read` comes to. -/
inductive Turn
  | event (event : InputEvent) (now : Int)
  | interrupted
  /-- `EAGAIN`. -/
  | again
  /-- The end, another error, or a part of an event. -/
  | failed
  deriving DecidableEq, Repr

/-- The state that a callback leaves, and whether it calls `lost`. -/
structure Readied where
  input : EgpInput
  lost : Bool

/-- `input_lost`. -/
def EgpInput.lose (input : EgpInput) : Readied :=
  ⟨{ input with holdSource := none, pressed := false, isOpen := false }, true⟩

/-- An event in `input_ready`. -/
def EgpInput.take (input : EgpInput) (event : InputEvent) (now : Int) : EgpInput :=
  if event.type ≠ evKey ∨ event.code ≠ input.keyCode then input
  else if event.value = 1 ∧ !input.pressed then
    { input with pressed := true, holdSource := some (now + input.holdUs) }
  else if event.value = 0 then { input with pressed := false, holdSource := none }
  else input

/-- The loop of `input_ready`. -/
def readEvents (input : EgpInput) : List Turn → Readied
  | [] => ⟨input, false⟩
  | .event event now :: turns => readEvents (input.take event now) turns
  | .interrupted :: turns => readEvents input turns
  | .again :: _ => ⟨input, false⟩
  | .failed :: _ => input.lose

/-- `input_ready`; `hangUp` is one of the conditions that end it. -/
def inputReady (input : EgpInput) (hangUp : Bool) (turns : List Turn) : Readied :=
  if hangUp then input.lose else readEvents input turns

/-- `hold_elapsed`, and whether it calls `activated`. -/
def holdElapsed (input : EgpInput) : EgpInput × Bool :=
  ({ input with holdSource := none }, input.pressed)

/-! ## The device that is found -/

/-- The scan counts the devices of the name and keeps the last. -/
theorem scanEntries_eq (list : List DirEntry) (found : Option DirEntry) (matched : Nat) :
    scanEntries found matched list =
      (((list.filter DirEntry.isAdcKeys).getLast?).or found,
        matched + (list.filter DirEntry.isAdcKeys).length) := by
  induction list generalizing found matched with
  | nil => rfl
  | cons entry list ih =>
      rw [scanEntries]
      by_cases hentry : entry.isAdcKeys = true
      · rw [if_pos hentry, ih, List.filter_cons_of_pos hentry, List.length_cons,
          List.getLast?_cons]
        cases (list.filter DirEntry.isAdcKeys).getLast? with
        | none =>
            simp
            omega
        | some last =>
            simp
            omega
      · rw [if_neg hentry, ih, List.filter_cons_of_neg hentry]

/-- The device is found exactly when it is the only one. -/
theorem findAdcKeys_ok_iff (list : List DirEntry) (entry : DirEntry) :
    findAdcKeys (.entries list) = .ok entry ↔ list.filter DirEntry.isAdcKeys = [entry] := by
  rw [findAdcKeys, scanEntries_eq]
  cases hmatches : list.filter DirEntry.isAdcKeys with
  | nil => simp
  | cons first rest =>
      cases rest with
      | nil => simp
      | cons second rest => simp

/-! ## The button that the events tell of -/

/-- The act of an event. -/
def eventAct (keyCode : Nat) (event : InputEvent) (now : Int) : List (Act Int) :=
  if event.type ≠ evKey ∨ event.code ≠ keyCode then []
  else if event.value = 1 then [.down now]
  else if event.value = 0 then [.up]
  else []

/-- The acts of the events that are read. -/
def turnActs (keyCode : Nat) : List Turn → List (Act Int)
  | [] => []
  | .event event now :: turns => eventAct keyCode event now ++ turnActs keyCode turns
  | .interrupted :: turns => turnActs keyCode turns
  | .again :: _ => []
  | .failed :: _ => [.gone]

def readyActs (keyCode : Nat) (hangUp : Bool) (turns : List Turn) : List (Act Int) :=
  if hangUp then [.gone] else turnActs keyCode turns

/-- The machine is in the state of the button. -/
structure Tracks (keyCode holdMs : Nat) (input : EgpInput) (acts : List (Act Int)) : Prop where
  keyCode : input.keyCode = keyCode
  holdMs : input.holdMs = holdMs
  pressed : input.pressed = (after acts).pressed
  holdSource : input.holdSource = (after acts).since.map (· + input.holdUs)

section

variable {keyCode holdMs : Nat} {input : EgpInput} {acts : List (Act Int)}

/-- A device that was just opened has seen nothing. -/
theorem tracks_new {directory : InputDirectory}
    (h : egpInputNew directory keyCode holdMs = .ok input) :
    Tracks keyCode holdMs input [] := by
  unfold egpInputNew at h
  split at h
  · cases h
  · split at h
    · cases h
      exact ⟨rfl, rfl, rfl, rfl⟩
    · split at h
      · cases h
      · cases h
        exact ⟨rfl, rfl, rfl, rfl⟩

theorem tracks_lose (h : Tracks keyCode holdMs input acts) :
    Tracks keyCode holdMs input.lose.input (acts ++ [.gone]) := by
  refine ⟨h.keyCode, h.holdMs, ?_, ?_⟩
  · rw [after_snoc]
    rfl
  · rw [after_snoc]
    rfl

/-- An event is tracked as the act that it is for the key. -/
theorem tracks_take (h : Tracks keyCode holdMs input acts) (event : InputEvent) (now : Int) :
    Tracks keyCode holdMs (input.take event now) (acts ++ eventAct keyCode event now) := by
  have hheld := h
  obtain ⟨rfl, rfl, hpressed, hsource⟩ := h
  unfold EgpInput.take eventAct
  by_cases hother : event.type ≠ evKey ∨ event.code ≠ input.keyCode
  · rw [if_pos hother, if_pos hother, List.append_nil]
    exact hheld
  · rw [if_neg hother, if_neg hother]
    by_cases hdown : event.value = 1
    · rw [if_pos hdown]
      by_cases hbefore : input.pressed = true
      · -- a press of a key that is down already
        have hkept : after (acts ++ [.down now]) = after acts := by
          rw [after_snoc, Button.act, if_pos (hpressed ▸ hbefore)]
        rw [if_neg (by simp [hbefore]), if_neg (by omega)]
        exact ⟨rfl, rfl, by rw [hkept]; exact hpressed, by rw [hkept]; exact hsource⟩
      · have hstarted : after (acts ++ [.down now]) = ⟨true, some now⟩ := by
          rw [after_snoc, Button.act, if_neg (hpressed ▸ hbefore)]
        rw [if_pos ⟨hdown, by simpa using hbefore⟩]
        exact ⟨rfl, rfl, by rw [hstarted], by rw [hstarted]; rfl⟩
    · rw [if_neg hdown, if_neg (by tauto)]
      by_cases hup : event.value = 0
      · have hreleased : after (acts ++ [.up]) = ⟨false, none⟩ := after_snoc acts .up
        rw [if_pos hup, if_pos hup]
        exact ⟨rfl, rfl, by rw [hreleased], by rw [hreleased]; rfl⟩
      · rw [if_neg hup, if_neg hup, List.append_nil]
        exact hheld

/-- All the events of one readiness are tracked. -/
theorem tracks_readEvents (turns : List Turn) (h : Tracks keyCode holdMs input acts) :
    Tracks keyCode holdMs (readEvents input turns).input (acts ++ turnActs keyCode turns) := by
  induction turns generalizing input acts with
  | nil =>
      rw [turnActs, List.append_nil]
      exact h
  | cons turn turns ih =>
      cases turn with
      | event event now =>
          rw [turnActs, ← List.append_assoc]
          exact ih (tracks_take h event now)
      | interrupted => exact ih h
      | again =>
          rw [turnActs, List.append_nil]
          exact h
      | failed => exact tracks_lose h

/-- The callback of the descriptor keeps to the button. -/
theorem tracks_inputReady (hangUp : Bool) (turns : List Turn)
    (h : Tracks keyCode holdMs input acts) :
    Tracks keyCode holdMs (inputReady input hangUp turns).input
      (acts ++ readyActs keyCode hangUp turns) := by
  cases hangUp with
  | true => exact tracks_lose h
  | false => exact tracks_readEvents turns h

/-- So does the timer. -/
theorem tracks_holdElapsed (h : Tracks keyCode holdMs input acts) :
    Tracks keyCode holdMs (holdElapsed input).1 (acts ++ [.elapsed]) := by
  refine ⟨h.keyCode, h.holdMs, ?_, ?_⟩
  · rw [after_snoc]
    exact h.pressed
  · rw [after_snoc]
    rfl

/-- A timer that is due belongs to a hold. -/
theorem holding_of_due {due : Int} (h : Tracks keyCode holdMs input acts)
    (hdue : input.holdSource = some due) :
    ∃ start, Holding acts start ∧ due = start + holdMs * 1000 ∧ input.pressed = true := by
  rw [h.holdSource] at hdue
  obtain ⟨start, hsince, rfl⟩ := Option.map_eq_some_iff.mp hdue
  refine ⟨start, since_eq_some_iff.mp hsince, ?_, ?_⟩
  · rw [EgpInput.holdUs, h.holdMs]
  · rw [h.pressed]
    exact pressed_of_since hsince

/-- Every hold that goes on has its timer. -/
theorem due_of_holding {start : Int} (h : Tracks keyCode holdMs input acts)
    (hholding : Holding acts start) : input.holdSource = some (start + holdMs * 1000) := by
  rw [h.holdSource, since_of_holding hholding, Option.map_some, EgpInput.holdUs, h.holdMs]

end

/-- A callback that calls `lost` has seen the button go. -/
theorem gone_of_lost {input : EgpInput} {hangUp : Bool} {turns : List Turn} (keyCode : Nat)
    (h : (inputReady input hangUp turns).lost = false) :
    Act.gone ∉ readyActs keyCode hangUp turns := by
  cases hangUp with
  | true => cases h
  | false =>
      replace h : (readEvents input turns).lost = false := h
      show Act.gone ∉ turnActs keyCode turns
      induction turns generalizing input with
      | nil => exact List.not_mem_nil
      | cons turn turns ih =>
          cases turn with
          | event event now =>
              rw [turnActs, List.mem_append, not_or]
              refine ⟨?_, ih h⟩
              unfold eventAct
              split
              · exact List.not_mem_nil
              · split
                · simp
                · split <;> simp
          | interrupted => exact ih h
          | again => exact List.not_mem_nil
          | failed => cases h

end EdgeGuard.Provisioning.Input
