import EdgeGuard.RkAb.CurrentSlot
import EdgeGuard.RkAb.Preinstall

/-!
# The commands on the metadata

`edgeguard-rk-abctl` and the backend that RAUC calls, `edgeguard-rk-ab-backend`, which
turns every verb into a command.

A command leaves the device, its status and what it prints; the texts for stderr are
left out, and so is a failure to print.

## Main results

* `backend_primary`, `backend_state`, `backend_mutation`, `backend_other` — what the backend
  makes of everything that it can be asked.
-/

namespace EdgeGuard.RkAb.Commands

open EdgeGuard.Base.CText EdgeGuard.Base.Shell
open EdgeGuard.RkAb.Metadata EdgeGuard.RkAb.CurrentSlot EdgeGuard.RkAb.Preinstall

/-- What a command meets. -/
structure Setting where
  machine : Machine
  lockFails : Bool
  /-- The device cannot be opened or read. -/
  unreadable : Bool
  fault : Option WriteFault

/-- `current_slot_verified`, without the reason. -/
def Setting.current (s : Setting) : Option Slot := (currentSlotVerified s.machine).toOption

def Setting.env (s : Setting) : Env := ⟨s.lockFails, s.current, s.unreadable, s.fault⟩

/-! ## `edgeguard-rk-abctl` -/

/-- `open_and_read`. -/
def openAndRead (s : Setting) (device : AbData) : Option AbData :=
  if s.unreadable then none
  else
    match validate device with
    | .ok () => some device
    | .error _ => none

def parseSlot (text : Bytes) : Option Slot :=
  if text = ascii "a" ∨ text = ascii "_a" then some .a
  else if text = ascii "b" ∨ text = ascii "_b" then some .b
  else none

def nativeName : NativeState → Bytes
  | .confirmedGood => ascii "confirmed-good"
  | .pending => ascii "pending"
  | .bad => ascii "bad"

/-- `puts`. -/
def puts (text : Bytes) : Bytes := text ++ [0x0a]

/-- A digit of `%x`. -/
def hexDigit (n : Nat) : UInt8 := if n < 10 then (0x30 + n).toUInt8 else (0x57 + n).toUInt8

/-- The line of a slot. -/
def slotLine (d : AbData) (slot : Slot) : Bytes :=
  let s := d.slot slot
  puts (ascii "slot=" ++ slotLetter slot ++
    ascii " priority=" ++ decimal s.priority.toNat ++
    ascii " tries=" ++ decimal s.triesRemaining.toNat ++
    ascii " successful=" ++ decimal s.successfulBoot.toNat ++
    ascii " is_update=" ++ decimal (s.flags &&& 1).toNat ++
    ascii " bootable=" ++ (if isBootable s then ascii "yes" else ascii "no") ++
    ascii " flags=0x" ++ [hexDigit (s.flags.toNat / 16), hexDigit (s.flags.toNat % 16)] ++
    ascii " native=" ++ (match nativeState s with
      | some state => nativeName state
      | none => ascii "inconsistent"))

/-- `print_status`. -/
def printStatus (d : AbData) (current : Option Slot) : Bytes :=
  puts (ascii "format=Rockchip-AvbABData offset=2048 size=32 version=" ++
      decimal d.versionMajor.toNat ++ ascii "." ++ decimal d.versionMinor.toNat ++
      ascii " crc=ok") ++
    puts (ascii "current=" ++ (current.elim (ascii "unknown") slotLetter) ++
      ascii " primary=" ++ ((primarySlot d).elim (ascii "none") slotLetter) ++
      ascii " last_boot=" ++ slotLetter (if d.lastBoot = 0 then .a else .b)) ++
    slotLine d .a ++ slotLine d .b

/-- `mutate`: the status it returns, and the status text of a mutation that succeeds. -/
def runMutation (op : Mutation) (slot : Slot) (s : Setting) (device : AbData) :
    AbData × Outcome :=
  let (after, result) := mutate op slot s.env device
  (after, if result = .success then ⟨0, printStatus after s.current⟩ else ⟨1, []⟩)

def getCurrent (s : Setting) : Outcome :=
  match s.current with
  | none => ⟨1, []⟩
  | some slot => ⟨0, puts (slotLetter slot)⟩

def status (s : Setting) (device : AbData) : Outcome :=
  match openAndRead s device with
  | none => ⟨1, []⟩
  | some d => ⟨if s.current.isNone then 1 else 0, printStatus d s.current⟩

def getPrimary (s : Setting) (device : AbData) : Outcome :=
  match (openAndRead s device).bind primarySlot with
  | none => ⟨1, []⟩
  | some slot => ⟨0, puts (slotLetter slot)⟩

def getNativeState (operand : Bytes) (s : Setting) (device : AbData) : Outcome :=
  match parseSlot operand with
  | none => ⟨2, []⟩
  | some slot =>
      match (openAndRead s device).bind fun d => nativeState (d.slot slot) with
      | none => ⟨1, []⟩
      | some state => ⟨0, puts (nativeName state)⟩

/-- A mutation of the slot that the operand names. -/
def mutateOperand (op : Mutation) (operand : Bytes) (s : Setting) (device : AbData) :
    AbData × Outcome :=
  match parseSlot operand with
  | none => (device, ⟨2, []⟩)
  | some slot => runMutation op slot s device

/-- `mark-good`, which knows the running slot by another name. -/
def markGoodOperand (operand : Bytes) (s : Setting) (device : AbData) : AbData × Outcome :=
  if operand = ascii "current" then
    match s.current with
    | none => (device, ⟨1, []⟩)
    | some slot => runMutation .markGood slot s device
  else mutateOperand .markGood operand s device

/-- `main`, without the name of the program. -/
def abctl (arguments : List Bytes) (s : Setting) (device : AbData) : AbData × Outcome :=
  match arguments with
  | [verb] =>
      if verb = ascii "get-current" then (device, getCurrent s)
      else if verb = ascii "status" then (device, status s device)
      else if verb = ascii "get-primary" then (device, getPrimary s device)
      else (device, ⟨2, []⟩)
  | [verb, operand] =>
      if verb = ascii "get-native-state" then (device, getNativeState operand s device)
      else if verb = ascii "set-primary" then mutateOperand .setPrimary operand s device
      else if verb = ascii "mark-bad" then mutateOperand .markBad operand s device
      else if verb = ascii "mark-good" then markGoodOperand operand s device
      else (device, ⟨2, []⟩)
  | _ => (device, ⟨2, []⟩)

/-! ## `edgeguard-rk-ab-backend` -/

/-- `err`. -/
def err : Outcome := ⟨1, []⟩

/-- `valid_slot`. -/
def validSlot (slot : Bytes) : Bool := slot == ascii "a" || slot == ascii "b"

/-- `$(command)`, without a value where its status is not 0. -/
def substituted (r : Outcome) : Option Bytes :=
  if r.status = 0 then some (captured r.output) else none

/-- `native_state`. -/
def backendNativeState (slot : Bytes) (s : Setting) (device : AbData) : AbData × Outcome :=
  if !validSlot slot then (device, err)
  else
    let r := abctl [ascii "get-native-state", slot] s device
    (r.1,
      match substituted r.2 with
      | none => err
      | some state =>
          if state = ascii "confirmed-good" ∨ state = ascii "pending" ∨ state = ascii "bad" then
            ⟨0, puts state⟩
          else err)

/-- What `get-state` makes of it: a pending slot is good to RAUC. -/
def projectState (r : Outcome) : Outcome :=
  match substituted r with
  | none => err
  | some state =>
      if state = ascii "confirmed-good" ∨ state = ascii "pending" then ⟨0, puts (ascii "good")⟩
      else if state = ascii "bad" then ⟨0, puts (ascii "bad")⟩
      else err

/-- What `get-primary` makes of an answer. -/
def backendPrimary (r : Outcome) : Outcome :=
  match substituted r with
  | none => err
  | some primary => if validSlot primary then ⟨0, puts primary⟩ else err

/-- A command whose output goes to stderr, with `|| err`. -/
def silent (r : AbData × Outcome) : AbData × Outcome :=
  (r.1, if r.2.status = 0 then ⟨0, []⟩ else err)

/-- The script. -/
def backend (arguments : List Text) (s : Setting) (device : AbData) : AbData × Outcome :=
  match arguments.map (·.bytes) with
  | [] => (device, err)
  | verb :: operands =>
      if verb = ascii "get-primary" then
        match operands with
        | [] =>
            let r := abctl [ascii "get-primary"] s device
            (r.1, backendPrimary r.2)
        | _ => (device, err)
      else if verb = ascii "get-state" then
        match operands with
        | [slot] =>
            let r := backendNativeState slot s device
            (r.1, projectState r.2)
        | _ => (device, err)
      else if verb = ascii "set-primary" then
        match operands with
        | [slot] =>
            if validSlot slot then silent (abctl [ascii "set-primary", slot] s device)
            else (device, err)
        | _ => (device, err)
      else if verb = ascii "set-state" then
        match operands with
        | [slot, desired] =>
            if validSlot slot then
              if desired = ascii "bad" then silent (abctl [ascii "mark-bad", slot] s device)
              else if desired = ascii "good" then
                silent (abctl [ascii "mark-good", slot] s device)
              else (device, err)
            else (device, err)
        | _ => (device, err)
      else (device, err)

/-! ## What RAUC asks -/

inductive Ask
  | primary
  | state (slot : Slot)
  | setPrimary (slot : Slot)
  | setState (slot : Slot) (good : Bool)
  deriving DecidableEq

def Ask.arguments : Ask → List Bytes
  | .primary => [ascii "get-primary"]
  | .state slot => [ascii "get-state", slotLetter slot]
  | .setPrimary slot => [ascii "set-primary", slotLetter slot]
  | .setState slot good =>
      [ascii "set-state", slotLetter slot, if good then ascii "good" else ascii "bad"]

/-- The mutation that a verb asks for. -/
def Ask.mutation : Ask → Option (Mutation × Slot)
  | .primary | .state _ => none
  | .setPrimary slot => some (.setPrimary, slot)
  | .setState slot good => some (if good then .markGood else .markBad, slot)

theorem validSlot_iff {text : Bytes} : validSlot text = true ↔ ∃ slot, text = slotLetter slot := by
  rw [validSlot, Bool.or_eq_true, beq_iff_eq, beq_iff_eq]
  constructor
  · rintro (rfl | rfl)
    · exact ⟨.a, rfl⟩
    · exact ⟨.b, rfl⟩
  · rintro ⟨slot, rfl⟩
    cases slot with
    | a => exact .inl rfl
    | b => exact .inr rfl

theorem captured_puts (slot : Slot) : captured (puts (slotLetter slot)) = slotLetter slot := by
  cases slot <;> rfl

theorem parseSlot_letter (slot : Slot) : parseSlot (slotLetter slot) = some slot := by
  cases slot <;> rfl

theorem validSlot_letter (slot : Slot) : validSlot (slotLetter slot) = true :=
  validSlot_iff.mpr ⟨slot, rfl⟩

/-- The name of a state, as RAUC reads it. -/
def raucName (state : NativeState) : Bytes :=
  match state with
  | .confirmedGood | .pending => ascii "good"
  | .bad => ascii "bad"

/-- Asked for the primary slot the backend prints it, or fails. -/
theorem backend_primary {arguments : List Text}
    (h : arguments.map (·.bytes) = Ask.primary.arguments) (s : Setting) (device : AbData) :
    backend arguments s device =
      (device, match (openAndRead s device).bind primarySlot with
        | none => err
        | some slot => ⟨0, puts (slotLetter slot)⟩) := by
  unfold backend
  rw [h]
  show (device, backendPrimary (getPrimary s device)) = _
  congr 1
  unfold getPrimary
  cases (openAndRead s device).bind primarySlot with
  | none => rfl
  | some slot =>
      simp [backendPrimary, substituted, captured_puts, validSlot_letter]

/-- Asked for the state of a slot the backend prints its name for RAUC, or fails. -/
theorem backend_state {arguments : List Text} {slot : Slot}
    (h : arguments.map (·.bytes) = (Ask.state slot).arguments) (s : Setting) (device : AbData) :
    backend arguments s device =
      (device, match (openAndRead s device).bind fun d => nativeState (d.slot slot) with
        | none => err
        | some state => ⟨0, puts (raucName state)⟩) := by
  unfold backend
  rw [h]
  show ((backendNativeState (slotLetter slot) s device).1,
    projectState (backendNativeState (slotLetter slot) s device).2) = _
  have habctl : abctl [ascii "get-native-state", slotLetter slot] s device =
      (device, match (openAndRead s device).bind fun d => nativeState (d.slot slot) with
        | none => ⟨1, []⟩
        | some state => ⟨0, puts (nativeName state)⟩) := by
    show (device, getNativeState (slotLetter slot) s device) = _
    rw [getNativeState, parseSlot_letter]
  rw [backendNativeState, validSlot_letter, Bool.not_true, if_neg Bool.false_ne_true, habctl]
  cases (openAndRead s device).bind fun d => nativeState (d.slot slot) with
  | none => rfl
  | some state => cases state <;> rfl

/-- Asked for a change the backend makes one request of the tool. -/
theorem backend_mutation {arguments : List Text} {ask : Ask} {op : Mutation} {slot : Slot}
    (h : arguments.map (·.bytes) = ask.arguments) (hop : ask.mutation = some (op, slot))
    (s : Setting) (device : AbData) :
    backend arguments s device =
      ((mutate op slot s.env device).1,
        if (mutate op slot s.env device).2 = .success then ⟨0, []⟩ else err) := by
  have hrun : ∀ op, silent (runMutation op slot s device) =
      ((mutate op slot s.env device).1,
        if (mutate op slot s.env device).2 = .success then ⟨0, []⟩ else err) := by
    intro op
    unfold silent runMutation
    by_cases hsuccess : (mutate op slot s.env device).2 = .success
    · simp [hsuccess]
    · simp [hsuccess]
  unfold backend
  rw [h]
  cases ask with
  | primary => cases hop
  | state slot => cases hop
  | setPrimary slot =>
      cases hop
      rw [← hrun]
      cases slot <;> rfl
  | setState slot good =>
      cases good with
      | false =>
          cases hop
          rw [← hrun]
          cases slot <;> rfl
      | true =>
          cases hop
          rw [← hrun]
          cases slot <;> rfl

/-- What RAUC does not ask is refused. -/
theorem backend_other {arguments : List Text}
    (h : ∀ ask : Ask, arguments.map (·.bytes) ≠ ask.arguments) (s : Setting) (device : AbData) :
    backend arguments s device = (device, err) := by
  unfold backend
  split
  · rfl
  · rename_i verb operands hargs
    rw [hargs] at h
    split
    · rename_i hverb
      split
      · exact absurd (by rw [hverb]; rfl) (h .primary)
      · rfl
    · split
      · rename_i hverb
        split
        · rename_i slot
          have hinvalid : validSlot slot = false := by
            rw [Bool.eq_false_iff]
            intro hvalid
            obtain ⟨slot, rfl⟩ := validSlot_iff.mp hvalid
            exact h (.state slot) (by rw [hverb]; rfl)
          simp [backendNativeState, hinvalid, projectState, substituted, err]
        · rfl
      · split
        · rename_i hverb
          split
          · rename_i slot
            split
            · rename_i hvalid
              obtain ⟨slot, rfl⟩ := validSlot_iff.mp hvalid
              exact absurd (by rw [hverb]; rfl) (h (.setPrimary slot))
            · rfl
          · rfl
        · split
          · rename_i hverb
            split
            · rename_i slot desired
              split
              · rename_i hvalid
                obtain ⟨slot, rfl⟩ := validSlot_iff.mp hvalid
                split
                · rename_i hbad
                  exact absurd (by rw [hverb, hbad]; rfl) (h (.setState slot false))
                · split
                  · rename_i hgood
                    exact absurd (by rw [hverb, hgood]; rfl) (h (.setState slot true))
                  · rfl
              · rfl
            · rfl
          · rfl

end EdgeGuard.RkAb.Commands
