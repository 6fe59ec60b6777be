import EdgeGuard.Base.Shell
import EdgeGuard.RkAb.Metadata

/-!
# The pre-install gate

`edgeguard-rk-ab-preinstall`, the script that RAUC runs before it writes: the slot
that `get-current` names, the two targets that RAUC announces by index, and the
names behind the indices.

The environment is a function from names to values; what the script reads of its
own variables it has set itself.  The bracket expressions are those of the POSIX
locale.  The error is the line on stderr, and its status is 1.

## Main results

* `visit_ok_iff` — a target is counted once, under its name.
* `preinstall_iff` — exactly what the gate lets pass.
-/

namespace EdgeGuard.RkAb.Preinstall

open EdgeGuard.Base.CText EdgeGuard.Base.Shell
open EdgeGuard.RkAb.Metadata

/-! ## The script -/

/-- What the script is started with, and what `get-current` does when it is called. -/
structure Invocation where
  arguments : List Text
  environment : Bytes → Option Text
  getCurrent : Outcome

/-- `fail`. -/
def fail {α : Type} (message : String) : Except Bytes α :=
  .error (ascii "edgeguard-rk-ab-preinstall: " ++ ascii message ++ [0x0a])

/-- The byte of `printf '.'`. -/
def sentinel : UInt8 := 0x2e

/-- `IFS`: space, tab and newline. -/
def isBlank (b : UInt8) : Bool := b == 0x20 || b == 0x09 || b == 0x0a

/-- No argument, or one that is empty. -/
def argumentsOk (arguments : List Text) : Bool :=
  arguments.length == 0 || (arguments.length == 1 && arguments.all (·.bytes.isEmpty))

/-- The names of the slots that may be written: `$rootfs` and `$boot`. -/
structure Group where
  rootfs : Bytes
  boot : Bytes
  deriving DecidableEq

/-- The group opposite to the captured answer of `get-current`. -/
def oppositeGroup (current : Bytes) : Option Group :=
  if current = ascii "a." ∨ current = ascii "a\n." then
    some ⟨ascii "rootfs.1", ascii "boot.1"⟩
  else if current = ascii "b." ∨ current = ascii "b\n." then
    some ⟨ascii "rootfs.0", ascii "boot.0"⟩
  else none

def checkIndex (index : Bytes) : Except Bytes Unit :=
  if index.isEmpty || index.any (!isDigit ·) then fail "non-numeric target index"
  else if index = ascii "0" then .ok ()
  else if index.head? = some 0x30 then fail "noncanonical target index"
  else .ok ()

/-- `printenv`. -/
def printenv (environment : Bytes → Option Text) (name : Bytes) : Outcome :=
  match environment name with
  | none => ⟨1, []⟩
  | some value => ⟨0, value.bytes ++ [0x0a]⟩

/-- `found_rootfs` and `found_boot`. -/
structure Found where
  rootfs : Bool
  boot : Bool
  deriving DecidableEq

def slotName (index : Bytes) : Bytes := ascii "RAUC_SLOT_NAME_" ++ index

/-- One turn of the loop over the indices. -/
def visit (group : Group) (environment : Bytes → Option Text) (found : Found)
    (index : Bytes) : Except Bytes Found :=
  match checkIndex index with
  | .error message => .error message
  | .ok () =>
      match guarded sentinel (printenv environment (slotName index)) with
      | none => fail "missing target slot name"
      | some name =>
          if name = group.rootfs ++ ascii "\n." then
            if found.rootfs then fail "duplicate rootfs target"
            else .ok { found with rootfs := true }
          else if name = group.boot ++ ascii "\n." then
            if found.boot then fail "duplicate boot target"
            else .ok { found with boot := true }
          else fail "unexpected target slot"

/-- The fields of `${RAUC_TARGET_SLOTS-}`. -/
def targetFields (environment : Bytes → Option Text) : List Bytes :=
  match environment (ascii "RAUC_TARGET_SLOTS") with
  | none => []
  | some value => fields isBlank value.bytes

def checkTargets (group : Group) (environment : Bytes → Option Text) : Except Bytes Unit :=
  match targetFields environment with
  | [first, second] =>
      if first = second then fail "duplicate target index"
      else
        match [first, second].foldlM (visit group environment) ⟨false, false⟩ with
        | .error message => .error message
        | .ok found =>
            if found.rootfs && found.boot then .ok ()
            else fail "incomplete opposite target group"
  | _ => fail "expected exactly two target indices"

/-- The script. -/
def preinstall (i : Invocation) : Except Bytes Unit :=
  if !argumentsOk i.arguments then fail "unexpected arguments"
  else
    match guarded sentinel i.getCurrent with
    | none => fail "current-slot identity failed"
    | some current =>
        match oppositeGroup current with
        | none => fail "ambiguous current-slot identity"
        | some group => checkTargets group i.environment

def exitStatus (i : Invocation) : Nat :=
  match preinstall i with
  | .ok () => 0
  | .error _ => 1

/-! ## What it is for -/

def slotLetter : Slot → Bytes
  | .a => ascii "a"
  | .b => ascii "b"

/-- `rootfs.<slot>` and `boot.<slot>`. -/
def groupOf (slot : Slot) : Group :=
  ⟨ascii "rootfs." ++ decimal slot.index.toNat, ascii "boot." ++ decimal slot.index.toNat⟩

/-- The slot's letter with at most one newline. -/
def Prints (printed : Bytes) (slot : Slot) : Prop :=
  printed = slotLetter slot ∨ printed = slotLetter slot ++ [0x0a]

/-- The variable of the index holds the name. -/
def Names (environment : Bytes → Option Text) (index : Nat) (name : Bytes) : Prop :=
  ∃ value, environment (slotName (decimal index)) = some value ∧ value.bytes = name

/-- The text is the two numbers with blanks between them, and perhaps around them. -/
def Lists (text : Bytes) (first second : Nat) : Prop :=
  ∃ lead mid trail : Bytes, lead.all isBlank = true ∧ mid.all isBlank = true ∧
    trail.all isBlank = true ∧ mid ≠ [] ∧
    text = lead ++ decimal first ++ mid ++ decimal second ++ trail

/-- The gate may let the invocation pass, when `get-current` has printed the text. -/
def Admissible (i : Invocation) (printed : Bytes) : Prop :=
  (i.arguments.map (·.bytes) = [] ∨ i.arguments.map (·.bytes) = [[]]) ∧
    i.getCurrent.status = 0 ∧
    ∃ slot, Prints printed slot ∧
      ∃ targets first second,
        i.environment (ascii "RAUC_TARGET_SLOTS") = some targets ∧
        Lists targets.bytes first second ∧ first ≠ second ∧
        ((Names i.environment first (groupOf slot.other).rootfs ∧
            Names i.environment second (groupOf slot.other).boot) ∨
          (Names i.environment first (groupOf slot.other).boot ∧
            Names i.environment second (groupOf slot.other).rootfs))

/-! ## The steps -/

private theorem fail_ne_ok {α : Type} {message : String} {a : α} :
    (fail message : Except Bytes α) ≠ .ok a := by
  intro h
  cases h

theorem argumentsOk_iff {arguments : List Text} :
    argumentsOk arguments = true ↔
      arguments.map (·.bytes) = [] ∨ arguments.map (·.bytes) = [[]] := by
  cases arguments with
  | nil => simp [argumentsOk]
  | cons first rest =>
      cases rest with
      | nil => simp [argumentsOk]
      | cons second rest => simp [argumentsOk]

/-- The accepted indices are the numbers as they are printed. -/
theorem checkIndex_ok_iff {index : Bytes} :
    checkIndex index = .ok () ↔ ∃ n, index = decimal n := by
  constructor
  · intro h
    unfold checkIndex at h
    split at h
    · cases h
    · rename_i hdigits
      simp only [Bool.or_eq_true, List.isEmpty_iff, List.any_eq_true, Bool.not_eq_true', not_or,
        not_exists, not_and, Bool.not_eq_false] at hdigits
      split at h
      · rename_i hzero
        exact ⟨0, hzero.trans (by decide)⟩
      · split at h
        · cases h
        · rename_i hhead
          have hall : index.all isDigit = true := List.all_eq_true.mpr hdigits.2
          exact ⟨_, (decimal_decimalValue hdigits.1 hall hhead).2.symm⟩
  · rintro ⟨n, rfl⟩
    have hdigits : ((decimal n).isEmpty || (decimal n).any (!isDigit ·)) = false := by
      rw [Bool.or_eq_false_iff, List.isEmpty_eq_false_iff, List.any_eq_false]
      refine ⟨decimal_ne_nil n, fun b hb => ?_⟩
      simp [isDigit_of_mem_decimal n b hb]
    rw [checkIndex, hdigits]
    simp only [Bool.false_eq_true, if_false]
    split
    · rfl
    · rename_i hzero
      split
      · rename_i hhead
        obtain ⟨rest, hrest⟩ := List.head?_eq_some_iff.mp hhead
        rw [decimal_leading n hrest] at hrest
        exact absurd hrest hzero
      · rfl

variable {environment : Bytes → Option Text}

/-- What the gate captures of a slot name. -/
theorem guarded_printenv_iff {index name : Bytes} :
    guarded sentinel (printenv environment (slotName index)) = some (name ++ ascii "\n.") ↔
      ∃ value, environment (slotName index) = some value ∧ value.bytes = name := by
  have hsplit : name ++ ascii "\n." = (name ++ [0x0a]) ++ [sentinel] := by
    rw [List.append_assoc]
    rfl
  rw [hsplit, guarded_eq_some_iff (by decide) (by decide), printenv]
  cases environment (slotName index) with
  | none => simp
  | some value =>
      have hvisible : visible (value.bytes ++ [0x0a]) = value.bytes ++ [0x0a] := by
        refine visible_of_noNul fun hmem => ?_
        rcases List.mem_append.mp hmem with hvalue | hnewline
        · exact value.noNul hvalue
        · simp at hnewline
      simp [hvisible]

/-- A target is counted once, under its name. -/
theorem visit_ok_iff {group : Group} (hgroup : group.rootfs ≠ group.boot) {found found' : Found}
    {index : Bytes} :
    visit group environment found index = .ok found' ↔
      ∃ n, index = decimal n ∧
        ((Names environment n group.rootfs ∧ found.rootfs = false ∧
            found' = { found with rootfs := true }) ∨
          (Names environment n group.boot ∧ found.boot = false ∧
            found' = { found with boot := true })) := by
  constructor
  · intro h
    unfold visit at h
    split at h
    · cases h
    · rename_i hindex
      obtain ⟨n, rfl⟩ := checkIndex_ok_iff.mp hindex
      refine ⟨n, rfl, ?_⟩
      split at h
      · exact absurd h fail_ne_ok
      · rename_i name hname
        split at h
        · rename_i hrootfs
          rw [hrootfs] at hname
          split at h
          · exact absurd h fail_ne_ok
          · rename_i hfound
            cases h
            exact .inl ⟨guarded_printenv_iff.mp hname, Bool.eq_false_iff.mpr hfound, rfl⟩
        · split at h
          · rename_i hboot
            rw [hboot] at hname
            split at h
            · exact absurd h fail_ne_ok
            · rename_i hfound
              cases h
              exact .inr ⟨guarded_printenv_iff.mp hname, Bool.eq_false_iff.mpr hfound, rfl⟩
          · exact absurd h fail_ne_ok
  · rintro ⟨n, rfl, h⟩
    have hindex : checkIndex (decimal n) = .ok () := checkIndex_ok_iff.mpr ⟨n, rfl⟩
    have hdiffer : group.boot ++ ascii "\n." ≠ group.rootfs ++ ascii "\n." :=
      fun heq => hgroup (List.append_cancel_right heq).symm
    rw [visit, hindex]
    rcases h with ⟨hname, hfound, rfl⟩ | ⟨hname, hfound, rfl⟩
    · simp [guarded_printenv_iff.mpr hname, hfound]
    · simp [guarded_printenv_iff.mpr hname, hdiffer, hfound]

private theorem foldlM_pair {group : Group} {start found : Found} {first second : Bytes} :
    [first, second].foldlM (visit group environment) start = .ok found ↔
      ∃ mid, visit group environment start first = .ok mid ∧
        visit group environment mid second = .ok found := by
  simp only [List.foldlM_cons, List.foldlM_nil, bind, Except.bind, pure, Except.pure]
  cases visit group environment start first with
  | error message => simp
  | ok mid =>
      simp only [Except.ok.injEq, exists_eq_left']
      cases visit group environment mid second with
      | error message => simp
      | ok found' => simp

/-- Both targets of the group are there, in either order. -/
theorem visits_ok_iff {group : Group} (hgroup : group.rootfs ≠ group.boot)
    {first second : Bytes} :
    (∃ found, [first, second].foldlM (visit group environment) ⟨false, false⟩ = .ok found ∧
        (found.rootfs && found.boot) = true) ↔
      ∃ m n, first = decimal m ∧ second = decimal n ∧
        ((Names environment m group.rootfs ∧ Names environment n group.boot) ∨
          (Names environment m group.boot ∧ Names environment n group.rootfs)) := by
  simp only [foldlM_pair, visit_ok_iff hgroup]
  constructor
  · rintro ⟨found, ⟨mid, ⟨m, rfl, hfirst⟩, n, rfl, hsecond⟩, hboth⟩
    refine ⟨m, n, rfl, rfl, ?_⟩
    rcases hfirst with ⟨hm, -, rfl⟩ | ⟨hm, -, rfl⟩
    · rcases hsecond with ⟨-, htwice, -⟩ | ⟨hn, -, -⟩
      · cases htwice
      · exact .inl ⟨hm, hn⟩
    · rcases hsecond with ⟨hn, -, -⟩ | ⟨-, htwice, -⟩
      · exact .inr ⟨hm, hn⟩
      · cases htwice
  · rintro ⟨m, n, rfl, rfl, ⟨hm, hn⟩ | ⟨hm, hn⟩⟩
    · exact ⟨⟨true, true⟩, ⟨_, ⟨m, rfl, .inl ⟨hm, trivial, rfl⟩⟩, n, rfl, .inr ⟨hn, rfl, rfl⟩⟩, rfl⟩
    · exact ⟨⟨true, true⟩, ⟨_, ⟨m, rfl, .inr ⟨hm, trivial, rfl⟩⟩, n, rfl, .inl ⟨hn, rfl, rfl⟩⟩, rfl⟩

theorem decimal_inj {m n : Nat} (h : decimal m = decimal n) : m = n := by
  rw [← decimalValue_decimal m, h, decimalValue_decimal]

/-- A pair of targets passes when it is the pair of a group. -/
theorem checkTargets_ok_iff {group : Group} (hgroup : group.rootfs ≠ group.boot) :
    checkTargets group environment = .ok () ↔
      ∃ m n, targetFields environment = [decimal m, decimal n] ∧ m ≠ n ∧
        ((Names environment m group.rootfs ∧ Names environment n group.boot) ∨
          (Names environment m group.boot ∧ Names environment n group.rootfs)) := by
  constructor
  · intro h
    unfold checkTargets at h
    split at h
    · rename_i first second hfields
      split at h
      · exact absurd h fail_ne_ok
      · rename_i hdiffer
        split at h
        · cases h
        · rename_i found hfold
          split at h
          · rename_i hboth
            obtain ⟨m, n, rfl, rfl, hnames⟩ := (visits_ok_iff hgroup).mp ⟨found, hfold, hboth⟩
            exact ⟨m, n, hfields, fun heq => hdiffer (congrArg decimal heq), hnames⟩
          · exact absurd h fail_ne_ok
    · exact absurd h fail_ne_ok
  · rintro ⟨m, n, hfields, hne, hnames⟩
    obtain ⟨found, hfold, hboth⟩ := (visits_ok_iff hgroup).mpr ⟨m, n, rfl, rfl, hnames⟩
    have hdiffer : decimal m ≠ decimal n := fun heq => hne (decimal_inj heq)
    rw [checkTargets, hfields]
    simp only [hdiffer, if_false, hfold, hboth, if_true]

/-- The fields are two numbers when the variable lists them. -/
theorem targetFields_iff {first second : Nat} :
    targetFields environment = [decimal first, decimal second] ↔
      ∃ targets, environment (ascii "RAUC_TARGET_SLOTS") = some targets ∧
        Lists targets.bytes first second := by
  have hword : ∀ n, Word isBlank (decimal n) := by
    intro n
    refine ⟨decimal_ne_nil n, fun b hb => ?_⟩
    have hdigit := isDigit_of_mem_decimal n b hb
    simp only [isDigit, Bool.and_eq_true, decide_eq_true_eq, UInt8.le_iff_toNat_le,
      UInt8.reduceToNat] at hdigit
    simp only [isBlank, Bool.or_eq_false_iff, beq_eq_false_iff_ne, ne_eq, ← UInt8.toNat_inj,
      UInt8.reduceToNat]
    omega
  unfold targetFields
  cases environment (ascii "RAUC_TARGET_SLOTS") with
  | none => simp
  | some value => simp [fields_pair_iff, Lists, hword]

theorem groupOf_ne (slot : Slot) : (groupOf slot).rootfs ≠ (groupOf slot).boot := by
  cases slot with
  | a => decide
  | b => decide

/-- The patterns of the first `case`. -/
theorem oppositeGroup_iff {printed : Bytes} {group : Group} :
    oppositeGroup (printed ++ [sentinel]) = some group ↔
      ∃ slot, Prints printed slot ∧ group = groupOf slot.other := by
  have hpattern : ∀ text : Bytes, printed ++ [sentinel] = text ++ [sentinel] ↔ printed = text :=
    fun text => ⟨List.append_cancel_right, congrArg (· ++ [sentinel])⟩
  have ha : (printed ++ [sentinel] = ascii "a." ∨ printed ++ [sentinel] = ascii "a\n.") ↔
      Prints printed .a := or_congr (hpattern (ascii "a")) (hpattern (ascii "a\n"))
  have hb : (printed ++ [sentinel] = ascii "b." ∨ printed ++ [sentinel] = ascii "b\n.") ↔
      Prints printed .b := or_congr (hpattern (ascii "b")) (hpattern (ascii "b\n"))
  have hone : Prints printed .a → ¬ Prints printed .b := by
    rintro (rfl | rfl) (h | h) <;> exact absurd h (by decide)
  constructor
  · intro h
    unfold oppositeGroup at h
    split at h
    · rename_i hprints
      exact ⟨.a, ha.mp hprints, (Option.some.inj h).symm⟩
    · split at h
      · rename_i hprints
        exact ⟨.b, hb.mp hprints, (Option.some.inj h).symm⟩
      · cases h
  · rintro ⟨slot, hprints, rfl⟩
    cases slot with
    | a =>
        rw [oppositeGroup, if_pos (ha.mpr hprints)]
        rfl
    | b =>
        rw [oppositeGroup, if_neg fun h => hone (ha.mp h) hprints, if_pos (hb.mpr hprints)]
        rfl

/-! ## The gate -/

/-- The current slot is what the tool prints when it succeeds. -/
private theorem guarded_current {i : Invocation} {current : Bytes}
    (h : guarded sentinel i.getCurrent = some current) :
    i.getCurrent.status = 0 ∧ current = visible i.getCurrent.output ++ [sentinel] := by
  have hform : current = visible i.getCurrent.output ++ [sentinel] := by
    unfold guarded at h
    split at h
    · rw [captured_concat _ (by decide) (by decide)] at h
      exact (Option.some.inj h).symm
    · cases h
  rw [hform] at h
  exact ⟨((guarded_eq_some_iff (by decide) (by decide)).mp h).1, hform⟩

/-- The hook passes exactly on an admissible invocation. -/
theorem preinstall_ok_iff (i : Invocation) :
    preinstall i = .ok () ↔ Admissible i (visible i.getCurrent.output) := by
  constructor
  · intro h
    unfold preinstall at h
    split at h
    · exact absurd h fail_ne_ok
    · rename_i harguments
      rw [Bool.not_eq_true', Bool.not_eq_false] at harguments
      split at h
      · exact absurd h fail_ne_ok
      · rename_i current hcurrent
        obtain ⟨hstatus, rfl⟩ := guarded_current hcurrent
        split at h
        · exact absurd h fail_ne_ok
        · rename_i group hgroup
          obtain ⟨slot, hprints, rfl⟩ := oppositeGroup_iff.mp hgroup
          obtain ⟨m, n, hfields, hne, hnames⟩ := (checkTargets_ok_iff (groupOf_ne _)).mp h
          obtain ⟨targets, htargets, hlists⟩ := targetFields_iff.mp hfields
          exact ⟨argumentsOk_iff.mp harguments, hstatus, slot, hprints, targets, m, n, htargets,
            hlists, hne, hnames⟩
  · rintro ⟨harguments, hstatus, slot, hprints, targets, m, n, htargets, hlists, hne, hnames⟩
    have hcurrent : guarded sentinel i.getCurrent =
        some (visible i.getCurrent.output ++ [sentinel]) :=
      (guarded_eq_some_iff (by decide) (by decide)).mpr ⟨hstatus, rfl⟩
    have hgroup := oppositeGroup_iff.mpr ⟨slot, hprints, rfl⟩
    have hfields := targetFields_iff.mpr ⟨targets, htargets, hlists⟩
    rw [preinstall, argumentsOk_iff.mpr harguments, hcurrent]
    simp only [Bool.not_true, Bool.false_eq_true, if_false, hgroup]
    exact (checkTargets_ok_iff (groupOf_ne _)).mpr ⟨m, n, hfields, hne, hnames⟩

/-- The gate lets pass exactly the admissible invocations, where NULs in the answer of
`get-current` do not count: the shell drops them. -/
theorem preinstall_iff (i : Invocation) :
    exitStatus i = 0 ↔ Admissible i (visible i.getCurrent.output) := by
  rw [← preinstall_ok_iff, exitStatus]
  cases preinstall i with
  | ok u => simp
  | error message => simp

/-- A request for slot b, with the answer of `get-current` left open. -/
def requestB (printed : Bytes) : Invocation where
  arguments := [⟨[], by decide⟩]
  environment := fun name =>
    if name = ascii "RAUC_TARGET_SLOTS" then some ⟨ascii "\t4\n1 ", by decide⟩
    else if name = ascii "RAUC_SLOT_NAME_1" then some ⟨ascii "rootfs.1", by decide⟩
    else if name = ascii "RAUC_SLOT_NAME_4" then some ⟨ascii "boot.1", by decide⟩
    else none
  getCurrent := ⟨0, printed⟩

/-- An `a` with a NUL behind it passes for an `a`. -/
theorem preinstall_drops_nul :
    ¬ ∀ i : Invocation, exitStatus i = 0 ↔ Admissible i i.getCurrent.output := by
  intro h
  have hpasses : exitStatus (requestB [0x61, 0x00]) = 0 := by decide +kernel
  obtain ⟨-, -, slot, hprints, -⟩ := (h _).mp hpasses
  cases slot with
  | a => exact absurd hprints (by unfold Prints; decide)
  | b => exact absurd hprints (by unfold Prints; decide)

example : exitStatus (requestB (ascii "a\n")) = 0 := by decide +kernel

example : exitStatus (requestB (ascii "a\n\n")) = 1 := by decide +kernel

end EdgeGuard.RkAb.Preinstall
