import EdgeGuard.Base.Refinement
import EdgeGuard.RkAb.Commands
import EdgeGuard.RkAb.SlotConfirmation

/-!
# The boot loader that RAUC sees

To RAUC the board is a primary slot and two slots that are good or bad.  The backend is
that boot loader, call after call, whatever it is asked, whatever the metadata are and
whatever fails.

A block outside the native states, or one that does not pass the check, has no view;
only a torn write leads there from one that has.

## Main results

* `effect_of_write` — what a mutation does to the view.
* `backend_follows` — every run of the backend is one of the boot loader.
* `selected_slot_stays` — the slot that RAUC has selected, on whatever block.
-/

namespace EdgeGuard.RkAb.RaucView

open EdgeGuard.Base.CText EdgeGuard.Base.Shell EdgeGuard.Base.Refinement
open EdgeGuard.RkAb.Metadata EdgeGuard.RkAb.MutationRuns EdgeGuard.RkAb.SlotConfirmation
open EdgeGuard.RkAb.CurrentSlot EdgeGuard.RkAb.Preinstall EdgeGuard.RkAb.Commands

/-! ## The boot loader -/

@[ext] structure View where
  primary : Slot
  good : Slot → Bool
  good_primary : good primary = true

/-- What a verb that succeeds makes of the boot loader. -/
inductive Effect (v v' : View) : Ask → Prop
  | primary (slot : Slot) (hprimary : v'.primary = slot)
      (hother : v'.good slot.other = v.good slot.other) : Effect v v' (.setPrimary slot)
  /-- The next boot is that of the other slot. -/
  | bad (slot : Slot) (hprimary : v'.primary = slot.other) (hbad : v'.good slot = false) :
      Effect v v' (.setState slot false)
  /-- The choice may fall on the slot, and not on another one. -/
  | good (slot : Slot) (hprimary : v'.primary = slot ∨ v'.primary = v.primary)
      (hsame : v'.good = v.good) : Effect v v' (.setState slot true)

/-- What the board lets be done, by the slot that runs. -/
def Permitted (current : Option Slot) (v : View) : Ask → Prop
  | .primary | .state _ => True
  | .setPrimary _ => current.isSome
  | .setState slot false => current.isSome ∧ v.good slot.other = true
  | .setState slot true => current = some slot ∧ v.good slot = true

/-- A call of the backend. -/
structure Call where
  arguments : List Text
  setting : Setting

def Call.Asks (c : Call) (ask : Ask) : Prop := c.arguments.map (·.bytes) = ask.arguments

instance (c : Call) (ask : Ask) : Decidable (c.Asks ask) :=
  inferInstanceAs (Decidable (c.arguments.map (·.bytes) = ask.arguments))

/-- The verb has to succeed: it is permitted, and nothing fails. -/
structure Due (s : Setting) (v : View) (ask : Ask) : Prop where
  readable : s.unreadable = false
  lock : ask.mutation ≠ none → s.lockFails = false
  whole : ask.mutation ≠ none → s.fault = none
  permitted : Permitted s.current v ask

/-- What the backend prints for RAUC. -/
def printed : List Bytes :=
  [[], puts (ascii "a"), puts (ascii "b"), puts (ascii "good"), puts (ascii "bad")]

/-- A step of the boot loader, with its answer. -/
inductive Allowed : Option View → Call → Outcome → Option View → Prop
  | primary {v : View} {c : Call} (h : c.Asks .primary) :
      Allowed (some v) c ⟨0, puts (slotLetter v.primary)⟩ (some v)
  | state {v : View} {c : Call} (slot : Slot) (h : c.Asks (.state slot)) :
      Allowed (some v) c ⟨0, puts (if v.good slot then ascii "good" else ascii "bad")⟩ (some v)
  | changed {v v' : View} {c : Call} (ask : Ask) (h : c.Asks ask)
      (hpermitted : Permitted c.setting.current v ask) (heffect : Effect v v' ask) :
      Allowed (some v) c ⟨0, []⟩ (some v')
  | refused {v : View} {c : Call} (h : ∀ ask, c.Asks ask → ¬ Due c.setting v ask) :
      Allowed (some v) c ⟨1, []⟩ (some v)
  /-- The block is written, and the write is not known to be good. -/
  | unverified {v v' : View} {c : Call} (ask : Ask) (h : c.Asks ask)
      (hpermitted : Permitted c.setting.current v ask) (heffect : Effect v v' ask)
      (hfault : c.setting.fault ≠ none) : Allowed (some v) c ⟨1, []⟩ (some v')
  | torn {v : View} {v' : Option View} {c : Call} (left : AbData)
      (hfault : c.setting.fault = some (.short left)) : Allowed (some v) c ⟨1, []⟩ v'
  /-- There is no view before the call. -/
  | unknown {v' : Option View} {c : Call} {o : Outcome} (hstatus : o.status ≤ 1)
      (hprinted : o.output ∈ printed) : Allowed none c o v'

/-! ## The view of a block -/

/-- The primary slot is bootable. -/
theorem bootable_of_primary {d : AbData} {slot : Slot} (h : primarySlot d = some slot) :
    isBootable (d.slot slot) = true := by
  cases ha : isBootable d.slotA with
  | true =>
      rw [primarySlot_of_a ha] at h
      split at h
      · rename_i hb
        cases h
        exact hb.1
      · cases h
        exact ha
  | false =>
      cases hb : isBootable d.slotB with
      | true =>
          rw [primarySlot_of_b hb, if_neg (by simp [ha])] at h
          cases h
          exact hb
      | false => simp [primarySlot, ha, hb] at h

/-- With a bootable slot there is a primary one. -/
theorem primarySlot_of_bootable {d : AbData} (h : ∃ slot, isBootable (d.slot slot) = true) :
    ∃ slot, primarySlot d = some slot := by
  obtain ⟨slot, hslot⟩ := h
  cases slot with
  | a =>
      rw [primarySlot_of_a hslot]
      split
      · exact ⟨_, rfl⟩
      · exact ⟨_, rfl⟩
  | b =>
      rw [primarySlot_of_b hslot]
      split
      · exact ⟨_, rfl⟩
      · exact ⟨_, rfl⟩

/-- The block is valid, and both slots are in a native state. -/
def sound (d : AbData) : Bool :=
  validate d = .ok () && (nativeState d.slotA).isSome && (nativeState d.slotB).isSome

theorem sound_iff {d : AbData} : sound d = true ↔ validate d = .ok () ∧ Native d := by
  have hnative : Native d ↔ (nativeState d.slotA).isSome ∧ (nativeState d.slotB).isSome := by
    rw [Option.isSome_iff_ne_none, Option.isSome_iff_ne_none]
    exact forall_slot .a
  rw [hnative, sound, Bool.and_eq_true, Bool.and_eq_true, decide_eq_true_eq, and_assoc]

/-- What RAUC sees of a block. -/
def view (d : AbData) : Option View :=
  if sound d then
    (primarySlot d).pmap (fun slot h => ⟨slot, fun s => isBootable (d.slot s), h⟩)
      fun _ h => bootable_of_primary h
  else none

/-- A block has a view when it is valid, in native states and with a primary slot. -/
theorem view_iff {d : AbData} {v : View} :
    view d = some v ↔
      validate d = .ok () ∧ Native d ∧ primarySlot d = some v.primary ∧
        v.good = fun slot => isBootable (d.slot slot) := by
  rw [← and_assoc, ← sound_iff, view]
  split
  · rename_i hsound
    rw [Option.pmap_eq_some_iff]
    constructor
    · rintro ⟨slot, hslot, hprimary, rfl⟩
      exact ⟨hsound, hprimary, rfl⟩
    · rintro ⟨-, hprimary, hgood⟩
      refine ⟨v.primary, bootable_of_primary hprimary, hprimary, ?_⟩
      ext slot
      · rfl
      · rw [hgood]
  · rename_i hsound
    simp [hsound]

theorem view_of_valid {d : AbData} (hvalid : validate d = .ok ()) (hnative : Native d)
    (h : ∃ slot, isBootable (d.slot slot) = true) :
    ∃ v, view d = some v ∧ primarySlot d = some v.primary ∧
      v.good = fun slot => isBootable (d.slot slot) := by
  obtain ⟨slot, hslot⟩ := primarySlot_of_bootable h
  refine ⟨⟨slot, fun s => isBootable (d.slot s), bootable_of_primary hslot⟩, ?_, hslot, rfl⟩
  exact view_iff.mpr ⟨hvalid, hnative, hslot, rfl⟩

/-! ## Mutations -/

/-- A slot one step below the highest priority boots as before. -/
theorem isBootable_lowered {s : SlotData} (h : s.priority = abMaxPriority) :
    isBootable { s with priority := abMaxPriority - 1 } = isBootable s := by
  have hlow : (0 : UInt8) < abMaxPriority - 1 := by decide
  have hhigh : (0 : UInt8) < abMaxPriority := by decide
  simp [isBootable, h, hlow, hhigh]

/-- The other slot of a block that is written boots as before. -/
theorem peer_of_framed {op : Mutation} {slot : Slot} {before after : AbData}
    (h : Framed op slot before after) :
    isBootable (after.slot slot.other) = isBootable (before.slot slot.other) := by
  rcases h.peer with hsame | ⟨-, hpriority, hlowered⟩
  · rw [hsame]
  · rw [hlowered, isBootable_lowered hpriority]

/-- A confirmation gives the next boot to no third choice. -/
theorem primarySlot_markGood {d : AbData} {slot : Slot} (hvalid : Sensible d)
    (h : isBootable (d.slot slot) = true) :
    primarySlot (markGood slot d) = some slot ∨
      primarySlot (markGood slot d) = primarySlot d := by
  cases slot with
  | a => exact .inl (primarySlot_markGood_a hvalid)
  | b =>
      by_cases hover : Overtakes d .b
      · left
        rw [primarySlot_markGood_b, if_neg]
        rintro ⟨-, hhigh⟩
        exact UInt8.not_le.mpr hover.2.2 hhigh
      · exact .inr ((primarySlot_markGood_iff hvalid h).mpr hover)

/-- Each mutation is asked for in one way. -/
theorem mutation_of_ask {ask : Ask} {op : Mutation} {slot : Slot}
    (h : ask.mutation = some (op, slot)) :
    (op = .setPrimary ∧ ask = .setPrimary slot) ∨
      (op = .markBad ∧ ask = .setState slot false) ∨
      (op = .markGood ∧ ask = .setState slot true) := by
  cases ask with
  | primary => cases h
  | state slot => cases h
  | setPrimary slot =>
      cases h
      exact .inl ⟨rfl, rfl⟩
  | setState slot good =>
      cases good with
      | false =>
          cases h
          exact .inr (.inl ⟨rfl, rfl⟩)
      | true =>
          cases h
          exact .inr (.inr ⟨rfl, rfl⟩)

/-- A mutation that is written is permitted, and has its effect. -/
theorem effect_of_write {ask : Ask} {op : Mutation} {slot current : Slot} {d d' : AbData}
    {v : View} (hop : ask.mutation = some (op, slot)) (hview : view d = some v)
    (h : change op slot current d = .write d') :
    ∃ v', view (withCrc d') = some v' ∧ Effect v v' ask ∧ Permitted (some current) v ask := by
  obtain ⟨hvalid, hnative, hprimary, hgood⟩ := view_iff.mp hview
  have hsensible := ((validate_iff d).mp hvalid).1
  have hwritten := (written_of_change h).withCrc
  have hplaced := hwritten.placed hsensible
  have hpeer := peer_of_framed hwritten.framed
  obtain ⟨v', hview', hprimary', hgood'⟩ := view_of_valid
    (validate_withCrc ((written_of_change h).sensible hsensible)) (hwritten.native hnative)
    hplaced.bootable
  refine ⟨v', hview', ?_⟩
  have hend := change_cases op slot current d
  rw [h] at hend
  rcases mutation_of_ask hop with ⟨rfl, rfl⟩ | ⟨rfl, rfl⟩ | ⟨rfl, rfl⟩
  · refine ⟨.primary slot ?_ ?_, rfl⟩
    · exact Option.some.inj (hprimary'.symm.trans (hplaced.primary rfl))
    · rw [hgood', hgood]
      exact hpeer
  · cases hend with
    | bad hother =>
        refine ⟨.bad slot ?_ ?_, rfl, ?_⟩
        · exact Option.some.inj (hprimary'.symm.trans (hplaced.bad rfl))
        · rw [hgood']
          show isBootable ((withCrc (markBad slot d)).slot slot) = false
          rw [slot_withCrc, markBad, slot_withSlot]
          rfl
        · rw [hgood]
          exact hother
  · cases hend with
    | good hcurrent hbootable =>
        refine ⟨.good slot ?_ ?_, by rw [hcurrent], ?_⟩
        · rw [primarySlot_withCrc] at hprimary'
          rcases primarySlot_markGood hsensible hbootable with hslot | hsame
          · exact .inl (Option.some.inj (hprimary'.symm.trans hslot))
          · exact .inr (Option.some.inj (hprimary'.symm.trans (hsame.trans hprimary)))
        · have hslot : isBootable ((withCrc (markGood slot d)).slot slot) = true := by
            rw [slot_withCrc]
            simp [markGood, isBootable, abMaxPriority]
          rw [hgood', hgood]
          funext s
          by_cases hs : s = slot
          · rw [hs, hslot, hbootable]
          · obtain rfl : s = slot.other := by
              cases s <;> cases slot <;> first | rfl | exact absurd rfl hs
            exact hpeer
        · rw [hgood]
          exact hbootable

/-- A slot that is bad already has the effect of becoming so. -/
theorem effect_of_keep {ask : Ask} {op : Mutation} {slot current : Slot} {d : AbData}
    {v : View} (hop : ask.mutation = some (op, slot)) (hview : view d = some v)
    (h : change op slot current d = .keep) :
    Effect v v ask ∧ Permitted (some current) v ask := by
  obtain ⟨-, -, hprimary, hgood⟩ := view_iff.mp hview
  obtain ⟨rfl, hplaced⟩ := placed_of_keep h
  have hend := change_cases .markBad slot current d
  rw [h] at hend
  rcases mutation_of_ask hop with ⟨hmutation, -⟩ | ⟨-, rfl⟩ | ⟨hmutation, -⟩
  · cases hmutation
  · cases hend with
    | badBefore hpeer hbad =>
        refine ⟨.bad slot ?_ ?_, rfl, ?_⟩
        · exact Option.some.inj (hprimary.symm.trans (hplaced.bad rfl))
        · rw [hgood]
          simp [isBootable, hbad.1]
        · rw [hgood]
          exact hpeer
  · cases hmutation

/-- A verb that is due succeeds. -/
theorem mutate_of_due {ask : Ask} {op : Mutation} {slot : Slot} {s : Setting} {d : AbData}
    {v : View} (hop : ask.mutation = some (op, slot)) (hview : view d = some v)
    (h : Due s v ask) : (mutate op slot s.env d).2 = .success := by
  obtain ⟨hvalid, -, -, hgood⟩ := view_iff.mp hview
  have hsensible := ((validate_iff d).mp hvalid).1
  have hmutation : ask.mutation ≠ none := by simp [hop]
  have hlock : s.env.lockFails = false := h.lock hmutation
  have hreadable : s.env.unreadable = false := h.readable
  have hwhole : s.env.fault = none := h.whole hmutation
  have hchange : ∃ current, s.env.current = some current ∧
      ∀ why, change op slot current d ≠ .refuse why := by
    have hpermitted := h.permitted
    rcases mutation_of_ask hop with ⟨rfl, rfl⟩ | ⟨rfl, rfl⟩ | ⟨rfl, rfl⟩
    · obtain ⟨current, hcurrent⟩ := Option.isSome_iff_exists.mp hpermitted
      exact ⟨current, hcurrent, nofun⟩
    · obtain ⟨hsome, hother⟩ := hpermitted
      obtain ⟨current, hcurrent⟩ := Option.isSome_iff_exists.mp hsome
      refine ⟨current, hcurrent, fun why hrefuse => ?_⟩
      rw [hgood] at hother
      simp only [change, hother, Bool.not_true, Bool.false_eq_true, if_false] at hrefuse
      split at hrefuse
      · cases hrefuse
      · cases hrefuse
    · obtain ⟨hcurrent, hslot⟩ := hpermitted
      refine ⟨slot, hcurrent, fun why hrefuse => ?_⟩
      rw [hgood] at hslot
      simp [change, hslot] at hrefuse
  obtain ⟨current, hcurrent, hnot⟩ := hchange
  rw [mutate, hlock, hcurrent, hreadable, hvalid, hwhole]
  simp only [Bool.false_eq_true, if_false]
  cases hmade : change op slot current d with
  | refuse why => exact absurd hmade (hnot why)
  | keep => rfl
  | write d' =>
      have hsound := validate_withCrc ((written_of_change hmade).sensible hsensible)
      simp [writeAndVerify, hsound]

/-! ## Calls -/

/-- Everything that RAUC can ask. -/
def asks : List Ask :=
  [.primary, .state .a, .state .b, .setPrimary .a, .setPrimary .b, .setState .a false,
    .setState .a true, .setState .b false, .setState .b true]

theorem mem_asks (ask : Ask) : ask ∈ asks := by
  cases ask with
  | primary => decide
  | state slot => cases slot <;> decide
  | setPrimary slot => cases slot <;> decide
  | setState slot good => cases slot <;> cases good <;> decide

theorem arguments_distinct :
    ∀ ask ∈ asks, ∀ ask' ∈ asks, ask.arguments = ask'.arguments → ask = ask' := by
  decide

/-- A call asks one thing. -/
theorem Call.Asks.unique {c : Call} {ask ask' : Ask} (h : c.Asks ask) (h' : c.Asks ask') :
    ask = ask' :=
  arguments_distinct ask (mem_asks ask) ask' (mem_asks ask') (h.symm.trans h')

def step (d : AbData) (c : Call) : AbData × Outcome := backend c.arguments c.setting d

theorem openAndRead_of_view {d : AbData} {v : View} {s : Setting} (h : view d = some v) :
    openAndRead s d = if s.unreadable then none else some d := by
  rw [openAndRead, (view_iff.mp h).1]

/-- A refusal of the one verb that is asked. -/
theorem refused_of_asks {v : View} {c : Call} {ask : Ask} (h : c.Asks ask)
    (hdue : ¬ Due c.setting v ask) : Allowed (some v) c err (some v) :=
  .refused fun _ h' => h.unique h' ▸ hdue

theorem unknown_err {c : Call} {v' : Option View} : Allowed none c err v' :=
  .unknown (by decide) (by decide)

theorem unknown_puts {c : Call} {v' : Option View} {text : Bytes} (h : puts text ∈ printed) :
    Allowed none c ⟨0, puts text⟩ v' :=
  .unknown (Nat.zero_le 1) h

/-- The answer to `get-primary` is that of the view. -/
theorem step_primary {d : AbData} {c : Call} (h : c.Asks .primary) :
    Allowed (view d) c (step d c).2 (view (step d c).1) := by
  rw [step, backend_primary h]
  cases hview : view d with
  | none =>
      cases (openAndRead c.setting d).bind primarySlot with
      | none => exact unknown_err
      | some slot => exact unknown_puts (by cases slot <;> decide)
  | some v =>
      rw [openAndRead_of_view hview]
      cases hreadable : c.setting.unreadable with
      | true =>
          exact refused_of_asks h fun hdue => by cases hreadable.symm.trans hdue.readable
      | false =>
          rw [if_neg Bool.false_ne_true, Option.bind_some, (view_iff.mp hview).2.2.1]
          exact .primary h

theorem raucName_eq {s : SlotData} {state : NativeState} (h : nativeState s = some state) :
    raucName state = if isBootable s then ascii "good" else ascii "bad" := by
  unfold nativeState at h
  split at h
  · rename_i hgood
    cases h
    simp only [Bool.and_eq_true] at hgood
    rw [if_pos hgood.2]
    rfl
  · split at h
    · rename_i hpending
      cases h
      simp only [Bool.and_eq_true] at hpending
      rw [if_pos hpending.2]
      rfl
    · split at h
      · rename_i hbad
        cases h
        simp only [Bool.and_eq_true, Bool.not_eq_true'] at hbad
        rw [if_neg (by simp [hbad.2])]
        rfl
      · cases h

/-- The answer to `get-state` is that of the view. -/
theorem step_state {d : AbData} {c : Call} {slot : Slot} (h : c.Asks (.state slot)) :
    Allowed (view d) c (step d c).2 (view (step d c).1) := by
  rw [step, backend_state h]
  cases hview : view d with
  | none =>
      cases (openAndRead c.setting d).bind fun d => nativeState (d.slot slot) with
      | none => exact unknown_err
      | some state => exact unknown_puts (by cases state <;> decide)
  | some v =>
      rw [openAndRead_of_view hview]
      cases hreadable : c.setting.unreadable with
      | true =>
          exact refused_of_asks h fun hdue => by cases hreadable.symm.trans hdue.readable
      | false =>
          obtain ⟨-, hnative, -, hgood⟩ := view_iff.mp hview
          obtain ⟨state, hstate⟩ := Option.ne_none_iff_exists'.mp (hnative slot)
          rw [if_neg Bool.false_ne_true, Option.bind_some, hstate]
          show Allowed (some v) c ⟨0, puts (raucName state)⟩ (some v)
          have hanswer := Allowed.state (v := v) slot h
          rw [hgood] at hanswer
          rw [raucName_eq hstate]
          exact hanswer

/-- A write that meets no failure is verified. -/
theorem fault_of_failed {op : Mutation} {slot : Slot} {env : Env} {d : AbData}
    (h : (mutate op slot env d).2 = .failed) : env.fault ≠ none := by
  intro hfault
  unfold mutate at h
  split at h
  · cases h
  · split at h
    · cases h
    · rename_i current hcurrent
      split at h
      · cases h
      · split at h
        · cases h
        · rename_i hvalid
          split at h
          · cases h
          · cases h
          · rename_i d' hchange
            have hsound := validate_withCrc
              ((written_of_change hchange).sensible ((validate_iff d).mp hvalid).1)
            simp [writeAndVerify, hfault, hsound] at h

/-- A mutation takes the view to the one it asks for, or is refused. -/
theorem step_mutation {d : AbData} {c : Call} {ask : Ask} {op : Mutation} {slot : Slot}
    (h : c.Asks ask) (hop : ask.mutation = some (op, slot)) :
    Allowed (view d) c (step d c).2 (view (step d c).1) := by
  rw [step, backend_mutation h hop]
  cases hview : view d with
  | none =>
      by_cases hsuccess : (mutate op slot c.setting.env d).2 = .success
      · rw [if_pos hsuccess]
        exact .unknown (Nat.zero_le 1) List.mem_cons_self
      · rw [if_neg hsuccess]
        exact unknown_err
  | some v =>
      have hdue := mutate_of_due (s := c.setting) hop hview
      have hfault := @fault_of_failed op slot c.setting.env d
      have hend := mutate_cases op slot c.setting.env d
      generalize mutate op slot c.setting.env d = p at hend hdue hfault
      -- a call that fails with the block as it was was not due
      have hstays : p.2 ≠ .success → Allowed (some v) c err (some v) := fun hfails =>
        refused_of_asks h fun hit => hfails (hdue hit)
      have hruns : ∀ current, c.setting.env.current = some current →
          Permitted (some current) v ask → Permitted c.setting.current v ask := by
        intro current hcurrent hpermitted
        rw [← hcurrent] at hpermitted
        exact hpermitted
      cases hend with
      | refused why =>
          rw [hview]
          exact hstays nofun
      | kept current hcurrent hvalid hchange =>
          obtain ⟨heffect, hpermitted⟩ := effect_of_keep hop hview hchange
          rw [hview]
          exact .changed ask h (hruns current hcurrent hpermitted) heffect
      | written current d' hcurrent hvalid hchange hverified =>
          obtain ⟨v', hview', heffect, hpermitted⟩ := effect_of_write hop hview hchange
          rw [hview']
          exact .changed ask h (hruns current hcurrent hpermitted) heffect
      | failed current d' left hcurrent hvalid hchange hleft =>
          rcases hleft with rfl | rfl | htorn
          · rw [hview]
            exact hstays nofun
          · obtain ⟨v', hview', heffect, hpermitted⟩ := effect_of_write hop hview hchange
            rw [hview']
            exact .unverified ask h (hruns current hcurrent hpermitted) heffect (hfault rfl)
          · exact .torn left htorn

/-- Every call of the backend is a step of the boot loader. -/
theorem step_allowed (d : AbData) (c : Call) :
    Allowed (view d) c (step d c).2 (view (step d c).1) := by
  by_cases hasks : ∃ ask, c.Asks ask
  · obtain ⟨ask, h⟩ := hasks
    cases hop : ask.mutation with
    | none =>
        cases ask with
        | primary => exact step_primary h
        | state slot => exact step_state h
        | setPrimary slot => cases hop
        | setState slot good => cases hop
    | some mutation => exact step_mutation h hop
  · have hnot : ∀ ask : Ask, ¬ c.Asks ask := fun ask h => hasks ⟨ask, h⟩
    rw [step, backend_other hnot]
    cases hview : view d with
    | none => exact unknown_err
    | some v => exact .refused fun ask h => absurd h (hnot ask)

/-- Every run of the backend, from any block, with any arguments and whatever fails, is a
run of the boot loader, with the same answers. -/
theorem backend_follows (start : AbData) (calls : List Call) :
    Follows Allowed (view start) (transcript step start calls) (view (final step start calls)) :=
  follows_transcript step_allowed start calls

/-! ## The slot that was selected -/

/-- The call takes the next boot away from no slot: it does not select or confirm the
other slot, does not give up this one, and tears no write. -/
structure Call.Spares (c : Call) (slot : Slot) : Prop where
  primary : ¬ c.Asks (.setPrimary slot.other)
  bad : ¬ c.Asks (.setState slot false)
  good : ¬ c.Asks (.setState slot.other true)
  whole : ∀ left, c.setting.fault ≠ some (.short left)

/-- The block passes the check, and the next boot is that of the slot. -/
structure Selected (slot : Slot) (d : AbData) : Prop where
  valid : validate d = .ok ()
  primary : primarySlot d = some slot

theorem eq_or_other (slot s : Slot) : s = slot ∨ s = slot.other := by
  cases slot <;> cases s <;> simp [Slot.other]

/-- The slots that the mutations of a call that spares a slot are about. -/
theorem Call.Spares.mutation {c : Call} {slot s : Slot} {ask : Ask} {op : Mutation}
    (h : c.Spares slot) (hasks : c.Asks ask) (hop : ask.mutation = some (op, s)) :
    s = if op = .markBad then slot.other else slot := by
  rcases mutation_of_ask hop with ⟨rfl, rfl⟩ | ⟨rfl, rfl⟩ | ⟨rfl, rfl⟩
  · rcases eq_or_other slot s with rfl | rfl
    · rfl
    · exact absurd hasks h.primary
  · rcases eq_or_other slot s with rfl | rfl
    · exact absurd hasks h.bad
    · rfl
  · rcases eq_or_other slot s with rfl | rfl
    · rfl
    · exact absurd hasks h.good

/-- A block that is written on behalf of the slot leaves it selected. -/
theorem Selected.write {slot current : Slot} {op : Mutation} {d d' : AbData}
    (h : Selected slot d)
    (hchange : change op (if op = .markBad then slot.other else slot) current d = .write d') :
    Selected slot (withCrc d') := by
  have hsensible := ((validate_iff d).mp h.valid).1
  have hwritten := written_of_change hchange
  have hplaced := hwritten.placed hsensible
  refine ⟨validate_withCrc (hwritten.sensible hsensible), ?_⟩
  rw [primarySlot_withCrc]
  have hend := change_cases op (if op = .markBad then slot.other else slot) current d
  rw [hchange] at hend
  cases op with
  | setPrimary => exact hplaced.primary rfl
  | markBad => exact (hplaced.bad rfl).trans (congrArg some (other_other slot))
  | markGood =>
      cases hend with
      | good hcurrent hbootable =>
          rcases primarySlot_markGood hsensible hbootable with hslot | hsame
          · exact hslot
          · exact hsame.trans h.primary

/-- A call leaves the device alone, or performs the mutation that it asks for. -/
theorem step_device (d : AbData) (c : Call) :
    (step d c).1 = d ∨ ∃ ask op slot, c.Asks ask ∧ ask.mutation = some (op, slot) ∧
      (step d c).1 = (mutate op slot c.setting.env d).1 := by
  by_cases hasks : ∃ ask, c.Asks ask
  · obtain ⟨ask, h⟩ := hasks
    cases hop : ask.mutation with
    | none =>
        left
        cases ask with
        | primary => rw [step, backend_primary h]
        | state slot => rw [step, backend_state h]
        | setPrimary slot => cases hop
        | setState slot good => cases hop
    | some mutation =>
        refine .inr ⟨ask, mutation.1, mutation.2, h, hop, ?_⟩
        rw [step, backend_mutation h hop]
  · left
    rw [step, backend_other fun ask h => hasks ⟨ask, h⟩]

/-- A call that spares the selected slot leaves it selected. -/
theorem selected_step {slot : Slot} {d : AbData} {c : Call} (hspares : c.Spares slot)
    (h : Selected slot d) : Selected slot (step d c).1 := by
  rcases step_device d c with hsame | ⟨ask, op, s, hasks, hop, hdevice⟩
  · rw [hsame]
    exact h
  · obtain rfl := hspares.mutation hasks hop
    rw [hdevice]
    have hend := mutate_cases op (if op = .markBad then slot.other else slot) c.setting.env d
    generalize mutate op _ c.setting.env d = p at hend
    cases hend with
    | refused why => exact h
    | kept current hcurrent hvalid hchange => exact h
    | written current d' hcurrent hvalid hchange hverified => exact h.write hchange
    | failed current d' left hcurrent hvalid hchange hleft =>
        rcases hleft with rfl | rfl | htorn
        · exact h
        · exact h.write hchange
        · exact absurd htorn (hspares.whole left)

/-- Calls that spare the selected slot leave it selected. -/
theorem selected_run {slot : Slot} {d : AbData} {calls : List Call}
    (hspares : ∀ c ∈ calls, c.Spares slot) (h : Selected slot d) :
    Selected slot (final step d calls) := by
  induction calls generalizing d with
  | nil => exact h
  | cons c calls ih =>
      apply ih fun c' hc' => hspares c' (List.mem_cons_of_mem _ hc')
      exact selected_step (hspares c List.mem_cons_self) h

/-- `set-primary` that succeeds selects the slot, on whatever block. -/
theorem selected_of_success {slot : Slot} {d : AbData} {c : Call}
    (hasks : c.Asks (.setPrimary slot)) (hok : (step d c).2.status = 0) :
    Selected slot (step d c).1 := by
  rw [step, backend_mutation hasks rfl] at hok ⊢
  simp only at hok ⊢
  have hend := mutate_cases .setPrimary slot c.setting.env d
  generalize mutate .setPrimary slot c.setting.env d = p at hend hok
  cases hend with
  | refused why => cases hok
  | kept current hcurrent hvalid hchange => cases (placed_of_keep hchange).1
  | written current d' hcurrent hvalid hchange hverified =>
      have hsensible := ((validate_iff d).mp hvalid).1
      exact ⟨hverified, ((written_of_change hchange).withCrc.placed hsensible).primary rfl⟩
  | failed current d' left hcurrent hvalid hchange hleft => cases hok

/-! ### The view behind it -/

theorem mem_of_mem_transcript {d : AbData} {calls : List Call} {c : Call} {o : Outcome}
    (h : (c, o) ∈ transcript step d calls) : c ∈ calls := by
  induction calls generalizing d with
  | nil => cases h
  | cons c' calls ih =>
      rcases List.mem_cons.mp h with heq | hmem
      · cases heq
        exact List.mem_cons_self
      · exact List.mem_cons_of_mem _ (ih hmem)

/-- Only a torn write takes the view away. -/
theorem Allowed.isSome {a b : Option View} {c : Call} {o : Outcome} (h : Allowed a c o b)
    (hwhole : ∀ left, c.setting.fault ≠ some (.short left)) (ha : a.isSome = true) :
    b.isSome = true := by
  cases h with
  | primary hasks => rfl
  | state s hasks => rfl
  | changed ask hasks hpermitted heffect => rfl
  | refused hdue => rfl
  | unverified ask hasks hpermitted heffect hfault => rfl
  | torn left hfault => exact absurd hfault (hwhole left)
  | unknown hstatus hprinted => cases ha

/-- A write that succeeds is not torn. -/
theorem view_of_success {d : AbData} {c : Call} (hok : (step d c).2.status = 0)
    (hview : (view d).isSome = true) : (view (step d c).1).isSome = true := by
  have hfirst := step_allowed d c
  generalize (step d c).2 = o at hfirst hok
  generalize view (step d c).1 = after at hfirst ⊢
  generalize view d = before at hfirst hview
  cases hfirst with
  | primary hasks' => rfl
  | state s hasks' => rfl
  | changed ask hasks' hpermitted heffect => rfl
  | refused hdue => rfl
  | unverified ask hasks' hpermitted heffect hfault => rfl
  | torn left hfault => cases hok
  | unknown hstatus hprinted => cases hview

/-- A slot that RAUC has selected stays the one to boot next through every sequence of
calls that spare it, whether they succeed, fail or are refused, and RAUC sees it so if
it had a view of the block before. -/
theorem selected_slot_stays (start : AbData) (slot : Slot) (c : Call) (calls : List Call)
    (hasks : c.Asks (.setPrimary slot)) (hok : (step start c).2.status = 0)
    (hspares : ∀ c' ∈ calls, c'.Spares slot) :
    Selected slot (final step start (c :: calls)) ∧
      ((view start).isSome = true →
        ∃ v, view (final step start (c :: calls)) = some v ∧ v.primary = slot) := by
  have hselected : Selected slot (final step (step start c).1 calls) :=
    selected_run hspares (selected_of_success hasks hok)
  refine ⟨hselected, fun hview => ?_⟩
  have hfollows := follows_transcript step_allowed (step start c).1 calls
  have hkeeps : ∀ (a : Option View) c' o b, Allowed a c' o b →
      (c', o) ∈ transcript step (step start c).1 calls → a.isSome = true → b.isSome = true :=
    fun _ c' _ _ hallowed hmem =>
      hallowed.isSome (hspares c' (mem_of_mem_transcript hmem)).whole
  have hlast := Follows.keeps hkeeps hfollows (view_of_success hok hview)
  obtain ⟨v, hv⟩ := Option.isSome_iff_exists.mp hlast
  refine ⟨v, hv, ?_⟩
  exact Option.some.inj ((view_iff.mp hv).2.2.1.symm.trans hselected.primary)

/-- A call on a board that runs slot B, where nothing fails. -/
def callB (arguments : List Text) : Call := ⟨arguments, boardB, false, false, none⟩

def selectA : Call :=
  callB [⟨ascii "set-primary", by decide⟩, ⟨ascii "a", by decide⟩]

def giveUpB : Call :=
  callB [⟨ascii "set-state", by decide⟩, ⟨ascii "b", by decide⟩, ⟨ascii "bad", by decide⟩]

/-- Slot A has used up its attempts, and slot B is confirmed: A is in no native state. -/
def lastAttemptBlock : AbData :=
  withCrc { singleSlotBlock with slotA := ⟨15, 0, 0, 0⟩, slotB := ⟨14, 0, 1, 0⟩ }

/-- A slot in its last attempt, and one that is alone. -/
theorem selected_slot_stays_sample :
    Selected .a (final step lastAttemptBlock [selectA, giveUpB]) ∧
      ∃ v, view (final step singleSlotBlock [selectA, giveUpB]) = some v ∧ v.primary = .a := by
  have hspares : ∀ c ∈ [giveUpB], c.Spares .a := by
    intro c hc
    obtain rfl := List.mem_singleton.mp hc
    exact ⟨by decide, by decide, by decide, nofun⟩
  have hlast := selected_slot_stays lastAttemptBlock .a selectA [giveUpB] rfl (by decide +kernel)
    hspares
  have hsingle := selected_slot_stays singleSlotBlock .a selectA [giveUpB] rfl
    (by decide +kernel) hspares
  exact ⟨hlast.1, hsingle.2 (by decide +kernel)⟩

end EdgeGuard.RkAb.RaucView
