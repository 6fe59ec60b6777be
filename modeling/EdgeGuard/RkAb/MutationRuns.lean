import EdgeGuard.Base.Trace
import EdgeGuard.RkAb.Metadata

/-!
# Sequences of mutations

What `set-primary`, `mark-bad` and `mark-good` leave of a block, one after
another and whatever fails in between: a block that a request writes passes the
check, has a slot to boot and its primary slot where the request put it, and
differs from the one before in the fields of the request only.

A slot stays in one of the native states unless a short write tears the block.

## Main results

* `written_of_change` — what a change does to a block.
* `mutations_keep_the_board_bootable` — sequences of requests.
-/

namespace EdgeGuard.RkAb.MutationRuns

open EdgeGuard.Base
open EdgeGuard.RkAb.Metadata

/-! ## Slots -/

/-- Both slots are in one of the three states. -/
def Native (d : AbData) : Prop := ∀ slot, nativeState (d.slot slot) ≠ none

/-- The only bootable slot is the primary one. -/
theorem primarySlot_of_only {d : AbData} {slot : Slot} (h : isBootable (d.slot slot) = true)
    (hother : isBootable (d.slot slot.other) = false) : primarySlot d = some slot := by
  cases slot with
  | a =>
      have ha : isBootable d.slotA = true := h
      have hb : isBootable d.slotB = false := hother
      simp [primarySlot, ha, hb]
  | b =>
      have hb : isBootable d.slotB = true := h
      have ha : isBootable d.slotA = false := hother
      simp [primarySlot, ha, hb]

/-- A slot of higher priority wins whatever the other one is. -/
theorem primarySlot_of_lt {d : AbData} {slot : Slot} (h : isBootable (d.slot slot) = true)
    (hlt : (d.slot slot.other).priority < (d.slot slot).priority) :
    primarySlot d = some slot := by
  cases hother : isBootable (d.slot slot.other) with
  | false => exact primarySlot_of_only h hother
  | true =>
      cases slot with
      | a =>
          have ha : isBootable d.slotA = true := h
          have hb : isBootable d.slotB = true := hother
          have hnot : ¬ d.slotA.priority < d.slotB.priority := UInt8.lt_asymm hlt
          simp [primarySlot, ha, hb, hnot]
      | b =>
          have hb : isBootable d.slotB = true := h
          have ha : isBootable d.slotA = true := hother
          have hgt : d.slotA.priority < d.slotB.priority := hlt
          simp [primarySlot, ha, hb, hgt]

/-- A slot under the highest priority stays what it is one step below. -/
theorem nativeState_lowered {s : SlotData} (h : s.priority = abMaxPriority) :
    nativeState { s with priority := abMaxPriority - 1 } = nativeState s := by
  have hlow : (0 : UInt8) < abMaxPriority - 1 := by decide
  have hhigh : (0 : UInt8) < abMaxPriority := by decide
  have hlow' : abMaxPriority - 1 ≠ 0 := by decide
  have hhigh' : abMaxPriority ≠ 0 := by decide
  simp [nativeState, isBootable, h, hlow, hhigh, hlow', hhigh']

/-! ## Changes -/

/-- What a request leaves of the block before it: the reserved bytes, the flags but for
bit 0 of a slot marked good, `last_boot` but for a slot marked good, and the other slot
but for a priority that gives way to `set-primary`. -/
structure Framed (op : Mutation) (slot : Slot) (before after : AbData) : Prop where
  reserved1 : after.reserved1 = before.reserved1
  reserved2 : after.reserved2 = before.reserved2
  flags : ∀ s, (after.slot s).flags =
    if op = .markGood ∧ s = slot then (before.slot s).flags &&& ~~~1 else (before.slot s).flags
  lastBoot : op ≠ .markGood → after.lastBoot = before.lastBoot
  peer : after.slot slot.other = before.slot slot.other ∨
    (op = .setPrimary ∧ (before.slot slot.other).priority = abMaxPriority ∧
      after.slot slot.other =
        { before.slot slot.other with priority := abMaxPriority - 1 })

/-- What a successful request makes of the slots. -/
structure Placed (op : Mutation) (slot : Slot) (d : AbData) : Prop where
  bootable : ∃ s, isBootable (d.slot s) = true
  primary : op = .setPrimary → primarySlot d = some slot
  bad : op = .markBad → primarySlot d = some slot.other

/-- A change that is written. -/
structure Written (op : Mutation) (slot : Slot) (before after : AbData) : Prop where
  sensible : Sensible before → Sensible after
  placed : Sensible before → Placed op slot after
  framed : Framed op slot before after
  native : Native before → Native after

/-- The new block is the old one but for its slots and `last_boot`. -/
structure SlotsOnly (before after : AbData) : Prop where
  magic : after.magic = before.magic
  version : after.versionMajor = before.versionMajor ∧ after.versionMinor = before.versionMinor
  reserved1 : after.reserved1 = before.reserved1
  reserved2 : after.reserved2 = before.reserved2

theorem slotsOnly_withSlot (d : AbData) (slot : Slot) (s : SlotData) :
    SlotsOnly d (d.withSlot slot s) ∧ (d.withSlot slot s).lastBoot = d.lastBoot := by
  cases slot with
  | a => exact ⟨⟨rfl, ⟨rfl, rfl⟩, rfl, rfl⟩, rfl⟩
  | b => exact ⟨⟨rfl, ⟨rfl, rfl⟩, rfl, rfl⟩, rfl⟩

theorem SlotsOnly.sensible {before after : AbData} (h : SlotsOnly before after)
    (hbefore : Sensible before) (hslots : ∀ slot, slotInvalid (after.slot slot) = false)
    (hlast : after.lastBoot ≤ 1) : Sensible after :=
  ⟨h.magic.trans hbefore.magic,
    ⟨h.version.1.trans hbefore.version.1, h.version.2.trans hbefore.version.2⟩, hslots, hlast⟩

/-! The three changes, by what they make of the slot and of the other one. -/

theorem slot_setPrimary (slot : Slot) (d : AbData) :
    (setPrimary slot d).slot slot =
      { d.slot slot with
        priority := abMaxPriority, triesRemaining := abMaxTries, successfulBoot := 0 } := by
  unfold setPrimary
  simp only [slot_withSlot_other]
  split <;> simp

theorem peer_setPrimary (slot : Slot) (d : AbData) :
    (setPrimary slot d).slot slot.other =
      if (d.slot slot.other).priority = abMaxPriority then
        { d.slot slot.other with priority := abMaxPriority - 1 }
      else d.slot slot.other := by
  unfold setPrimary
  simp only [slot_withSlot_other]
  split <;> simp

theorem slotsOnly_setPrimary (slot : Slot) (d : AbData) :
    SlotsOnly d (setPrimary slot d) ∧ (setPrimary slot d).lastBoot = d.lastBoot := by
  unfold setPrimary
  simp only [slot_withSlot_other]
  cases slot with
  | a => split <;> exact ⟨⟨rfl, ⟨rfl, rfl⟩, rfl, rfl⟩, rfl⟩
  | b => split <;> exact ⟨⟨rfl, ⟨rfl, rfl⟩, rfl, rfl⟩, rfl⟩

/-- A priority one step below the highest one is within the bounds. -/
theorem slotInvalid_lowered {s : SlotData} (h : slotInvalid s = false) :
    slotInvalid { s with priority := abMaxPriority - 1 } = false := by
  have hlow : ¬ abMaxPriority < abMaxPriority - 1 := by decide
  simp only [slotInvalid, Bool.or_eq_false_iff, decide_eq_false_iff_not] at h ⊢
  exact ⟨⟨hlow, h.1.2⟩, h.2⟩

theorem priority_le_of_valid {s : SlotData} (h : slotInvalid s = false) :
    s.priority ≤ abMaxPriority := by
  simp only [slotInvalid, Bool.or_eq_false_iff, decide_eq_false_iff_not] at h
  exact UInt8.not_lt.mp h.1.1

/-- Choosing a slot is a change that may be written. -/
theorem written_setPrimary (slot : Slot) (d : AbData) :
    Written .setPrimary slot d (setPrimary slot d) := by
  have hslot := slot_setPrimary slot d
  have hpeer := peer_setPrimary slot d
  obtain ⟨hrest, hlast⟩ := slotsOnly_setPrimary slot d
  have hbootable : isBootable ((setPrimary slot d).slot slot) = true := by
    rw [hslot]
    rfl
  refine ⟨fun h => ?_, fun h => ?_, ?_, fun h => ?_⟩
  · apply hrest.sensible h
    · rw [forall_slot slot, hslot, hpeer]
      refine ⟨rfl, ?_⟩
      split
      · exact slotInvalid_lowered (h.slots slot.other)
      · exact h.slots slot.other
    · rw [hlast]
      exact h.lastBoot
  · refine ⟨⟨slot, hbootable⟩, fun _ => primarySlot_of_lt hbootable ?_, nofun⟩
    rw [hslot, hpeer]
    split
    · exact (by decide : abMaxPriority - 1 < abMaxPriority)
    · rename_i hbelow
      exact UInt8.lt_of_le_of_ne (priority_le_of_valid (h.slots slot.other)) hbelow
  · refine ⟨hrest.reserved1, hrest.reserved2, ?_, fun _ => hlast, ?_⟩
    · rw [forall_slot slot, hslot, hpeer]
      refine ⟨rfl, ?_⟩
      split <;> rfl
    · rw [hpeer]
      split
      · rename_i hpriority
        exact .inr ⟨rfl, hpriority, rfl⟩
      · exact .inl rfl
  · show ∀ s, nativeState _ ≠ none
    rw [forall_slot slot, hslot, hpeer]
    refine ⟨nofun, ?_⟩
    split
    · rename_i hpriority
      rw [nativeState_lowered hpriority]
      exact h slot.other
    · exact h slot.other

/-- Giving a slot up while the other one boots is a change that may be written. -/
theorem written_markBad {slot : Slot} {d : AbData}
    (hpeer : isBootable (d.slot slot.other) = true) :
    Written .markBad slot d (markBad slot d) := by
  obtain ⟨hrest, hlast⟩ := slotsOnly_withSlot d slot
    { d.slot slot with priority := 0, triesRemaining := 0, successfulBoot := 0 }
  have hother : isBootable ((markBad slot d).slot slot.other) = true := by
    simpa [markBad] using hpeer
  refine ⟨fun h => ?_, fun _ => ?_, ?_, fun h => ?_⟩
  · apply hrest.sensible h
    · rw [forall_slot slot, slot_withSlot, slot_withSlot_other]
      exact ⟨rfl, h.slots slot.other⟩
    · rw [hlast]
      exact h.lastBoot
  · refine ⟨⟨slot.other, hother⟩, nofun, fun _ => primarySlot_of_only hother ?_⟩
    rw [other_other, markBad, slot_withSlot]
    rfl
  · refine ⟨hrest.reserved1, hrest.reserved2, ?_, fun _ => hlast, .inl ?_⟩
    · rw [forall_slot slot, markBad, slot_withSlot, slot_withSlot_other]
      exact ⟨rfl, rfl⟩
    · rw [markBad, slot_withSlot_other]
  · show ∀ s, nativeState _ ≠ none
    rw [forall_slot slot, markBad, slot_withSlot, slot_withSlot_other]
    exact ⟨nofun, h slot.other⟩

/-- The slot of a block whose `last_boot` is set. -/
@[simp] theorem slot_withLastBoot (d : AbData) (lastBoot : UInt8) (s : Slot) :
    { d with lastBoot := lastBoot : AbData }.slot s = d.slot s := by
  cases s <;> rfl

/-- Confirming a slot is a change that may be written. -/
theorem written_markGood (slot : Slot) (d : AbData) :
    Written .markGood slot d (markGood slot d) := by
  have hslot : (markGood slot d).slot slot =
      ⟨abMaxPriority, 0, 1, (d.slot slot).flags &&& ~~~1⟩ := by
    simp [markGood]
  have hpeer : (markGood slot d).slot slot.other = d.slot slot.other := by simp [markGood]
  have hrest : SlotsOnly d (markGood slot d) := by
    obtain ⟨h, -⟩ := slotsOnly_withSlot d slot { d.slot slot with
      priority := abMaxPriority
      triesRemaining := 0
      successfulBoot := 1
      flags := (d.slot slot).flags &&& ~~~1 }
    exact ⟨h.magic, h.version, h.reserved1, h.reserved2⟩
  have hlast : (markGood slot d).lastBoot ≤ 1 := by
    show slot.index ≤ 1
    cases slot <;> decide
  refine ⟨fun h => ?_, fun _ => ?_, ?_, fun h => ?_⟩
  · apply hrest.sensible h
    · rw [forall_slot slot, hslot, hpeer]
      exact ⟨rfl, h.slots slot.other⟩
    · exact hlast
  · refine ⟨⟨slot, ?_⟩, nofun, nofun⟩
    rw [hslot]
    rfl
  · refine ⟨hrest.reserved1, hrest.reserved2, ?_, fun h => absurd rfl h, .inl hpeer⟩
    rw [forall_slot slot, hslot, hpeer]
    simp [other_ne]
  · show ∀ s, nativeState _ ≠ none
    rw [forall_slot slot, hslot, hpeer]
    exact ⟨nofun, h slot.other⟩

theorem written_of_change {op : Mutation} {slot current : Slot} {d d' : AbData}
    (h : change op slot current d = .write d') : Written op slot d d' := by
  have hend := change_cases op slot current d
  rw [h] at hend
  cases hend with
  | primary => exact written_setPrimary slot d
  | bad hpeer => exact written_markBad hpeer
  | good hcurrent hbootable => exact written_markGood slot d

/-- A block that is kept is one that is marked bad already. -/
theorem placed_of_keep {op : Mutation} {slot current : Slot} {d : AbData}
    (h : change op slot current d = .keep) : op = .markBad ∧ Placed op slot d := by
  have hend := change_cases op slot current d
  rw [h] at hend
  cases hend with
  | badBefore hpeer hbad =>
      refine ⟨rfl, ⟨slot.other, hpeer⟩, nofun, fun _ => primarySlot_of_only hpeer ?_⟩
      rw [other_other]
      simp [isBootable, hbad.1]

/-! ## Requests -/

@[simp] theorem slot_withCrc (d : AbData) (s : Slot) : (withCrc d).slot s = d.slot s := by
  cases s <;> rfl

/-- The checksum is no part of what a change is about. -/
theorem Written.withCrc {op : Mutation} {slot : Slot} {before d : AbData}
    (h : Written op slot before d) : Written op slot before (withCrc d) := by
  refine ⟨fun hbefore => ?_, fun hbefore => ?_, ?_, fun hbefore => ?_⟩
  · obtain ⟨hmagic, hversion, hslots, hlast⟩ := h.sensible hbefore
    refine ⟨hmagic, hversion, fun s => ?_, hlast⟩
    rw [slot_withCrc]
    exact hslots s
  · obtain ⟨⟨s, hs⟩, hprimary, hbad⟩ := h.placed hbefore
    refine ⟨⟨s, ?_⟩, hprimary, hbad⟩
    rw [slot_withCrc]
    exact hs
  · obtain ⟨hreserved1, hreserved2, hflags, hlast, hpeer⟩ := h.framed
    refine ⟨hreserved1, hreserved2, fun s => ?_, hlast, ?_⟩
    · rw [slot_withCrc]
      exact hflags s
    · rw [slot_withCrc]
      exact hpeer
  · intro s
    rw [slot_withCrc]
    exact h.native hbefore s

/-- A request, and what it meets. -/
structure Request where
  op : Mutation
  slot : Slot
  env : Env

/-- The device behind a request. -/
def step (d : AbData) (r : Request) : AbData := (mutate r.op r.slot r.env d).1

def result (d : AbData) (r : Request) : Result := (mutate r.op r.slot r.env d).2

/-- The write of the request, if it comes to one, is not torn. -/
def Request.Whole (r : Request) : Prop := ∀ left, r.env.fault ≠ some (.short left)

/-- What is promised of one request. -/
structure Served (before : AbData) (r : Request) : Prop where
  valid : result before r = .success → validate (step before r) = .ok ()
  placed : result before r = .success → Placed r.op r.slot (step before r)
  framed : result before r = .success → Framed r.op r.slot before (step before r)
  refused : ∀ why, result before r = .refused why → step before r = before

theorem framed_refl {op : Mutation} (hop : op ≠ .markGood) (slot : Slot) (d : AbData) :
    Framed op slot d d :=
  ⟨rfl, rfl, fun s => by simp [hop], fun _ => rfl, .inl rfl⟩

/-- What is promised of a request is kept whatever fails. -/
theorem served (before : AbData) (r : Request) : Served before r := by
  have hend := mutate_cases r.op r.slot r.env before
  have hstep : step before r = (mutate r.op r.slot r.env before).1 := rfl
  have hresult : result before r = (mutate r.op r.slot r.env before).2 := rfl
  generalize mutate r.op r.slot r.env before = p at hend hstep hresult
  cases hend with
  | refused why =>
      refine ⟨fun h => ?_, fun h => ?_, fun h => ?_, fun _ _ => hstep⟩
      · cases hresult.symm.trans h
      · cases hresult.symm.trans h
      · cases hresult.symm.trans h
  | kept current hcurrent hvalid hchange =>
      obtain ⟨hop, hplaced⟩ := placed_of_keep hchange
      have hsame : step before r = before := hstep
      refine ⟨fun _ => ?_, fun _ => ?_, fun _ => ?_, fun _ _ => hsame⟩
      · rw [hsame]
        exact hvalid
      · rw [hsame]
        exact hplaced
      · rw [hsame]
        exact framed_refl (by simp [hop]) r.slot before
  | written current d hcurrent hvalid hchange hverified =>
      have hwritten := (written_of_change hchange).withCrc
      have hsensible := ((validate_iff before).mp hvalid).1
      refine ⟨fun _ => ?_, fun _ => ?_, fun _ => ?_, fun why h => ?_⟩
      · rw [hstep]
        exact hverified
      · rw [hstep]
        exact hwritten.placed hsensible
      · rw [hstep]
        exact hwritten.framed
      · cases hresult.symm.trans h
  | failed current d left hcurrent hvalid hchange hleft =>
      refine ⟨fun h => ?_, fun h => ?_, fun h => ?_, fun why h => ?_⟩
      · cases hresult.symm.trans h
      · cases hresult.symm.trans h
      · cases hresult.symm.trans h
      · cases hresult.symm.trans h

/-- A request whose write is not torn leaves the block alone or a change of it. -/
theorem step_cases (before : AbData) {r : Request} (hwhole : r.Whole) :
    step before r = before ∨
      ∃ d, Written r.op r.slot before d ∧ validate before = .ok () ∧
        step before r = withCrc d := by
  have hend := mutate_cases r.op r.slot r.env before
  have hstep : step before r = (mutate r.op r.slot r.env before).1 := rfl
  generalize mutate r.op r.slot r.env before = p at hend hstep
  cases hend with
  | refused why => exact .inl hstep
  | kept current hcurrent hvalid hchange => exact .inl hstep
  | written current d hcurrent hvalid hchange hverified =>
      exact .inr ⟨d, written_of_change hchange, hvalid, hstep⟩
  | failed current d left hcurrent hvalid hchange hleft =>
      rcases hleft with rfl | rfl | htorn
      · exact .inl hstep
      · exact .inr ⟨d, written_of_change hchange, hvalid, hstep⟩
      · exact absurd htorn (hwhole left)

theorem step_native {before : AbData} {r : Request} (hwhole : r.Whole) (h : Native before) :
    Native (step before r) := by
  rcases step_cases before hwhole with hsame | ⟨d, hwritten, -, hstep⟩
  · rw [hsame]
    exact h
  · rw [hstep]
    exact hwritten.withCrc.native h

theorem step_valid {before : AbData} {r : Request} (hwhole : r.Whole)
    (h : validate before = .ok ()) : validate (step before r) = .ok () := by
  rcases step_cases before hwhole with hsame | ⟨d, hwritten, hvalid, hstep⟩
  · rw [hsame]
    exact h
  · rw [hstep]
    exact validate_withCrc (hwritten.sensible ((validate_iff before).mp hvalid).1)

/-- A property that every whole request keeps holds behind a sequence of them. -/
theorem run_keeps {P : AbData → Prop}
    (hstep : ∀ d (r : Request), r.Whole → P d → P (step d r)) {start : AbData}
    {requests : List Request} (hwhole : ∀ r ∈ requests, r.Whole) (h : P start) :
    P (Trace.run step start requests) := by
  apply Trace.Keeps.last
  apply Trace.keeps_of_splits h
  intro front r back hsplit hfront
  exact hstep _ r (hwhole r (by rw [hsplit]; simp)) hfront

/-- In every sequence of requests on either slot, with any current slot and any failure:
a request that succeeds leaves a valid block with a slot to boot, its primary slot where
the request put it and everything else as it was; one that is refused writes nothing;
and as long as no write is torn, a valid block stays valid and slots in the native
states stay in them. -/
theorem mutations_keep_the_board_bootable (start : AbData) (front : List Request)
    (r : Request) :
    Served (Trace.run step start front) r ∧
      ((∀ q ∈ front ++ [r], q.Whole) →
        (validate start = .ok () → validate (Trace.run step start (front ++ [r])) = .ok ()) ∧
        (Native start → Native (Trace.run step start (front ++ [r])))) := by
  refine ⟨served _ r, fun hwhole => ⟨fun hvalid => ?_, fun hnative => ?_⟩⟩
  · exact run_keeps (P := fun d => validate d = .ok ()) (fun _ _ => step_valid) hwhole hvalid
  · exact run_keeps (P := Native) (fun _ _ => step_native) hwhole hnative

/-- A board that runs slot A, with nothing to boot in slot B. -/
def singleSlotBlock : AbData :=
  withCrc
    { magic := abMagic
      versionMajor := abMajor
      versionMinor := abMinor
      reserved1 := #v[0, 0]
      slotA := ⟨15, 0, 1, 0⟩
      slotB := ⟨0, 0, 0, 1⟩
      lastBoot := 0
      reserved2 := #v[0, 0, 0, 0, 0, 0, 0, 0, 0, 0, 0]
      crcBe := #v[0, 0, 0, 0] }

/-- A request that meets no failure. -/
def smooth (op : Mutation) (slot current : Slot) : Request :=
  ⟨op, slot, ⟨false, some current, false, none⟩⟩

/-- An update of slot B that is confirmed after its boot. -/
theorem mutations_keep_the_board_bootable_update :
    let updated := Trace.run step singleSlotBlock [smooth .setPrimary .b .a]
    result updated (smooth .markGood .b .b) = .success ∧
      Served updated (smooth .markGood .b .b) ∧
      Native (Trace.run step singleSlotBlock
        ([smooth .setPrimary .b .a] ++ [smooth .markGood .b .b])) := by
  intro updated
  obtain ⟨hserved, hrun⟩ := mutations_keep_the_board_bootable singleSlotBlock
    [smooth .setPrimary .b .a] (smooth .markGood .b .b)
  have hwhole : ∀ q ∈ [smooth .setPrimary .b .a] ++ [smooth .markGood .b .b], q.Whole := by
    intro q hq left hleft
    simp only [List.cons_append, List.nil_append, List.mem_cons, List.not_mem_nil, or_false] at hq
    rcases hq with rfl | rfl
    · cases hleft
    · cases hleft
  have hnative : Native singleSlotBlock := by
    intro slot
    cases slot <;> decide +kernel
  exact ⟨by decide +kernel, hserved, (hrun hwhole).2 hnative⟩

end EdgeGuard.RkAb.MutationRuns
