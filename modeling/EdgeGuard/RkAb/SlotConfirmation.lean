import EdgeGuard.RkAb.MutationRuns

/-!
# Confirming the running slot

`mark-good` raises the running slot to the highest priority and does not look at
its peer, and `primary_slot` prefers A when the priorities are equal.  So a running
slot A that is confirmed takes the next boot from a slot B that was selected
before, while a running slot B leaves it to a slot A that was.

## Main results

* `settled_of_success` — behind a request that succeeded, a slot has the highest
  priority or is not bootable.
* `confirmation_keeps_primary_iff` — when a confirmation leaves the choice alone.
-/

namespace EdgeGuard.RkAb.SlotConfirmation

open EdgeGuard.Base
open EdgeGuard.RkAb.Metadata
open EdgeGuard.RkAb.MutationRuns

/-! ## The choice behind a confirmation -/

theorem primarySlot_of_a {d : AbData} (h : isBootable d.slotA = true) :
    primarySlot d =
      if isBootable d.slotB = true ∧ d.slotA.priority < d.slotB.priority then some .b
      else some .a := by
  cases hb : isBootable d.slotB with
  | false => simp [primarySlot, h, hb]
  | true => simp [primarySlot, h, hb]

theorem primarySlot_of_b {d : AbData} (h : isBootable d.slotB = true) :
    primarySlot d =
      if isBootable d.slotA = true ∧ d.slotB.priority ≤ d.slotA.priority then some .a
      else some .b := by
  cases ha : isBootable d.slotA with
  | false => simp [primarySlot, h, ha]
  | true =>
      by_cases hlt : d.slotA.priority < d.slotB.priority
      · simp [primarySlot, h, ha, hlt, UInt8.not_le.mpr hlt]
      · simp [primarySlot, h, ha, hlt, UInt8.not_lt.mp hlt]

/-- The peer is selected, and a running slot of the highest priority is preferred to it. -/
def Overtakes (d : AbData) : Slot → Prop
  | .a => isBootable d.slotB = true ∧ d.slotA.priority < d.slotB.priority
  | .b => isBootable d.slotA = true ∧ d.slotB.priority ≤ d.slotA.priority ∧
      d.slotA.priority < abMaxPriority

instance (d : AbData) (slot : Slot) : Decidable (Overtakes d slot) := by
  cases slot <;> exact inferInstanceAs (Decidable (_ ∧ _))

/-- Confirming A makes A the primary slot. -/
theorem primarySlot_markGood_a {d : AbData} (hvalid : Sensible d) :
    primarySlot (markGood .a d) = some .a := by
  have hpeer : (markGood .a d).slotB = d.slotB := rfl
  have hhigh : (markGood .a d).slotA.priority = abMaxPriority := rfl
  have hnot : ¬ abMaxPriority < d.slotB.priority :=
    UInt8.not_lt.mpr (priority_le_of_valid (hvalid.slots .b))
  rw [primarySlot_of_a (by rfl), hpeer, hhigh, if_neg]
  intro h
  exact hnot h.2

/-- Confirming B makes B the primary slot unless A has the highest priority as well. -/
theorem primarySlot_markGood_b (d : AbData) :
    primarySlot (markGood .b d) =
      if isBootable d.slotA = true ∧ abMaxPriority ≤ d.slotA.priority then some .a
      else some .b := by
  have hpeer : (markGood .b d).slotA = d.slotA := rfl
  have hhigh : (markGood .b d).slotB.priority = abMaxPriority := rfl
  rw [primarySlot_of_b (by rfl), hpeer, hhigh]

/-- A confirmation keeps the primary slot unless the confirmed one overtakes it. -/
theorem primarySlot_markGood_iff {d : AbData} {slot : Slot} (hvalid : Sensible d)
    (h : isBootable (d.slot slot) = true) :
    primarySlot (markGood slot d) = primarySlot d ↔ ¬ Overtakes d slot := by
  cases slot with
  | a =>
      have ha : isBootable d.slotA = true := h
      rw [primarySlot_markGood_a hvalid, primarySlot_of_a ha]
      show _ ↔ ¬ (_ ∧ _)
      split
      · rename_i hover
        simp [hover]
      · rename_i hover
        simp [hover]
  | b =>
      have hb : isBootable d.slotB = true := h
      have hle : d.slotB.priority ≤ abMaxPriority := priority_le_of_valid (hvalid.slots .b)
      rw [primarySlot_markGood_b, primarySlot_of_b hb]
      show _ ↔ ¬ (_ ∧ _ ∧ _)
      by_cases ha : isBootable d.slotA = true
      · by_cases hhigh : abMaxPriority ≤ d.slotA.priority
        · simp [ha, hhigh, UInt8.le_trans hle hhigh, UInt8.not_lt.mpr hhigh]
        · by_cases hover : d.slotB.priority ≤ d.slotA.priority
          · simp [ha, hhigh, hover, UInt8.not_le.mp hhigh]
          · simp [ha, hhigh, hover]
      · simp [ha]

/-! ## Behind a request -/

/-- A slot has the highest priority or is not bootable. -/
def Settled (d : AbData) : Prop :=
  ∃ s, (d.slot s).priority = abMaxPriority ∨ isBootable (d.slot s) = false

theorem settled_withCrc {d : AbData} (h : Settled d) : Settled (withCrc d) := by
  obtain ⟨s, hs⟩ := h
  refine ⟨s, ?_⟩
  rw [slot_withCrc]
  exact hs

/-- A block that is written is settled. -/
theorem settled_of_write {op : Mutation} {slot current : Slot} {d d' : AbData}
    (h : change op slot current d = .write d') : Settled d' := by
  have hend := change_cases op slot current d
  rw [h] at hend
  cases hend with
  | primary =>
      refine ⟨slot, .inl ?_⟩
      rw [slot_setPrimary]
  | bad hpeer =>
      refine ⟨slot, .inr ?_⟩
      rw [markBad, slot_withSlot]
      rfl
  | good hcurrent hbootable =>
      refine ⟨slot, .inl ?_⟩
      simp [markGood]

theorem settled_of_keep {op : Mutation} {slot current : Slot} {d : AbData}
    (h : change op slot current d = .keep) : Settled d := by
  have hend := change_cases op slot current d
  rw [h] at hend
  cases hend with
  | badBefore hpeer hbad =>
      refine ⟨slot, .inr ?_⟩
      simp [isBootable, hbad.1]

/-- The block behind a request that succeeds is settled. -/
theorem settled_of_success {d : AbData} {r : Request} (h : result d r = .success) :
    Settled (step d r) := by
  have hend := mutate_cases r.op r.slot r.env d
  have hstep : step d r = (mutate r.op r.slot r.env d).1 := rfl
  have hresult : result d r = (mutate r.op r.slot r.env d).2 := rfl
  generalize mutate r.op r.slot r.env d = p at hend hstep hresult
  rw [hstep]
  cases hend with
  | refused why => cases hresult.symm.trans h
  | kept current hcurrent hvalid hchange => exact settled_of_keep hchange
  | written current d' hcurrent hvalid hchange hverified =>
      exact settled_withCrc (settled_of_write hchange)
  | failed current d' left hcurrent hvalid hchange hleft => cases hresult.symm.trans h

/-- A confirmation that succeeds is one of a running slot that is bootable. -/
theorem markGood_of_success {d : AbData} {r : Request} (hop : r.op = .markGood)
    (h : result d r = .success) :
    r.env.current = some r.slot ∧ Sensible d ∧ isBootable (d.slot r.slot) = true ∧
      step d r = withCrc (markGood r.slot d) := by
  have hend := mutate_cases r.op r.slot r.env d
  have hstep : step d r = (mutate r.op r.slot r.env d).1 := rfl
  have hresult : result d r = (mutate r.op r.slot r.env d).2 := rfl
  generalize mutate r.op r.slot r.env d = p at hend hstep hresult
  rw [hstep]
  cases hend with
  | refused why => cases hresult.symm.trans h
  | kept current hcurrent hvalid hchange =>
      have hbad := (placed_of_keep hchange).1
      rw [hop] at hbad
      cases hbad
  | written current d' hcurrent hvalid hchange hverified =>
      have hgood := change_cases r.op r.slot current d
      rw [hchange, hop] at hgood
      cases hgood with
      | good hslot hbootable =>
          refine ⟨?_, ((validate_iff d).mp hvalid).1, hbootable, rfl⟩
          rw [hcurrent, hslot]
  | failed current d' left hcurrent hvalid hchange hleft => cases hresult.symm.trans h

@[simp] theorem primarySlot_withCrc (d : AbData) : primarySlot (withCrc d) = primarySlot d := rfl

/-- A slot B that runs overtakes no slot A where a request has succeeded before. -/
theorem not_overtakes_b {d : AbData} (hb : isBootable d.slotB = true) (h : Settled d) :
    ¬ Overtakes d .b := by
  rintro ⟨ha, hle, hlt⟩
  obtain ⟨s, hs⟩ := h
  cases s with
  | a =>
      rcases hs with hhigh | hdead
      · exact absurd hhigh (UInt8.ne_of_lt hlt)
      · exact absurd ha (Bool.eq_false_iff.mp hdead)
  | b =>
      rcases hs with hhigh | hdead
      · have hhigh' : d.slotB.priority = abMaxPriority := hhigh
        rw [hhigh'] at hle
        exact absurd hlt (UInt8.not_lt.mpr hle)
      · exact absurd hb (Bool.eq_false_iff.mp hdead)

/-! ## Runs -/

/-- Every request succeeds. -/
def Successful (start : AbData) (requests : List Request) : Prop :=
  Trace.Throughout (fun front r => result (Trace.run step start front) r = .success) requests

theorem successful_nil (start : AbData) : Successful start [] := Trace.throughout_nil _

theorem Successful.snoc {start : AbData} {requests : List Request} {r : Request}
    (h : Successful start requests)
    (hr : result (Trace.run step start requests) r = .success) :
    Successful start (requests ++ [r]) := Trace.Throughout.snoc h hr

/-- The block behind a sequence of requests that succeed is settled. -/
theorem settled_of_successful {start : AbData} {requests : List Request}
    (h : Successful start requests) (hsome : requests ≠ []) :
    Settled (Trace.run step start requests) := by
  rcases List.eq_nil_or_concat requests with rfl | ⟨front, r, rfl⟩
  · exact absurd rfl hsome
  · have hlast := h front r [] (by simp)
    rw [List.concat_eq_append, Trace.run_append]
    exact settled_of_success hlast

/-- From any block, behind any sequence of requests that succeed: a confirmation of the
running slot that succeeds leaves the primary slot alone if and only if it does not
overtake the peer.  Behind at least one request a running slot B never does; and a peer
that an earlier `set-primary` selected, and that is still selected, stays so if and only
if the running slot is B. -/
theorem confirmation_keeps_primary_iff (start : AbData) (requests : List Request) (r : Request)
    (hsuccess : Successful start (requests ++ [r])) (hop : r.op = .markGood) :
    let d := Trace.run step start requests
    (primarySlot (step d r) = primarySlot d ↔ ¬ Overtakes d r.slot) ∧
      (requests ≠ [] → r.slot = .b → primarySlot (step d r) = primarySlot d) ∧
      (∀ q ∈ requests, q.op = .setPrimary → q.slot = r.slot.other →
        primarySlot d = some r.slot.other →
          (primarySlot (step d r) = some r.slot.other ↔ r.slot = .b)) := by
  intro d
  have hlast : result d r = .success := hsuccess requests r [] rfl
  obtain ⟨-, hvalid, hbootable, hstep⟩ := markGood_of_success hop hlast
  have hiff : primarySlot (step d r) = primarySlot d ↔ ¬ Overtakes d r.slot := by
    rw [hstep, primarySlot_withCrc]
    exact primarySlot_markGood_iff hvalid hbootable
  have hkept : requests ≠ [] → r.slot = .b → primarySlot (step d r) = primarySlot d := by
    intro hsome hb
    rw [hiff, hb]
    rw [hb] at hbootable
    exact not_overtakes_b hbootable
      (settled_of_successful (Trace.Throughout.front hsuccess) hsome)
  refine ⟨hiff, hkept, fun q hq _ _ hselected => ?_⟩
  constructor
  · intro hstays
    cases hslot : r.slot with
    | a =>
        -- a confirmed slot A is the primary one, whatever was selected
        rw [hstep, primarySlot_withCrc, hslot, primarySlot_markGood_a hvalid] at hstays
        exact absurd hstays (by decide)
    | b => rfl
  · intro hb
    rw [hkept (List.ne_nil_of_mem hq) hb]
    exact hselected

/-- On a board that runs slot A, an update of slot B that is pending is cancelled by
confirming A. -/
theorem confirmation_cancels_pending_update :
    ¬ ∀ (start : AbData) (requests : List Request) (r : Request),
      validate start = .ok () → Successful start (requests ++ [r]) → r.op = .markGood →
        r.env.current = some r.slot →
          primarySlot (step (Trace.run step start requests) r) =
            primarySlot (Trace.run step start requests) := by
  intro hclaim
  have hsuccess : Successful singleSlotBlock
      ([smooth .setPrimary .b .a] ++ [smooth .markGood .a .a]) := by
    apply Successful.snoc
    · exact (successful_nil _).snoc (by decide +kernel)
    · decide +kernel
  have hkept := hclaim singleSlotBlock [smooth .setPrimary .b .a] (smooth .markGood .a .a)
    (by decide +kernel) hsuccess rfl rfl
  have hchanged : primarySlot (step (Trace.run step singleSlotBlock [smooth .setPrimary .b .a])
      (smooth .markGood .a .a)) ≠
        primarySlot (Trace.run step singleSlotBlock [smooth .setPrimary .b .a]) := by
    decide +kernel
  exact hchanged hkept

/-- The exchanged roles: slot B runs, and an update of slot A is pending. -/
theorem confirmation_keeps_primary_iff_pending :
    let updated := [smooth .setPrimary .b .a, smooth .setPrimary .a .b]
    primarySlot (step (Trace.run step singleSlotBlock updated) (smooth .markGood .b .b)) =
      some .a := by
  intro updated
  have hsuccess : Successful singleSlotBlock (updated ++ [smooth .markGood .b .b]) := by
    apply Successful.snoc
    · exact ((successful_nil _).snoc (by decide +kernel)).snoc (by decide +kernel)
    · decide +kernel
  obtain ⟨-, -, hpending⟩ :=
    confirmation_keeps_primary_iff singleSlotBlock updated (smooth .markGood .b .b) hsuccess rfl
  have hselected : primarySlot (Trace.run step singleSlotBlock updated) = some .a := by
    decide +kernel
  exact (hpending (smooth .setPrimary .a .b) (by simp [updated]) rfl rfl hselected).mpr rfl

end EdgeGuard.RkAb.SlotConfirmation
