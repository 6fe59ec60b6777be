import EdgeGuard.Agent.Control
import EdgeGuard.Base.Trace

/-!
# Check requests and the waits that consume them

An acceptance sets `pending`, and only the end of a wait clears it.  Since
`idle_eligible` holds at most from the first critical section of a wait to its
last one, an acceptance falls into a wait, is the only one there, and is
consumed by the end of that wait.

## Main results

* `inv_step`, `cached_step` — one step keeps the invariants.
* `acceptances_consumed_once` — every run pairs the acceptances with the waits
  that ask for a check, and answers a repeated request alike.
-/

namespace EdgeGuard.Agent.CheckRequests

open EdgeGuard.Base.CText EdgeGuard.Base.RingBuffer EdgeGuard.Agent.Model
  EdgeGuard.Agent.Identity EdgeGuard.Agent.Control EdgeGuard.Base

/-! ## Positions in a log -/

/-- Position `i` is a newly decided `ACCEPTED`. -/
def Accepted (log : List Event) (i : Nat) : Prop :=
  ∃ e, log[i]? = some e ∧ e.accepts = true

/-- The main thread does nothing between the two positions. -/
def Uninterrupted (log : List Event) (i j : Nat) : Prop :=
  ∀ k e, i < k → k < j → log[k]? = some e → e.ofMain = false

/-- Position `i` falls into the wait that began at position `b`. -/
structure During (log : List Event) (b i : Nat) : Prop where
  lt : b < i
  began : log[b]? = some .began
  quiet : Uninterrupted log b i

/-- The acceptance at position `i` is consumed by the wait that ends at position `j`. -/
structure Consumes (log : List Event) (i j : Nat) : Prop where
  lt : i < j
  accepted : Accepted log i
  ended : log[j]? = some (.ended true)
  quiet : Uninterrupted log i j

variable {log : List Event} {i j k b : Nat} {x : Event}

theorem accepted_lt (h : Accepted log i) : i < log.length := by
  obtain ⟨e, he, _⟩ := h
  exact (List.getElem?_eq_some_iff.mp he).1

theorem getElem?_lt {e : Event} (h : log[i]? = some e) : i < log.length :=
  (List.getElem?_eq_some_iff.mp h).1

theorem Uninterrupted.mono (h : Uninterrupted log i k) {i' k' : Nat} (hi : i ≤ i')
    (hk : k' ≤ k) : Uninterrupted log i' k' := fun m e hm hm' =>
  h m e (by omega) (by omega)

/-- No event of the main thread lies inside an uninterrupted stretch. -/
theorem Uninterrupted.not_inside (h : Uninterrupted log i k) {e : Event} (hi : i < j) (hk : j < k)
    (he : log[j]? = some e) (hmain : e.ofMain = true) : False := by
  have hquiet := h j e hi hk he
  rw [hmain] at hquiet
  cases hquiet

theorem accepted_ne {e : Event} (h : Accepted log i) (he : log[j]? = some e)
    (hmain : e.ofMain = true) : i ≠ j := by
  rintro rfl
  obtain ⟨e', he', haccepts⟩ := h
  rw [he] at he'
  cases he'
  rw [Event.not_accepts_of_main hmain] at haccepts
  cases haccepts

section Snoc

theorem getElem?_snoc {e : Event} (h : log[i]? = some e) : (log ++ [x])[i]? = some e := by
  rw [List.getElem?_append_left (getElem?_lt h), h]

theorem getElem?_snoc_cases {e : Event} (h : (log ++ [x])[i]? = some e) :
    log[i]? = some e ∨ (i = log.length ∧ e = x) := by
  by_cases hlt : i < log.length
  · rw [List.getElem?_append_left hlt] at h
    exact .inl h
  · have hbound := getElem?_lt h
    rw [List.length_append, List.length_singleton] at hbound
    have hlast : i = log.length := by omega
    subst hlast
    rw [List.getElem?_concat_length] at h
    cases h
    exact .inr ⟨rfl, rfl⟩

theorem accepted_snoc_iff : Accepted (log ++ [x]) i ↔
    Accepted log i ∨ (i = log.length ∧ x.accepts = true) := by
  constructor
  · rintro ⟨e, he, haccepts⟩
    rcases getElem?_snoc_cases he with he | ⟨rfl, rfl⟩
    · exact .inl ⟨e, he, haccepts⟩
    · exact .inr ⟨rfl, haccepts⟩
  · rintro (⟨e, he, haccepts⟩ | ⟨rfl, haccepts⟩)
    · exact ⟨e, getElem?_snoc he, haccepts⟩
    · exact ⟨x, List.getElem?_concat_length, haccepts⟩

theorem accepted_snoc_quiet (hx : x.accepts = false) :
    Accepted (log ++ [x]) i ↔ Accepted log i := by
  rw [accepted_snoc_iff]
  simp [hx]

theorem uninterrupted_snoc (hk : k ≤ log.length) :
    Uninterrupted (log ++ [x]) i k ↔ Uninterrupted log i k := by
  unfold Uninterrupted
  constructor
  · intro h m e hi hm he
    exact h m e hi hm (getElem?_snoc he)
  · intro h m e hi hm he
    rw [List.getElem?_append_left (by omega)] at he
    exact h m e hi hm he

/-- An event of the serving thread interrupts nothing. -/
theorem Uninterrupted.snoc (h : Uninterrupted log i log.length) (hx : x.ofMain = false) :
    Uninterrupted (log ++ [x]) i (log ++ [x]).length := by
  intro m e hi _ he
  rcases getElem?_snoc_cases he with he | ⟨rfl, rfl⟩
  · exact h m e hi (getElem?_lt he) he
  · exact hx

theorem during_snoc (hi : i ≤ log.length) : During (log ++ [x]) b i ↔ During log b i := by
  constructor
  · intro h
    refine ⟨h.lt, ?_, (uninterrupted_snoc hi).mp h.quiet⟩
    have hbegan := h.began
    have hlt := h.lt
    rw [List.getElem?_append_left (by omega)] at hbegan
    exact hbegan
  · intro h
    exact ⟨h.lt, getElem?_snoc h.began, (uninterrupted_snoc hi).mpr h.quiet⟩

theorem Consumes.snoc (h : Consumes log i j) : Consumes (log ++ [x]) i j :=
  ⟨h.lt, accepted_snoc_iff.mpr (.inl h.accepted), getElem?_snoc h.ended,
    (uninterrupted_snoc (Nat.le_of_lt (getElem?_lt h.ended))).mpr h.quiet⟩

end Snoc

/-- The first event of the main thread behind an acceptance is the only one that
can consume it. -/
theorem Consumes.unique_end {j' : Nat} (h : Consumes log i j) (h' : Consumes log i j') :
    j' = j := by
  rcases Nat.lt_trichotomy j j' with hlt | rfl | hlt
  · exact (h'.quiet.not_inside h.lt hlt h.ended rfl).elim
  · rfl
  · exact (h.quiet.not_inside h'.lt hlt h'.ended rfl).elim

/-- Two positions that the same wait reaches fall into the same wait. -/
theorem During.unique {b' : Nat} (h : During log b i) (h' : During log b' i) : b' = b := by
  rcases Nat.lt_trichotomy b b' with hlt | rfl | hlt
  · exact (h.quiet.not_inside hlt h'.lt h'.began rfl).elim
  · rfl
  · exact (h'.quiet.not_inside hlt h.lt h.began rfl).elim

theorem Consumes.during (h : Consumes log i j) (hb : During log b i) : During log b j := by
  refine ⟨Nat.lt_trans hb.lt h.lt, hb.began, ?_⟩
  intro k e hk hkj he
  rcases Nat.lt_trichotomy k i with hlt | rfl | hlt
  · exact hb.quiet k e hk hlt he
  · by_cases hmain : e.ofMain = true
    · exact absurd rfl (accepted_ne h.accepted he hmain)
    · simpa using hmain
  · exact h.quiet k e hlt hkj he

/-! ## The invariant of the waits -/

/-- Every acceptance so far has its wait to itself and is consumed or still open,
and every check that was asked for has its acceptance. -/
structure Paired (log : List Event) : Prop where
  within : ∀ i, Accepted log i →
    ∃ b, During log b i ∧ ∀ i', Accepted log i' → During log b i' → i' = i
  consumed : ∀ i, Accepted log i →
    (∃ j, Consumes log i j) ∨ Uninterrupted log i log.length
  answered : ∀ j, log[j]? = some (.ended true) → ∃ i, Consumes log i j

/-- The wait that is under way began at position `b`. -/
structure Waiting (log : List Event) (control : OtaControl) (b : Nat) : Prop where
  during : During log b log.length
  pending : control.pending = true ↔ ∃ i, b < i ∧ Accepted log i
  eligible : control.idleEligible = true → control.pending = false

structure Inv (log : List Event) (s : System) : Prop where
  paired : Paired log
  outside : s.main.waits = false → s.control.idleEligible = false ∧ s.control.pending = false ∧
    ∀ i, Accepted log i → ∃ j, Consumes log i j
  waiting : s.main.waits = true → ∃ b, Waiting log s.control b
  entering : s.main = .drainFirst ∨ s.main = .enter →
    s.control.idleEligible = false ∧ s.control.pending = false

theorem Paired.consumes_unique {i' : Nat} (h : Paired log) (hi : Consumes log i j)
    (hi' : Consumes log i' j) : i' = i := by
  obtain ⟨b, hb, honly⟩ := h.within i hi.accepted
  obtain ⟨b', hb', _⟩ := h.within i' hi'.accepted
  have hsame : b' = b := (hi.during hb).unique (hi'.during hb')
  subst hsame
  exact honly i' hi'.accepted hb'

/-- What an event of either thread leaves of the pairing, when it is no acceptance. -/
theorem Paired.snoc (h : Paired log) (hx : x.accepts = false)
    (hconsumed : ∀ i, Accepted log i → (∃ j, Consumes (log ++ [x]) i j) ∨
      Uninterrupted (log ++ [x]) i (log ++ [x]).length)
    (hanswered : x = .ended true → ∃ i, Consumes (log ++ [x]) i log.length) :
    Paired (log ++ [x]) := by
  refine ⟨?_, ?_, ?_⟩
  · intro i hi
    have hi := (accepted_snoc_quiet hx).mp hi
    obtain ⟨b, hb, honly⟩ := h.within i hi
    refine ⟨b, (during_snoc (Nat.le_of_lt (accepted_lt hi))).mpr hb, ?_⟩
    intro i' hi' hb'
    have hi' := (accepted_snoc_quiet hx).mp hi'
    exact honly i' hi' ((during_snoc (Nat.le_of_lt (accepted_lt hi'))).mp hb')
  · intro i hi
    exact hconsumed i ((accepted_snoc_quiet hx).mp hi)
  · intro j hj
    rcases getElem?_snoc_cases hj with hj | ⟨rfl, hended⟩
    · obtain ⟨i, hi⟩ := h.answered j hj
      exact ⟨i, hi.snoc⟩
    · exact hanswered hended.symm

/-- A decision that is no new acceptance. -/
theorem Paired.snoc_decision (h : Paired log) (hmain : x.ofMain = false)
    (hx : x.accepts = false) : Paired (log ++ [x]) := by
  refine h.snoc hx ?_ ?_
  · intro i hi
    rcases h.consumed i hi with ⟨j, hj⟩ | hopen
    · exact .inl ⟨j, hj.snoc⟩
    · exact .inr (hopen.snoc hmain)
  · rintro rfl
    cases hmain

/-- An acceptance in a wait that has none yet. -/
theorem Paired.snoc_acceptance (h : Paired log) (hmain : x.ofMain = false)
    (hb : During log b log.length) (hnone : ∀ i, Accepted log i → ¬ b < i) :
    Paired (log ++ [x]) := by
  refine ⟨?_, ?_, ?_⟩
  · intro i hi
    rcases accepted_snoc_iff.mp hi with hold | ⟨rfl, _⟩
    · obtain ⟨b', hb', honly⟩ := h.within i hold
      have hlt := accepted_lt hold
      refine ⟨b', (during_snoc (Nat.le_of_lt hlt)).mpr hb', ?_⟩
      intro i' hi' hwithin
      rcases accepted_snoc_iff.mp hi' with hold' | ⟨rfl, _⟩
      · exact honly i' hold' ((during_snoc (Nat.le_of_lt (accepted_lt hold'))).mp hwithin)
      · have hsame := hb.unique ((during_snoc (Nat.le_refl _)).mp hwithin)
        subst hsame
        exact absurd hb'.lt (hnone i hold)
    · refine ⟨b, (during_snoc (Nat.le_refl _)).mpr hb, ?_⟩
      intro i' hi' hwithin
      rcases accepted_snoc_iff.mp hi' with hold' | ⟨rfl, _⟩
      · exact absurd hwithin.lt (hnone i' hold')
      · rfl
  · intro i hi
    rcases accepted_snoc_iff.mp hi with hold | ⟨rfl, _⟩
    · rcases h.consumed i hold with ⟨j, hj⟩ | hopen
      · exact .inl ⟨j, hj.snoc⟩
      · exact .inr (hopen.snoc hmain)
    · right
      intro k e hk hlt he
      rw [List.length_append, List.length_singleton] at hlt
      omega
  · intro j hj
    rcases getElem?_snoc_cases hj with hj | ⟨rfl, hended⟩
    · obtain ⟨i, hi⟩ := h.answered j hj
      exact ⟨i, hi.snoc⟩
    · rw [← hended] at hmain
      cases hmain

/-! ## What one step keeps -/

section Steps

variable {s : System}

theorem consumed_snoc (h : ∀ i, Accepted log i → ∃ j, Consumes log i j) (hx : x.accepts = false) :
    ∀ i, Accepted (log ++ [x]) i → ∃ j, Consumes (log ++ [x]) i j := by
  intro i hi
  obtain ⟨j, hj⟩ := h i ((accepted_snoc_quiet hx).mp hi)
  exact ⟨j, hj.snoc⟩

/-- The main thread outside a wait, with everything consumed. -/
theorem Paired.snoc_outside (h : Paired log) (hall : ∀ i, Accepted log i → ∃ j, Consumes log i j)
    (hx : x.accepts = false) (hended : x ≠ .ended true) : Paired (log ++ [x]) := by
  refine h.snoc hx ?_ ?_
  · intro i hi
    obtain ⟨j, hj⟩ := hall i hi
    exact .inl ⟨j, hj.snoc⟩
  · intro heq
    exact absurd heq hended

/-- The end of a wait takes the acceptance that is open, if there is one. -/
theorem Waiting.consumed (h : Waiting log s.control b) (hpaired : Paired log) :
    ∀ i, Accepted log i →
      ∃ j, Consumes (log ++ [.ended s.control.pending]) i j := by
  intro i hi
  rcases hpaired.consumed i hi with ⟨j, hj⟩ | hopen
  · exact ⟨j, hj.snoc⟩
  · have hlt := accepted_lt hi
    have hne := accepted_ne hi h.during.began rfl
    have hbehind : b < i := by
      by_contra hfront
      exact hopen.not_inside (by omega) h.during.lt h.during.began rfl
    have hpending : s.control.pending = true := h.pending.mpr ⟨i, hbehind, hi⟩
    rw [hpending]
    exact ⟨log.length, hlt, accepted_snoc_iff.mpr (.inl hi), List.getElem?_concat_length,
      (uninterrupted_snoc (Nat.le_refl _)).mpr hopen⟩

theorem Waiting.answered (h : Waiting log s.control b) (hpending : s.control.pending = true) :
    ∃ i, Consumes (log ++ [.ended s.control.pending]) i log.length := by
  obtain ⟨i, hbehind, hi⟩ := h.pending.mp hpending
  rw [hpending]
  exact ⟨i, accepted_lt hi, accepted_snoc_iff.mpr (.inl hi), List.getElem?_concat_length,
    (uninterrupted_snoc (Nat.le_refl _)).mpr
      (h.during.quiet.mono (Nat.le_of_lt hbehind) (Nat.le_refl _))⟩

/-- The wait goes on behind a decision that is no new acceptance. -/
theorem Waiting.snoc_decision {control : OtaControl} (h : Waiting log control b)
    (hmain : x.ofMain = false) (hx : x.accepts = false) :
    Waiting (log ++ [x]) control b := by
  refine ⟨⟨?_, getElem?_snoc h.during.began, h.during.quiet.snoc hmain⟩, ?_, h.eligible⟩
  · have hlt := h.during.lt
    rw [List.length_append, List.length_singleton]
    omega
  · rw [h.pending]
    constructor
    · rintro ⟨i, hi, haccepted⟩
      exact ⟨i, hi, (accepted_snoc_quiet hx).mpr haccepted⟩
    · rintro ⟨i, hi, haccepted⟩
      exact ⟨i, hi, (accepted_snoc_quiet hx).mp haccepted⟩

/-- The flags of the wait are all that its invariant looks at. -/
theorem Waiting.of_flags {control control' : OtaControl} (h : Waiting log control b)
    (hpending : control'.pending = control.pending)
    (heligible : control'.idleEligible = true → control.idleEligible = true) :
    Waiting log control' b :=
  ⟨h.during, by rw [hpending]; exact h.pending,
    fun he => by rw [hpending]; exact h.eligible (heligible he)⟩

/-- A step that shows nothing, sets no flag and does not enter or end a wait. -/
theorem Inv.silent {s' : System} (h : Inv log s) (hwaits : s'.main.waits = s.main.waits)
    (hentering : s'.main = .drainFirst ∨ s'.main = .enter → s.main = .drainFirst ∨ s.main = .enter)
    (hpending : s'.control.pending = s.control.pending)
    (heligible : s'.control.idleEligible = s.control.idleEligible) : Inv log s' := by
  refine ⟨h.paired, ?_, ?_, ?_⟩
  · rw [hwaits, hpending, heligible]
    exact h.outside
  · rw [hwaits]
    intro hw
    obtain ⟨b, hb⟩ := h.waiting hw
    exact ⟨b, hb.of_flags hpending fun he => by rwa [heligible] at he⟩
  · rw [hpending, heligible]
    exact fun he => h.entering (hentering he)

/-- A wait begins with nothing accepted in it. -/
theorem inv_begin (h : Inv log s) (houtside : s.main = .outside) :
    Inv (log ++ [.began]) { s with main := .drainFirst } := by
  obtain ⟨heligible, hpending, hall⟩ := h.outside (by rw [houtside]; rfl)
  refine ⟨h.paired.snoc_outside hall rfl (by simp), ?_, ?_, ?_⟩
  · intro hw
    cases hw
  · intro _
    refine ⟨log.length, ⟨⟨?_, List.getElem?_concat_length, ?_⟩, ?_, fun _ => hpending⟩⟩
    · rw [List.length_append, List.length_singleton]
      omega
    · intro k e hk hlt _
      rw [List.length_append, List.length_singleton] at hlt
      omega
    · rw [hpending]
      refine ⟨fun hfalse => (by cases hfalse), ?_⟩
      rintro ⟨i, hi, haccepted⟩
      have hlt := accepted_lt ((accepted_snoc_quiet rfl).mp haccepted)
      omega
  · intro _
    exact ⟨heligible, hpending⟩

/-- The main thread stays outside a wait. -/
theorem inv_outside {s' : System} (h : Inv log s) (houtside : s.main.waits = false)
    (houtside' : s'.main.waits = false) (hx : x.accepts = false) (hended : x ≠ .ended true)
    (hpending : s'.control.pending = s.control.pending)
    (heligible : s'.control.idleEligible = false) : Inv (log ++ [x]) s' := by
  obtain ⟨_, hnone, hall⟩ := h.outside houtside
  refine ⟨h.paired.snoc_outside hall hx hended, ?_, ?_, ?_⟩
  · intro _
    exact ⟨heligible, by rw [hpending]; exact hnone, consumed_snoc hall hx⟩
  · intro hw
    rw [houtside'] at hw
    cases hw
  · intro _
    exact ⟨heligible, by rw [hpending]; exact hnone⟩

/-- The first critical section of a wait. -/
theorem inv_enter (h : Inv log s) (here : s.main = .enter) :
    Inv log { s with
      control := entered s.control s.agentStopping
      main := if s.control.pending then .drainLast else .polling } := by
  obtain ⟨_, hpending⟩ := h.entering (.inr here)
  obtain ⟨b, hb⟩ := h.waiting (by rw [here]; rfl)
  rw [hpending]
  refine ⟨h.paired, ?_, ?_, ?_⟩
  · intro hw
    cases hw
  · intro _
    exact ⟨b, hb.during, hb.pending, fun _ => hpending⟩
  · rintro (he | he) <;> cases he

/-- The last critical section of a wait. -/
theorem inv_leave (h : Inv log s) (here : s.main = .leave) :
    Inv (log ++ [.ended s.control.pending])
      { s with control := left s.control, main := .outside } := by
  obtain ⟨b, hb⟩ := h.waiting (by rw [here]; rfl)
  have hall := hb.consumed h.paired
  refine ⟨h.paired.snoc rfl (fun i hi => .inl (hall i hi)) ?_, ?_, ?_, ?_⟩
  · intro hended
    exact hb.answered (Event.ended.inj hended)
  · intro _
    exact ⟨rfl, rfl, fun i hi => hall i ((accepted_snoc_quiet rfl).mp hi)⟩
  · intro hw
    cases hw
  · rintro (he | he) <;> cases he

/-- The critical section of a decision. -/
theorem inv_decide {requestId : Bytes} {now : Int} {server : Server} (h : Inv log s) :
    Inv (log ++ [.decided requestId now (cacheDecision s.control now requestId).2])
      { s with
        control := (cacheDecision s.control now requestId).1
        server := server } := by
  rcases cacheDecision_cases s.control now requestId with
    ⟨entry, _, hreplay⟩ | ⟨_, ⟨heligible, hpending, haccept⟩ | hreject⟩
  · rw [hreplay]
    have hx : (Event.decided requestId now ⟨entry.accepted, false⟩).accepts = false := by
      simp [Event.accepts]
    refine ⟨h.paired.snoc_decision rfl hx, ?_, ?_, h.entering⟩
    · intro hw
      obtain ⟨heligible, hpending, hall⟩ := h.outside hw
      exact ⟨heligible, hpending, consumed_snoc hall hx⟩
    · intro hw
      obtain ⟨b, hb⟩ := h.waiting hw
      exact ⟨b, hb.snoc_decision rfl hx⟩
  · -- an acceptance needs `idle_eligible`, which holds nowhere outside a wait
    rw [haccept]
    have hwaits : s.main.waits = true := by
      by_contra hw
      have hnot := (h.outside (by simpa using hw)).1
      rw [heligible] at hnot
      cases hnot
    obtain ⟨b, hb⟩ := h.waiting hwaits
    have hnone : ∀ i, Accepted log i → ¬ b < i := by
      intro i hi hlt
      have hraised := hb.pending.mpr ⟨i, hlt, hi⟩
      rw [hpending] at hraised
      cases hraised
    refine ⟨h.paired.snoc_acceptance rfl hb.during hnone, ?_, ?_, ?_⟩
    · intro hw
      rw [show s.main.waits = true from hwaits] at hw
      cases hw
    · intro _
      refine ⟨b, ⟨?_, getElem?_snoc hb.during.began, hb.during.quiet.snoc rfl⟩, ?_, ?_⟩
      · have hlt := hb.during.lt
        rw [List.length_append, List.length_singleton]
        omega
      · refine ⟨fun _ => ⟨log.length, hb.during.lt, ?_⟩, fun _ => rfl⟩
        exact accepted_snoc_iff.mpr (.inr ⟨rfl, rfl⟩)
      · intro hfalse
        cases hfalse
    · intro hentering
      have hnot := (h.entering hentering).1
      rw [heligible] at hnot
      cases hnot
  · rw [hreject]
    have hx : (Event.decided requestId now ⟨false, true⟩).accepts = false := rfl
    refine ⟨h.paired.snoc_decision rfl hx, ?_, ?_, h.entering⟩
    · intro hw
      obtain ⟨heligible, hpending, hall⟩ := h.outside hw
      exact ⟨heligible, hpending, consumed_snoc hall hx⟩
    · intro hw
      obtain ⟨b, hb⟩ := h.waiting hw
      exact ⟨b, (hb.snoc_decision rfl hx).of_flags rfl id⟩

theorem written_flags (control : OtaControl) (event : UInt8) (full : Bool) :
    (control.written event full).pending = control.pending ∧
      (control.written event full).idleEligible = control.idleEligible ∧
      (control.written event full).cache = control.cache := by
  unfold OtaControl.written
  split <;> exact ⟨rfl, rfl, rfl⟩

/-- Every critical section, every turn of the pipe and every signal keeps the invariant. -/
theorem inv_step {s' : System} {out : List Event} (h : Inv log s) (step : Step s out s')
    (hpoll : Event.failed ∉ out) : Inv (log ++ out) s' := by
  cases step with
  | refuse outside invalid =>
      exact inv_outside h (by rw [outside]; rfl) (by rw [outside]; rfl) rfl (by simp) rfl
        (h.outside (by rw [outside]; rfl)).1
  | begin outside valid => exact inv_begin h outside
  | readFirst here some =>
      rw [List.append_nil]
      exact h.silent rfl id rfl rfl
  | drainedFirst here none =>
      rw [List.append_nil]
      exact h.silent (by rw [here]; rfl) (fun _ => .inl here) rfl rfl
  | enter here =>
      rw [List.append_nil]
      exact inv_enter h here
  | poll here ready readable works =>
      rw [List.append_nil]
      exact h.silent (by rw [here]; rfl) (by simp) rfl rfl
  | pollFails here => exact absurd (List.mem_singleton.mpr rfl) hpoll
  | readLast here some =>
      rw [List.append_nil]
      exact h.silent rfl id rfl rfl
  | drainedLast here none =>
      rw [List.append_nil]
      exact h.silent (by rw [here]; rfl) (by simp) rfl rfl
  | leave here => exact inv_leave h here
  | close outside =>
      exact inv_outside h (by rw [outside]; rfl) rfl rfl (by simp) rfl rfl
  | arrive serving parsed monotonic =>
      rw [List.append_nil]
      exact h.silent rfl id rfl rfl
  | decide deciding => exact inv_decide h
  | wake full waking =>
      obtain ⟨hpending, heligible, _⟩ := written_flags s.control 0x43 full
      rw [List.append_nil]
      exact h.silent rfl id hpending heligible
  | stop =>
      rw [List.append_nil]
      exact h.silent rfl id rfl rfl
  | signal =>
      rw [List.append_nil]
      exact h.silent rfl id rfl rfl
  | signalWake full =>
      obtain ⟨hpending, heligible, _⟩ := written_flags s.control 0x53 full
      rw [List.append_nil]
      exact h.silent rfl id hpending heligible

end Steps

/-- The run lemma of the waits. -/
theorem inv_run {s : System} (run : Run log s) (hpoll : Event.failed ∉ log) : Inv log s := by
  induction run with
  | opened =>
      refine ⟨⟨?_, ?_, ?_⟩, ?_, ?_, ?_⟩
      · rintro i ⟨e, he, _⟩
        simp at he
      · rintro i ⟨e, he, _⟩
        simp at he
      · intro j hj
        simp at hj
      · intro _
        refine ⟨rfl, rfl, ?_⟩
        rintro i ⟨e, he, _⟩
        simp at he
      · intro hw
        cases hw
      · intro _
        exact ⟨rfl, rfl⟩
  | next run step ih =>
      have hfront := ih fun hmem => hpoll (List.mem_append_left _ hmem)
      exact inv_step hfront step fun hmem => hpoll (List.mem_append_right _ hmem)

/-! ## The cache of decisions -/

/-- The decisions that were cached. -/
def inserted (log : List Event) : List CachedRequest := log.filterMap Event.inserted

/-- The cache holds the last new decisions, and at most one live entry for a request. -/
structure Cached (log : List Event) (s : System) : Prop where
  records : Records s.control.cache (inserted log)
  single : ∀ (p q : Nat) (e e' : CachedRequest), s.control.cache.slots[p]? = some e →
    s.control.cache.slots[q]? = some e' → e.requestId = e'.requestId → e.requestId ≠ [] →
    s.clock ≤ e.expiresUs → s.clock ≤ e'.expiresUs → p = q
  deciding : ∀ requestId now, s.server = .deciding requestId now →
    s.clock = now ∧ otaUuidValid requestId false = true

/-- A decision repeats the cached one. -/
def Repeats (front : List Event) (x : Event) : Prop :=
  ∀ before during requestId decidedAt now accepted decision,
    x = .decided requestId now decision →
    front = before ++ .decided requestId decidedAt ⟨accepted, true⟩ :: during →
    now ≤ decidedAt + controlCacheTtlUs → (inserted during).length < controlCacheSize →
    decision = ⟨accepted, false⟩

section Cache

variable {s : System} {requestId : Bytes} {now : Int}

theorem answers_iff {entry : CachedRequest} : entry.answers now requestId = true ↔
    entry.requestId ≠ [] ∧ now ≤ entry.expiresUs ∧ entry.requestId = requestId := by
  simp [CachedRequest.answers, and_assoc]

theorem found_iff {control : OtaControl} {entry : CachedRequest}
    (h : control.cache.slots.toList.find? (·.answers now requestId) = some entry) :
    (∃ p : Nat, control.cache.slots[p]? = some entry) ∧
      entry.answers now requestId = true := by
  obtain ⟨p, hp⟩ := List.mem_iff_getElem?.mp (List.mem_of_find?_eq_some h)
  rw [Vector.getElem?_toList] at hp
  exact ⟨⟨p, hp⟩, List.find?_some h⟩

theorem not_answers_of_none {control : OtaControl} {entry : CachedRequest} {p : Nat}
    (h : control.cache.slots.toList.find? (·.answers now requestId) = none)
    (hp : control.cache.slots[p]? = some entry) : entry.answers now requestId = false := by
  rw [← Vector.getElem?_toList] at hp
  simpa using List.find?_eq_none.mp h entry (List.mem_of_getElem? hp)

/-- The decision on a request whose entry is still there. -/
theorem repeats_decide (h : Cached log s) (hdeciding : s.server = .deciding requestId now) :
    Repeats log (.decided requestId now (cacheDecision s.control now requestId).2) := by
  rintro before during _ decidedAt _ accepted _ ⟨⟩ rfl hlive hnear
  obtain ⟨hclock, hparsed⟩ := h.deciding _ _ hdeciding
  have hne := ne_nil_of_uuid hparsed
  have hkept : s.control.cache.slots[(inserted before).length % controlCacheSize]? =
      some ⟨requestId, accepted, decidedAt + controlCacheTtlUs⟩ := by
    apply h.records.kept
    · simp [inserted, Event.inserted]
    · simp only [inserted, List.filterMap_append, List.length_append] at hnear ⊢
      simp only [List.filterMap_cons, Event.inserted, List.length_cons]
      omega
  rcases cacheDecision_cases s.control now requestId with ⟨entry, hfound, hreplay⟩ | ⟨hnone, _⟩
  · obtain ⟨⟨p, hp⟩, hanswers⟩ := found_iff hfound
    obtain ⟨_, hlive', hsame⟩ := answers_iff.mp hanswers
    have hslot := h.single _ _ _ _ hkept hp hsame.symm hne (by rw [hclock]; exact hlive)
      (by rw [hclock]; exact hlive')
    subst hslot
    rw [hkept] at hp
    cases hp
    rw [hreplay]
  · have hanswers : CachedRequest.answers now requestId
        ⟨requestId, accepted, decidedAt + controlCacheTtlUs⟩ = true :=
      answers_iff.mpr ⟨hne, hlive, rfl⟩
    rw [not_answers_of_none hnone hkept] at hanswers
    cases hanswers

/-- A step that leaves the cache and the log of decisions alone. -/
theorem Cached.silent {s' : System} {out : List Event} (h : Cached log s)
    (hcache : s'.control.cache = s.control.cache) (hclock : s.clock ≤ s'.clock)
    (hout : inserted out = [])
    (hdeciding : ∀ requestId now, s'.server = .deciding requestId now →
      s'.clock = now ∧ otaUuidValid requestId false = true) : Cached (log ++ out) s' := by
  refine ⟨?_, ?_, hdeciding⟩
  · have hlog : inserted (log ++ out) = inserted log := by
      simpa [inserted] using hout
    rw [hcache, hlog]
    exact h.records
  · rw [hcache]
    intro p q e e' hp hq hsame hne hlive hlive'
    exact h.single p q e e' hp hq hsame hne (by omega) (by omega)

/-- A new decision takes the oldest slot. -/
theorem Cached.push {control : OtaControl} {server : Server} {accepted : Bool}
    (h : Cached log s) (hdeciding : s.server = .deciding requestId now)
    (hnone : s.control.cache.slots.toList.find? (·.answers now requestId) = none)
    (hcache : control.cache = push s.control.cache
      ⟨requestId.take (otaUuidCap - 1), accepted, now + controlCacheTtlUs⟩)
    (hserver : ∀ requestId now, server ≠ .deciding requestId now) :
    Cached (log ++ [.decided requestId now ⟨accepted, true⟩])
      { s with control := control, server := server } := by
  obtain ⟨hclock, hparsed⟩ := h.deciding _ _ hdeciding
  have htake : requestId.take (otaUuidCap - 1) = requestId := by
    apply List.take_of_length_le
    rw [length_of_uuid hparsed]
    decide
  rw [htake] at hcache
  refine ⟨?_, ?_, fun requestId now hnot => absurd hnot (hserver requestId now)⟩
  · have hlog : inserted (log ++ [.decided requestId now ⟨accepted, true⟩]) =
        inserted log ++ [⟨requestId, accepted, now + controlCacheTtlUs⟩] := by
      simp [inserted, Event.inserted]
    show Records control.cache _
    rw [hcache, hlog]
    exact h.records.push _
  · -- an older entry for the request would have answered it
    have hslot : ∀ (p : Nat) (e : CachedRequest), control.cache.slots[p]? = some e →
        p = s.control.cache.next.val ∧ e.requestId = requestId ∨
          (p ≠ s.control.cache.next.val ∧ s.control.cache.slots[p]? = some e ∧
            (s.clock ≤ e.expiresUs → e.requestId ≠ [] → e.requestId ≠ requestId)) := by
      intro p e hp
      rw [hcache] at hp
      by_cases hnext : p = s.control.cache.next.val
      · left
        subst hnext
        rw [RingBuffer.push, Vector.getElem?_set_self] at hp
        cases hp
        exact ⟨rfl, rfl⟩
      · right
        rw [RingBuffer.push, Vector.getElem?_set_ne s.control.cache.next.isLt (Ne.symm hnext)] at hp
        refine ⟨hnext, hp, ?_⟩
        intro hlive hne hsame
        have hnot := not_answers_of_none hnone hp
        rw [answers_iff.mpr ⟨hne, by omega, hsame⟩] at hnot
        cases hnot
    intro p q e e' hp hq hsame hne hlive hlive'
    rcases hslot p e hp with ⟨hpn, hpid⟩ | ⟨hpn, hpold, hpother⟩
    · rcases hslot q e' hq with ⟨hqn, _⟩ | ⟨_, _, hqother⟩
      · rw [hpn, hqn]
      · exact absurd (hsame.symm.trans hpid) (hqother hlive' (hsame ▸ hne))
    · rcases hslot q e' hq with ⟨_, hqid⟩ | ⟨_, hqold, _⟩
      · exact absurd (hsame.trans hqid) (hpother hlive hne)
      · exact h.single p q e e' hpold hqold hsame hne hlive hlive'

/-- A decision leaves in the ring what is answered from then on. -/
theorem cached_decide (h : Cached log s) (hdeciding : s.server = .deciding requestId now) :
    Cached (log ++ [.decided requestId now (cacheDecision s.control now requestId).2])
      { s with
        control := (cacheDecision s.control now requestId).1
        server :=
          if (cacheDecision s.control now requestId).2 = ⟨true, true⟩ then .waking
          else .serving } := by
  have hserver : ∀ decision : Decision, ∀ requestId now,
      (if decision = ⟨true, true⟩ then Server.waking else .serving) ≠ .deciding requestId now := by
    intro decision requestId now
    split <;> simp
  rcases cacheDecision_cases s.control now requestId with
    ⟨entry, _, hreplay⟩ | ⟨hnone, ⟨_, _, haccept⟩ | hreject⟩
  · rw [hreplay]
    exact h.silent rfl (Int.le_refl _) rfl fun requestId now hnot =>
      absurd hnot (hserver _ requestId now)
  · rw [haccept]
    exact h.push hdeciding hnone rfl (hserver _)
  · rw [hreject]
    exact h.push hdeciding hnone rfl (hserver _)

/-- Every step keeps the ring in line with the log. -/
theorem cached_step {s' : System} {out : List Event} (h : Cached log s) (step : Step s out s') :
    Cached (log ++ out) s' := by
  cases step with
  | refuse outside invalid => exact h.silent rfl (Int.le_refl _) rfl h.deciding
  | begin outside valid => exact h.silent rfl (Int.le_refl _) rfl h.deciding
  | readFirst here some => exact h.silent rfl (Int.le_refl _) rfl h.deciding
  | drainedFirst here none => exact h.silent rfl (Int.le_refl _) rfl h.deciding
  | enter here => exact h.silent rfl (Int.le_refl _) rfl h.deciding
  | poll here ready readable works => exact h.silent rfl (Int.le_refl _) rfl h.deciding
  | pollFails here => exact h.silent rfl (Int.le_refl _) rfl h.deciding
  | readLast here some => exact h.silent rfl (Int.le_refl _) rfl h.deciding
  | drainedLast here none => exact h.silent rfl (Int.le_refl _) rfl h.deciding
  | leave here => exact h.silent rfl (Int.le_refl _) rfl h.deciding
  | close outside => exact h.silent rfl (Int.le_refl _) rfl h.deciding
  | arrive serving parsed monotonic =>
      refine h.silent rfl monotonic rfl ?_
      rintro _ _ ⟨⟩
      exact ⟨rfl, parsed⟩
  | decide deciding => exact cached_decide h deciding
  | wake full waking =>
      refine h.silent (written_flags s.control 0x43 full).2.2 (Int.le_refl _) rfl ?_
      intro requestId now hnot
      cases hnot
  | stop => exact h.silent rfl (Int.le_refl _) rfl h.deciding
  | signal => exact h.silent rfl (Int.le_refl _) rfl h.deciding
  | signalWake full =>
      exact h.silent (written_flags s.control 0x53 full).2.2 (Int.le_refl _) rfl h.deciding

theorem repeats_step {s' : System} {out : List Event} (h : Cached log s) (step : Step s out s') :
    out = [] ∨ ∃ x, out = [x] ∧ Repeats log x := by
  cases step with
  | decide deciding => exact .inr ⟨_, rfl, repeats_decide h deciding⟩
  | refuse | begin | pollFails | leave | close =>
      refine .inr ⟨_, rfl, ?_⟩
      rintro _ _ _ _ _ _ _ ⟨⟩
  | readFirst | drainedFirst | enter | poll | readLast | drainedLast | arrive | wake | stop
  | signal | signalWake => exact .inl rfl

/-- The run lemma of the cache. -/
theorem cached_run (run : Run log s) : Cached log s ∧ Trace.Throughout Repeats log := by
  induction run with
  | opened =>
      refine ⟨⟨records_nil rfl, ?_, ?_⟩, Trace.throughout_nil _⟩
      · intro p q e e' hp _ _ hne
        have hentry : e.requestId = [] := by
          have hp' := List.mem_of_getElem? ((Vector.getElem?_toList ..).symm ▸ hp)
          simp [System.opened, otaControlOpen] at hp'
          rw [hp'.2]
        exact absurd hentry hne
      · intro _ _ hnot
        cases hnot
  | next run step ih =>
      refine ⟨cached_step ih.1 step, ?_⟩
      rcases repeats_step ih.1 step with rfl | ⟨x, rfl, hx⟩
      · rw [List.append_nil]
        exact ih.2
      · exact ih.2.snoc hx

end Cache

/-! ## The end of a wait -/

section Ends

variable {s : System}

theorem Run.silent {s' : System} (run : Run log s) (step : Step s [] s') : Run log s' := by
  have hnext := Run.next run step
  rwa [List.append_nil] at hnext

/-- The loop of `drain_wakeup` ends. -/
theorem drains {here there : Main}
    (hread : ∀ s : System, s.main = here → s.control.wake ≠ [] →
      Step s [] { s with control := { s.control with wake := s.control.wake.drop 64 } })
    (hdrained : ∀ s : System, s.main = here → s.control.wake = [] →
      Step s [] { s with main := there })
    (run : Run log s) (hmain : s.main = here) :
    ∃ s', Run log s' ∧ s'.main = there ∧ s'.control.pending = s.control.pending := by
  generalize hlength : s.control.wake.length = n
  induction n using Nat.strong_induction_on generalizing s with
  | _ n ih =>
      by_cases hempty : s.control.wake = []
      · exact ⟨_, Run.silent run (hdrained s hmain hempty), rfl, rfl⟩
      · have hpos : 0 < s.control.wake.length := List.length_pos_iff.mpr hempty
        have hshorter : (s.control.wake.drop 64).length < n := by
          rw [List.length_drop]
          omega
        have hread' := Run.silent run (hread s hmain hempty)
        have hend := ih _ hshorter hread' hmain rfl
        exact hend

/-- A wait that is under way can end, and then asks for a check if `pending` is set. -/
theorem wait_ends (run : Run log s) (hwaits : s.main.waits = true) :
    ∃ s', Run (log ++ [.ended s.control.pending]) s' := by
  have hleave : ∀ s : System, Run log s → s.main = .leave →
      ∃ s', Run (log ++ [.ended s.control.pending]) s' := by
    intro s run here
    exact ⟨_, Run.next run (.leave here)⟩
  have hlast : ∀ s : System, Run log s → s.main = .drainLast →
      ∃ s', Run (log ++ [.ended s.control.pending]) s' := by
    intro s run here
    obtain ⟨s', run', hmain, hpending⟩ :=
      drains (fun _ h => .readLast h) (fun _ h => .drainedLast h) run here
    rw [← hpending]
    exact hleave s' run' hmain
  have hpolling : ∀ s : System, Run log s → s.main = .polling →
      ∃ s', Run (log ++ [.ended s.control.pending]) s' := by
    intro s run here
    have hpolled := Run.silent run (.poll here .timeout (by simp) (by simp))
    exact hlast { s with main := .drainLast } hpolled rfl
  have henter : ∀ s : System, Run log s → s.main = .enter →
      ∃ s', Run (log ++ [.ended s.control.pending]) s' := by
    intro s run here
    have hentered := Run.silent run (.enter here)
    by_cases hpending : s.control.pending = true
    · rw [if_pos hpending] at hentered
      exact hlast { s with control := entered _ _, main := .drainLast } hentered rfl
    · rw [if_neg hpending] at hentered
      exact hpolling { s with control := entered _ _, main := .polling } hentered rfl
  cases hmain : s.main with
  | outside | closing =>
      rw [hmain] at hwaits
      cases hwaits
  | drainFirst =>
      obtain ⟨s', run', hmain', hpending⟩ :=
        drains (fun _ h => .readFirst h) (fun _ h => .drainedFirst h) run hmain
      rw [← hpending]
      exact henter s' run' hmain'
  | enter => exact henter s run hmain
  | polling => exact hpolling s run hmain
  | drainLast => exact hlast s run hmain
  | leave => exact hleave s run hmain

end Ends

/-- Whatever the threads and the signal handler do, a newly decided `ACCEPTED` falls into a
wait that has no other, and the end of that wait consumes it and nothing else does; a check
is asked for on behalf of exactly one of them; a wait under way can end; and a request that
comes again while its entry is live and among the last sixteen is answered as before. -/
theorem acceptances_consumed_once {s : System} (run : Run log s) (hpoll : Event.failed ∉ log) :
    (∀ i, Accepted log i →
      (∃ b, During log b i ∧ ∀ i', Accepted log i' → During log b i' → i' = i) ∧
      ((∃! j, Consumes log i j) ∨
        (s.main.waits = true ∧ s.control.pending = true ∧ Uninterrupted log i log.length))) ∧
    (∀ j, log[j]? = some (.ended true) → ∃! i, Consumes log i j) ∧
    (s.main.waits = true → ∃ s', Run (log ++ [.ended s.control.pending]) s') ∧
    Trace.Throughout Repeats log := by
  have h := inv_run run hpoll
  refine ⟨?_, ?_, wait_ends run, (cached_run run).2⟩
  · intro i hi
    refine ⟨h.paired.within i hi, ?_⟩
    by_cases hwaits : s.main.waits = true
    · rcases h.paired.consumed i hi with ⟨j, hj⟩ | hopen
      · exact .inl ⟨j, hj, fun _ hj' => hj.unique_end hj'⟩
      · obtain ⟨b, hb⟩ := h.waiting hwaits
        have hne := accepted_ne hi hb.during.began rfl
        have hbehind : b < i := by
          by_contra hfront
          exact hopen.not_inside (by omega) hb.during.lt hb.during.began rfl
        exact .inr ⟨hwaits, hb.pending.mpr ⟨i, hbehind, hi⟩, hopen⟩
    · obtain ⟨j, hj⟩ := (h.outside (by simpa using hwaits)).2.2 i hi
      exact .inl ⟨j, hj, fun _ hj' => hj.unique_end hj'⟩
  · intro j hj
    obtain ⟨i, hi⟩ := h.paired.answered j hj
    exact ⟨i, hi, fun _ hi' => h.paired.consumes_unique hi hi'⟩

def sampleRequest : Bytes := ascii "b0cb1b28-94cb-4c03-8e4c-f52fc1294199"

/-- A request wakes the wait, and comes again after it. -/
def sampleLog : List Event :=
  [.began, .decided sampleRequest 5 ⟨true, true⟩, .ended true,
    .decided sampleRequest 7 ⟨true, false⟩]

/-- One request, accepted, repeated and consumed by the check behind its wait. -/
theorem acceptances_consumed_once_sample :
    ∃ s, Run sampleLog s ∧ Event.failed ∉ sampleLog ∧ ∃! i, Consumes sampleLog i 2 := by
  have hparsed : otaUuidValid sampleRequest false = true := by decide +kernel
  have hbegan := Run.next (@Run.opened 0) (@Step.begin _ 30 rfl (by decide))
  have hentered := Run.silent (Run.silent hbegan (.drainedFirst rfl rfl)) (.enter rfl)
  have hasked := Run.next (Run.silent hentered (@Step.arrive _ _ 5 rfl hparsed (by decide)))
    (.decide rfl)
  have hwoken := Run.silent (Run.silent hasked (.wake false rfl))
    (.poll rfl .readable (by decide) (by decide))
  have hdrained := Run.silent (Run.silent hwoken (.readLast rfl (by decide))) (.drainedLast rfl rfl)
  have hended := Run.next hdrained (.leave rfl)
  have hrepeated := Run.next (Run.silent hended (@Step.arrive _ _ 7 rfl hparsed (by decide)))
    (.decide rfl)
  refine ⟨_, hrepeated, by decide, ?_⟩
  exact (acceptances_consumed_once hrepeated (by decide)).2.1 2 rfl

end EdgeGuard.Agent.CheckRequests
