import Mathlib.Data.List.Basic

/-!
# Polling loops

A loop that asks, looks at the answer and pauses, until an answer is accepted,
a question fails, the deadline is reached or the pause is cut short.  What the
environment does in one turn of the loop is a round; a loop that has used up
its rounds is still waiting.

## Main results

* `Loop.run_eq_some_iff` — the courses of a loop that ends: rounds that leave
  it going, and one that ends it.
-/

namespace EdgeGuard.Base.Polling

variable {ρ ε ω β : Type*}

/-- What a loop makes of its rounds. -/
structure Loop (ρ ε ω β : Type*) where
  /-- The deadline is reached at the head of the loop. -/
  due : ρ → Bool
  ask : ρ → Except ε ω
  accept : ω → Option β
  /-- The loop goes on behind the pause. -/
  pause : ρ → Bool

/-- The end of a loop: the value it accepted, if any, and the answers to all that it
asked. -/
structure Polled (ε ω β : Type*) where
  value : Option β
  asked : List (Except ε ω)

def Loop.run (loop : Loop ρ ε ω β) : List ρ → Option (Polled ε ω β)
  | [] => none
  | r :: rest =>
      if loop.due r then some ⟨none, []⟩
      else
        match loop.ask r with
        | .error e => some ⟨none, [.error e]⟩
        | .ok answer =>
            match loop.accept answer with
            | some value => some ⟨some value, [.ok answer]⟩
            | none =>
                if loop.pause r then
                  (loop.run rest).map fun p => { p with asked := .ok answer :: p.asked }
                else some ⟨none, [.ok answer]⟩

/-! ## Courses -/

/-- The round leaves the loop going. -/
def Loop.Idle (loop : Loop ρ ε ω β) (r : ρ) : Prop :=
  loop.due r = false ∧ (∃ answer, loop.ask r = .ok answer ∧ loop.accept answer = none) ∧
    loop.pause r = true

/-- The round ends the loop. -/
inductive Loop.Ends (loop : Loop ρ ε ω β) (r : ρ) : Option β → Prop
  | due (h : loop.due r = true) : Ends loop r none
  | failed (h : loop.due r = false) (e : ε) (hask : loop.ask r = .error e) : Ends loop r none
  | stopped (h : loop.due r = false) (answer : ω) (hask : loop.ask r = .ok answer)
      (haccept : loop.accept answer = none) (hpause : loop.pause r = false) : Ends loop r none
  | accepted (h : loop.due r = false) (answer : ω) (hask : loop.ask r = .ok answer) (value : β)
      (haccept : loop.accept answer = some value) : Ends loop r (some value)

/-- The questions of a round. -/
def Loop.asks (loop : Loop ρ ε ω β) (r : ρ) : List (Except ε ω) :=
  if loop.due r then [] else [loop.ask r]

theorem Loop.run_idle {loop : Loop ρ ε ω β} {r : ρ} (h : loop.Idle r) (rest : List ρ) :
    loop.run (r :: rest) =
      (loop.run rest).map fun p => { p with asked := loop.ask r :: p.asked } := by
  obtain ⟨hdue, ⟨answer, hask, haccept⟩, hpause⟩ := h
  simp [Loop.run, hdue, hask, haccept, hpause]

theorem Loop.run_ends {loop : Loop ρ ε ω β} {r : ρ} {value : Option β} (h : loop.Ends r value)
    (rest : List ρ) : loop.run (r :: rest) = some ⟨value, loop.asks r⟩ := by
  cases h with
  | due h => simp [Loop.run, Loop.asks, h]
  | failed h e hask => simp [Loop.run, Loop.asks, h, hask]
  | stopped h answer hask haccept hpause =>
      simp [Loop.run, Loop.asks, h, hask, haccept, hpause]
  | accepted h answer hask value haccept => simp [Loop.run, Loop.asks, h, hask, haccept]

/-- A round leaves the loop going or ends it. -/
theorem Loop.idle_or_ends (loop : Loop ρ ε ω β) (r : ρ) :
    loop.Idle r ∨ ∃ value, loop.Ends r value := by
  cases hdue : loop.due r with
  | true => exact .inr ⟨none, .due hdue⟩
  | false =>
      cases hask : loop.ask r with
      | error e => exact .inr ⟨none, .failed hdue e hask⟩
      | ok answer =>
          cases haccept : loop.accept answer with
          | some value => exact .inr ⟨some value, .accepted hdue answer hask value haccept⟩
          | none =>
              cases hpause : loop.pause r with
              | true => exact .inl ⟨hdue, ⟨answer, hask, haccept⟩, hpause⟩
              | false => exact .inr ⟨none, .stopped hdue answer hask haccept hpause⟩

/-- A loop returns in the first round that is not idle. -/
theorem Loop.run_eq_some_iff {loop : Loop ρ ε ω β} {rounds : List ρ} {p : Polled ε ω β} :
    loop.run rounds = some p ↔
      ∃ front r back, rounds = front ++ r :: back ∧ (∀ q ∈ front, loop.Idle q) ∧
        loop.Ends r p.value ∧ p.asked = front.map loop.ask ++ loop.asks r := by
  constructor
  · intro h
    induction rounds generalizing p with
    | nil => cases h
    | cons r rest ih =>
        rcases loop.idle_or_ends r with hidle | ⟨value, hends⟩
        · rw [Loop.run_idle hidle, Option.map_eq_some_iff] at h
          obtain ⟨p, hrest, rfl⟩ := h
          obtain ⟨front, r', back, rfl, hfront, hends, hasked⟩ := ih hrest
          refine ⟨r :: front, r', back, rfl, ?_, hends, by simp [hasked]⟩
          intro q hq
          rcases List.mem_cons.mp hq with rfl | hq
          · exact hidle
          · exact hfront q hq
        · rw [Loop.run_ends hends] at h
          cases h
          exact ⟨[], r, rest, rfl, by simp, hends, rfl⟩
  · rintro ⟨front, r, back, rfl, hfront, hends, hasked⟩
    induction front generalizing p with
    | nil =>
        rw [List.nil_append, Loop.run_ends hends]
        obtain ⟨value, asked⟩ := p
        rw [show asked = _ from hasked]
        rfl
    | cons q front ih =>
        have hrest := @ih ⟨p.value, front.map loop.ask ++ loop.asks r⟩
          (fun q hq => hfront q (List.mem_cons_of_mem _ hq)) hends rfl
        rw [List.cons_append, Loop.run_idle (hfront q List.mem_cons_self), hrest]
        obtain ⟨value, asked⟩ := p
        rw [show asked = _ from hasked]
        rfl

/-- What was asked in the course of a loop was asked in one of its rounds. -/
theorem Loop.mem_asked_iff {loop : Loop ρ ε ω β} {front : List ρ} {r : ρ}
    (hfront : ∀ q ∈ front, loop.Idle q) {answer : Except ε ω} :
    answer ∈ front.map loop.ask ++ loop.asks r ↔
      ∃ q ∈ front ++ [r], loop.due q = false ∧ loop.ask q = answer := by
  rw [List.mem_append, List.mem_map]
  constructor
  · rintro (⟨q, hq, hask⟩ | hlast)
    · exact ⟨q, List.mem_append_left _ hq, (hfront q hq).1, hask⟩
    · unfold Loop.asks at hlast
      split at hlast
      · cases hlast
      · rename_i hdue
        exact ⟨r, by simp, by simpa using hdue, (List.mem_singleton.mp hlast).symm⟩
  · rintro ⟨q, hq, hdue, hask⟩
    rcases List.mem_append.mp hq with hq | hq
    · exact .inl ⟨q, hq, hask⟩
    · right
      cases List.mem_singleton.mp hq
      simp [Loop.asks, hdue, hask]

/-- A loop asks nothing when its first round is the last, and due. -/
theorem Loop.asked_eq_nil_iff {loop : Loop ρ ε ω β} {front : List ρ} {r : ρ} :
    front.map loop.ask ++ loop.asks r = [] ↔ front = [] ∧ loop.due r = true := by
  rw [List.append_eq_nil_iff, List.map_eq_nil_iff]
  refine and_congr_right fun _ => ?_
  cases hdue : loop.due r with
  | true => simp [Loop.asks, hdue]
  | false => simp [Loop.asks, hdue]

/-- A loop that ends without a value has accepted none of the answers. -/
theorem Loop.rejected {loop : Loop ρ ε ω β} {front : List ρ} {r q : ρ}
    (hfront : ∀ q ∈ front, loop.Idle q) (hends : loop.Ends r none) (hq : q ∈ front ++ [r])
    (hdue : loop.due q = false) {answer : ω} (hask : loop.ask q = .ok answer) :
    loop.accept answer = none := by
  rcases List.mem_append.mp hq with hq | hq
  · obtain ⟨-, ⟨other, hother, haccept⟩, -⟩ := hfront q hq
    rw [hask] at hother
    cases hother
    exact haccept
  · cases List.mem_singleton.mp hq
    cases hends with
    | due h =>
        rw [h] at hdue
        cases hdue
    | failed h e herror =>
        rw [hask] at herror
        cases herror
    | stopped h other hother haccept hpause =>
        rw [hask] at hother
        cases hother
        exact haccept

end EdgeGuard.Base.Polling
