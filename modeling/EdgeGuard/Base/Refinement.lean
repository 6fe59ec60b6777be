import Mathlib.Data.List.Basic

/-!
# Refinement by an abstraction function

A deterministic machine answers its inputs.  It refines a specification, a relation
between abstract states, an input and an answer, when every step is an allowed one
between the views of its states; then so is every run.

## Main results

* `follows_transcript` — from steps to runs.
* `Follows.keeps` — an invariant of the specification.
-/

namespace EdgeGuard.Base.Refinement

variable {σ α ι ο : Type*}

section

variable (step : σ → ι → σ × ο)

/-- The inputs of a run with their answers. -/
def transcript (s : σ) : List ι → List (ι × ο)
  | [] => []
  | i :: rest => (i, (step s i).2) :: transcript (step s i).1 rest

/-- The state behind a run. -/
def final (s : σ) (inputs : List ι) : σ := inputs.foldl (fun s i => (step s i).1) s

end

variable (Allowed : α → ι → ο → α → Prop)

/-- Every entry of the transcript is allowed. -/
inductive Follows : α → List (ι × ο) → α → Prop
  | nil (a : α) : Follows a [] a
  | cons {a b c : α} {i : ι} {o : ο} {rest : List (ι × ο)} (h : Allowed a i o b)
      (hrest : Follows b rest c) : Follows a ((i, o) :: rest) c

variable {Allowed} {step : σ → ι → σ × ο} {view : σ → α}

theorem follows_transcript
    (hstep : ∀ s i, Allowed (view s) i (step s i).2 (view (step s i).1)) (s : σ)
    (inputs : List ι) :
    Follows Allowed (view s) (transcript step s inputs) (view (final step s inputs)) := by
  induction inputs generalizing s with
  | nil => exact .nil _
  | cons i rest ih => exact .cons (hstep s i) (ih _)

theorem Follows.keeps {Inv : α → Prop} {log : List (ι × ο)}
    (hkeeps : ∀ a i o b, Allowed a i o b → (i, o) ∈ log → Inv a → Inv b) {a b : α}
    (h : Follows Allowed a log b) (ha : Inv a) : Inv b := by
  induction h with
  | nil a => exact ha
  | cons hallowed _ ih =>
      refine ih (fun a i o b hab hmem => hkeeps a i o b hab (List.mem_cons_of_mem _ hmem)) ?_
      exact hkeeps _ _ _ _ hallowed List.mem_cons_self ha

end EdgeGuard.Base.Refinement
