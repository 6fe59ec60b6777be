import Mathlib.Data.List.Basic
import Mathlib.Order.Lattice

/-!
# Two runs seen by one observer

A deterministic system takes inputs that carry a time.  An observer makes some of
them, the same in two runs; the others are those of third parties and may differ.
When no input of a third party changes what the observer sees of the state, the
observer gets the same answers.

What is seen depends on the time: `Agree c s s'` says that from the time `c` on the
states look the same.

## Main results

* `Unwinding.outputs_eq` — from the conditions on one step to two runs.
-/

namespace EdgeGuard.Base.Noninterference

variable {σ ι ο κ : Type*} (step : σ → ι → σ × ο) (shared : ι → Option κ)

/-- The inputs of a run, each with the state that it finds. -/
def states (s : σ) : List ι → List (σ × ι)
  | [] => []
  | i :: rest => (s, i) :: states (step s i).1 rest

/-- The answers to the inputs of the observer. -/
def outputs (s : σ) : List ι → List ο
  | [] => []
  | i :: rest =>
      if (shared i).isSome then (step s i).2 :: outputs (step s i).1 rest
      else outputs (step s i).1 rest

/-- The conditions on one step.  `shared` is what two runs have in common of an input
of the observer, its time included; `Fine` is what is assumed of the inputs of a run. -/
structure Unwinding (time : ι → Int) (clock : κ → Int) (Agree : Int → σ → σ → Prop)
    (Inv : σ → Prop) (Fine : σ → ι → Prop) : Prop where
  stamp : ∀ i k, shared i = some k → time i = clock k
  keeps : ∀ s i, Inv s → Inv (step s i).1
  later : ∀ c u s s', c ≤ u → Agree c s s' → Agree u s s'
  symm : ∀ c s s', Agree c s s' → Agree c s' s
  other : ∀ c s s' i, Inv s → Fine s i → shared i = none → time i ≤ c → Agree c s s' →
    Agree c (step s i).1 s'
  own : ∀ s s' i j k, Inv s → Inv s' → Fine s i → Fine s' j → shared i = some k →
    shared j = some k → Agree (clock k) s s' →
    Agree (clock k) (step s i).1 (step s' j).1 ∧ (step s i).2 = (step s' j).2

variable {step shared} {time : ι → Int} {clock : κ → Int} {Agree : Int → σ → σ → Prop}
  {Inv : σ → Prop} {Fine : σ → ι → Prop}

theorem outputs_other (s : σ) {i : ι} (h : shared i = none) (rest : List ι) :
    outputs step shared s (i :: rest) = outputs step shared (step s i).1 rest := by
  rw [outputs, if_neg (by simp [h])]

theorem outputs_own (s : σ) {i : ι} {k : κ} (h : shared i = some k) (rest : List ι) :
    outputs step shared s (i :: rest) = (step s i).2 :: outputs step shared (step s i).1 rest := by
  rw [outputs, if_pos (by simp [h])]

/-- Inputs that are not shared give no output. -/
theorem outputs_nil (s : σ) {is : List ι} (h : is.filterMap shared = []) :
    outputs step shared s is = [] := by
  induction is generalizing s with
  | nil => rfl
  | cons i is ih =>
      cases hi : shared i with
      | none =>
          rw [List.filterMap_cons_none hi] at h
          rw [outputs_other s hi]
          exact ih _ h
      | some k =>
          rw [List.filterMap_cons_some hi] at h
          cases h

private theorem le_shared (hstamp : ∀ i k, shared i = some k → time i = clock k) {i : ι}
    {is : List ι} (hsorted : (i :: is).Pairwise fun a b => time a ≤ time b) {k : κ}
    (hk : k ∈ is.filterMap shared) : time i ≤ clock k := by
  obtain ⟨j, hj, hjk⟩ := List.mem_filterMap.mp hk
  rw [← hstamp j k hjk]
  exact (List.pairwise_cons.mp hsorted).1 j hj

/-- Two runs with the same shared inputs give the same outputs. -/
theorem Unwinding.outputs_eq (h : Unwinding step shared time clock Agree Inv Fine)
    (first second : List ι) (c : Int) (s s' : σ) (hs : Inv s) (hs' : Inv s')
    (hagree : Agree c s s') (hclock : ∀ k ∈ first.filterMap shared, c ≤ clock k)
    (hfirst : first.Pairwise fun a b => time a ≤ time b)
    (hsecond : second.Pairwise fun a b => time a ≤ time b)
    (hsame : first.filterMap shared = second.filterMap shared)
    (hfine : ∀ x ∈ states step s first, Fine x.1 x.2)
    (hfine' : ∀ x ∈ states step s' second, Fine x.1 x.2) :
    outputs step shared s first = outputs step shared s' second := by
  induction first generalizing second c s s' with
  | nil => exact (outputs_nil s' hsame.symm).symm
  | cons i first ih =>
      have hrest := (List.pairwise_cons.mp hfirst).2
      have hthis : Fine s i := hfine (s, i) (by simp [states])
      have hothers : ∀ x ∈ states step (step s i).1 first, Fine x.1 x.2 :=
        fun x hx => hfine x (by simp [states, hx])
      cases hi : shared i with
      | none =>
          rw [List.filterMap_cons_none hi] at hclock hsame
          rw [outputs_other s hi]
          have hmax := h.later c (max c (time i)) s s' (le_max_left _ _) hagree
          refine ih second (max c (time i)) _ s' (h.keeps s i hs) hs'
            (h.other _ s s' i hs hthis hi (le_max_right _ _) hmax) ?_ hrest hsecond hsame hothers
            hfine'
          intro k hk
          exact max_le (hclock k hk) (le_shared h.stamp hfirst hk)
      | some k =>
          -- the other run first takes the inputs of third parties in front of this one
          induction second generalizing c s' with
          | nil =>
              rw [List.filterMap_cons_some hi] at hsame
              cases hsame
          | cons j second ih' =>
              have hrest' := (List.pairwise_cons.mp hsecond).2
              have hthis' : Fine s' j := hfine' (s', j) (by simp [states])
              have hothers' : ∀ x ∈ states step (step s' j).1 second, Fine x.1 x.2 :=
                fun x hx => hfine' x (by simp [states, hx])
              cases hj : shared j with
              | none =>
                  rw [List.filterMap_cons_none hj] at hsame
                  rw [outputs_other s' hj]
                  have hmax := h.later c (max c (time j)) s s' (le_max_left _ _) hagree
                  refine ih' (max c (time j)) _ (h.keeps s' j hs') ?_ ?_ hrest' hsame hothers'
                  · exact h.symm _ _ _ (h.other _ s' s j hs' hthis' hj (le_max_right _ _)
                      (h.symm _ _ _ hmax))
                  · intro k' hk'
                    refine max_le (hclock k' hk') (le_shared h.stamp hsecond ?_)
                    rw [← hsame]
                    exact hk'
              | some k' =>
                  rw [List.filterMap_cons_some hi, List.filterMap_cons_some hj] at hsame
                  obtain ⟨rfl, htail⟩ := List.cons.inj hsame
                  have hfront : c ≤ clock k := hclock k (by simp [hi])
                  obtain ⟨hnext, hout⟩ := h.own s s' i j k hs hs' hthis hthis' hi hj
                    (h.later c (clock k) s s' hfront hagree)
                  rw [outputs_own s hi, outputs_own s' hj, hout]
                  refine congrArg _ (ih second (clock k) _ _ (h.keeps s i hs) (h.keeps s' j hs')
                    hnext ?_ hrest hrest' htail hothers hothers')
                  intro k' hk'
                  rw [← h.stamp i k hi]
                  exact le_shared h.stamp hfirst hk'

end EdgeGuard.Base.Noninterference
