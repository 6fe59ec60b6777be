import Mathlib.Data.List.Basic

/-!
# Progress against hindrances

A system with two kinds of steps: moves, which bring it nearer to its goal, and
hindrances, which may undo part of what the last moves have gained.  The goal
is stage 0.  A move lowers the stage or, within the stage, the slack; a
hindrance never raises the stage.  So a hindrance costs a bounded number of
moves, and a run with enough moves for its hindrances has reached the goal.

## Main results

* `Ranking.reached` — the goal is reached, or fewer moves were made than the
  stages and the hindrances account for.
-/

namespace EdgeGuard.Base.Potential

variable {σ : Type*} (Move Hinder : σ → σ → Prop)

/-- A run with the numbers of its moves and hindrances. -/
inductive Run : σ → Nat → Nat → σ → Prop
  | nil (s : σ) : Run s 0 0 s
  | move {s t u : σ} {moves hindrances : Nat} (h : Run s moves hindrances t)
      (hmove : Move t u) : Run s (moves + 1) hindrances u
  | hinder {s t u : σ} {moves hindrances : Nat} (h : Run s moves hindrances t)
      (hhinder : Hinder t u) : Run s moves (hindrances + 1) u

/-- The stages of a system, and its slack within a stage. -/
structure Ranking (Stage : Nat → σ → Prop) (slack : σ → Nat) (width : Nat) : Prop where
  slack_lt : ∀ s, slack s < width
  move : ∀ {r s t}, Stage r s → Move s t → Stage (r - 1) t ∨ (Stage r t ∧ slack t < slack s)
  hinder : ∀ {r s t}, Stage r s → Hinder s t → Stage r t

/-- The moves that stage and slack leave to be made; none in stage 0. -/
def weight (width : Nat) : Nat → Nat → Nat
  | 0, _ => 0
  | r + 1, slack => width * (r + 1) + slack

variable {Move Hinder} {Stage : Nat → σ → Prop} {slack : σ → Nat} {width : Nat}

theorem weight_pos (hwidth : 0 < width) (r k : Nat) : 0 < weight width (r + 1) k := by
  have hmul : width * (r + 1) = width * r + width := Nat.mul_succ width r
  simp only [weight]
  omega

/-- A lower stage weighs less, whatever the slack. -/
theorem weight_stage {r k l : Nat} (hl : l < width) :
    weight width (r - 1) l ≤ weight width r k - 1 := by
  cases r with
  | zero => simp [weight]
  | succ r =>
      have hmul : width * (r + 1) = width * r + width := Nat.mul_succ width r
      cases r with
      | zero => simp [weight]
      | succ r =>
          simp only [weight, Nat.add_sub_cancel] at hmul ⊢
          omega

/-- So does less slack in the same stage. -/
theorem weight_slack {r k l : Nat} (hl : l < k) : weight width r l ≤ weight width r k - 1 := by
  cases r with
  | zero => simp [weight]
  | succ r =>
      simp only [weight]
      omega

/-- More slack costs less than one stage. -/
theorem weight_hinder {r k l : Nat} (hl : l < width) :
    weight width r l ≤ weight width r k + (width - 1) := by
  cases r with
  | zero => simp [weight]
  | succ r =>
      simp only [weight]
      omega

/-- The accounts of a run: what is left and what was done against what there was. -/
theorem Ranking.account (h : Ranking Move Hinder Stage slack width) {r : Nat} {s t : σ}
    {moves hindrances : Nat} (hs : Stage r s) (hrun : Run Move Hinder s moves hindrances t) :
    ∃ q, Stage q t ∧ (q = 0 ∨ weight width q (slack t) + moves ≤
      weight width r (slack s) + (width - 1) * hindrances) := by
  induction hrun with
  | nil => exact ⟨r, hs, .inr (by simp)⟩
  | move hrun hmove ih =>
      rename_i t u moves hindrances
      obtain ⟨q, hq, hleft⟩ := ih
      obtain ⟨p, hp, hlow⟩ : ∃ p, Stage p u ∧
          weight width p (slack u) ≤ weight width q (slack t) - 1 := by
        rcases h.move hq hmove with hp | ⟨hp, hslack⟩
        · exact ⟨q - 1, hp, weight_stage (h.slack_lt u)⟩
        · exact ⟨q, hp, weight_slack hslack⟩
      refine ⟨p, hp, ?_⟩
      rcases p.eq_zero_or_pos with hzero | hpos
      · exact .inl hzero
      · right
        have hpos' : 0 < weight width p (slack u) := by
          obtain ⟨p, rfl⟩ := Nat.exists_eq_add_of_le' hpos
          exact weight_pos (Nat.zero_lt_of_lt (h.slack_lt u)) p _
        rcases hleft with rfl | hleft
        · have hnone : weight width 0 (slack t) = 0 := rfl
          omega
        · omega
  | hinder hrun hhinder ih =>
      rename_i t u moves hindrances
      obtain ⟨q, hq, hleft⟩ := ih
      refine ⟨q, h.hinder hq hhinder, hleft.imp_right fun hleft => ?_⟩
      have hcost := weight_hinder (r := q) (k := slack t) (h.slack_lt u)
      have hmul : (width - 1) * (hindrances + 1) = (width - 1) * hindrances + (width - 1) :=
        Nat.mul_succ _ _
      omega

/-- A run with enough moves reaches the last stage, hindrances paid for. -/
theorem Ranking.reached (h : Ranking Move Hinder Stage slack width) {r : Nat} {s t : σ}
    {moves hindrances : Nat} (hs : Stage r s) (hrun : Run Move Hinder s moves hindrances t) :
    Stage 0 t ∨ moves < weight width r (slack s) + (width - 1) * hindrances := by
  obtain ⟨q, hq, hleft⟩ := h.account hs hrun
  cases q with
  | zero => exact .inl hq
  | succ q =>
      have hpos : 0 < weight width (q + 1) (slack t) :=
        weight_pos (Nat.zero_lt_of_lt (h.slack_lt t)) q _
      rcases hleft with hzero | hleft
      · cases hzero
      · exact .inr (by omega)

end EdgeGuard.Base.Potential
