import EdgeGuard.Base.Trace

/-!
# What has held since

Logs that grow at their end, and what they say about the past: something has happened
once, and whatever came after it was of a kind.

## Main results

* `since_snoc_iff` — one more entry: it has just happened, or it had happened and the
  entry is of the kind.
-/

namespace EdgeGuard.Base.History

open EdgeGuard.Base.Trace

variable {α : Type*} {P : List α → α → Prop} {Q : α → Prop} {log : List α} {x : α}

/-- An entry that stood in the relation to those in front of it, and only entries of the
kind since. -/
def Since (P : List α → α → Prop) (Q : α → Prop) (log : List α) : Prop :=
  ∃ front x back, log = front ++ x :: back ∧ P front x ∧ ∀ y ∈ back, Q y

/-- One more entry. -/
theorem since_snoc_iff : Since P Q (log ++ [x]) ↔ P log x ∨ (Since P Q log ∧ Q x) := by
  constructor
  · rintro ⟨front, y, back', hsplit, hy, hback⟩
    rcases split_snoc hsplit with ⟨-, rfl, rfl⟩ | ⟨back, rfl, rfl⟩
    · exact .inl hy
    · refine .inr ⟨⟨front, y, back, rfl, hy, fun z hz => ?_⟩, hback x ?_⟩
      · exact hback z (List.mem_append_left _ hz)
      · exact List.mem_append_right _ List.mem_cons_self
  · rintro (hx | ⟨⟨front, y, back, rfl, hy, hback⟩, hx⟩)
    · exact ⟨log, x, [], rfl, hx, fun y hy => absurd hy List.not_mem_nil⟩
    · refine ⟨front, y, back ++ [x], by simp, hy, fun z hz => ?_⟩
      rcases List.mem_append.mp hz with hz | hz
      · exact hback z hz
      · rw [List.mem_singleton.mp hz]
        exact hx

theorem since_last (h : P log x) : Since P Q (log ++ [x]) := since_snoc_iff.mpr (.inl h)

theorem Since.snoc (h : Since P Q log) (hx : Q x) : Since P Q (log ++ [x]) :=
  since_snoc_iff.mpr (.inr ⟨h, hx⟩)

end EdgeGuard.Base.History
