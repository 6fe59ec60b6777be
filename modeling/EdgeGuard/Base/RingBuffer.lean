import Mathlib.Data.List.Basic

/-!
# Ring buffers

A fixed number of slots that are written in turn.  What has been pushed is a
list, and a slot still holds a value as long as fewer values than there are
slots were pushed behind it.

## Main results

* `Records.push` — the slots follow the list of the values pushed.
-/

namespace EdgeGuard.Base.RingBuffer

variable {α : Type*} {n : Nat}

structure Buffer (α : Type*) (n : Nat) where
  slots : Vector α n
  next : Fin n

/-- Writes the next slot and goes on to the one behind it. -/
def push (b : Buffer α n) (x : α) : Buffer α n :=
  { slots := b.slots.set b.next x
    next := ⟨(b.next + 1) % n, Nat.mod_lt _ b.next.pos⟩ }

/-- The values of the list were pushed in this order. -/
structure Records (b : Buffer α n) (pushed : List α) : Prop where
  next : b.next.val = pushed.length % n
  kept : ∀ i x, pushed[i]? = some x → pushed.length ≤ i + n → b.slots[i % n]? = some x

theorem records_nil {b : Buffer α n} (h : b.next.val = 0) : Records b [] := by
  refine ⟨?_, ?_⟩
  · rw [h, List.length_nil, Nat.zero_mod]
  · intro i x hx
    simp at hx

/-- Fewer than `n` apart, two positions fall into different slots. -/
theorem mod_ne_mod {i j : Nat} (hlt : i < j) (hnear : j < i + n) : i % n ≠ j % n := by
  intro heq
  have hzero : (j - i) % n = 0 := Nat.sub_mod_eq_zero_of_mod_eq heq.symm
  rw [Nat.mod_eq_of_lt (by omega)] at hzero
  omega

/-- A push records one more, in the place of the oldest. -/
theorem Records.push {b : Buffer α n} {pushed : List α} (h : Records b pushed) (x : α) :
    Records (push b x) (pushed ++ [x]) := by
  refine ⟨?_, ?_⟩
  · show (b.next.val + 1) % n = _
    rw [h.next, List.length_append, List.length_singleton, Nat.mod_add_mod]
  · intro i y hy hnear
    rw [List.length_append, List.length_singleton] at hnear
    show (b.slots.set b.next x)[i % n]? = some y
    by_cases hlast : i = pushed.length
    · subst hlast
      rw [List.getElem?_concat_length] at hy
      rw [← h.next, Vector.getElem?_set_self, hy]
    · have hlt : i < pushed.length := by
        have hbound := (List.getElem?_eq_some_iff.mp hy).1
        rw [List.length_append, List.length_singleton] at hbound
        omega
      have hother : b.next.val ≠ i % n := by
        rw [h.next]
        exact (mod_ne_mod hlt (by omega)).symm
      rw [List.getElem?_append_left hlt] at hy
      rw [Vector.getElem?_set_ne b.next.isLt hother]
      exact h.kept i y hy (by omega)

end EdgeGuard.Base.RingBuffer
