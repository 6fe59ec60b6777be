import EdgeGuard.Base.HashTable
import EdgeGuard.Base.Trace

/-!
# Epochs

A table gives keys numbers that are drawn from one counter.  A key that is renewed, or a
table that is cleared, leads to a number that was never drawn before; so a key reads the
same exactly when nothing touched it in between, as long as the counter rises.

## Main results

* `same_epoch_iff` — what equal readings say.
* `next_run_le` — how far the counter goes.
-/

namespace EdgeGuard.Base.Epochs

open EdgeGuard.Base.HashTable EdgeGuard.Base.Trace

structure EpochTable (κ : Type) where
  table : Table κ Nat
  next : Nat

inductive Op (κ : Type)
  /-- A number for a key that has none. -/
  | create (k : κ)
  | renew (k : κ)
  /-- No key has a number. -/
  | clear

variable {κ : Type} [DecidableEq κ]

def perform (advance : Nat → Nat) (e : EpochTable κ) : Op κ → EpochTable κ
  | .create k =>
      match e.table.lookup k with
      | some _ => e
      | none => ⟨e.table.insert k (advance e.next), advance e.next⟩
  | .renew k => ⟨e.table.insert k (advance e.next), advance e.next⟩
  | .clear => ⟨∅, advance e.next⟩

/-- The key does not keep its number. -/
def Op.Touches (k : κ) : Op κ → Prop
  | .create _ => False
  | .renew k' => k' = k
  | .clear => True

variable {advance : Nat → Nat} {e : EpochTable κ} {k : κ} {n : Nat}

/-- What an operation makes of a table. -/
inductive Performed (advance : Nat → Nat) (e : EpochTable κ) : Op κ → EpochTable κ → Prop
  | kept (k : κ) (n : Nat) (h : e.table.lookup k = some n) : Performed advance e (.create k) e
  | created (k : κ) (h : e.table.lookup k = none) :
      Performed advance e (.create k) ⟨e.table.insert k (advance e.next), advance e.next⟩
  | renewed (k : κ) :
      Performed advance e (.renew k) ⟨e.table.insert k (advance e.next), advance e.next⟩
  | cleared : Performed advance e .clear ⟨∅, advance e.next⟩

/-- The ways an operation ends. -/
theorem perform_cases (e : EpochTable κ) (op : Op κ) :
    Performed advance e op (perform advance e op) := by
  cases op with
  | create k =>
      rw [perform]
      split
      · rename_i n h
        exact .kept k n h
      · rename_i h
        exact .created k h
  | renew k => exact .renewed k
  | clear => exact .cleared

/-- An operation leaves the numbers that it does not touch. -/
theorem Performed.lookup {op : Op κ} {e' : EpochTable κ} (hop : Performed advance e op e')
    (h : ¬ op.Touches k) (hk : e.table.lookup k = some n) : e'.table.lookup k = some n := by
  cases hop with
  | kept k' m hk' => exact hk
  | created k' hk' =>
      show (e.table.insert k' (advance e.next)).lookup k = some n
      rw [lookup_insert_eq, if_neg, hk]
      rintro rfl
      cases hk.symm.trans hk'
  | renewed k' =>
      show (e.table.insert k' (advance e.next)).lookup k = some n
      rw [lookup_insert_eq, if_neg fun heq => h heq.symm, hk]
  | cleared => exact absurd trivial h

theorem Performed.next {op : Op κ} {e' : EpochTable κ} (hop : Performed advance e op e') :
    e'.next = e.next ∨ e'.next = advance e.next := by
  cases hop with
  | kept k n h => exact .inl rfl
  | created k h => exact .inr rfl
  | renewed k => exact .inr rfl
  | cleared => exact .inr rfl

theorem next_le_perform (hrises : e.next < advance e.next) (op : Op κ) :
    e.next ≤ (perform advance e op).next := by
  rcases (perform_cases e op).next with h | h
  · rw [h]
  · rw [h]
    exact Nat.le_of_lt hrises

theorem next_perform_le (hstep : ∀ n, advance n ≤ n + 1) (e : EpochTable κ) (op : Op κ) :
    (perform advance e op).next ≤ e.next + 1 := by
  rcases (perform_cases e op).next with h | h
  · rw [h]
    exact Nat.le_succ _
  · rw [h]
    exact hstep _

theorem next_run_le (hstep : ∀ n, advance n ≤ n + 1) (e : EpochTable κ) (ops : List (Op κ)) :
    (run (perform advance) e ops).next ≤ e.next + ops.length := by
  induction ops generalizing e with
  | nil => exact Nat.le_refl _
  | cons op ops ih =>
      have hop := next_perform_le hstep e op
      have hops := ih (perform advance e op)
      rw [run_cons, List.length_cons]
      omega

/-! ## A counter that rises -/

/-- The counter rises wherever a run draws from it. -/
def Rises (advance : Nat → Nat) (e : EpochTable κ) (ops : List (Op κ)) : Prop :=
  ∀ front op back, ops = front ++ op :: back →
    (run (perform advance) e front).next < advance (run (perform advance) e front).next

/-- A counter that rises below a bound, and cannot get there. -/
theorem rises_of_bound {bound : Nat} (hstep : ∀ n, advance n ≤ n + 1)
    (hrises : ∀ n, n < bound → n < advance n) {ops : List (Op κ)}
    (h : e.next + ops.length ≤ bound) : Rises advance e ops := by
  intro front op back hsplit
  have hnext := next_run_le hstep e front
  rw [hsplit, List.length_append, List.length_cons] at h
  exact hrises _ (by omega)

/-- The number that the key has, if any, is above the mark, and the counter is at least
there. -/
structure Above (mark : Nat) (k : κ) (e : EpochTable κ) : Prop where
  next : mark ≤ e.next
  lookup : ∀ n, e.table.lookup k = some n → mark < n

theorem above_insert {mark : Nat} (hmark : mark < advance e.next) (k' : κ)
    (h : k' ≠ k → Above mark k e) :
    Above mark k (⟨e.table.insert k' (advance e.next), advance e.next⟩ : EpochTable κ) := by
  refine ⟨Nat.le_of_lt hmark, fun n hn => ?_⟩
  have hn : (e.table.insert k' (advance e.next)).lookup k = some n := hn
  rw [lookup_insert_eq] at hn
  split at hn
  · cases hn
    exact hmark
  · rename_i hne
    exact (h fun heq => hne heq.symm).lookup n hn

theorem above_clear {mark : Nat} (hmark : mark < advance e.next) :
    Above mark k (⟨∅, advance e.next⟩ : EpochTable κ) := by
  refine ⟨Nat.le_of_lt hmark, fun n hn => ?_⟩
  cases (AList.lookup_empty k).symm.trans hn

theorem Above.performed {mark : Nat} (h : Above mark k e) (hrises : e.next < advance e.next)
    {op : Op κ} {e' : EpochTable κ} (hop : Performed advance e op e') : Above mark k e' := by
  have hmark : mark < advance e.next := Nat.lt_of_le_of_lt h.next hrises
  cases hop with
  | kept k' m hk' => exact h
  | created k' hk' => exact above_insert hmark k' fun _ => h
  | renewed k' => exact above_insert hmark k' fun _ => h
  | cleared => exact above_clear hmark

/-- What touches a key leaves it above every number drawn so far. -/
theorem above_of_touches (hrises : e.next < advance e.next) {op : Op κ} (h : op.Touches k) :
    Above e.next k (perform advance e op) := by
  cases op with
  | create k' => exact absurd h id
  | renew k' => exact above_insert hrises k' fun hne => absurd h hne
  | clear => exact above_clear hrises

theorem Rises.head {op : Op κ} {ops : List (Op κ)} (h : Rises advance e (op :: ops)) :
    e.next < advance e.next := h [] op ops rfl

theorem Rises.tail {op : Op κ} {ops : List (Op κ)} (h : Rises advance e (op :: ops)) :
    Rises advance (perform advance e op) ops := by
  intro front op' back hsplit
  exact h (op :: front) op' back (by rw [hsplit]; rfl)

theorem Above.behind {mark : Nat} {ops : List (Op κ)} (h : Above mark k e)
    (hrises : Rises advance e ops) : Above mark k (run (perform advance) e ops) := by
  induction ops generalizing e with
  | nil => exact h
  | cons op ops ih => exact ih (h.performed hrises.head (perform_cases e op)) hrises.tail

/-- A key that has a number still has it behind a run exactly when the run did not touch
it. -/
theorem same_epoch_iff {ops : List (Op κ)} (hrises : Rises advance e ops)
    (hk : e.table.lookup k = some n) (hn : n ≤ e.next) :
    (run (perform advance) e ops).table.lookup k = some n ↔ ∀ op ∈ ops, ¬ op.Touches k := by
  induction ops generalizing e with
  | nil => simpa using hk
  | cons op ops ih =>
      rw [run_cons, List.forall_mem_cons]
      by_cases htouches : op.Touches k
      · have habove := (above_of_touches hrises.head htouches).behind hrises.tail
        constructor
        · intro hsame
          have hlt := habove.lookup n hsame
          omega
        · rintro ⟨hspared, -⟩
          exact absurd htouches hspared
      · rw [ih hrises.tail ((perform_cases e op).lookup htouches hk)
          (Nat.le_trans hn (next_le_perform hrises.head op))]
        exact ⟨fun h => ⟨htouches, h⟩, fun h => h.2⟩

/-- Numbers are drawn from below the counter. -/
def Drawn (e : EpochTable κ) : Prop := ∀ k n, e.table.lookup k = some n → n ≤ e.next

theorem drawn_insert (h : Drawn e) (hrises : e.next < advance e.next) (k : κ) :
    Drawn (⟨e.table.insert k (advance e.next), advance e.next⟩ : EpochTable κ) := by
  intro k' n hn
  have hn : (e.table.insert k (advance e.next)).lookup k' = some n := hn
  rw [lookup_insert_eq] at hn
  split at hn
  · cases hn
    exact Nat.le_refl _
  · exact Nat.le_trans (h k' n hn) (Nat.le_of_lt hrises)

theorem Drawn.performed (h : Drawn e) (hrises : e.next < advance e.next) {op : Op κ}
    {e' : EpochTable κ} (hop : Performed advance e op e') : Drawn e' := by
  cases hop with
  | kept k m hk => exact h
  | created k hk => exact drawn_insert h hrises k
  | renewed k => exact drawn_insert h hrises k
  | cleared =>
      intro k n hn
      cases (AList.lookup_empty k).symm.trans hn

theorem Drawn.behind {ops : List (Op κ)} (h : Drawn e) (hrises : Rises advance e ops) :
    Drawn (run (perform advance) e ops) := by
  induction ops generalizing e with
  | nil => exact h
  | cons op ops ih => exact ih (h.performed hrises.head (perform_cases e op)) hrises.tail

end EdgeGuard.Base.Epochs
