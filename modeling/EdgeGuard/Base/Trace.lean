import Mathlib.Data.List.Basic

/-!
# Acts that may be interrupted

A world on which acts are performed one after another.  A process that dies
has performed a prefix of its acts, so what has to hold at every crash point
has to hold after every prefix.

## Main results

* `Keeps.append` — the rule for sequential composition.
* `keeps_of_splits` — the invariant rule: it is enough that every act keeps the
  invariant after the acts before it.
* `Throughout.snoc` — a log that grows at its end.
* `throughout_visits` — the invariant rule for a run that ends at its first failure.
* `HighWater.append` — a level that never ends below one on the way.
-/

namespace EdgeGuard.Base.Trace

variable {σ α : Type*} (perform : σ → α → σ)

/-- The world after a list of acts. -/
def run (d : σ) (acts : List α) : σ := acts.foldl perform d

@[simp] theorem run_nil (d : σ) : run perform d [] = d := rfl

@[simp] theorem run_cons (d : σ) (a : α) (acts : List α) :
    run perform d (a :: acts) = run perform (perform d a) acts := rfl

@[simp] theorem run_append (d : σ) (xs ys : List α) :
    run perform d (xs ++ ys) = run perform (run perform d xs) ys := by
  simp [run]

/-- The property holds wherever the acts are interrupted, their beginning and
their end included. -/
def Keeps (Inv : σ → Prop) (d : σ) (acts : List α) : Prop :=
  ∀ n, Inv (run perform d (acts.take n))

variable {perform} {Inv : σ → Prop} {d : σ}

theorem keeps_nil (h : Inv d) : Keeps perform Inv d [] := by
  intro n
  simpa using h

theorem Keeps.first {acts : List α} (h : Keeps perform Inv d acts) : Inv d := by
  simpa using h 0

theorem Keeps.last {acts : List α} (h : Keeps perform Inv d acts) :
    Inv (run perform d acts) := by
  simpa using h acts.length

theorem keeps_cons {a : α} {acts : List α} (h : Inv d)
    (hacts : Keeps perform Inv (perform d a) acts) : Keeps perform Inv d (a :: acts) := by
  intro n
  cases n with
  | zero => simpa using h
  | succ n => simpa using hacts n

theorem Keeps.mono {acts : List α} {Inv' : σ → Prop} (h : Keeps perform Inv d acts)
    (hinv : ∀ e, Inv e → Inv' e) : Keeps perform Inv' d acts := fun n => hinv _ (h n)

theorem Keeps.append {xs ys : List α} (hxs : Keeps perform Inv d xs)
    (hys : Keeps perform Inv (run perform d xs) ys) : Keeps perform Inv d (xs ++ ys) := by
  induction xs generalizing d with
  | nil => exact hys
  | cons a xs ih =>
      refine keeps_cons hxs.first (ih ?_ hys)
      intro n
      simpa using hxs (n + 1)

/-- For acts that are kept it is enough to look at each one behind those before it. -/
theorem keeps_of_splits {acts : List α} (h : Inv d)
    (hacts : ∀ front a back, acts = front ++ a :: back →
      Inv (run perform d front) → Inv (perform (run perform d front) a)) :
    Keeps perform Inv d acts := by
  induction acts generalizing d with
  | nil => exact keeps_nil h
  | cons a acts ih =>
      refine keeps_cons h (ih (hacts [] a acts rfl h) ?_)
      intro front b back hsplit hinv
      exact hacts (a :: front) b back (by rw [hsplit]; rfl) hinv

/-! ## Logs -/

/-- Every entry of the log stands in the relation to the entries in front of it. -/
def Throughout (P : List α → α → Prop) (log : List α) : Prop :=
  ∀ front x back, log = front ++ x :: back → P front x

theorem throughout_nil (P : List α → α → Prop) : Throughout P [] := by
  intro front x back h
  simp at h

/-- Where the last entry of a longer log stands. -/
theorem split_snoc {log front back' : List α} {e x : α} (h : log ++ [x] = front ++ e :: back') :
    (back' = [] ∧ log = front ∧ e = x) ∨
      ∃ back, back' = back ++ [x] ∧ log = front ++ e :: back := by
  rcases List.eq_nil_or_concat back' with rfl | ⟨back, y, rfl⟩
  · left
    obtain ⟨hlog, hx⟩ := List.append_inj' h rfl
    exact ⟨rfl, hlog, by simpa using hx.symm⟩
  · right
    rw [List.concat_eq_append] at h ⊢
    rw [← List.cons_append, ← List.append_assoc] at h
    obtain ⟨hlog, hx⟩ := List.append_inj' h rfl
    cases hx
    exact ⟨back, rfl, hlog⟩

theorem Throughout.snoc {P : List α → α → Prop} {log : List α} {x : α} (h : Throughout P log)
    (hx : P log x) : Throughout P (log ++ [x]) := by
  intro front y back hsplit
  rcases split_snoc hsplit with ⟨-, rfl, rfl⟩ | ⟨back, -, hlog⟩
  · exact hx
  · exact h front y back hlog

theorem Throughout.front {P : List α → α → Prop} {front back : List α}
    (h : Throughout P (front ++ back)) : Throughout P front := by
  intro a x b hsplit
  apply h a x (b ++ back)
  rw [hsplit, List.append_assoc, List.cons_append]

/-! ## Runs that end at a failure -/

section Visits

variable {β : Type*} (next : σ → β → Option σ)

/-- The inputs of a run up to the first that fails, each with the state it finds. -/
def visits (s : σ) : List β → List (σ × β)
  | [] => []
  | b :: rest => (s, b) :: (next s b).elim [] (visits · rest)

variable {next} {Holds : List (σ × β) → σ → Prop} {P : List (σ × β) → σ × β → Prop}

/-- What each step establishes from the relation before it holds at every visit. -/
private theorem visits_splits
    (hstep : ∀ log s b, Holds log s →
      P log (s, b) ∧ ∀ s', next s b = some s' → Holds (log ++ [(s, b)]) s')
    (bs : List β) (log : List (σ × β)) (s : σ) (h : Holds log s) :
    ∀ front x back, visits next s bs = front ++ x :: back → P (log ++ front) x := by
  induction bs generalizing log s with
  | nil =>
      intro front x back hsplit
      simp [visits] at hsplit
  | cons b bs ih =>
      intro front x back hsplit
      rw [visits] at hsplit
      cases front with
      | nil =>
          cases hsplit
          rw [List.append_nil]
          exact (hstep log s b h).1
      | cons y front =>
          obtain ⟨rfl, hrest⟩ := List.cons.inj hsplit
          cases hnext : next s b with
          | none =>
              rw [hnext] at hrest
              simp at hrest
          | some s' =>
              rw [hnext] at hrest
              have hfront := ih _ s' ((hstep log s b h).2 s' hnext) front x back hrest
              rw [List.append_assoc] at hfront
              exact hfront

theorem throughout_visits
    (hstep : ∀ log s b, Holds log s →
      P log (s, b) ∧ ∀ s', next s b = some s' → Holds (log ++ [(s, b)]) s')
    {s : σ} (h : Holds [] s) (bs : List β) : Throughout P (visits next s bs) :=
  visits_splits hstep bs [] s h

end Visits

/-! ## High-water marks -/

section HighWater

variable {β : Type*} [LE β] (level : σ → Option β)

variable (perform) in
/-- The level behind the acts is not below any level at any point of them. -/
def HighWater (d : σ) (acts : List α) : Prop :=
  ∀ n v, level (run perform d (acts.take n)) = some v →
    ∃ w, level (run perform d acts) = some w ∧ v ≤ w

variable {level} [Std.IsPreorder β]

theorem highWater_nil : HighWater perform level d [] := by
  intro n v h
  rw [List.take_nil] at h
  exact ⟨v, h, Std.le_refl v⟩

/-- A mark that rises over each of two sequences rises over both. -/
theorem HighWater.append {xs ys : List α} (hxs : HighWater perform level d xs)
    (hys : HighWater perform level (run perform d xs) ys) :
    HighWater perform level d (xs ++ ys) := by
  intro n v h
  rw [run_append]
  rcases Nat.lt_or_ge xs.length n with hn | hn
  · obtain ⟨k, rfl⟩ : ∃ k, n = xs.length + k := ⟨n - xs.length, by omega⟩
    rw [List.take_length_add_append, run_append] at h
    exact hys k v h
  · rw [List.take_append_of_le_length hn] at h
    obtain ⟨w, hw, hvw⟩ := hxs n v h
    obtain ⟨u, hu, hwu⟩ := hys 0 w hw
    exact ⟨u, hu, Std.le_trans hvw hwu⟩

/-- Acts that show nothing but their beginning and their end. -/
theorem highWater_of_ends {acts : List α}
    (hbetween : ∀ n, level (run perform d (acts.take n)) = level d ∨
      level (run perform d (acts.take n)) = level (run perform d acts))
    (hrises : ∀ v, level d = some v → ∃ w, level (run perform d acts) = some w ∧ v ≤ w) :
    HighWater perform level d acts := by
  intro n v h
  rcases hbetween n with hn | hn
  · exact hrises v (hn.symm.trans h)
  · exact ⟨v, hn.symm.trans h, Std.le_refl v⟩

end HighWater

end EdgeGuard.Base.Trace
