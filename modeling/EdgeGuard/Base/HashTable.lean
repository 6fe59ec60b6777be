import Mathlib.Data.List.AList
import Mathlib.Data.List.Sigma

/-!
# Hash tables with a bounded size

Tables as Mathlib's association lists without repeated keys.  A hash table is
visited in an order that says nothing, so every function that iterates takes the
order as an argument (`Visits`), and what is proved holds for all of them.

## Main results

* `lookup_retain` — a table after a `foreach_remove`.
* `lookup_evict_le`, `size_evict_lt` — making room by throwing away whatever comes first.
* `prune_lost` — making room by throwing away the oldest: what is lost is no
  younger than `limit - 1` others.
* `size_prune_lt` — room is made as long as every rank is below the bound.
-/

namespace EdgeGuard.Base.HashTable

abbrev Table (κ α : Type) := AList fun _ : κ => α

abbrev Entry (κ α : Type) := (_ : κ) × α

/-- The orders in which the tables are visited during one call. -/
structure Visits where
  order : {κ α : Type} → List (Entry κ α) → List (Entry κ α)
  perm : ∀ {κ α : Type} (entries : List (Entry κ α)), (order entries).Perm entries

/-- The order of the list itself. -/
def Visits.plain : Visits := ⟨id, fun _ => .refl _⟩

variable {κ α : Type} [DecidableEq κ]

def size (t : Table κ α) : Nat := t.entries.length

/-- The entries that are kept. -/
def retain (keep : κ → α → Bool) (t : Table κ α) : Table κ α :=
  ⟨t.entries.filter fun e => keep e.1 e.2, t.nodupKeys.sublist List.filter_sublist⟩

theorem lookup_eq_some_iff {t : Table κ α} {k : κ} {v : α} :
    t.lookup k = some v ↔ (⟨k, v⟩ : Entry κ α) ∈ t.entries := AList.mem_lookup_iff

theorem lookup_retain (keep : κ → α → Bool) (t : Table κ α) (k : κ) :
    (retain keep t).lookup k = (t.lookup k).filter (keep k) := by
  apply Option.ext
  intro v
  rw [lookup_eq_some_iff, Option.filter_eq_some_iff, lookup_eq_some_iff]
  simp [retain]

theorem lookup_insert_eq (t : Table κ α) (k k' : κ) (v : α) :
    (t.insert k v).lookup k' = if k' = k then some v else t.lookup k' := by
  split
  · rename_i h
    rw [h]
    exact AList.lookup_insert t
  · rename_i h
    exact AList.lookup_insert_ne h

theorem lookup_erase_eq (t : Table κ α) (k k' : κ) :
    (t.erase k).lookup k' = if k' = k then none else t.lookup k' := by
  split
  · rename_i h
    rw [h]
    exact AList.lookup_erase k t
  · rename_i h
    exact AList.lookup_erase_ne h

theorem lookup_of_erase {t : Table κ α} {gone k : κ} {v : α}
    (h : (t.erase gone).lookup k = some v) : t.lookup k = some v := by
  rw [lookup_erase_eq] at h
  split at h
  · cases h
  · exact h

omit [DecidableEq κ] in
theorem length_keys (t : Table κ α) : t.keys.length = size t := by
  simp [size, AList.keys, List.keys]

/-- A table is no larger than one that has all of its entries. -/
theorem size_le_of_lookup {s t : Table κ α}
    (h : ∀ k v, t.lookup k = some v → s.lookup k = some v) : size t ≤ size s := by
  rw [← length_keys, ← length_keys]
  apply List.Subperm.length_le
  apply List.subperm_of_subset t.keys_nodup
  intro k hk
  obtain ⟨v, hv⟩ := Option.isSome_iff_exists.mp (AList.lookup_isSome.mpr (AList.mem_keys.mpr hk))
  exact AList.mem_keys.mp (AList.lookup_isSome.mp (by simp [h k v hv]))

theorem size_insert_le (t : Table κ α) (k : κ) (v : α) : size (t.insert k v) ≤ size t + 1 := by
  rw [← length_keys, ← length_keys, AList.keys_insert, List.length_cons]
  exact Nat.succ_le_succ List.erase_sublist.length_le

/-- A new value for an old key takes no room. -/
theorem size_insert_of_lookup {t : Table κ α} {k : κ} {w : α} (h : t.lookup k = some w) (v : α) :
    size (t.insert k v) = size t := by
  have hmem : k ∈ t.keys := AList.mem_keys.mp (AList.lookup_isSome.mp (by simp [h]))
  have hpos : 0 < t.keys.length := List.length_pos_of_mem hmem
  rw [← length_keys, ← length_keys, AList.keys_insert, List.length_cons,
    List.length_erase_of_mem hmem]
  omega

theorem size_erase_lt {t : Table κ α} {k : κ} {v : α} (h : t.lookup k = some v) :
    size (t.erase k) < size t := by
  have hmem : k ∈ t.keys := AList.mem_keys.mp (AList.lookup_isSome.mp (by simp [h]))
  have hpos : 0 < t.keys.length := List.length_pos_of_mem hmem
  rw [← length_keys, ← length_keys, AList.keys_erase, List.length_erase_of_mem hmem]
  omega

omit [DecidableEq κ] in
theorem size_retain_le (keep : κ → α → Bool) (t : Table κ α) : size (retain keep t) ≤ size t :=
  List.length_filter_le _ _

/-! ## Making room by throwing away what comes first -/

/-- While the table has `limit` entries, the one that is visited first goes; `fuel`
is at least the number of entries. -/
def evict (o : Visits) (limit : Nat) : Nat → Table κ α → Table κ α
  | 0, t => t
  | fuel + 1, t =>
      if limit ≤ size t then
        match (o.order t.entries).head? with
        | none => t
        | some e => evict o limit fuel (t.erase e.1)
      else t

/-- Eviction adds nothing. -/
theorem lookup_evict_le (o : Visits) (limit fuel : Nat) (t : Table κ α) {k : κ} {v : α}
    (h : (evict o limit fuel t).lookup k = some v) : t.lookup k = some v := by
  induction fuel generalizing t with
  | zero => exact h
  | succ fuel ih =>
      unfold evict at h
      split at h
      · split at h
        · exact h
        · exact lookup_of_erase (ih _ h)
      · exact h

/-- Eviction makes room. -/
theorem size_evict_lt (o : Visits) {limit : Nat} (hlimit : 0 < limit) (fuel : Nat)
    {t : Table κ α} (hfuel : size t ≤ fuel) : size (evict o limit fuel t) < limit := by
  induction fuel generalizing t with
  | zero =>
      rw [evict]
      omega
  | succ fuel ih =>
      unfold evict
      by_cases hfull : limit ≤ size t
      · rw [if_pos hfull]
        cases hhead : (o.order t.entries).head? with
        | none =>
            -- a full table has a first entry
            have hempty := (o.perm t.entries).length_eq
            rw [List.head?_eq_none_iff.mp hhead, List.length_nil] at hempty
            have hsize : size t = 0 := hempty.symm
            omega
        | some e =>
            have hmem : e ∈ t.entries :=
              (o.perm t.entries).mem_iff.mp (List.mem_of_mem_head? hhead)
            have hfound : t.lookup e.1 = some e.2 := lookup_eq_some_iff.mpr hmem
            have hless := size_erase_lt hfound
            apply ih
            omega
      · rw [if_neg hfull]
        omega

/-! ## Making room by throwing away the oldest -/

/-- The key of the first entry of least rank below a bound. -/
def oldestFrom (rank : α → Int) (least : Int) (best : Option κ) : List (Entry κ α) → Option κ
  | [] => best
  | e :: rest =>
      if rank e.2 < least then oldestFrom rank (rank e.2) (some e.1) rest
      else oldestFrom rank least best rest

/-- While the table has `limit` entries, the oldest of rank below `bound` goes. -/
def prune (o : Visits) (rank : α → Int) (bound : Int) (limit : Nat) :
    Nat → Table κ α → Table κ α
  | 0, t => t
  | fuel + 1, t =>
      if limit ≤ size t then
        match oldestFrom rank bound none (o.order t.entries) with
        | none => t
        | some k => prune o rank bound limit fuel (t.erase k)
      else t

theorem prune_of_lt (o : Visits) (rank : α → Int) (bound : Int) {limit : Nat} (fuel : Nat)
    {t : Table κ α} (h : size t < limit) : prune o rank bound limit fuel t = t := by
  cases fuel with
  | zero => rfl
  | succ fuel => rw [prune, if_neg (by omega)]

omit [DecidableEq κ] in
/-- The entry that is found is the best so far, or one of the list of least rank. -/
theorem oldestFrom_spec (rank : α → Int) (least : Int) (best : Option κ)
    (entries : List (Entry κ α)) {k : κ} (h : oldestFrom rank least best entries = some k) :
    (best = some k ∧ ∀ e ∈ entries, least ≤ rank e.2) ∨
      ∃ v, (⟨k, v⟩ : Entry κ α) ∈ entries ∧ rank v < least ∧ ∀ e ∈ entries, rank v ≤ rank e.2 := by
  induction entries generalizing least best with
  | nil => exact .inl ⟨h, by simp⟩
  | cons e entries ih =>
      unfold oldestFrom at h
      split at h
      · rename_i hless
        right
        rcases ih _ _ h with ⟨hbest, hleast⟩ | ⟨v, hmem, hv, hleast⟩
        · refine ⟨e.2, ?_, hless, ?_⟩
          · cases hbest
            simp
          · simpa using hleast
        · refine ⟨v, by simp [hmem], by omega, ?_⟩
          intro e' he'
          rcases List.mem_cons.mp he' with rfl | he'
          · omega
          · exact hleast e' he'
      · rename_i hless
        rcases ih _ _ h with ⟨hbest, hleast⟩ | ⟨v, hmem, hv, hleast⟩
        · left
          refine ⟨hbest, ?_⟩
          intro e' he'
          rcases List.mem_cons.mp he' with rfl | he'
          · omega
          · exact hleast e' he'
        · right
          refine ⟨v, by simp [hmem], hv, ?_⟩
          intro e' he'
          rcases List.mem_cons.mp he' with rfl | he'
          · omega
          · exact hleast e' he'

theorem oldest_spec (o : Visits) (rank : α → Int) (bound : Int) (t : Table κ α) {k : κ}
    (h : oldestFrom rank bound none (o.order t.entries) = some k) :
    ∃ v, t.lookup k = some v ∧ ∀ k' v', t.lookup k' = some v' → rank v ≤ rank v' := by
  rcases oldestFrom_spec rank bound none _ h with ⟨hnone, -⟩ | ⟨v, hmem, -, hleast⟩
  · cases hnone
  · refine ⟨v, lookup_eq_some_iff.mpr ((o.perm _).mem_iff.mp hmem), fun k' v' h' => ?_⟩
    exact hleast ⟨k', v'⟩ ((o.perm _).mem_iff.mpr (lookup_eq_some_iff.mp h'))

omit [DecidableEq κ] in
/-- The search that starts with nothing finds something when every rank is below the bound. -/
theorem oldestFrom_isSome (rank : α → Int) (least : Int) (best : Option κ)
    (entries : List (Entry κ α))
    (h : best.isSome = true ∨ ∃ e ∈ entries, rank e.2 < least) :
    (oldestFrom rank least best entries).isSome = true := by
  induction entries generalizing least best with
  | nil =>
      rcases h with h | ⟨e, he, -⟩
      · exact h
      · cases he
  | cons e entries ih =>
      unfold oldestFrom
      by_cases hless : rank e.2 < least
      · rw [if_pos hless]
        exact ih _ _ (.inl rfl)
      · rw [if_neg hless]
        apply ih
        rcases h with h | ⟨e', he', hrank⟩
        · exact .inl h
        · rcases List.mem_cons.mp he' with rfl | he'
          · exact absurd hrank hless
          · exact .inr ⟨e', he', hrank⟩

/-- Pruning by rank makes room. -/
theorem size_prune_lt (o : Visits) (rank : α → Int) (bound : Int) {limit : Nat}
    (hlimit : 0 < limit) (fuel : Nat) {t : Table κ α} (hfuel : size t ≤ fuel)
    (hrank : ∀ k v, t.lookup k = some v → rank v < bound) :
    size (prune o rank bound limit fuel t) < limit := by
  induction fuel generalizing t with
  | zero =>
      rw [prune]
      omega
  | succ fuel ih =>
      unfold prune
      by_cases hfull : limit ≤ size t
      · rw [if_pos hfull]
        have hpos : 0 < t.entries.length := by
          have hsize : size t = t.entries.length := rfl
          omega
        obtain ⟨e, he⟩ := List.exists_mem_of_length_pos hpos
        have hfound := oldestFrom_isSome rank bound none (o.order t.entries)
          (.inr ⟨e, (o.perm _).mem_iff.mpr he, hrank e.1 e.2 (lookup_eq_some_iff.mpr he)⟩)
        cases hold : oldestFrom rank bound none (o.order t.entries) with
        | none =>
            rw [hold] at hfound
            cases hfound
        | some k =>
            obtain ⟨v, hv, -⟩ := oldest_spec o rank bound t hold
            have hless := size_erase_lt hv
            apply ih
            · omega
            · intro k' v' h'
              exact hrank k' v' (lookup_of_erase h')
      · rw [if_neg hfull]
        omega

theorem lookup_prune_le (o : Visits) (rank : α → Int) (bound : Int) (limit fuel : Nat)
    (t : Table κ α) {k : κ} {v : α}
    (h : (prune o rank bound limit fuel t).lookup k = some v) : t.lookup k = some v := by
  induction fuel generalizing t with
  | zero => exact h
  | succ fuel ih =>
      unfold prune at h
      split at h
      · split at h
        · exact h
        · exact lookup_of_erase (ih _ h)
      · exact h

/-- An entry that is lost stands in a full table, and none of the others is older. -/
theorem prune_lost (o : Visits) (rank : α → Int) (bound : Int) (limit fuel : Nat)
    (t : Table κ α) {k : κ} {v : α} (hmem : t.lookup k = some v)
    (hlost : (prune o rank bound limit fuel t).lookup k = none) :
    ∃ others : List κ, others.Nodup ∧ limit ≤ others.length + 1 ∧ k ∉ others ∧
      ∀ k' ∈ others, ∃ v', t.lookup k' = some v' ∧ rank v ≤ rank v' := by
  induction fuel generalizing t with
  | zero =>
      rw [prune, hmem] at hlost
      cases hlost
  | succ fuel ih =>
      unfold prune at hlost
      split at hlost
      · rename_i hfull
        split at hlost
        · rw [hmem] at hlost
          cases hlost
        · rename_i oldest holdest
          obtain ⟨w, hw, hleast⟩ := oldest_spec o rank bound t holdest
          by_cases hk : k = oldest
          · -- everything else in the table
            subst hk
            rw [hmem] at hw
            cases hw
            refine ⟨(t.erase k).keys, (t.erase k).keys_nodup, ?_, ?_, fun k' hk' => ?_⟩
            · rw [AList.keys_erase, List.length_erase_of_mem, length_keys]
              · omega
              · exact AList.mem_keys.mp (AList.lookup_isSome.mp (by simp [hmem]))
            · intro h
              exact (AList.mem_erase.mp (AList.mem_keys.mpr h)).1 rfl
            · have hin := (AList.mem_erase.mp (AList.mem_keys.mpr hk')).2
              obtain ⟨v', hv'⟩ := Option.isSome_iff_exists.mp (AList.lookup_isSome.mpr hin)
              exact ⟨v', hv', hleast k' v' hv'⟩
          · have hrest : (t.erase oldest).lookup k = some v := by
              rw [lookup_erase_eq, if_neg hk]
              exact hmem
            obtain ⟨others, hnodup, hlength, hnot, hrank⟩ := ih _ hrest hlost
            refine ⟨others, hnodup, hlength, hnot, fun k' hk' => ?_⟩
            obtain ⟨v', hv', hle⟩ := hrank k' hk'
            exact ⟨v', lookup_of_erase hv', hle⟩
      · rw [hmem] at hlost
        cases hlost

end EdgeGuard.Base.HashTable
