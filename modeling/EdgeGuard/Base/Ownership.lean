import Mathlib.Data.List.Induction
import EdgeGuard.Base.Trace

/-!
# Leases

A lease is held by at most one owner at a time.  Renewing it starts a new epoch
without an owner, and only a lease without an owner may be claimed.  The epochs
are counted, so two moments of one epoch have no renewal between them.

## Main results

* `claim_of_owner` — whoever holds the lease claimed it, and nothing renewed or
  claimed it since.
* `owner_unique` — within one epoch the lease has one owner.
-/

namespace EdgeGuard.Base.Ownership

open EdgeGuard.Base.Trace

variable {Owner : Type}

structure Lease (Owner : Type) where
  epoch : Nat
  owner : Option Owner

/-- The lease that nobody ever held. -/
def Lease.fresh : Lease Owner := ⟨0, none⟩

/-- What an act does to a lease. -/
inductive Effect (Owner : Type)
  | keep
  | renew
  | claim (owner : Owner)
  deriving DecidableEq

def Lease.act (l : Lease Owner) : Effect Owner → Lease Owner
  | .keep => l
  | .renew => ⟨l.epoch + 1, none⟩
  | .claim owner => { l with owner := some owner }

/-- The lease after some effects. -/
def held (effects : List (Effect Owner)) : Lease Owner := run Lease.act .fresh effects

@[simp] theorem held_nil : held ([] : List (Effect Owner)) = .fresh := rfl

theorem held_snoc (effects : List (Effect Owner)) (e : Effect Owner) :
    held (effects ++ [e]) = (held effects).act e := by
  simp [held]

/-- Every claim finds the lease without an owner. -/
def Orderly : List (Effect Owner) → Prop :=
  Throughout fun front e => ∀ owner, e = .claim owner → (held front).owner = none

/-- An owner has claimed, and everything since kept the state. -/
theorem claim_of_owner {effects : List (Effect Owner)} {owner : Owner}
    (h : (held effects).owner = some owner) :
    ∃ front back, effects = front ++ .claim owner :: back ∧ ∀ e ∈ back, e = .keep := by
  induction effects using List.reverseRecOn with
  | nil => cases h
  | append_singleton effects e ih =>
      rw [held_snoc] at h
      cases e with
      | keep =>
          obtain ⟨front, back, hsplit, hback⟩ := ih h
          refine ⟨front, back ++ [.keep], by simp [hsplit], ?_⟩
          intro e he
          rcases List.mem_append.mp he with he | he
          · exact hback e he
          · exact List.mem_singleton.mp he
      | renew => cases h
      | claim p =>
          cases h
          exact ⟨effects, [], rfl, nofun⟩

/-- The epoch counts the renewals. -/
theorem held_epoch_append (front back : List (Effect Owner)) [DecidableEq Owner] :
    (held (front ++ back)).epoch = (held front).epoch + back.count .renew := by
  induction back using List.reverseRecOn with
  | nil => simp
  | append_singleton back e ih =>
      rw [← List.append_assoc, held_snoc]
      cases e with
      | keep => simpa [Lease.act] using ih
      | renew =>
          show (held (front ++ back)).epoch + 1 = _
          rw [ih]
          simp [Nat.add_assoc]
      | claim p => simpa [Lease.act] using ih

/-- An owner keeps the lease until it is renewed. -/
theorem owner_kept {front back : List (Effect Owner)} {owner : Owner}
    (horderly : Orderly (front ++ back)) (h : (held front).owner = some owner)
    (hback : .renew ∉ back) : (held (front ++ back)).owner = some owner := by
  induction back using List.reverseRecOn with
  | nil => simpa using h
  | append_singleton back e ih =>
      rw [← List.append_assoc] at horderly ⊢
      have hkept := ih (Throughout.front horderly) (fun hmem => hback (List.mem_append_left _ hmem))
      rw [held_snoc]
      cases e with
      | keep => exact hkept
      | renew => exact absurd (by simp) hback
      | claim p =>
          have hfree := horderly (front ++ back) _ [] rfl p rfl
          rw [hkept] at hfree
          cases hfree

theorem owner_unique [DecidableEq Owner] {front back : List (Effect Owner)} {p q : Owner}
    (horderly : Orderly (front ++ back))
    (hepoch : (held (front ++ back)).epoch = (held front).epoch)
    (hp : (held front).owner = some p) (hq : (held (front ++ back)).owner = some q) : p = q := by
  have hcount : back.count .renew = 0 := by
    rw [held_epoch_append] at hepoch
    omega
  have hkept := owner_kept horderly hp (List.count_eq_zero.mp hcount)
  rw [hkept] at hq
  exact Option.some.inj hq

end EdgeGuard.Base.Ownership
