import Mathlib.Data.List.Basic

/-!
# One file under atomic replacement, crashes and power cuts

A file that is only ever replaced by renaming a complete temporary file over
it, and whose directory entry becomes durable with an `fsync` of the directory.
A process crash keeps what the file system shows; a power cut may bring back
any entry the file had since the last directory sync.

A writer is described by the list of its acts, so "the process died at some
point" is "only a prefix of the list happened", and no writer needs a second
description for its interrupted runs.

## Main results

* `Medium.Holds.act` — a property of every content the file may come back
  with is kept by an act that only writes contents with that property.
* `Medium.Holds.cut` — it is kept by a power cut.
* `Medium.Once.act`, `Medium.Once.cut` — a file that is written only where there is none
  is that file, or gone.
-/

namespace EdgeGuard.Base.DurableFile

/-- What a writer does to the file. -/
inductive FileAct (α : Type) where
  /-- The rename of a complete temporary file over the file. -/
  | replace (content : α)
  /-- The `fsync` of the directory. -/
  | sync
  deriving DecidableEq, Repr

/-- A file and the directory entries a power cut may bring back. -/
structure Medium (α : Type) where
  live : Option α
  older : List (Option α)

variable {α : Type}

namespace Medium

/-- Everything the file may contain after a power cut. -/
def contents (m : Medium α) : List (Option α) := m.live :: m.older

def act (m : Medium α) : FileAct α → Medium α
  | .replace content => { live := some content, older := m.live :: m.older }
  | .sync => { m with older := [] }

def run (m : Medium α) (acts : List (FileAct α)) : Medium α := acts.foldl act m

/-- `m'` is what a power cut may leave of `m`. -/
def Cut (m m' : Medium α) : Prop := ∃ c ∈ m.contents, m' = { live := c, older := [] }

/-- Every content the file may come back with has the property. -/
def Holds (P : α → Prop) (m : Medium α) : Prop := ∀ c, some c ∈ m.contents → P c

@[simp] theorem run_nil (m : Medium α) : m.run [] = m := rfl

@[simp] theorem run_cons (m : Medium α) (a : FileAct α) (acts : List (FileAct α)) :
    m.run (a :: acts) = (m.act a).run acts := rfl

@[simp] theorem run_append (m : Medium α) (xs ys : List (FileAct α)) :
    m.run (xs ++ ys) = (m.run xs).run ys := by
  simp [run]

theorem Holds.mono {P Q : α → Prop} {m : Medium α} (h : m.Holds P)
    (himp : ∀ c, P c → Q c) : m.Holds Q :=
  fun c hc => himp c (h c hc)

/-- An act that writes what has the property keeps it. -/
theorem Holds.act {P : α → Prop} {m : Medium α} (h : m.Holds P) {a : FileAct α}
    (ha : ∀ c, a = .replace c → P c) : (m.act a).Holds P := by
  cases a with
  | replace content =>
      intro c hc
      simp only [contents, Medium.act, List.mem_cons] at hc
      rcases hc with hc | hc | hc
      · cases hc
        exact ha content rfl
      · exact h c (by simp [contents, hc])
      · exact h c (by simp [contents, hc])
  | sync =>
      intro c hc
      simp only [contents, Medium.act, List.mem_singleton] at hc
      exact h c (by simp [contents, hc])

theorem Holds.cut {P : α → Prop} {m m' : Medium α} (h : m.Holds P)
    (hcut : Cut m m') : m'.Holds P := by
  obtain ⟨c, hc, rfl⟩ := hcut
  intro d hd
  simp only [contents, List.mem_singleton] at hd
  exact h d (by rw [hd]; exact hc)

/-! ## A file that is written once -/

/-- A power cut brings back what there is, or takes it away. -/
def Once (m : Medium α) : Prop := ∀ c ∈ m.contents, c = none ∨ c = m.live

/-- A power cut brings back what there is. -/
def Settled (m : Medium α) : Prop := ∀ c ∈ m.contents, c = m.live

theorem settled_start (c : Option α) : Settled ⟨c, []⟩ := by
  intro d hd
  exact List.mem_singleton.mp hd

theorem Settled.once {m : Medium α} (h : m.Settled) : m.Once := fun c hc => .inr (h c hc)

/-- A file that is written once stays so. -/
theorem Once.act {m : Medium α} (h : m.Once) {a : FileAct α}
    (ha : ∀ c, a = .replace c → m.live = none) : (m.act a).Once := by
  cases a with
  | replace content =>
      intro c hc
      rcases List.mem_cons.mp hc with hc | hc
      · exact .inr hc
      · left
        rcases h c hc with hnone | hlive
        · exact hnone
        · rw [hlive]
          exact ha content rfl
  | sync => exact (settled_start m.live).once

theorem settled_sync (m : Medium α) : (m.act .sync).Settled := settled_start m.live

theorem Once.cut {m m' : Medium α} (h : m.Once) (hcut : Cut m m') :
    m'.Settled ∧ (m'.live = none ∨ m'.live = m.live) := by
  obtain ⟨c, hc, rfl⟩ := hcut
  exact ⟨settled_start c, h c hc⟩

theorem Settled.cut {m m' : Medium α} (h : m.Settled) (hcut : Cut m m') : m'.live = m.live := by
  obtain ⟨c, hc, rfl⟩ := hcut
  exact h c hc

end Medium

end EdgeGuard.Base.DurableFile
