import EdgeGuard.Base.Trace

/-!
# A directory changed by renames and removals

The files of one directory under a fixed set of names, changed only by calls
that are atomic for whoever looks: the rename of a complete temporary file over
a name, the rename of one name to another, and the removal of a name.  A call
that fails changes nothing and is no act, so an act is a call that succeeded.

A writer is the list of its acts; `EdgeGuard.Base.Trace` says what an
interrupted one leaves behind.

## Main results

* `Survives.split` — what a power loss may leave of acts that were added.
* `Lasting.append` — the rule for acts that are not synced yet.
* `Survives.of_sync` — a sync leaves nothing to lose.
-/

namespace EdgeGuard.Base.DurableDirectory

variable {ν α : Type} [DecidableEq ν]

/-- What a writer does to the directory. -/
inductive DirAct (ν α : Type) where
  /-- The rename of a complete temporary file over the name. -/
  | replace (name : ν) (content : α)
  | rename (source target : ν)
  | unlink (name : ν)
  /-- The `fsync` of the directory. -/
  | sync
  deriving DecidableEq, Repr

def perform (d : ν → Option α) : DirAct ν α → ν → Option α
  | .replace name content => Function.update d name (some content)
  | .rename source target => Function.update (Function.update d source none) target (d source)
  | .unlink name => Function.update d name none
  | .sync => d

@[simp] theorem perform_sync (d : ν → Option α) : perform d .sync = d := rfl

/-- The names that a list of removals leaves. -/
theorem run_unlinks (names : List ν) (d : ν → Option α) (name : ν) :
    Trace.run perform d (names.map .unlink) name = if name ∈ names then none else d name := by
  induction names generalizing d with
  | nil => simp
  | cons n names ih =>
      rw [List.map_cons, Trace.run_cons, ih]
      by_cases hname : name = n
      · subst hname
        simp [perform]
      · simp [perform, hname]

/-! ## Power loss -/

/-- What the acts on a directory may have come to after the power went: all of them
up to the last sync, and as many of the later ones as happened to be written, in
order. -/
def Survives (base : ν → Option α) (acts : List (DirAct ν α)) (d : ν → Option α) : Prop :=
  ∃ kept lost, acts = kept ++ lost ∧ .sync ∉ lost ∧ d = Trace.run perform base kept

theorem survives_all (base : ν → Option α) (acts : List (DirAct ν α)) :
    Survives base acts (Trace.run perform base acts) :=
  ⟨acts, [], by simp, by simp, rfl⟩

/-- Further acts are lost altogether, or nothing in front of them is. -/
theorem Survives.split {base d : ν → Option α} {acts more : List (DirAct ν α)}
    (h : Survives base (acts ++ more) d) :
    (.sync ∉ more ∧ Survives base acts d) ∨
      ∃ front back, more = front ++ back ∧ .sync ∉ back ∧
        d = Trace.run perform (Trace.run perform base acts) front := by
  obtain ⟨kept, lost, heq, hsync, rfl⟩ := h
  rcases List.append_eq_append_iff.mp heq with ⟨front, rfl, rfl⟩ | ⟨tail, rfl, rfl⟩
  · right
    exact ⟨front, lost, rfl, hsync, by rw [Trace.run_append]⟩
  · left
    rw [List.mem_append, not_or] at hsync
    exact ⟨hsync.2, kept, tail, rfl, hsync.1, rfl⟩

/-- Behind a sync there is one directory to be found. -/
theorem Survives.of_sync {base d : ν → Option α} {acts : List (DirAct ν α)}
    (h : Survives base (acts ++ [.sync]) d) : d = Trace.run perform base acts := by
  rcases h.split with ⟨hsync, -⟩ | ⟨front, back, hmore, hsync, rfl⟩
  · simp at hsync
  · rcases List.append_eq_singleton_iff.mp hmore.symm with ⟨rfl, rfl⟩ | ⟨rfl, rfl⟩
    · simp at hsync
    · simp

/-- The property holds of whatever a power loss may leave, and of the directory as
it stands. -/
def Lasting (Inv : (ν → Option α) → Prop) (base : ν → Option α) (acts : List (DirAct ν α)) :
    Prop :=
  ∀ d, Survives base acts d → Inv d

variable {Inv : (ν → Option α) → Prop} {base : ν → Option α} {acts : List (DirAct ν α)}

theorem Lasting.now (h : Lasting Inv base acts) : Inv (Trace.run perform base acts) :=
  h _ (survives_all base acts)

theorem Lasting.mono {Inv' : (ν → Option α) → Prop} (h : Lasting Inv base acts)
    (hinv : ∀ d, Inv d → Inv' d) : Lasting Inv' base acts := fun d hd => hinv d (h d hd)

theorem lasting_nil (h : Inv base) : Lasting Inv base [] := by
  rintro d ⟨kept, lost, hsplit, -, rfl⟩
  rw [(List.append_eq_nil_iff.mp hsplit.symm).1]
  exact h

/-- What holds of everything that may be left holds when acts follow that keep it at
every point. -/
theorem Lasting.append (h : Lasting Inv base acts) {more : List (DirAct ν α)}
    (hmore : Trace.Keeps perform Inv (Trace.run perform base acts) more) :
    Lasting Inv base (acts ++ more) := by
  intro d hd
  rcases hd.split with ⟨-, hd⟩ | ⟨front, back, rfl, -, rfl⟩
  · exact h d hd
  · have hfront := hmore front.length
    rwa [List.take_left] at hfront

end EdgeGuard.Base.DurableDirectory
