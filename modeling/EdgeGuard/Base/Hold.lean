import Mathlib.Data.List.Induction
import EdgeGuard.Base.Trace

/-!
# Buttons that are held

A button is pressed and let go.  Holding it for a while counts once: when the time
is over the hold is answered, and the button has to come up before it counts again.  A
button that is gone does not count.

## Main results

* `since_eq_some_iff` — a hold goes on exactly when its press is the last thing that
  happened to the button, repetitions of it aside.
* `pressed_of_since` — while a hold goes on the button is down.
-/

namespace EdgeGuard.Base.Hold

open EdgeGuard.Base.Trace

variable {Time : Type}

/-- What happens to a button. -/
inductive Act (Time : Type)
  | down (now : Time)
  | up
  | gone
  /-- The hold is answered. -/
  | elapsed
  deriving DecidableEq

structure Button (Time : Type) where
  pressed : Bool
  /-- When the hold began that goes on. -/
  since : Option Time

def Button.act (b : Button Time) : Act Time → Button Time
  | .down now => if b.pressed then b else ⟨true, some now⟩
  | .up => ⟨false, none⟩
  | .gone => ⟨false, none⟩
  | .elapsed => { b with since := none }

/-- The button after some acts. -/
def after (acts : List (Act Time)) : Button Time := run Button.act ⟨false, none⟩ acts

@[simp] theorem after_nil : after ([] : List (Act Time)) = ⟨false, none⟩ := rfl

theorem after_append (acts acts' : List (Act Time)) :
    after (acts ++ acts') = run Button.act (after acts) acts' := run_append Button.act _ _ _

theorem after_snoc (acts : List (Act Time)) (a : Act Time) :
    after (acts ++ [a]) = (after acts).act a := after_append acts [a]

/-- A press that the button repeats, and nothing else. -/
def Repeats (a : Act Time) : Prop := ∃ now, a = .down now

/-- The press of a hold that goes on. -/
structure Holding (acts : List (Act Time)) (start : Time) : Prop where
  press : ∃ front back, acts = front ++ .down start :: back ∧ (after front).pressed = false ∧
    ∀ a ∈ back, Repeats a

/-- A hold that runs is of a pressed button. -/
theorem pressed_of_since {acts : List (Act Time)} {start : Time}
    (h : (after acts).since = some start) : (after acts).pressed = true := by
  induction acts using List.reverseRecOn with
  | nil => cases h
  | append_singleton acts a ih =>
      rw [after_snoc] at h ⊢
      cases a with
      | down now =>
          simp only [Button.act] at h ⊢
          split
          · assumption
          · rfl
      | up => cases h
      | gone => cases h
      | elapsed => cases h

theorem since_of_repeats {b : Button Time} (hpressed : b.pressed = true) {acts : List (Act Time)}
    (h : ∀ a ∈ acts, Repeats a) : run Button.act b acts = b := by
  induction acts with
  | nil => rfl
  | cons a acts ih =>
      obtain ⟨now, rfl⟩ := h a List.mem_cons_self
      rw [run_cons, Button.act, if_pos hpressed]
      exact ih fun a ha => h a (List.mem_cons_of_mem _ ha)

theorem since_of_holding {acts : List (Act Time)} {start : Time} (h : Holding acts start) :
    (after acts).since = some start := by
  obtain ⟨front, back, rfl, hup, hback⟩ := h.press
  have hpress : (after front).act (.down start) = ⟨true, some start⟩ := by
    rw [Button.act, if_neg (by rw [hup]; decide)]
  rw [after_append, run_cons, hpress, since_of_repeats rfl hback]

/-- A hold goes on exactly when its press is the last thing that happened to the button. -/
theorem since_eq_some_iff {acts : List (Act Time)} {start : Time} :
    (after acts).since = some start ↔ Holding acts start := by
  refine ⟨fun h => ?_, since_of_holding⟩
  induction acts using List.reverseRecOn with
  | nil => cases h
  | append_singleton acts a ih =>
      rw [after_snoc] at h
      cases a with
      | down now =>
          simp only [Button.act] at h
          split at h
          · obtain ⟨front, back, rfl, hup, hback⟩ := (ih h).press
            refine ⟨front, back ++ [.down now], by simp, hup, ?_⟩
            intro a ha
            rcases List.mem_append.mp ha with ha | ha
            · exact hback a ha
            · exact ⟨now, List.mem_singleton.mp ha⟩
          · rename_i hup
            cases h
            exact ⟨acts, [], rfl, by simpa using hup, nofun⟩
      | up => cases h
      | gone => cases h
      | elapsed => cases h

end EdgeGuard.Base.Hold
