import EdgeGuard.Base.CText
import Mathlib.Data.Nat.Find

/-!
# A text in pieces

A reader asks for a text piece by piece, every piece of its own largest size, each one
where the last one ended, until a piece comes out short.

## Main results

* `joined_eq_take` — the pieces so far are the front of the text.
* `short_piece` — there is a first short piece, and it ends the text.
-/

namespace EdgeGuard.Base.Pieces

open EdgeGuard.Base.CText

variable (text : Bytes) (sizes : Nat → Nat)

def piece (offset size : Nat) : Bytes := (text.drop offset).take size

/-- Where the piece of an index begins. -/
def start : Nat → Nat
  | 0 => 0
  | k + 1 => start k + (piece text (start k) (sizes k)).length

/-- The pieces in front of an index. -/
def pieces (count : Nat) : List Bytes :=
  (List.range count).map fun k => piece text (start text sizes k) (sizes k)

variable {text sizes}

theorem length_piece (text : Bytes) (offset size : Nat) :
    (piece text offset size).length = min size (text.length - offset) := by
  rw [piece, List.length_take, List.length_drop]

theorem start_le (k : Nat) : start text sizes k ≤ text.length := by
  induction k with
  | zero => exact Nat.zero_le _
  | succ k ih =>
      rw [start, length_piece]
      omega

theorem take_piece (text : Bytes) (offset size : Nat) :
    text.take offset ++ piece text offset size =
      text.take (offset + (piece text offset size).length) := by
  rw [length_piece, piece, List.take_add, List.append_cancel_left_eq]
  by_cases hsize : size ≤ text.length - offset
  · rw [Nat.min_eq_left hsize]
  · rw [Nat.min_eq_right (by omega), List.take_of_length_le (by rw [List.length_drop]; omega),
      List.take_of_length_le (by rw [List.length_drop])]

theorem pieces_succ (count : Nat) :
    pieces text sizes (count + 1) =
      pieces text sizes count ++ [piece text (start text sizes count) (sizes count)] := by
  rw [pieces, List.range_succ, List.map_append]
  rfl

theorem joined_eq_take (count : Nat) :
    (pieces text sizes count).flatten = text.take (start text sizes count) := by
  induction count with
  | zero => rfl
  | succ count ih =>
      rw [pieces_succ, List.flatten_append, ih, start, ← take_piece]
      simp

theorem length_joined (count : Nat) :
    (pieces text sizes count).flatten.length = start text sizes count := by
  rw [joined_eq_take, List.length_take]
  exact Nat.min_eq_left (start_le count)

/-- While the pieces are whole the start moves on. -/
theorem start_of_whole {least : Nat} (hsizes : ∀ k, least ≤ sizes k) {count : Nat}
    (h : ∀ k < count, sizes k ≤ (piece text (start text sizes k) (sizes k)).length) :
    count * least ≤ start text sizes count := by
  induction count with
  | zero =>
      rw [Nat.zero_mul]
      exact Nat.zero_le _
  | succ count ih =>
      have hfront := ih fun k hk => h k (by omega)
      have hlast := h count (by omega)
      have hsize := hsizes count
      rw [start, Nat.add_mul, Nat.one_mul]
      omega

/-- The first short piece ends the text, after no more whole ones than fit in it. -/
theorem short_piece {least : Nat} (hleast : 0 < least) (hsizes : ∀ k, least ≤ sizes k) :
    ∃ n, n * least ≤ text.length ∧
      (∀ k < n, (piece text (start text sizes k) (sizes k)).length = sizes k) ∧
      (piece text (start text sizes n) (sizes n)).length < sizes n ∧
      (pieces text sizes (n + 1)).flatten = text := by
  have hsome : ∃ n, (piece text (start text sizes n) (sizes n)).length < sizes n := by
    by_contra hnone
    have hwhole : ∀ k, sizes k ≤ (piece text (start text sizes k) (sizes k)).length := by
      intro k
      by_contra hk
      exact hnone ⟨k, by omega⟩
    have hfar : (text.length + 1) * least ≤ start text sizes (text.length + 1) :=
      start_of_whole hsizes fun k _ => hwhole k
    have hend : start text sizes (text.length + 1) ≤ text.length := start_le _
    have hgrows := Nat.le_mul_of_pos_right (text.length + 1) hleast
    omega
  have hwhole : ∀ k < Nat.find hsome,
      (piece text (start text sizes k) (sizes k)).length = sizes k := by
    intro k hk
    have hlong := Nat.find_min hsome hk
    have hlength := length_piece text (start text sizes k) (sizes k)
    omega
  refine ⟨Nat.find hsome, ?_, hwhole, Nat.find_spec hsome, ?_⟩
  · have hfront := start_of_whole hsizes fun k hk => (hwhole k hk).ge
    exact Nat.le_trans hfront (start_le _)
  · have hshort := Nat.find_spec hsome
    rw [joined_eq_take, start]
    apply List.take_of_length_le
    rw [length_piece] at hshort ⊢
    omega

end EdgeGuard.Base.Pieces
