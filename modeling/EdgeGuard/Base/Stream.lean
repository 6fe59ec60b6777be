import EdgeGuard.Base.Framing

/-!
# Frames on a byte stream

Two programs talk over a connection that keeps the order of bytes but moves as many of
them in a call as it likes, interrupts calls, and may fail in any of them.  A frame is a
text behind its length in four bytes.

What the calls come to is a list of turns, which ends where a call fails.

## Main results

* `writeFrame_prefix` — what was sent is the front of the frame.
* `readFrame_of_prefix` — what is read off the front of a frame is its text.
* `writeFrame_enough`, `readFrame_enough` — without a failure all of it goes through.
-/

namespace EdgeGuard.Base.Stream

open EdgeGuard.Base.CText EdgeGuard.Base.Framing

inductive Turn
  | interrupted
  /-- A byte goes through, and more of them where there are more. -/
  | moved (more : Nat)

/-- How many turns move something. -/
def moves : List Turn → Nat
  | [] => 0
  | .interrupted :: turns => moves turns
  | .moved _ :: turns => moves turns + 1

/-! ## Exact numbers of bytes -/

/-- What was read, what is left of the stream, and the turns that are left. -/
structure Got where
  data : Bytes
  rest : Bytes
  turns : List Turn

/-- The loop that reads so many bytes off a stream. -/
def readExact : List Turn → Nat → Bytes → Option Got
  | turns, 0, incoming => some ⟨[], incoming, turns⟩
  | [], _ + 1, _ => none
  | .interrupted :: turns, length + 1, incoming => readExact turns (length + 1) incoming
  | .moved more :: turns, length + 1, incoming =>
      let count := min (more + 1) (min (length + 1) incoming.length)
      if count = 0 then none
      else (readExact turns (length + 1 - count) (incoming.drop count)).map fun g =>
        { g with data := incoming.take count ++ g.data }

/-- What was sent, whether that was all, and the turns that are left. -/
structure Put where
  sent : Bytes
  done : Bool
  turns : List Turn

/-- The loop that sends a text. -/
def writeExact : List Turn → Bytes → Put
  | turns, [] => ⟨[], true, turns⟩
  | [], _ :: _ => ⟨[], false, []⟩
  | .interrupted :: turns, byte :: data => writeExact turns (byte :: data)
  | .moved more :: turns, byte :: data =>
      let put := writeExact turns (data.drop more)
      { put with sent := byte :: (data.take more ++ put.sent) }

/-- What is read is the next bytes, as many as asked for. -/
theorem readExact_some {turns : List Turn} {length : Nat} {incoming : Bytes} {g : Got}
    (h : readExact turns length incoming = some g) :
    incoming = g.data ++ g.rest ∧ g.data.length = length := by
  induction turns generalizing length incoming g with
  | nil =>
      cases length with
      | zero =>
          cases h
          exact ⟨rfl, rfl⟩
      | succ length => cases h
  | cons turn turns ih =>
      cases length with
      | zero =>
          cases h
          exact ⟨rfl, rfl⟩
      | succ length =>
          cases turn with
          | interrupted => exact ih h
          | moved more =>
              simp only [readExact] at h
              split at h
              · cases h
              · obtain ⟨g', hg', rfl⟩ := Option.map_eq_some_iff.mp h
                obtain ⟨hsplit, hlength⟩ := ih hg'
                constructor
                · show incoming = (incoming.take _ ++ g'.data) ++ g'.rest
                  rw [List.append_assoc, ← hsplit, List.take_append_drop]
                · show (incoming.take _ ++ g'.data).length = length + 1
                  rw [List.length_append, List.length_take, hlength]
                  omega

/-- With enough turns the bytes that were asked for are read. -/
theorem readExact_enough {turns : List Turn} {length : Nat} {incoming : Bytes}
    (hmoves : length ≤ moves turns) (hlength : length ≤ incoming.length) :
    ∃ g, readExact turns length incoming = some g ∧ moves turns ≤ moves g.turns + length := by
  induction turns generalizing length incoming with
  | nil =>
      obtain rfl : length = 0 := Nat.le_zero.mp hmoves
      exact ⟨⟨[], incoming, []⟩, rfl, Nat.le_refl _⟩
  | cons turn turns ih =>
      cases length with
      | zero => exact ⟨⟨[], incoming, turn :: turns⟩, rfl, Nat.le_refl _⟩
      | succ length =>
          cases turn with
          | interrupted => exact ih hmoves hlength
          | moved more =>
              have hmoves : length + 1 ≤ moves turns + 1 := hmoves
              simp only [readExact]
              rw [if_neg (by omega)]
              obtain ⟨g, hg, hleft⟩ := @ih
                (length + 1 - min (more + 1) (min (length + 1) incoming.length))
                (incoming.drop (min (more + 1) (min (length + 1) incoming.length)))
                (by omega) (by
                  rw [List.length_drop]
                  omega)
              refine ⟨_, by rw [hg]; rfl, ?_⟩
              show moves turns + 1 ≤ moves g.turns + (length + 1)
              omega

/-- What is sent is a prefix, the whole when it is done. -/
theorem writeExact_prefix (turns : List Turn) (data : Bytes) :
    ∃ unsent, data = (writeExact turns data).sent ++ unsent ∧
      ((writeExact turns data).done = true ↔ unsent = []) := by
  induction turns generalizing data with
  | nil =>
      cases data with
      | nil => exact ⟨[], rfl, by simp [writeExact]⟩
      | cons byte data => exact ⟨byte :: data, rfl, by simp [writeExact]⟩
  | cons turn turns ih =>
      cases data with
      | nil => exact ⟨[], by cases turn <;> rfl, by cases turn <;> simp [writeExact]⟩
      | cons byte data =>
          cases turn with
          | interrupted => exact ih (byte :: data)
          | moved more =>
              obtain ⟨unsent, hsplit, hdone⟩ := ih (data.drop more)
              refine ⟨unsent, ?_, hdone⟩
              show byte :: data =
                byte :: (data.take more ++ (writeExact turns (data.drop more)).sent) ++ unsent
              rw [List.cons_append, List.append_assoc, ← hsplit, List.take_append_drop]

/-- With enough turns the whole is sent. -/
theorem writeExact_enough {turns : List Turn} {data : Bytes} (hmoves : data.length ≤ moves turns) :
    (writeExact turns data).done = true ∧
      moves turns ≤ moves (writeExact turns data).turns + data.length := by
  induction turns generalizing data with
  | nil =>
      obtain rfl : data = [] := List.length_eq_zero_iff.mp (Nat.le_zero.mp hmoves)
      exact ⟨rfl, Nat.le_refl _⟩
  | cons turn turns ih =>
      cases data with
      | nil => cases turn <;> exact ⟨rfl, Nat.le_refl _⟩
      | cons byte data =>
          cases turn with
          | interrupted => exact ih hmoves
          | moved more =>
              have hmoves : data.length + 1 ≤ moves turns + 1 := hmoves
              obtain ⟨hdone, hleft⟩ := @ih (data.drop more) (by
                rw [List.length_drop]
                omega)
              refine ⟨hdone, ?_⟩
              show moves turns + 1 ≤ moves (writeExact turns (data.drop more)).turns +
                (data.length + 1)
              rw [List.length_drop] at hleft
              omega

/-! ## Frames -/

/-- A number from its bytes, the highest first. -/
def number (data : Bytes) : Nat := data.foldl (fun n b => n * 256 + b.toNat) 0

/-- The length, then the text. -/
def writeFrame (turns : List Turn) (data : Bytes) : Put :=
  let header := writeExact turns (bigEndian 4 data.length)
  if header.done then
    let body := writeExact header.turns data
    { body with sent := header.sent ++ body.sent }
  else header

/-- The text of a frame, which is not empty and not over the limit. -/
def readFrame (turns : List Turn) (limit : Nat) (incoming : Bytes) : Option Got :=
  match readExact turns 4 incoming with
  | none => none
  | some header =>
      let length := number header.data
      if length < 1 || limit < length then none else readExact header.turns length header.rest

theorem number_append (n : Nat) (data : Bytes) :
    data.foldl (fun n b => n * 256 + b.toNat) n = n * 256 ^ data.length + number data := by
  unfold number
  induction data generalizing n with
  | nil => simp
  | cons b data ih =>
      rw [List.foldl_cons, List.foldl_cons, ih, ih (0 * 256 + b.toNat), List.length_cons,
        Nat.pow_succ, Nat.zero_mul, Nat.zero_add, Nat.add_mul, Nat.mul_assoc, Nat.mul_comm 256,
        Nat.add_assoc]

/-- A number is read from its encoding up to the width. -/
theorem number_bigEndian (width value : Nat) :
    number (bigEndian width value) = value % 256 ^ width := by
  induction width with
  | zero => simp [bigEndian, number, Nat.mod_one]
  | succ width ih =>
      have hbyte : ((value / 256 ^ width).toUInt8).toNat = value / 256 ^ width % 256 := by
        rw [Nat.toUInt8, UInt8.toNat_ofNat']
      have hsplit : number (bigEndian (width + 1) value) =
          value / 256 ^ width % 256 * 256 ^ width + number (bigEndian width value) := by
        show (bigEndian width value).foldl _ (0 * 256 + _) = _
        rw [number_append, length_bigEndian, hbyte, Nat.zero_mul, Nat.zero_add]
      rw [hsplit, ih, Nat.pow_succ, Nat.mod_mul, Nat.add_comm, Nat.mul_comm]

/-- A frame is sent up to a place. -/
theorem writeFrame_prefix (turns : List Turn) (data : Bytes) :
    ∃ unsent, field data = (writeFrame turns data).sent ++ unsent ∧
      ((writeFrame turns data).done = true ↔ unsent = []) := by
  obtain ⟨unsent, hsplit, hdone⟩ := writeExact_prefix turns (bigEndian 4 data.length)
  unfold writeFrame field
  simp only
  split
  · rename_i hheader
    obtain rfl := hdone.mp hheader
    obtain ⟨unsent', hsplit', hdone'⟩ :=
      writeExact_prefix (writeExact turns (bigEndian 4 data.length)).turns data
    refine ⟨unsent', ?_, hdone'⟩
    rw [List.append_nil] at hsplit
    show bigEndian 4 data.length ++ data = _ ++ _ ++ unsent'
    rw [List.append_assoc, ← hsplit', ← hsplit]
  · rename_i hheader
    refine ⟨unsent ++ data, ?_, ?_⟩
    · rw [← List.append_assoc, ← hsplit]
    · constructor
      · intro hdone'
        exact absurd hdone' hheader
      · intro hempty
        exact absurd (hdone.mpr (List.append_eq_nil_iff.mp hempty).1) hheader

theorem writeFrame_enough {turns : List Turn} {data : Bytes}
    (hmoves : 4 + data.length ≤ moves turns) : (writeFrame turns data).done = true := by
  obtain ⟨hdone, hleft⟩ := @writeExact_enough turns (bigEndian 4 data.length) (by
    rw [length_bigEndian]
    omega)
  rw [length_bigEndian] at hleft
  unfold writeFrame
  simp only
  rw [if_pos hdone]
  exact (writeExact_enough (by omega)).1

/-- What is read off the front of a frame is the text of the frame, all of which is
there. -/
theorem readFrame_of_prefix {turns : List Turn} {limit : Nat} {incoming unseen data : Bytes}
    {g : Got} (hframe : field data = incoming ++ unseen) (hlength : data.length < 256 ^ 4)
    (h : readFrame turns limit incoming = some g) :
    g.data = data ∧ g.rest = [] ∧ unseen = [] ∧ 1 ≤ data.length ∧ data.length ≤ limit := by
  unfold readFrame at h
  cases hheader : readExact turns 4 incoming with
  | none =>
      rw [hheader] at h
      cases h
  | some header =>
      rw [hheader] at h
      obtain ⟨hsplit, hfour⟩ := readExact_some hheader
      rw [hsplit, List.append_assoc] at hframe
      obtain ⟨hbytes, hdata⟩ := List.append_inj hframe (by rw [length_bigEndian, hfour])
      have hnumber : number header.data = data.length := by
        rw [← hbytes, number_bigEndian, Nat.mod_eq_of_lt hlength]
      simp only [hnumber] at h
      split at h
      · cases h
      · rename_i hbounds
        simp only [Bool.or_eq_true, decide_eq_true_eq, not_or] at hbounds
        obtain ⟨hrest, hcount⟩ := readExact_some h
        have hall : data.length = (g.data ++ g.rest ++ unseen).length := by
          rw [← hrest, ← hdata]
        simp only [List.length_append, hcount] at hall
        have hgrest : g.rest = [] := List.length_eq_zero_iff.mp (by omega)
        have hunseen : unseen = [] := List.length_eq_zero_iff.mp (by omega)
        refine ⟨?_, hgrest, hunseen, by omega, by omega⟩
        rw [hdata, hrest, hgrest, hunseen, List.append_nil, List.append_nil]

/-- With enough turns a frame is read as it was sent. -/
theorem readFrame_enough {turns : List Turn} {limit : Nat} {data : Bytes}
    (hmoves : 4 + data.length ≤ moves turns) (hpos : 1 ≤ data.length)
    (hlimit : data.length ≤ limit) (hlength : data.length < 256 ^ 4) :
    (readFrame turns limit (field data)).isSome = true := by
  obtain ⟨header, hheader, hleft⟩ := @readExact_enough turns 4 (field data)
    (by omega) (by
      rw [field, List.length_append, length_bigEndian]
      omega)
  obtain ⟨hsplit, hfour⟩ := readExact_some hheader
  obtain ⟨hbytes, hdata⟩ := List.append_inj hsplit (by rw [length_bigEndian, hfour])
  have hnumber : number header.data = data.length := by
    rw [← hbytes, number_bigEndian, Nat.mod_eq_of_lt hlength]
  obtain ⟨g, hg, -⟩ := @readExact_enough header.turns data.length header.rest
    (by omega) (Nat.le_of_eq (by rw [hdata]))
  unfold readFrame
  rw [hheader]
  simp only [hnumber]
  rw [if_neg (by
    simp only [Bool.or_eq_true, decide_eq_true_eq, not_or]
    omega), hg]
  rfl

end EdgeGuard.Base.Stream
