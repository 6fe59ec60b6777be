import EdgeGuard.Base.Json

/-!
# Flat objects: their fields, their raw bytes and their size

Both programs store a record as an object with constant member names, read it
back member by member with an exact type and a capacity for each string, and
search the raw bytes for the spelling of an escaped NUL before they parse.
This module holds the readers and, for each question a round trip raises, the
lemma about one member that an argument over the whole record repeats.

## Main results

* `writable_cons` — a member with a new, constant name keeps an object
  writable.
* `mentions_cons` — a constant name is no concern of the raw-byte search.
* `length_cons_le` — what a member adds to the text.
-/

namespace EdgeGuard.Base.JsonObject

open EdgeGuard.Base.CText EdgeGuard.Base.Utf8 EdgeGuard.Base.Json

/-! ## Readers -/

/-- A string member whose value fits a buffer of the given capacity. -/
def stringMember (object : Members) (name : Bytes) (capacity : Nat) : Option Bytes :=
  match object.find name with
  | some (.str value) => if value.length < capacity then some value else none
  | _ => none

def integerMember (object : Members) (name : Bytes) : Option Int :=
  match object.find name with
  | some (.int n) => some n
  | _ => none

def booleanMember (object : Members) (name : Bytes) : Option Bool :=
  match object.find name with
  | some (.bool b) => some b
  | _ => none

theorem stringMember_of_find (object : Members) (name : Bytes) {value : Bytes} {capacity : Nat}
    (hfind : object.find name = some (.str value)) (hlength : value.length < capacity) :
    stringMember object name capacity = some value := by
  simp [stringMember, hfind, hlength]

/-! ## Writing -/

/-- A member with a constant name. -/
theorem writable_cons {k : Bytes} {v : Value} {rest : Members}
    (hutf8 : valid k = true) (hplain : controlFree k = true)
    (hnew : rest.names.contains k = false) (hv : Writable v)
    (hrest : WritableMembers rest) : WritableMembers (.cons k v rest) :=
  ⟨⟨hutf8, hplain⟩, by simpa using hnew, hv, hrest⟩

/-! ## The search for an escaped NUL -/

/-- The six bytes that `strstr` looks for: an escaped NUL. -/
def nulEscape : Bytes := ascii "\\u0000"

theorem escapePattern_nulEscape : EscapePattern nulEscape :=
  ⟨⟨0x75, [0x30, 0x30, 0x30, 0x30], rfl, List.all_eq_true.mp (by decide)⟩⟩

theorem occursIn_of_no_backslash {s : Bytes} (h : (0x5c : UInt8) ∉ s) :
    occursIn nulEscape s = false :=
  occursIn_eq_false_of_not_mem h

theorem mentions_cons {k : Bytes} (hk : (0x5c : UInt8) ∉ k) (v : Value)
    (rest : Members) :
    mentionsMembers nulEscape (.cons k v rest) =
      (mentions nulEscape v || mentionsMembers nulEscape rest) := by
  rw [mentionsMembers, occursIn_of_no_backslash hk, Bool.false_or]

/-! ## Size -/

theorem length_quote_le {s : Bytes} (h : TextOk s) :
    (quote s).length ≤ 2 * s.length + 2 := by
  have := length_escape_le h.written
  simp only [quote, List.length_cons, List.length_append, List.length_nil]
  omega

theorem length_cons_le {k : Bytes} {v : Value} {rest : Members} {n m : Nat}
    (hk : (quote k).length ≤ 32) (hv : (generate v).length ≤ n)
    (hrest : (generateMembers rest).length ≤ m) :
    (generateMembers (.cons k v rest)).length ≤ 34 + n + m := by
  simp only [generateMembers, List.length_cons, List.length_append]
  omega

theorem length_object_le (ms : Members) :
    (generate (.obj ms)).length ≤ (generateMembers ms).length + 1 := by
  cases ms <;> simp [generate, generateMembers]

end EdgeGuard.Base.JsonObject
