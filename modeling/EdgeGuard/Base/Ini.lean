import EdgeGuard.Base.CText

/-!
# Key files

The reader's view of GLib's `GKeyFile`: the groups, their keys, and the decoded
string of a key.  The parser is not part of the sources, and nothing is assumed
of it: clients take any function from texts to key files.

`readKeyFile` is such a function for the plain part of the format: groups, keys
and values without escape sequences.
-/

namespace EdgeGuard.Base.Ini

open EdgeGuard.Base.CText

structure KeyFile where
  /-- `g_key_file_get_groups`. -/
  groups : List Bytes
  /-- `g_key_file_get_keys`. -/
  keys : Bytes → List Bytes
  /-- `g_key_file_has_key`. -/
  hasKey : Bytes → Bytes → Bool
  /-- `g_key_file_get_string`; `none` is a `GError`. -/
  getString : Bytes → Bytes → Option Bytes

/-- `g_key_file_load_from_data` without flags; `none` when the text is refused. -/
abbrev KeyFileParser := Bytes → Option KeyFile

/-! ## A reference parser -/

/-- The groups of a file with their keys and values, the last group first. -/
abbrev Entries := List (Bytes × List (Bytes × Bytes))

def Entries.value (entries : Entries) (group key : Bytes) : Option Bytes :=
  (entries.lookup group).bind (·.lookup key)

def Entries.keyFile (entries : Entries) : KeyFile where
  groups := (entries.map (·.1)).reverse
  keys := fun group => ((entries.lookup group).getD []).map (·.1)
  hasKey := fun group key => (entries.value group key).isSome
  getString := fun group key =>
    (entries.value group key).filter fun value => !value.contains 0x5c

/-- One line, without the blanks around it. -/
def readLine (entries : Entries) (line : Bytes) : Option Entries :=
  if line.isEmpty || line.head? == some 0x23 then some entries
  else if line.head? == some 0x5b then
    if line.getLast? == some 0x5d then some ((line.tail.dropLast, []) :: entries) else none
  else
    match entries, breakOn [0x3d] line with
    | (group, pairs) :: others, some (key, value) =>
        some ((group, pairs ++ [(strstrip key, strstrip value)]) :: others)
    | _, _ => none

def readKeyFile : KeyFileParser := fun text =>
  (((lines text).map strstrip).foldlM readLine []).map Entries.keyFile

end EdgeGuard.Base.Ini
