import EdgeGuard.Base.JsonGrammar
import EdgeGuard.Base.Utf8
import EdgeGuard.Agent.Model

/-!
# The lexical guard of a manifest

The part of `manifest.c` that looks at the bytes of a manifest before JSON-GLib
does.

The pointer `l->p` is the list of the bytes up to `l->end`.  Reading through it goes
through `deref`, so that a read past the end is a result of its own, and the
functions take `fuel`, whose end is another one.  `string_token` always collects the
decoded text; the callers that pass no buffer ignore it.
-/

namespace EdgeGuard.Agent.ManifestLexer

open EdgeGuard.Base.CText EdgeGuard.Base.Utf8
open EdgeGuard.Base.JsonGrammar (encode xdigitValue)
open EdgeGuard.Agent.Model

/-- `OTA_MANIFEST_MAX_BYTES`. -/
def manifestMaxBytes : Nat := 65536

inductive Fault
  /-- The function returns `FALSE`. -/
  | invalid
  /-- A read at the end of the text. -/
  | overrun
  /-- The fuel is used up. -/
  | stuck
  deriving DecidableEq, Repr

abbrev Lexed (α : Type) := Except Fault α

/-- `*l->p`, with what stands behind it. -/
def deref {α : Type} (rest : Bytes) (k : UInt8 → Bytes → Lexed α) : Lexed α :=
  match rest with
  | [] => .error .overrun
  | b :: tail => k b tail

/-- The test of `strchr` on a byte, which finds the terminator too. -/
def strchrTest (set : Bytes) (b : UInt8) : Bool := set.contains b || b == 0

/-- `ws`. -/
def ws (rest : Bytes) : Bytes := rest.dropWhile (strchrTest (ascii " \t\r\n"))

/-- The loop of `hex4`. -/
def hexLoop : Nat → Nat → Bytes → Lexed (Nat × Bytes)
  | 0, u, rest => .ok (u, rest)
  | count + 1, u, rest =>
      if rest.isEmpty then .error .invalid
      else deref rest fun b tail =>
        if !isXDigit b then .error .invalid else hexLoop count (u * 16 + xdigitValue b) tail

/-- `hex4`. -/
def hex4 (rest : Bytes) : Lexed (Nat × Bytes) := hexLoop 4 0 rest

/-- `esc` of `string_token`. -/
def esc : Bytes := ascii "\"\\/bfnrt"

/-- `chars` of `string_token`. -/
def chars : Bytes := [0x22, 0x5c, 0x2f, 0x08, 0x0c, 0x0a, 0x0d, 0x09]

/-- The second half of a pair of surrogates. -/
def lowSurrogate (high : Nat) (rest : Bytes) : Lexed (Nat × Bytes) :=
  if rest.length < 6 then .error .invalid
  else deref rest fun a tail => deref tail fun b tail =>
    if a != 0x5c || b != 0x75 then .error .invalid
    else hex4 tail >>= fun r =>
      if r.1 < 0xdc00 || 0xdfff < r.1 then .error .invalid
      else .ok (0x10000 + (high - 0xd800) * 1024 + r.1 - 0xdc00, r.2)

/-- `\u` in `string_token`. -/
def unicodeEscape (rest : Bytes) : Lexed (Nat × Bytes) :=
  hex4 rest >>= fun r =>
    if 0xd800 ≤ r.1 && r.1 ≤ 0xdbff then lowSurrogate r.1 r.2
    else if 0xdc00 ≤ r.1 && r.1 ≤ 0xdfff then .error .invalid
    else .ok r

/-- What stands behind a token of a string: the decoded text, whether it has a
U+0000, and the rest. -/
abbrev StringToken := Bytes × Bool × Bytes

/-- The loop of `string_token`. -/
def stringLoop : Nat → Bytes → Bool → Bytes → Lexed StringToken
  | 0, _, _, _ => .error .stuck
  | fuel + 1, decoded, nul, rest =>
      if rest.isEmpty then .error .invalid
      else deref rest fun c rest =>
        if c == 0x22 then .ok (decoded, nul, rest)
        else if c < 0x20 then .error .invalid
        else if c != 0x5c then stringLoop fuel (decoded ++ [c]) nul rest
        else if rest.isEmpty then .error .invalid
        else deref rest fun c rest =>
          if c == 0x75 then
            unicodeEscape rest >>= fun r =>
              stringLoop fuel (decoded ++ encode r.1) (nul || r.1 == 0) r.2
          else if !strchrTest esc c then .error .invalid
          else
            -- the terminator has no entry in `chars`
            deref (chars.drop (esc.idxOf c)) fun value _ =>
              stringLoop fuel (decoded ++ [value]) nul rest

/-- `string_token`. -/
def stringToken (fuel : Nat) (rest : Bytes) : Lexed StringToken :=
  if rest.isEmpty then .error .invalid
  else deref rest fun c rest =>
    if c != 0x22 then .error .invalid else stringLoop fuel [] false rest

/-- `known_string`. -/
def knownStrings : List Bytes :=
  [ascii "device_compatible", ascii "rauc_compatible", ascii "version", ascii "build_id",
    ascii "artifact_url", ascii "sha256"]

/-- The root members whose numbers are integers. -/
def integerKeys : List Bytes := [ascii "size", ascii "schema_version"]

/-! ## Numbers -/

/-- One digit or more. -/
def digitsEnd (rest : Bytes) : Lexed Bytes :=
  if rest.isEmpty then .error .invalid
  else deref rest fun b _ =>
    if !isDigit b then .error .invalid else .ok (rest.dropWhile isDigit)

/-- The digits in front of the point. -/
def wholeEnd (rest : Bytes) : Lexed Bytes :=
  if rest.isEmpty then .error .invalid
  else deref rest fun b tail =>
    if !isDigit b then .error .invalid
    else if b == 0x30 then .ok tail
    else .ok (rest.dropWhile isDigit)

def fractionEnd (rest : Bytes) : Lexed Bytes :=
  if rest.isEmpty then .ok rest
  else deref rest fun b tail => if b == 0x2e then digitsEnd tail else .ok rest

def signEnd (rest : Bytes) : Lexed Bytes :=
  if rest.isEmpty then .ok rest
  else deref rest fun b tail => .ok (if b == 0x2b || b == 0x2d then tail else rest)

def exponentEnd (rest : Bytes) : Lexed Bytes :=
  if rest.isEmpty then .ok rest
  else deref rest fun b tail =>
    if b == 0x65 || b == 0x45 then signEnd tail >>= digitsEnd else .ok rest

/-- The number in `value_token`, from its first byte on. -/
def numberEnd (start : Bytes) : Lexed Bytes :=
  deref start fun b tail =>
    wholeEnd (if b == 0x2d then tail else start) >>= fractionEnd >>= exponentEnd

/-- The loop of `value_token` over the token of an integer. -/
def integerToken (n : Nat) : Bytes → Bool
  | [] => true
  | b :: rest =>
      if !isDigit b || (int64Max - digitOf b) / 10 < n then false
      else integerToken (n * 10 + digitOf b) rest

def numberToken (rootKey : Option Bytes) (start : Bytes) : Lexed Bytes :=
  numberEnd start >>= fun rest =>
    if rootKey.any integerKeys.contains &&
        !integerToken 0 (start.take (start.length - rest.length)) then .error .invalid
    else .ok rest

/-! ## Values -/

/-- A word of `value_token` in front of the text. -/
def wordEnd (rest : Bytes) : Option Bytes :=
  ([ascii "true", ascii "false", ascii "null"].find? (·.isPrefixOf rest)).map
    fun word => rest.drop word.length

/-- The name of a member and its colon; an element of an array has none. -/
def memberName (fuel : Nat) (object : Bool) (keys : List Bytes) (rest : Bytes) :
    Lexed (Option Bytes × Bytes) :=
  if object then
    stringToken fuel rest >>= fun r =>
      if r.2.1 || keys.contains r.1 then .error .invalid
      else if (ws r.2.2).isEmpty then .error .invalid
      else deref (ws r.2.2) fun c rest =>
        if c != 0x3a then .error .invalid else .ok (some r.1, rest)
  else .ok (none, rest)

/-- `end` of `container_token`. -/
def stop (object : Bool) : UInt8 := if object then 0x7d else 0x5d

mutual

/-- `value_token`. -/
def valueToken : Nat → Nat → Option Bytes → Bytes → Lexed Bytes
  | 0, _, _, _ => .error .stuck
  | fuel + 1, depth, rootKey, rest =>
      if (ws rest).isEmpty then .error .invalid
      else deref (ws rest) fun b _ =>
        if b == 0x7b || b == 0x5b then containerToken fuel (b == 0x7b) depth (ws rest)
        else if b == 0x22 then
          stringToken fuel (ws rest) >>= fun r =>
            if r.2.1 && rootKey.any knownStrings.contains then .error .invalid else .ok r.2.2
        else
          match wordEnd (ws rest) with
          | some rest => .ok rest
          | none => numberToken rootKey (ws rest)

/-- `container_token`; `depth` is `l->depth` before it. -/
def containerToken : Nat → Bool → Nat → Bytes → Lexed Bytes
  | 0, _, _, _ => .error .stuck
  | fuel + 1, object, depth, rest =>
      if 64 < depth + 1 then .error .invalid
      else deref rest fun _ rest =>
        if (ws rest).head? == some (stop object) then .ok (ws rest).tail
        else containerLoop fuel object (depth + 1) [] (ws rest)

/-- The loop of `container_token`. -/
def containerLoop : Nat → Bool → Nat → List Bytes → Bytes → Lexed Bytes
  | 0, _, _, _, _ => .error .stuck
  | fuel + 1, object, depth, keys, rest =>
      memberName fuel object keys rest >>= fun name =>
        valueToken fuel depth (if depth == 1 then name.1 else none) name.2 >>= fun rest =>
          if (ws rest).isEmpty then .error .invalid
          else deref (ws rest) fun c tail =>
            if c == stop object then .ok tail
            else if c != 0x2c then .error .invalid
            else containerLoop fuel object depth (name.1.toList ++ keys) (ws tail)

end

/-- `load_json`, up to the parser of JSON-GLib. -/
def lexicalGuard (fuel : Nat) (data : Bytes) : Lexed Unit :=
  if data.isEmpty || manifestMaxBytes < data.length || data.contains 0 || !valid data then
    .error .invalid
  else if (ws data).isEmpty then .error .invalid
  else deref (ws data) fun b _ =>
    if b != 0x7b then .error .invalid
    else valueToken fuel 0 none (ws data) >>= fun rest =>
      if (ws rest).isEmpty then .ok () else .error .invalid

end EdgeGuard.Agent.ManifestLexer
