import EdgeGuard.Agent.Identity

/-!
# Versions, release identities and manifests

`version.c`, the validators of `manifest.c`, and `compatibility.c`: the checks
that decide whether a manifest offers an upgrade of the running release.
-/

namespace EdgeGuard.Agent.Release

open EdgeGuard.Base.CText EdgeGuard.Base.Utf8
open EdgeGuard.Agent.Model EdgeGuard.Agent.Identity

structure OtaVersion where
  major : Nat
  minor : Nat
  patch : Nat
  deriving DecidableEq, Repr

/-- The digits of one component, from the value read so far: the value and the
text behind it, or `none` when the value leaves 32 bits. -/
def componentDigits (value : Nat) : Bytes → Option (Nat × Bytes)
  | [] => some (value, [])
  | b :: rest =>
      if isDigit b then
        if (uint32Max - digitOf b) / 10 < value then none
        else componentDigits (value * 10 + digitOf b) rest
      else some (value, b :: rest)

def component : Bytes → Option (Nat × Bytes)
  | [] => none
  | b :: rest =>
      if !isDigit b || (b == 0x30 && rest.head?.any isDigit) then none
      else componentDigits 0 (b :: rest)

/-- A component and the dot behind it. -/
def componentDot (text : Bytes) : Option (Nat × Bytes) :=
  match component text with
  | some (value, b :: rest) => if b == 0x2e then some (value, rest) else none
  | _ => none

/-- The numbers of `ota_version_parse`. -/
def versionOf (text : Bytes) : Option OtaVersion := do
  let (major, rest) ← componentDot text
  let (minor, rest) ← componentDot rest
  let (patch, rest) ← component rest
  if rest.isEmpty then some { major, minor, patch } else none

/-- `ota_version_parse`. -/
def otaVersionParse (text : Bytes) : Except OtaError OtaVersion :=
  match versionOf text with
  | some version => .ok version
  | none => .error (otaErrorSet .versionMalformed
      (ascii "Version must be three canonical uint32 decimal components"))

/-- `ota_version_compare`. -/
def otaVersionCompare (left right : OtaVersion) : Ordering :=
  (compare left.major right.major).then
    ((compare left.minor right.minor).then (compare left.patch right.patch))

def cleanText (capacity : Nat) (text : Bytes) : Bool :=
  text.length < capacity && !text.isEmpty && valid text && controlFree text

/-- `ota_manifest_validate`. -/
def otaManifestValidate (m : OtaManifest) : Except OtaError Unit :=
  if m.schemaVersion == 1 && cleanText otaTextCap m.deviceCompatible &&
      cleanText otaTextCap m.buildId && cleanText otaTextCap m.version &&
      cleanText otaPathCap m.artifactUrl && otaArtifactPathValid m.artifactUrl &&
      m.sha256.length == 64 && m.size != 0 && m.size ≤ int64Max &&
      m.sha256.all isLowerHex then
    (otaVersionParse m.version).map fun _ => ()
  else .error (otaErrorSet .manifestInvalid (ascii "Invalid manifest field value"))

/-- `ota_release_validate`. -/
def otaReleaseValidate (r : OtaRelease) : Except OtaError Unit :=
  if r.schemaVersion == 1 && cleanText otaTextCap r.deviceCompatible &&
      cleanText otaTextCap r.raucCompatible && cleanText otaTextCap r.buildId &&
      cleanText otaTextCap r.version && (versionOf r.version).isSome then .ok ()
  else .error (otaErrorSet .localReleaseInvalid (ascii "Invalid local release identity"))

/-- `ota_compatibility_precheck`: whether the manifest is an upgrade. -/
def otaCompatibilityPrecheck (running : OtaRelease) (remote : OtaManifest) :
    Except OtaError Bool := do
  otaReleaseValidate running
  otaManifestValidate remote
  if running.deviceCompatible != remote.deviceCompatible then
    throw (otaErrorSet .deviceCompatMismatch
      (ascii "Manifest device compatibility differs from local release"))
  let l ← otaVersionParse running.version
  let r ← otaVersionParse remote.version
  let order := otaVersionCompare r l
  if order == .lt then
    throw (otaErrorSet .downgradeRejected (ascii "R3 does not permit downgrades"))
  if order == .eq && running.buildId != remote.buildId then
    throw (otaErrorSet .versionCollision (ascii "Equal versions have different build IDs"))
  return order == .gt

end EdgeGuard.Agent.Release
