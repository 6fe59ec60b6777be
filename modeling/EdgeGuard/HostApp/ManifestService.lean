import EdgeGuard.Base.JsonSize
import EdgeGuard.HostApp.Artifact

/-!
# The manifest endpoint of the server

`manifest_service.py`, the `Manifest` of `models.py` and `get_manifest` of `main.py`.
A `str` is its UTF-8 bytes, and SHA-256 is a parameter.

## Main results

* `calculateManifest_ok` — a manifest describes the whole artifact.
* `dumps_generate` — for texts without control characters `json.dumps` writes the
  compact form.
-/

namespace EdgeGuard.HostApp.ManifestService

open EdgeGuard.Base.CText EdgeGuard.Base.Json EdgeGuard.Base.JsonSize
open EdgeGuard.HostApp.Artifact (readFile strOf Response errorResponse)

/-- What the path of the artifact refers to; a file that cannot be opened has a size all
the same. -/
inductive PathState
  | unavailable
  | irregular
  | unreadable (size : Nat)
  | regular (data : Bytes)
  deriving DecidableEq, Repr

/-- The settings of a release. -/
structure ReleaseSettings where
  schemaVersion : Int
  deviceCompatible : Bytes
  version : Bytes
  buildId : Bytes
  artifactUrl : Bytes
  /-- The text of `artifact_path`. -/
  artifactPath : Bytes
  mandatory : Bool
  deriving DecidableEq, Repr

/-- `SETTINGS`, with a path relative to the project. -/
def settings : ReleaseSettings where
  schemaVersion := 1
  deviceCompatible := ascii "atk-dlrk3588"
  version := ascii "1.1.0"
  buildId := ascii "r2-dummy-1.1.0"
  artifactUrl := ascii "/update.raucb"
  artifactPath := ascii "artifacts/versions/1.1.0/update.raucb"
  mandatory := false

/-- The pattern of `Manifest.sha256`. -/
def isSha256 (text : Bytes) : Bool := text.length == 64 && text.all isLowerHex

/-- `Manifest`. -/
structure Manifest where
  schemaVersion : Int
  deviceCompatible : Bytes
  version : Bytes
  buildId : Bytes
  artifactUrl : Bytes
  sha256 : { text : Bytes // isSha256 text = true }
  size : Nat
  mandatory : Bool
  deriving DecidableEq, Repr

/-! ## `manifest_service.py` -/

/-- `HASH_CHUNK_SIZE`. -/
def hashChunkSize : Int := 1024 * 1024

/-- The loop of `calculate_manifest`, from what the digest was updated with and the size. -/
def inspectArtifact (data : Bytes) (position : Nat) (hashed : Bytes) (size : Nat) : Bytes × Nat :=
  let chunk := readFile data position hashChunkSize
  if _ : chunk = [] then (hashed, size)
  else inspectArtifact data (position + chunk.length) (hashed ++ chunk) (size + chunk.length)
  termination_by data.length - position
  decreasing_by
    rename_i hchunk
    have hpos : 0 < (readFile data position hashChunkSize).length := List.length_pos_iff.mpr hchunk
    have hlength : (readFile data position hashChunkSize).length ≤ data.length - position := by
      rw [readFile, if_neg (by decide), List.length_take, List.length_drop]
      exact Nat.min_le_right _ _
    omega

inductive StartError
  | artifactConfiguration (message : Bytes)
  /-- `ValidationError` of pydantic. -/
  | validation
  deriving DecidableEq, Repr

/-- `calculate_manifest`. -/
def calculateManifest (sha256 : Bytes → Bytes) (settings : ReleaseSettings) (path : PathState) :
    Except StartError Manifest :=
  match path with
  | .regular data =>
      let (hashed, size) := inspectArtifact data 0 [] 0
      if h : isSha256 (sha256 hashed) = true then
        .ok {
          schemaVersion := settings.schemaVersion
          deviceCompatible := settings.deviceCompatible
          version := settings.version
          buildId := settings.buildId
          artifactUrl := settings.artifactUrl
          sha256 := ⟨sha256 hashed, h⟩
          size
          mandatory := settings.mandatory }
      else .error .validation
  | .unreadable _ => .error (.artifactConfiguration
      (ascii "configured artifact is not readable: " ++ settings.artifactPath))
  | .irregular => .error (.artifactConfiguration
      (ascii "configured artifact is not a regular file: " ++ settings.artifactPath))
  | .unavailable => .error (.artifactConfiguration
      (ascii "configured artifact is not a regular file: " ++ settings.artifactPath))

/-- The size of `verify_cached_manifest`. -/
def cachedSize (size : Nat) (manifest : Manifest) : Except Bytes Unit :=
  if size != manifest.size then .error (ascii "artifact size changed after startup") else .ok ()

/-- `verify_cached_manifest`; an error is the text of `ReleaseStateError`. -/
def verifyCachedManifest (path : PathState) (manifest : Manifest) : Except Bytes Unit :=
  match path with
  | .unavailable => .error (ascii "artifact is unavailable")
  | .irregular => .error (ascii "artifact is not a regular file")
  | .unreadable size => cachedSize size manifest
  | .regular data => cachedSize data.length manifest

/-! ## `json.dumps` -/

/-- The escape of a character by `json.dumps` with `ensure_ascii=False`. -/
def escapeChar (b : UInt8) : Bytes :=
  if b == 0x22 || b == 0x5c then [0x5c, b]
  else if b == 0x0a then ascii "\\n"
  else if b == 0x0d then ascii "\\r"
  else if b == 0x09 then ascii "\\t"
  else if b == 0x0c then ascii "\\f"
  else if b == 0x08 then ascii "\\b"
  else if b < 0x20 then
    ascii "\\u00" ++ [(Nat.digitChar (b.toNat / 16)).toNat.toUInt8,
      (Nat.digitChar (b.toNat % 16)).toNat.toUInt8]
  else [b]

def dumpsStr (text : Bytes) : Bytes := 0x22 :: (text.flatMap escapeChar ++ [0x22])

/-- The values of the objects that the server writes. -/
inductive Scalar
  | str (text : Bytes)
  | int (n : Int)
  | bool (b : Bool)

def dumpsScalar : Scalar → Bytes
  | .str text => dumpsStr text
  | .int n => strOf n
  | .bool true => ascii "true"
  | .bool false => ascii "false"

/-- `json.dumps` of a `dict` with the separators `","` and `":"`. -/
def dumps (fields : List (Bytes × Scalar)) : Bytes :=
  0x7b :: ([0x2c].intercalate (fields.map fun f => dumpsStr f.1 ++ 0x3a :: dumpsScalar f.2) ++
    [0x7d])

/-! ## `get_manifest` -/

/-- The fields of a manifest, in the order of the model. -/
def Manifest.fields (m : Manifest) : List (Bytes × Scalar) :=
  [(ascii "schema_version", .int m.schemaVersion),
    (ascii "device_compatible", .str m.deviceCompatible), (ascii "version", .str m.version),
    (ascii "build_id", .str m.buildId), (ascii "artifact_url", .str m.artifactUrl),
    (ascii "sha256", .str m.sha256.1), (ascii "size", .int m.size),
    (ascii "mandatory", .bool m.mandatory)]

/-- `get_manifest`, with `application.state.manifest`.  The headers that the framework adds
are left out, and a body that is at hand is one chunk. -/
def getManifest (path : PathState) (cached : Option Manifest) : Response :=
  match cached with
  | none => ⟨204, [], .stream ⟨[], false⟩⟩
  | some manifest =>
      match verifyCachedManifest path manifest with
      | .error _ => errorResponse 503 (ascii "active release is unavailable or inconsistent") []
      | .ok () => ⟨200, [], .stream ⟨[dumps manifest.fields], false⟩⟩

/-! ## What is inspected -/

/-- Reading by chunks reads the file. -/
theorem inspectArtifact_eq (data : Bytes) (position : Nat) (hposition : position ≤ data.length) :
    inspectArtifact data position (data.take position) position = (data, data.length) := by
  induction hleft : data.length - position using Nat.strongRecOn generalizing position with
  | ind left ih =>
      have hread : readFile data position hashChunkSize = (data.drop position).take (1024 * 1024) :=
        rfl
      rw [inspectArtifact]
      by_cases hend : position = data.length
      · have hnil : readFile data position hashChunkSize = [] := by
          rw [hread, hend, List.drop_length, List.take_nil]
        rw [dif_pos hnil, hend, List.take_length]
      · have hlength : (readFile data position hashChunkSize).length =
            min (1024 * 1024) (data.length - position) := by
          rw [hread, List.length_take, List.length_drop]
        have hne : readFile data position hashChunkSize ≠ [] := by
          intro hnil
          rw [hnil, List.length_nil] at hlength
          omega
        have hhashed : data.take position ++ readFile data position hashChunkSize =
            data.take (position + (readFile data position hashChunkSize).length) := by
          rw [List.take_add, hlength, hread, ← List.length_drop, ← List.take_take,
            List.take_length]
        rw [dif_neg hne, hhashed]
        exact ih _ (by omega) _ (by omega) rfl

/-- A manifest describes the whole artifact under the names of the settings. -/
theorem calculateManifest_ok {sha256 : Bytes → Bytes} {settings : ReleaseSettings}
    {path : PathState} {m : Manifest} (h : calculateManifest sha256 settings path = .ok m) :
    ∃ data, path = .regular data ∧ m.sha256.1 = sha256 data ∧ m.size = data.length ∧
      m.schemaVersion = settings.schemaVersion ∧
      m.deviceCompatible = settings.deviceCompatible ∧ m.version = settings.version ∧
      m.buildId = settings.buildId ∧ m.artifactUrl = settings.artifactUrl ∧
      m.mandatory = settings.mandatory := by
  cases path with
  | unavailable => cases h
  | irregular => cases h
  | unreadable size => cases h
  | regular data =>
      have hinspected := inspectArtifact_eq data 0 (Nat.zero_le _)
      rw [List.take_zero] at hinspected
      simp only [calculateManifest, hinspected] at h
      split at h
      · cases h
        exact ⟨data, rfl, rfl, rfl, rfl, rfl, rfl, rfl, rfl, rfl⟩
      · cases h

/-! ## The compact form -/

/-- The value that stands for a scalar. -/
def Scalar.value : Scalar → Value
  | .str text => .str text
  | .int n => .int n
  | .bool b => .bool b

/-- A plain byte is escaped alike by Python and by JSON-GLib. -/
theorem escapeChar_plain {b : UInt8} (h : isControl b = false) : escapeChar b = escapeByte b := by
  unfold escapeChar escapeByte
  by_cases hquote : (b == 0x22 || b == 0x5c) = true
  · rw [if_pos hquote, if_pos hquote]
  · have hlow : ¬ b < 0x20 := by
      simp only [isControl, Bool.or_eq_false_iff, decide_eq_false_iff_not] at h
      exact h.1
    have hne : ∀ c : UInt8, c < 0x20 → ¬ (b == c) = true := by
      intro c hc heq
      rw [beq_iff_eq.mp heq] at hlow
      exact hlow hc
    rw [if_neg hquote, if_neg hquote, if_neg (hne 0x0a (by decide)), if_neg (hne 0x0d (by decide)),
      if_neg (hne 0x09 (by decide)), if_neg (hne 0x0c (by decide)), if_neg (hne 0x08 (by decide)),
      if_neg hlow, h, if_neg (by decide)]

theorem dumpsStr_plain {text : Bytes} (h : controlFree text = true) :
    dumpsStr text = quote text := by
  have hescape : text.flatMap escapeChar = escape text := by
    induction text with
    | nil => rfl
    | cons b text ih =>
        simp only [controlFree_cons, Bool.and_eq_true, Bool.not_eq_true'] at h
        rw [List.flatMap_cons, ih h.2, escapeChar_plain h.1]
        rfl
  rw [dumpsStr, hescape]
  rfl

/-- Python prints a plain scalar as JSON-GLib does. -/
theorem dumpsScalar_generate {value : Scalar} (h : ∀ text, value = .str text → TextOk text) :
    dumpsScalar value = generate value.value := by
  cases value with
  | str text => exact dumpsStr_plain (h text rfl).plain
  | int n =>
      show strOf n = intText n
      cases n with
      | ofNat n => simp [strOf, intText]
      | negSucc n => simp [strOf, intText, Int.negSucc_lt_zero]
  | bool b => cases b <;> rfl

theorem intercalate_comma (x : Bytes) (xs : List Bytes) :
    [0x2c].intercalate (x :: xs) = x ++ xs.flatMap (0x2c :: ·) := by
  induction xs generalizing x with
  | nil => simp [List.intercalate]
  | cons y ys ih =>
      have hstep : [0x2c].intercalate (x :: y :: ys) =
          x ++ 0x2c :: [0x2c].intercalate (y :: ys) := by
        simp [List.intercalate]
      rw [hstep, ih, List.flatMap_cons]
      rfl

/-- For texts without control characters `json.dumps` writes the compact form. -/
theorem dumps_generate {fields : List (Bytes × Scalar)}
    (hnames : ∀ f ∈ fields, TextOk f.1)
    (htexts : ∀ f ∈ fields, ∀ text, f.2 = .str text → TextOk text) :
    dumps fields = generate (.obj (members (fields.map fun f => (f.1, f.2.value)))) := by
  have hfield : ∀ f ∈ fields, dumpsStr f.1 ++ 0x3a :: dumpsScalar f.2 =
      quote f.1 ++ 0x3a :: generate f.2.value := by
    intro f hf
    rw [dumpsStr_plain (hnames f hf).plain, dumpsScalar_generate (htexts f hf)]
  have hmembers : ∀ fields : List (Bytes × Scalar),
      (fields.flatMap fun f => 0x2c :: (quote f.1 ++ 0x3a :: generate f.2.value)) ++ [0x7d] =
        generateMembers (members (fields.map fun f => (f.1, f.2.value))) := by
    intro fields
    induction fields with
    | nil => rfl
    | cons f fields ih =>
        rw [List.map_cons, members_cons, generateMembers, ← ih]
        simp
  rw [dumps, List.map_congr_left hfield]
  cases fields with
  | nil => rfl
  | cons f fields =>
      rw [List.map_cons, List.map_cons, members_cons, generate, ← hmembers fields,
        intercalate_comma]
      simp [List.flatMap_map]

end EdgeGuard.HostApp.ManifestService
