import EdgeGuard.Agent.Model

/-!
# Identifiers and artifact paths

The syntactic checks of `identity.c` and `artifact.c` that guard the persistent
state: canonical lower-case UUIDs and server-relative artifact paths.

## Main results

* `backslash_not_mem_of_uuid`, `backslash_not_mem_of_artifactPath` — neither
  kind of text can carry a backslash, which is what the JSON escaping cares
  about.
-/

namespace EdgeGuard.Agent.Identity

open EdgeGuard.Base.CText EdgeGuard.Base.Utf8 EdgeGuard.Agent.Model

/-- The byte that may stand at index `i` of a UUID. -/
def uuidByte (i : Nat) (b : UInt8) : Bool :=
  if i == 8 || i == 13 || i == 18 || i == 23 then b == 0x2d else isLowerHex b

/-- `ota_uuid_valid`. -/
def otaUuidValid (value : Bytes) (requireV4 : Bool) : Bool :=
  value.length == 36 && (value.zipIdx.all fun (b, i) => uuidByte i b) &&
    (!requireV4 || (value[14]? == some 0x34 &&
      value[19]?.any (ascii "89ab").contains))

/-- `ota_artifact_path_valid`. -/
def otaArtifactPathValid (path : Bytes) : Bool :=
  match path with
  | slash :: second :: _ =>
      slash == 0x2f && second != 0x2f && path.length < otaPathCap && valid path &&
        !occursIn (ascii "..") path && !hasAny (ascii "\\%:?# ") path &&
        controlFree path
  | _ => false

theorem length_of_uuid {value : Bytes} {v4 : Bool}
    (h : otaUuidValid value v4 = true) : value.length = 36 := by
  simp only [otaUuidValid, Bool.and_eq_true, beq_iff_eq] at h
  exact h.1.1

theorem ne_nil_of_uuid {value : Bytes} {v4 : Bool}
    (h : otaUuidValid value v4 = true) : value ≠ [] := by
  have := length_of_uuid h
  rintro rfl
  simp at this

theorem backslash_not_mem_of_uuid {value : Bytes} {v4 : Bool}
    (h : otaUuidValid value v4 = true) : (0x5c : UInt8) ∉ value := by
  simp only [otaUuidValid, Bool.and_eq_true] at h
  intro hmem
  obtain ⟨i, hi⟩ := List.mem_iff_getElem?.mp hmem
  have hall := List.all_eq_true.mp h.1.2 (0x5c, i) (List.mem_zipIdx_iff_getElem?.mpr hi)
  revert hall
  simp only [uuidByte]
  split <;> decide

theorem backslash_not_mem_of_artifactPath {path : Bytes}
    (h : otaArtifactPathValid path = true) : (0x5c : UInt8) ∉ path := by
  unfold otaArtifactPathValid at h
  split at h
  · simp only [Bool.and_eq_true, Bool.not_eq_true', hasAny, List.any_eq_false] at h
    intro hmem
    exact absurd (h.1.2 _ hmem) (by decide)
  · cases h

end EdgeGuard.Agent.Identity
