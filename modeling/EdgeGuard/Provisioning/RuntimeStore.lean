import EdgeGuard.Provisioning.Endpoint
import EdgeGuard.Provisioning.StoreTransactions

/-!
# The runtime endpoint in the store

The half of `store.c` that keeps the OTA server's base URL: `runtime.json`, its
reader and its replacement.

## Main results

* `replaceRuntimeCases`, `replaceRuntimeOutcome` — a replacement is refused, or it
  is the atomic write of the canonical URL under the next generation.
-/

namespace EdgeGuard.Provisioning.RuntimeStore

open EdgeGuard.Base EdgeGuard.Base.CText EdgeGuard.Base.Json EdgeGuard.Base.JsonObject
open EdgeGuard.Base.Uri
open EdgeGuard.Provisioning.Model EdgeGuard.Provisioning.Store
open EdgeGuard.Provisioning.StoreTransactions EdgeGuard.Provisioning.Endpoint

/-- `load_runtime_path`: `none` in the result is a missing file. -/
def loadRuntimePath (J : JsonParser) (N : NetLibrary) (fault : Option ReadStep)
    (file : Option File) : Except EgpError (Option EgpRuntimeConfig) :=
  match readPrivateFile fault file with
  | .error error => .error error
  | .ok none => .ok none
  | .ok (some data) => (egpRuntimeParseJson J N data).map some

/-- The object that `serialize_runtime` builds. -/
def runtimeMembers (runtime : EgpRuntimeConfig) : Members :=
  members
    [(ascii "schema_version", .int egpSchemaVersion),
      (ascii "generation", .int (gint64 runtime.generation)),
      (ascii "ota_server_base_url", .str runtime.otaServerBaseUrl)]

/-- `serialize_runtime`. -/
def serializeRuntime (runtime : EgpRuntimeConfig) : Bytes :=
  generate (.obj (runtimeMembers runtime))

/-- What `egp_store_replace_runtime` returns. -/
structure ReplacedRuntime where
  previous : Option EgpRuntimeConfig
  committed : EgpRuntimeConfig

def nextRuntime (url : Bytes) (previous : Option EgpRuntimeConfig) : EgpRuntimeConfig :=
  ⟨previous.elim 1 (·.generation + 1), url⟩

/-- `egp_store_replace_runtime`. -/
def egpStoreReplaceRuntime (J : JsonParser) (N : NetLibrary) (io : ReplaceIo) (d : Directory)
    (candidateUrl : Bytes) : Reply ReplacedRuntime :=
  match egpEndpointCanonicalize N candidateUrl with
  | .error error => .fail [] error
  | .ok url =>
      match loadRuntimePath J N io.read (d .runtime) with
      | .error error => .fail [] error
      | .ok previous =>
          if previous.any (egpJsonUintMax ≤ ·.generation) then
            .fail [] (egpErrorSet .persistenceSchemaUnsupported false .none
              (ascii "Runtime generation cannot be incremented"))
          else
            let next := nextRuntime url previous
            let data := serializeRuntime next
            -- an oversized text would return FALSE with a cleared error
            if egpStoreMaxBytes < data.length then .fail [] .clear
            else (atomicWriteAt io.write io.temporary d .runtime data).finish
              (egpErrorSet .none false .committed (ascii "Runtime endpoint committed"))
              ⟨previous, next⟩

/-! ## What a replacement does -/

variable (J : JsonParser) (N : NetLibrary)

/-- A runtime file that is refused is reported with a code and no change. -/
theorem loadRuntime_error {fault : Option ReadStep} {file : Option File} {error : EgpError}
    (h : loadRuntimePath J N fault file = .error error) :
    error.code ≠ .none ∧ error.persistentChange = .none := by
  unfold loadRuntimePath at h
  split at h
  · rename_i hread
    cases h
    exact read_error hread
  · cases h
  · rename_i data _
    cases hparse : egpRuntimeParseJson J N data with
    | error cause =>
        rw [hparse] at h
        cases h
        exact runtimeParse_error hparse
    | ok runtime =>
        rw [hparse] at h
        cases h

/-- A loaded URL is its own canonical form. -/
theorem loadRuntime_canonical {fault : Option ReadStep} {file : Option File}
    {runtime : EgpRuntimeConfig} (h : loadRuntimePath J N fault file = .ok (some runtime)) :
    egpEndpointCanonicalize N runtime.otaServerBaseUrl = .ok runtime.otaServerBaseUrl := by
  unfold loadRuntimePath at h
  split at h
  · cases h
  · cases h
  · rename_i data _
    cases hparse : egpRuntimeParseJson J N data with
    | error cause =>
        rw [hparse] at h
        cases h
    | ok loaded =>
        rw [hparse] at h
        cases h
        obtain ⟨object, -, hobject⟩ := runtimeParse_object hparse
        exact (runtimeOfObject_some hobject).2

/-- A runtime file is within the bound of the store. -/
theorem length_serializeRuntime_le {runtime : EgpRuntimeConfig}
    (hgeneration : runtime.generation ≤ egpJsonUintMax)
    (hurl : runtime.otaServerBaseUrl.length ≤ egpEndpointMaxBytes) :
    (serializeRuntime runtime).length ≤ egpStoreMaxBytes := by
  have hnumber : (generate (.int (gint64 runtime.generation))).length ≤ 19 := by
    rw [generate, StoreRoundTrip.gint64_of_le hgeneration,
      intText_of_nonneg (Int.natCast_nonneg _), Int.toNat_natCast]
    exact length_decimal_le (by decide) (Nat.lt_of_le_of_lt hgeneration (by decide))
  have htext : (generate (.str runtime.otaServerBaseUrl)).length ≤ 6 * 64 + 2 := by
    have hescape := length_escape_le_six runtime.otaServerBaseUrl
    simp only [generate, quote, List.length_cons, List.length_append, List.length_nil]
    unfold egpEndpointMaxBytes at hurl
    omega
  have hschema : (generate (.int egpSchemaVersion)).length ≤ 1 := by decide
  refine Nat.le_trans (length_object_le _) ?_
  refine Nat.le_trans (Nat.add_le_add_right
    (length_cons_le (by decide) hschema <|
      length_cons_le (by decide) hnumber <|
      length_cons_le (by decide) htext <|
      Nat.le_refl 1) 1) ?_
  decide

/-- The files with the runtime configuration in `runtime.json`. -/
def withRuntime (f : Files) (runtime : EgpRuntimeConfig) : Files :=
  { f with runtime := some ⟨true, serializeRuntime runtime⟩ }

/-- The generation behind the previous one is in range. -/
def runtimeHasRoom (previous : Option EgpRuntimeConfig) : Bool :=
  previous.all (·.generation < egpJsonUintMax)

private theorem any_le_eq_not_runtimeHasRoom (previous : Option EgpRuntimeConfig) :
    previous.any (egpJsonUintMax ≤ ·.generation) = !runtimeHasRoom previous := by
  cases previous with
  | none => rfl
  | some previous =>
      rw [Bool.eq_iff_iff]
      simp [runtimeHasRoom]

theorem generation_nextRuntime_le {previous : Option EgpRuntimeConfig}
    (h : runtimeHasRoom previous = true) (url : Bytes) :
    (nextRuntime url previous).generation ≤ egpJsonUintMax := by
  cases previous with
  | none => simp [nextRuntime, egpJsonUintMax]
  | some previous =>
      have hlt : previous.generation < egpJsonUintMax := by simpa [runtimeHasRoom] using h
      exact hlt

/-- The ends of a replacement: refused by one of its checks, or an atomic write behind
all of them. -/
theorem replaceRuntimeCases (io : ReplaceIo) (d : Directory) (candidateUrl : Bytes) :
    Refused d (egpStoreReplaceRuntime J N io d candidateUrl) ∨
      ∃ url previous, egpEndpointCanonicalize N candidateUrl = .ok url ∧
        loadRuntimePath J N io.read (d .runtime) = .ok previous ∧
        runtimeHasRoom previous = true ∧
        Outcome d (withRuntime (Files.of d) (nextRuntime url previous))
          ⟨previous, nextRuntime url previous⟩
          (egpStoreReplaceRuntime J N io d candidateUrl) := by
  unfold egpStoreReplaceRuntime
  cases hurl : egpEndpointCanonicalize N candidateUrl with
  | error error =>
      left
      rw [canonicalize_error hurl]
      exact refused_fail (by decide) rfl
  | ok url =>
      cases hload : loadRuntimePath J N io.read (d .runtime) with
      | error error =>
          exact .inl (refused_fail (loadRuntime_error J N hload).1 (loadRuntime_error J N hload).2)
      | ok previous =>
          cases hroom : runtimeHasRoom previous with
          | false =>
              left
              simp only [any_le_eq_not_runtimeHasRoom, hroom, Bool.not_false, if_true]
              exact refused_fail (by decide) rfl
          | true =>
              have hlength := length_serializeRuntime_le (generation_nextRuntime_le hroom url)
                (length_of_canonicalize hurl)
              refine .inr ⟨url, previous, rfl, rfl, hroom, ?_⟩
              simp only [any_le_eq_not_runtimeHasRoom, hroom, Bool.not_true, Bool.false_eq_true,
                if_false, Nat.not_lt.mpr hlength]
              exact (writeOutcome io.write io.temporary d .runtime _).finish _ _

theorem replaceRuntimeOutcome (io : ReplaceIo) (d : Directory) (candidateUrl : Bytes) :
    Refused d (egpStoreReplaceRuntime J N io d candidateUrl) ∨
      ∃ url previous, egpEndpointCanonicalize N candidateUrl = .ok url ∧
        Outcome d (withRuntime (Files.of d) (nextRuntime url previous))
          ⟨previous, nextRuntime url previous⟩
          (egpStoreReplaceRuntime J N io d candidateUrl) := by
  rcases replaceRuntimeCases J N io d candidateUrl with hr | ⟨url, previous, hurl, -, -, houtcome⟩
  · exact .inl hr
  · exact .inr ⟨url, previous, hurl, houtcome⟩

end EdgeGuard.Provisioning.RuntimeStore
