import EdgeGuard.Agent.Persistence
import EdgeGuard.Base.JsonReader

/-!
# Saving and loading the persistent state

A saved state goes through five separate acceptance tests before the loader
returns it: the size limit of the writer, the UTF-8 check, the lexical guard,
the search for an escaped NUL in the raw bytes, and the field-by-field reader
with its own capacities.  All but one accept whatever the validation accepts.
The exception is the search: `strstr` finds the text `\u0000` also where the
generator wrote an escaped backslash in front of `u0000`, so a build
identifier or an error message that contains those six characters is saved and
never loaded again.

## Main results

* `parseState_serialize` — what the loader makes of the bytes of a valid state.
* `eq_of_parseState_serialize` — whatever a loader returns for saved bytes is
  the state that was saved.
* `save_load_iff` — a valid state survives the round trip exactly when neither
  of the two texts contains the six characters.
-/

namespace EdgeGuard.Agent.PersistenceRoundTrip

open EdgeGuard.Base EdgeGuard.Base.CText EdgeGuard.Base.Utf8 EdgeGuard.Base.Json
open EdgeGuard.Base.DurableFile EdgeGuard.Base.JsonObject
open EdgeGuard.Agent.Model EdgeGuard.Agent.Identity EdgeGuard.Agent.Persistence

/-! ## Consequences of validation -/

theorem textOk_of_bounded {capacity : Nat} {text : Bytes}
    (h : boundedText capacity text = true) : TextOk text := by
  simp only [boundedText, Bool.and_eq_true] at h
  exact ⟨h.1.2, h.2⟩

theorem length_of_bounded {capacity : Nat} {text : Bytes}
    (h : boundedText capacity text = true) : text.length < capacity := by
  simp only [boundedText, Bool.and_eq_true, decide_eq_true_eq] at h
  exact h.1.1

/-- The facts about a valid state that the serialisation relies on. -/
structure Savable (s : OtaPersistentState) : Prop where
  schema : s.schemaVersion = otaSchemaVersion
  state : s.state ≠ .count
  code : s.lastError.code ≠ .count
  attemptId : boundedText otaUuidCap s.attemptId = true
  targetVersion : boundedText otaTextCap s.targetVersion = true
  buildId : boundedText otaTextCap s.buildId = true
  artifactUrl : boundedText otaPathCap s.artifactUrl = true
  expectedSha256 : boundedText otaSha256Cap s.expectedSha256 = true
  message : boundedText otaErrorCap s.lastError.message = true
  bootIdBefore : boundedText otaUuidCap s.bootIdBefore = true
  size : s.expectedSize ≤ int64Max
  previousSlot : s.previousSlot ≠ .invalid
  candidateSlot : s.expectedCandidateSlot ≠ .invalid
  context : s.rebootContext ≠ .invalid

private theorem size_of_attemptOk {s : OtaPersistentState} (h : attemptOk s = true) :
    s.expectedSize ≤ int64Max := by
  unfold attemptOk at h
  split at h
  · simp only [Bool.and_eq_true, decide_eq_true_eq] at h
    exact h.1.1.2
  · simp only [Bool.and_eq_true, beq_iff_eq] at h
    simp [h.1.2]

/-- What the serializer relies on holds of every valid state. -/
theorem savable_of_valid {s : OtaPersistentState} (h : stateValid s = true) :
    Savable s := by
  simp only [stateValid, headerOk, textsOk, enumsOk, Bool.and_eq_true, beq_iff_eq,
    bne_iff_ne] at h
  obtain ⟨⟨⟨⟨⟨⟨⟨⟨⟨⟨hschema, hstate⟩, hcode⟩, htexts⟩, hattempt⟩, -⟩, hslots⟩, -⟩, -⟩, -⟩, -⟩ := h
  obtain ⟨⟨⟨⟨⟨⟨h1, h2⟩, h3⟩, h4⟩, h5⟩, h6⟩, h7⟩ := htexts
  refine
    { schema := hschema, state := ?_, code := ?_, attemptId := h1, targetVersion := h2,
      buildId := h3, artifactUrl := h4, expectedSha256 := h5, message := h6,
      bootIdBefore := h7, size := size_of_attemptOk hattempt,
      previousSlot := hslots.1.1, candidateSlot := hslots.1.2, context := hslots.2 }
  · intro hs
    simp [hs, otaStateName] at hstate
  · intro hc
    simp [hc, otaErrorCodeName] at hcode

/-! ## The written tree -/

theorem writable_errorMembers {e : OtaError}
    (h : boundedText otaErrorCap e.message = true) :
    WritableMembers (errorMembers e) := by
  refine writable_cons (by decide) (by decide) rfl
    (textOk_of_word (otaErrorCodeName_word e.code).1) ?_
  exact writable_cons (by decide) (by decide) rfl (textOk_of_bounded h) trivial

/-- The members of a state can be written as JSON. -/
theorem writable_stateMembers {s : OtaPersistentState} (h : Savable s) :
    WritableMembers (stateMembers s) := by
  have hschema : 0 ≤ s.schemaVersion := by rw [h.schema]; decide
  have hsize : (0 : Int) ≤ s.expectedSize := Int.natCast_nonneg _
  refine writable_cons (by decide) (by decide) rfl hschema ?_
  refine writable_cons (by decide) (by decide) rfl (textOk_of_word (otaStateName_word _).1) ?_
  refine writable_cons (by decide) (by decide) rfl (textOk_of_bounded h.attemptId) ?_
  refine writable_cons (by decide) (by decide) rfl (textOk_of_bounded h.targetVersion) ?_
  refine writable_cons (by decide) (by decide) rfl (textOk_of_bounded h.buildId) ?_
  refine writable_cons (by decide) (by decide) rfl (textOk_of_bounded h.artifactUrl) ?_
  refine writable_cons (by decide) (by decide) rfl hsize ?_
  refine writable_cons (by decide) (by decide) rfl (textOk_of_bounded h.expectedSha256) ?_
  refine writable_cons (by decide) (by decide) rfl (textOk_of_word (slotName_word _).1) ?_
  refine writable_cons (by decide) (by decide) rfl (textOk_of_word (slotName_word _).1) ?_
  refine writable_cons (by decide) (by decide) rfl (textOk_of_bounded h.bootIdBefore) ?_
  refine writable_cons (by decide) (by decide) rfl (textOk_of_word (contextName_word _).1) ?_
  exact writable_cons (by decide) (by decide) rfl (writable_errorMembers h.message) trivial

theorem inRange_stateMembers {s : OtaPersistentState} (h : Savable s) :
    InRangeMembers (stateMembers s) := by
  have hschema : s.schemaVersion ≤ gint64Max := by rw [h.schema]; decide
  have hsize : (s.expectedSize : Int) ≤ gint64Max := Int.ofNat_le.mpr h.size
  simp [stateMembers, errorMembers, InRangeMembers, InRange, hschema, hsize]

theorem lexicalGuard_serialize {s : OtaPersistentState} (h : Savable s) :
    lexicalGuard (serialize s) = true := by
  refine JsonGuard.guard_generate ⟨rfl, rfl⟩ (writable_stateMembers h) ?_
  have hsize := h.size
  simp [JsonGuard.Within, JsonGuard.WithinMembers, stateMembers, errorMembers,
    h.schema, otaSchemaVersion, int64Max] at hsize ⊢
  exact hsize

/-! ## The search for an escaped NUL -/

private theorem backslash_not_mem_of_isLowerHex {s : Bytes}
    (h : s.all isLowerHex = true) : (0x5c : UInt8) ∉ s := by
  intro hmem
  exact absurd (List.all_eq_true.mp h _ hmem) (by decide)

/-- A version has no backslash, digit after digit. -/
private theorem versionDigits_mem {value : Nat} {text rest : Bytes}
    (h : versionDigits value text = some rest) (hrest : (0x5c : UInt8) ∉ rest) :
    (0x5c : UInt8) ∉ text := by
  induction text generalizing value with
  | nil => simp
  | cons b text ih =>
      simp only [versionDigits] at h
      split at h
      · rename_i hb
        split at h
        · cases h
        · have hne : (0x5c : UInt8) ≠ b := by
            rintro rfl
            exact absurd hb (by decide)
          simp [hne, ih h]
      · cases h
        exact hrest

private theorem versionPart_mem {text rest : Bytes}
    (h : versionPart text = some rest) (hrest : (0x5c : UInt8) ∉ rest) :
    (0x5c : UInt8) ∉ text := by
  cases text with
  | nil => simp
  | cons b text =>
      simp only [versionPart] at h
      split at h
      · cases h
      · exact versionDigits_mem h hrest

private theorem versionPartDot_mem {text rest : Bytes}
    (h : versionPartDot text = some rest) (hrest : (0x5c : UInt8) ∉ rest) :
    (0x5c : UInt8) ∉ text := by
  unfold versionPartDot at h
  split at h
  · rename_i b tail hpart
    split at h
    · rename_i hb
      cases h
      refine versionPart_mem hpart ?_
      rw [beq_iff_eq.mp hb]
      simp [hrest]
    · cases h
  · cases h

theorem backslash_not_mem_of_version {text : Bytes}
    (h : persistedVersionValid text = true) : (0x5c : UInt8) ∉ text := by
  unfold persistedVersionValid at h
  split at h
  · cases h
  · rename_i rest hfirst
    split at h
    · cases h
    · rename_i tail hsecond
      refine versionPartDot_mem hfirst (versionPartDot_mem hsecond ?_)
      exact versionPart_mem (beq_iff_eq.mp h) (by simp)

/-- The texts of a valid state other than the build identifier and the error
message carry no backslash. -/
structure NoBackslash (s : OtaPersistentState) : Prop where
  attemptId : (0x5c : UInt8) ∉ s.attemptId
  targetVersion : (0x5c : UInt8) ∉ s.targetVersion
  artifactUrl : (0x5c : UInt8) ∉ s.artifactUrl
  expectedSha256 : (0x5c : UInt8) ∉ s.expectedSha256
  bootIdBefore : (0x5c : UInt8) ∉ s.bootIdBefore

private theorem backslash_not_mem_boot {s : OtaPersistentState} (h : bootOk s = true) :
    (0x5c : UInt8) ∉ s.bootIdBefore := by
  unfold bootOk at h
  split at h
  · simp only [Bool.and_eq_true] at h
    exact backslash_not_mem_of_uuid h.1.2
  · simp only [Bool.and_eq_true, List.isEmpty_iff] at h
    simp [h.1.2]

/-- In a valid state only the build id and the error message can hold a backslash. -/
theorem noBackslash_of_valid {s : OtaPersistentState} (h : stateValid s = true) :
    NoBackslash s := by
  simp only [stateValid, Bool.and_eq_true] at h
  obtain ⟨⟨⟨⟨⟨⟨⟨-, hattempt⟩, -⟩, -⟩, hboot⟩, -⟩, -⟩, -⟩ := h
  have hbootId := backslash_not_mem_boot hboot
  unfold attemptOk at hattempt
  split at hattempt
  · simp only [Bool.and_eq_true] at hattempt
    obtain ⟨⟨⟨⟨⟨⟨⟨hid, hversion⟩, -⟩, hurl⟩, -⟩, -⟩, -⟩, hsha⟩ := hattempt
    exact
      { attemptId := backslash_not_mem_of_uuid hid
        targetVersion := backslash_not_mem_of_version hversion
        artifactUrl := backslash_not_mem_of_artifactPath hurl
        expectedSha256 := backslash_not_mem_of_isLowerHex hsha
        bootIdBefore := hbootId }
  · rename_i hnone
    simp only [Bool.and_eq_true, List.isEmpty_iff] at hattempt
    obtain ⟨⟨⟨⟨hversion, -⟩, hurl⟩, -⟩, hsha⟩ := hattempt
    have hid : s.attemptId = [] := by simpa [hasAttempt] using hnone
    exact
      { attemptId := by simp [hid]
        targetVersion := by simp [hversion]
        artifactUrl := by simp [hurl]
        expectedSha256 := by simp [hsha]
        bootIdBefore := hbootId }

private theorem nul_of_word {name : Bytes} (h : isWord name = true) :
    occursIn nulEscape name = false :=
  occursIn_of_no_backslash (backslash_not_mem_of_word h)

private theorem mentions_errorMembers (e : OtaError) :
    mentionsMembers nulEscape (errorMembers e) = occursIn nulEscape e.message := by
  rw [errorMembers, members_cons, members_cons, members_nil,
    mentions_cons (by decide), mentions_cons (by decide)]
  simp only [mentions, mentionsMembers, nul_of_word (otaErrorCodeName_word e.code).1, Bool.false_or,
    Bool.or_false]

/-- The raw-byte search sees exactly the two free texts. -/
theorem occursIn_serialize {s : OtaPersistentState} (h : stateValid s = true) :
    occursIn nulEscape (serialize s) =
      (occursIn nulEscape s.buildId || occursIn nulEscape s.lastError.message) := by
  have hs := savable_of_valid h
  have hb := noBackslash_of_valid h
  have hw : Writable (.obj (stateMembers s)) := writable_stateMembers hs
  rw [serialize, occursIn_generate escapePattern_nulEscape hw, mentions, stateMembers]
  simp only [members_cons, members_nil]
  repeat rw [mentions_cons (by decide)]
  simp only [mentions, mentionsMembers, mentions_errorMembers,
    nul_of_word (otaStateName_word s.state).1, nul_of_word (slotName_word s.previousSlot).1,
    nul_of_word (slotName_word s.expectedCandidateSlot).1,
    nul_of_word (contextName_word s.rebootContext).1, occursIn_of_no_backslash hb.attemptId,
    occursIn_of_no_backslash hb.targetVersion, occursIn_of_no_backslash hb.artifactUrl,
    occursIn_of_no_backslash hb.expectedSha256,
    occursIn_of_no_backslash hb.bootIdBefore, Bool.false_or, Bool.or_false]

/-! ## Size -/

private theorem length_word_le {name : Bytes} {n : Nat}
    (h : isWord name = true ∧ name.length < n) : (quote name).length ≤ 2 * n := by
  have hquote := length_quote_le (textOk_of_word h.1)
  have hlength := h.2
  omega

/-- The quoted form of a bounded text stays below twice its capacity. -/
private theorem length_bounded_le {capacity : Nat} {text : Bytes}
    (h : boundedText capacity text = true) :
    (quote text).length ≤ 2 * capacity := by
  have h1 := length_quote_le (textOk_of_bounded h)
  have h2 := length_of_bounded h
  omega

private theorem length_errorMembers_le {e : OtaError}
    (h : boundedText otaErrorCap e.message = true) :
    (generate (.obj (errorMembers e))).length ≤ 2000 := by
  refine Nat.le_trans (length_object_le _) ?_
  have hmembers : (generateMembers (errorMembers e)).length ≤
      34 + 64 + (34 + 2 * otaErrorCap + 1) := by
    refine length_cons_le (by decide) (length_word_le (otaErrorCodeName_word _)) ?_
    exact length_cons_le (by decide) (length_bounded_le h) (Nat.le_refl 1)
  simp only [otaErrorCap] at hmembers
  omega

/-- A valid state always fits the limit that both sides of the file enforce. -/
theorem length_serialize_le {s : OtaPersistentState} (h : Savable s) :
    (serialize s).length ≤ otaStateMaxBytes := by
  have hschema : (intText s.schemaVersion).length ≤ 1 := by rw [h.schema]; decide
  have hsize : (intText s.expectedSize).length ≤ 19 := by
    rw [intText_of_nonneg (Int.natCast_nonneg _), Int.toNat_natCast]
    exact length_decimal_le (by decide) (Nat.lt_of_le_of_lt h.size (by decide))
  refine Nat.le_trans (length_object_le _) ?_
  refine Nat.le_trans (Nat.add_le_add_right
    (length_cons_le (by decide) hschema <|
      length_cons_le (by decide) (length_word_le (otaStateName_word _)) <|
      length_cons_le (by decide) (length_bounded_le h.attemptId) <|
      length_cons_le (by decide) (length_bounded_le h.targetVersion) <|
      length_cons_le (by decide) (length_bounded_le h.buildId) <|
      length_cons_le (by decide) (length_bounded_le h.artifactUrl) <|
      length_cons_le (by decide) hsize <|
      length_cons_le (by decide) (length_bounded_le h.expectedSha256) <|
      length_cons_le (by decide) (length_word_le (slotName_word _)) <|
      length_cons_le (by decide) (length_word_le (slotName_word _)) <|
      length_cons_le (by decide) (length_bounded_le h.bootIdBefore) <|
      length_cons_le (by decide) (length_word_le (contextName_word _)) <|
      length_cons_le (by decide) (length_errorMembers_le h.message) <|
      Nat.le_refl 1) 1) ?_
  decide

/-! ## Reading the fields back -/

private theorem stateOfName_name {state : OtaState} (h : state ≠ .count) :
    stateOfName ((otaStateName state).getD []) = state := by
  cases state <;> first | exact absurd rfl h | decide

private theorem errorCodeOfName_name {code : OtaErrorCode} (h : code ≠ .count) :
    errorCodeOfName ((otaErrorCodeName code).getD []) = code := by
  cases code <;> first | exact absurd rfl h | decide

private theorem slotOfName_name {slot : OtaSlot} (h : slot ≠ .invalid) :
    slotOfName (slotName slot) = some slot := by
  cases slot <;> first | exact absurd rfl h | decide

private theorem contextOfName_name {context : OtaRebootContext} (h : context ≠ .invalid) :
    contextOfName (contextName context) = some context := by
  cases context <;> first | exact absurd rfl h | decide

/-- The error of a state is read back. -/
private theorem errorOfObject_stateMembers {s : OtaPersistentState} (h : Savable s) :
    errorOfObject (stateMembers s) = some s.lastError := by
  have hname := errorCodeOfName_name h.code
  have hlen := Nat.lt_trans (otaErrorCodeName_word s.lastError.code).2 (show 32 < 64 by decide)
  have hfind : (stateMembers s).find (ascii "last_error") =
      some (.obj (errorMembers s.lastError)) := rfl
  have hsize : (errorMembers s.lastError).size = 2 := rfl
  have hcode := stringMember_of_find (errorMembers s.lastError)
    (ascii "code") rfl hlen
  have hmessage := stringMember_of_find (errorMembers s.lastError)
    (ascii "message") rfl (length_of_bounded h.message)
  simp [errorOfObject, hfind, hsize, hcode, hmessage, hname]

/-- The object of a state is read back as the state. -/
theorem stateOfObject_stateMembers {s : OtaPersistentState} (h : Savable s) :
    stateOfObject (stateMembers s) = some s := by
  have hstateName := stateOfName_name h.state
  have hprevName := slotOfName_name h.previousSlot
  have hcandName := slotOfName_name h.candidateSlot
  have hctxName := contextOfName_name h.context
  have hcount : (stateMembers s).size = 13 := rfl
  have hschema : integerMember (stateMembers s) (ascii "schema_version") =
      some s.schemaVersion := rfl
  have hsize : integerMember (stateMembers s) (ascii "expected_size") =
      some (s.expectedSize : Int) := rfl
  have hnonneg : ¬ (s.expectedSize : Int) < 0 := by omega
  have hstate := stringMember_of_find (stateMembers s)
    (ascii "state") rfl (otaStateName_word s.state).2
  have hid := stringMember_of_find (stateMembers s)
    (ascii "attempt_id") rfl (length_of_bounded h.attemptId)
  have hversion := stringMember_of_find (stateMembers s)
    (ascii "target_version") rfl (length_of_bounded h.targetVersion)
  have hbuild := stringMember_of_find (stateMembers s)
    (ascii "build_id") rfl (length_of_bounded h.buildId)
  have hurl := stringMember_of_find (stateMembers s)
    (ascii "artifact_url") rfl (length_of_bounded h.artifactUrl)
  have hsha := stringMember_of_find (stateMembers s)
    (ascii "expected_sha256") rfl (length_of_bounded h.expectedSha256)
  have hprev := stringMember_of_find (stateMembers s)
    (ascii "previous_slot") rfl (slotName_word s.previousSlot).2
  have hcand := stringMember_of_find (stateMembers s)
    (ascii "expected_candidate_slot") rfl (slotName_word s.expectedCandidateSlot).2
  have hboot := stringMember_of_find (stateMembers s)
    (ascii "boot_id_before") rfl (length_of_bounded h.bootIdBefore)
  have hctx := stringMember_of_find (stateMembers s)
    (ascii "reboot_context") rfl (contextName_word s.rebootContext).2
  have herror := errorOfObject_stateMembers h
  simp [stateOfObject, hcount, hschema, h.schema, hsize, hnonneg, hstate, hid, hversion,
    hbuild, hurl, hsha, hprev, hcand, hboot, hctx, hprevName, hcandName, hctxName, herror,
    hstateName]
  rw [← h.schema]

/-! ## The round trip -/

variable (J : JsonParser)

/-- The bytes of a valid state that the raw tests accept or refuse. -/
theorem rawBytesOk_serialize {s : OtaPersistentState} (h : stateValid s = true) :
    rawBytesOk (serialize s) =
      !(occursIn nulEscape s.buildId || occursIn nulEscape s.lastError.message) := by
  have hs := savable_of_valid h
  have hw : Writable (.obj (stateMembers s)) := writable_stateMembers hs
  have hutf8 : valid (serialize s) = true := valid_generate hw
  have hne : (serialize s).isEmpty = false := rfl
  have hnul := not_mem_nul_of_valid hutf8
  simp [rawBytesOk, hne, hnul, hutf8, lexicalGuard_serialize hs, occursIn_serialize h]

/-- What the loader makes of the bytes of a valid state. -/
theorem parseState_serialize {s : OtaPersistentState} (h : stateValid s = true) :
    parseState J (serialize s) =
      if occursIn nulEscape s.buildId || occursIn nulEscape s.lastError.message then none
      else some s := by
  have hs := savable_of_valid h
  have hraw := rawBytesOk_serialize h
  have hload : J.load (serialize s) = some (.obj (stateMembers s)) :=
    J.load_generate _ (writable_stateMembers hs) (inRange_stateMembers hs)
  have hdup : (stateMembers s).duplicate = false :=
    duplicate_of_writableMembers _ (writable_stateMembers hs)
  cases hbad : occursIn nulEscape s.buildId || occursIn nulEscape s.lastError.message with
  | true => simp [parseState, hraw, hbad]
  | false =>
      simp [parseState, hraw, hbad, hload, hdup, stateOfObject_stateMembers hs, h]

/-- A loader never misreads saved bytes. -/
theorem eq_of_parseState_serialize {s t : OtaPersistentState} (h : stateValid s = true)
    (ht : parseState J (serialize s) = some t) : t = s := by
  rw [parseState_serialize J h] at ht
  split at ht
  · cases ht
  · exact (Option.some.inj ht).symm

/-- Whatever the loader returns is valid. -/
theorem valid_of_parseState {data : Bytes} {s : OtaPersistentState}
    (h : parseState J data = some s) : stateValid s = true := by
  unfold parseState at h
  simp only [Option.bind_eq_bind] at h
  split at h
  · simp at h
  · obtain ⟨value, -, h⟩ := Option.bind_eq_some_iff.mp h
    cases value with
    | obj object =>
        simp only at h
        split at h
        · simp at h
        · obtain ⟨t, -, h⟩ := Option.bind_eq_some_iff.mp h
          split at h
          · cases h
            assumption
          · cases h
    | _ => cases h

/-- Saving and loading give the state back: a save without faults writes, and
whatever a save with or without faults puts into the file is loaded as the
state that was saved. -/
def RoundTrips (path : Bytes) (s : OtaPersistentState) : Prop :=
  otaPersistenceSave none s = ([.replace (serialize s), .sync], .ok ()) ∧
    ∀ fault data, .replace data ∈ (otaPersistenceSave fault s).1 →
      otaPersistenceLoad J path none (some data) = .ok (some s)

theorem save_of_valid {s : OtaPersistentState} (h : stateValid s = true) :
    otaPersistenceSave none s = ([.replace (serialize s), .sync], .ok ()) := by
  have hlength := length_serialize_le (savable_of_valid h)
  simp [otaPersistenceSave, otaPersistentStateValidate, h, hlength, otaAtomicWrite]

/-- A save puts nothing but the bytes of its state into the file. -/
theorem eq_serialize_of_mem_save {fault : Option IoFault} {s : OtaPersistentState}
    {data : Bytes} (h : .replace data ∈ (otaPersistenceSave fault s).1) :
    stateValid s = true ∧ data = serialize s := by
  rcases save_cases fault s with ⟨error, -, hcase⟩ | ⟨hv, error, -, hcase⟩ | ⟨hv, hcase⟩
  all_goals
    rw [hcase] at h
    simp at h
  · exact ⟨hv, h⟩
  · exact ⟨hv, h⟩

/-- A saved state is loaded exactly when the escape is not spelt. -/
theorem load_serialize (path : Bytes) {s : OtaPersistentState} (h : stateValid s = true) :
    otaPersistenceLoad J path none (some (serialize s)) = .ok (some s) ↔
      occursIn nulEscape s.buildId = false ∧
        occursIn nulEscape s.lastError.message = false := by
  have hlength := length_serialize_le (savable_of_valid h)
  have hread : otaFileRead path otaStateMaxBytes none (some (serialize s)) =
      .ok (some (serialize s)) := by
    simp [otaFileRead, Nat.not_lt.mpr hlength]
  rw [otaPersistenceLoad, hread, ← Bool.or_eq_false_iff]
  simp only [parseState_serialize J h]
  cases occursIn nulEscape s.buildId || occursIn nulEscape s.lastError.message <;> simp

/-- A valid state survives saving and loading exactly when neither its build
identifier nor its error message contains the text `\u0000`. -/
theorem save_load_iff (path : Bytes) {s : OtaPersistentState} (h : stateValid s = true) :
    RoundTrips J path s ↔
      occursIn nulEscape s.buildId = false ∧
        occursIn nulEscape s.lastError.message = false := by
  rw [← load_serialize J path h]
  constructor
  · intro hround
    exact hround.2 none (serialize s) (by rw [hround.1]; simp)
  · intro hload
    refine ⟨save_of_valid h, ?_⟩
    intro fault data hdata
    rw [(eq_serialize_of_mem_save hdata).2]
    exact hload

/-- An attempt at PRECHECK with a given build identifier. -/
def precheckState (buildId : Bytes) : OtaPersistentState :=
  { otaPersistentStateInit with
    state := .precheck
    attemptId := ascii "01234567-89ab-4cde-8f01-23456789abcd"
    targetVersion := ascii "1.2.3"
    buildId
    artifactUrl := ascii "/updates/1.2.3.raucb"
    expectedSize := 1048576
    expectedSha256 := List.replicate 64 0x61 }

theorem save_load_iff_plain_build :
    stateValid (precheckState (ascii "build-7")) = true ∧
      RoundTrips JsonReader.referenceParser (ascii "/state")
        (precheckState (ascii "build-7")) :=
  ⟨by decide, (save_load_iff _ _ (by decide)).mpr (by decide)⟩

/-- A build identifier that spells the escape is saved and refused. -/
theorem round_trip_fails_on_spelled_escape :
    stateValid (precheckState (ascii "build\\u0000")) = true ∧
      ¬ RoundTrips JsonReader.referenceParser (ascii "/state")
        (precheckState (ascii "build\\u0000")) := by
  have hv : stateValid (precheckState (ascii "build\\u0000")) = true := by decide
  refine ⟨hv, fun hround => ?_⟩
  have hload := hround.2 none _ (by rw [hround.1]; exact List.mem_cons_self)
  exact absurd ((load_serialize _ _ hv).mp hload).1 (by decide)

end EdgeGuard.Agent.PersistenceRoundTrip
