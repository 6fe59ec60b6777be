import EdgeGuard.Provisioning.RequestIdentity
import EdgeGuard.Provisioning.ResultRouting
import EdgeGuard.Provisioning.Status

/-!
# The values that peers read

A value of a characteristic is one attribute of 512 bytes.  The two values of the status
record fit for want of room in its fields; a result fits because a message that is too
long is left out of it, and nothing else in it has an open length.

## Main results

* `resultJson_fits` — the text of a result, whatever its message.
* `opcode_inFlight` — a request that reaches the worker has an operation.
* `values_fit` — every value that the daemon can make fits.
-/

namespace EdgeGuard.Provisioning.ValueBounds

open EdgeGuard.Base EdgeGuard.Base.CText EdgeGuard.Base.Json EdgeGuard.Base.JsonSize
open EdgeGuard.Base.Ini EdgeGuard.Base.Uri
open EdgeGuard.Agent.ConfigConsumers (isUrlByte)
open EdgeGuard.Provisioning.Model EdgeGuard.Provisioning.Protocol
open EdgeGuard.Provisioning.ProtocolRun (Tidy assemble_cases mergeFrame_cases mergeBytes_same)
open EdgeGuard.Provisioning.Store EdgeGuard.Provisioning.Endpoint
open EdgeGuard.Provisioning.RuntimeStore EdgeGuard.Provisioning.CanonicalEndpoint
open EdgeGuard.Provisioning.AgentStatus EdgeGuard.Provisioning.RequestIdentity
open EdgeGuard.Provisioning.Callbacks EdgeGuard.Provisioning.ResultRouting
open EdgeGuard.Provisioning.Status

/-! ## The words of a result -/

/-- The name of an operation is a short word. -/
theorem opcodeName_word {opcode : UInt8} {name : Bytes} (h : egpOpcodeName opcode = some name) :
    isWord name = true ∧ name.length ≤ 16 := by
  unfold egpOpcodeName at h
  split at h
  · cases h
    decide
  · split at h
    · cases h
      decide
    · split at h
      · cases h
        decide
      · split at h
        · cases h
          decide
        · cases h

theorem errorCodeName_word (code : EgpErrorCode) :
    isWord (egpErrorCodeName code) = true ∧ (egpErrorCodeName code).length ≤ 30 := by
  cases code <;> decide

theorem changeName_word (change : EgpPersistentChange) :
    isWord (changeName change) = true ∧ (changeName change).length ≤ 11 := by
  cases change <;> decide

/-! ## The text of a result -/

/-- A generation and an endpoint that may stand in a result. -/
structure Committed (generation : Nat) (endpoint : Bytes) : Prop where
  generation : generation ≤ egpJsonUintMax
  bytes : endpoint.all isUrlByte = true
  length : endpoint.length ≤ egpEndpointMaxBytes

theorem committed_none : Committed 0 [] := ⟨Nat.zero_le _, rfl, Nat.zero_le _⟩

section Results

variable {request : EgpProtocolRequest} {operation status : Bytes} {generation : Nat}
  {endpoint : Option Bytes}

/-- The text that stands in for a result whose message is too long. -/
theorem length_short_le (hoperation : isWord operation = true ∧ operation.length ≤ 16)
    (hstatus : isWord status = true ∧ status.length ≤ 9) (error : EgpError)
    (hcommitted : Committed generation (endpoint.getD [])) :
    (buildResultJson request operation status error generation endpoint
      (ascii "Result detail omitted")).length ≤ egpOperationResultMaxJson := by
  have htransaction := valueFits_uuid
    (uuidStringIsValid_of_uuid (format_uuid request.transactionId))
  have hmessage : ValueFits (.str (ascii "Result detail omitted")) 23 :=
    @valueFits_simple _ 21 (by decide) (by decide)
  have hfixed : MembersFit
      [(ascii "schema_version", .int egpSchemaVersion),
        (ascii "transaction_id", .str (egpTransactionIdFormat request.transactionId)),
        (ascii "operation", .str operation),
        (ascii "status", .str status),
        (ascii "error_code", .str (egpErrorCodeName error.code)),
        (ascii "retryable", .bool error.retryable),
        (ascii "persistent_change", .str (changeName error.persistentChange)),
        (ascii "message", .str (ascii "Result detail omitted"))] 259 :=
    membersFit_cons (by decide) valueFits_one <|
    membersFit_cons (by decide) htransaction <|
    membersFit_cons (by decide) (valueFits_word hoperation) <|
    membersFit_cons (by decide) (valueFits_word hstatus) <|
    membersFit_cons (by decide) (valueFits_word (errorCodeName_word error.code)) <|
    membersFit_cons (by decide) (valueFits_bool error.retryable) <|
    membersFit_cons (by decide) (valueFits_word (changeName_word error.persistentChange)) <|
    membersFit_cons (by decide) hmessage membersFit_nil
  have hgeneration : ValueFits (.int generation) 19 :=
    valueFits_nat (by decide) (Nat.lt_of_le_of_lt hcommitted.generation (by decide))
  have hrest : MembersFit (if includesEndpoint request generation endpoint then
      [(ascii "generation", .int generation),
        (ascii "base_url", .str (endpoint.getD []))] else []) 111 := by
    split
    · exact membersFit_cons (by decide) hgeneration <|
        membersFit_cons (by decide) (valueFits_url hcommitted.bytes hcommitted.length)
          membersFit_nil
    · exact membersFit_nil.mono (by decide)
  have htext := ((hfixed.append hrest).text (List.cons_ne_nil _ _)).2
  exact Nat.le_trans htext (by decide)

/-- A result is within the bound of a value whatever its message. -/
theorem resultJson_fits (hoperation : egpOpcodeName request.opcode = some operation)
    (hstatus : isWord status = true ∧ status.length ≤ 9) (code : EgpErrorCode) (retryable : Bool)
    (change : EgpPersistentChange) (message : Bytes)
    (hcommitted : Committed generation (endpoint.getD [])) :
    Fits (egpOperationsResultJson request status (egpErrorSet code retryable change message)
      generation endpoint) := by
  have hshort := @length_short_le request _ _ _ _ (opcodeName_word hoperation) hstatus
    (egpErrorSet code retryable change message) hcommitted
  have hmessage : (egpErrorSet code retryable change message).message.length < egpMessageCap := by
    have htake : (message.take (egpMessageCap - 1)).length ≤ egpMessageCap - 1 :=
      List.length_take_le _ _
    exact Nat.lt_of_le_of_lt htake (by decide)
  have hgeneration := hcommitted.generation
  have hlength := hcommitted.length
  unfold egpOperationsResultJson
  simp only [hoperation]
  rw [if_neg]
  · split
    · rename_i hfull
      exact ⟨generate_object_ne_nil _, hfull⟩
    · exact ⟨generate_object_ne_nil _, hshort⟩
  · simp only [Bool.or_eq_true, Bool.and_eq_true, decide_eq_true_eq]
    omega

end Results

/-! ## What the worker leaves -/

/-- What the worker can leave in `work`: a result that `egp_error_set` wrote, and next to
it nothing or the endpoint that the store has committed. -/
inductive Leaves (J : JsonParser) (N : NetLibrary) : Outcome → Prop
  | result (code : EgpErrorCode) (retryable : Bool) (change : EgpPersistentChange)
      (message : Bytes) : Leaves J N ⟨egpErrorSet code retryable change message, 0, []⟩
  | committed (code : EgpErrorCode) (retryable : Bool) (change : EgpPersistentChange)
      (message : Bytes) (io : ReplaceIo) (d : Directory) (candidateUrl : Bytes)
      (replaced : ReplacedRuntime)
      (value : (egpStoreReplaceRuntime J N io d candidateUrl).value = some replaced) :
      Leaves J N ⟨egpErrorSet code retryable change message, replaced.committed.generation,
        replaced.committed.otaServerBaseUrl.take egpEndpointMaxBytes⟩

theorem committed_of_replaced {J : JsonParser} {N : NetLibrary} {io : ReplaceIo} {d : Directory}
    {candidateUrl : Bytes} {replaced : ReplacedRuntime}
    (h : (egpStoreReplaceRuntime J N io d candidateUrl).value = some replaced) :
    Committed replaced.committed.generation
      (replaced.committed.otaServerBaseUrl.take egpEndpointMaxBytes) := by
  have hstorable := (committed_of_value J h).1
  obtain ⟨input, hprinted⟩ := hstorable.printed
  have hlength := length_of_canonicalize hprinted
  rw [List.take_of_length_le hlength]
  exact ⟨hstorable.bounded, List.all_eq_true.mpr (bytes_of_canonicalize hprinted), hlength⟩

/-- The text that the worker leaves fits. -/
theorem outcome_fits {J : JsonParser} {N : NetLibrary} {outcome : Outcome}
    (h : Leaves J N outcome) {request : EgpProtocolRequest} {operation : Bytes}
    (hoperation : egpOpcodeName request.opcode = some operation) :
    Fits (outcome.json request) := by
  have hstatus : ∀ code : EgpErrorCode, isWord
      (if code = .none then ascii "SUCCEEDED" else ascii "FAILED") = true ∧
        (if code = .none then ascii "SUCCEEDED" else ascii "FAILED").length ≤ 9 := by
    intro code
    split
    · decide
    · decide
  unfold Outcome.json
  cases h with
  | result code retryable change message =>
      exact resultJson_fits hoperation (hstatus code) code retryable change message committed_none
  | committed code retryable change message io d candidateUrl replaced value =>
      exact resultJson_fits hoperation (hstatus code) code retryable change message
        (committed_of_replaced value)

theorem accepted_fits {request : EgpProtocolRequest} {operation : Bytes}
    (hoperation : egpOpcodeName request.opcode = some operation) : Fits (acceptedJson request) :=
  resultJson_fits hoperation (by decide) _ _ _ _ committed_none

/-! ## The requests in flight -/

/-- An opcode that is allowed has a name. -/
theorem opcodeName_of_allowed {c : EgpWritableCharacteristic} {opcode : UInt8}
    (h : opcodeAllowed c opcode = true) : ∃ operation, egpOpcodeName opcode = some operation := by
  cases c with
  | provisioning =>
      simp only [opcodeAllowed, Bool.or_eq_true, beq_iff_eq, or_assoc] at h
      rcases h with rfl | rfl | rfl
      · exact ⟨_, rfl⟩
      · exact ⟨_, rfl⟩
      · exact ⟨_, rfl⟩
  | control =>
      simp only [opcodeAllowed, beq_iff_eq] at h
      rw [h]
      exact ⟨_, rfl⟩

/-- A frame that parses has an allowed opcode. -/
theorem opcode_of_parseFrame {c : EgpWritableCharacteristic} {value : Bytes} {frame : Frame}
    (h : parseFrame c value = .ok frame) : opcodeAllowed c frame.opcode = true := by
  unfold parseFrame at h
  split at h
  · simp only at h
    split at h
    · cases h
    · split at h
      · cases h
      · rename_i hopcode
        split at h
        · cases h
        · split at h
          · cases h
          · cases h
            simp only [Bool.or_eq_true, Bool.not_eq_true', not_or, Bool.not_eq_false] at hopcode
            exact hopcode.2
  · cases h

/-- The opcode of a completed request is the one of the frame that completed it. -/
theorem opcode_of_complete {sha256 : Bytes → Bytes} {o : HashTable.Visits} {p : EgpProtocol}
    (h : Tidy p) {peer : Bytes} {c : EgpWritableCharacteristic} {value : Bytes} {now : Int}
    {q : EgpProtocolRequest}
    (hcomplete : (egpProtocolAccept sha256 o p peer c value now).2 = .ok (.complete q)) :
    opcodeAllowed c q.opcode = true := by
  unfold egpProtocolAccept at hcomplete
  rcases assemble_cases o p peer c value now with ⟨-, error, heq⟩ | ⟨-, frame, hframe, hcases⟩
  · rw [heq] at hcomplete
    cases hcomplete
  · cases hcases with
    | refused r error aged eq =>
        rw [eq] at hcomplete
        cases hcomplete
    | joined r t aged current unmarked joins eq =>
        obtain ⟨-, -, -, hopcode, -⟩ := joins.fields (h.aged aged)
        rw [eq] at hcomplete
        cases mergeFrame_cases r (incompleteKey peer c) t frame now with
        | conflict error bytes code eq =>
            rw [eq] at hcomplete
            cases hcomplete
        | gap m error bytes ended count code eq =>
            rw [eq] at hcomplete
            cases hcomplete
        | kept m bytes open_ eq =>
            rw [eq] at hcomplete
            cases hcomplete
        | whole m bytes ended count eq =>
            rw [eq] at hcomplete
            obtain ⟨-, -, -, hmerged, -⟩ := mergeBytes_same bytes
            have hq := (completeTransaction_texts sha256 o r (incompleteKey peer c)
              { m with touchedUs := now, endSeen := true } now).2.1 q hcomplete
            rw [hq]
            show opcodeAllowed c m.opcode = true
            rw [hmerged, hopcode]
            exact opcode_of_parseFrame hframe

section Runs

variable {sha256 : Bytes → Bytes} {log : List Entry} {d : Daemon}

/-- A request that reaches the worker has an operation. -/
theorem opcode_inFlight (h : Callbacks.Run sha256 log d) {r : EgpProtocolRequest}
    (hwork : d.work = some (.request r)) :
    ∃ operation, egpOpcodeName r.opcode = some operation := by
  obtain ⟨front, x, back, hlog, hcompletes, -⟩ := (routed_run h).flight r hwork
  obtain ⟨env, c, value, q, -, haccept, hr⟩ := hcompletes.write
  have hrun := (run_entries h front x back hlog).1
  have hallowed := opcode_of_complete (routed_run hrun).tidy haccept
  rw [hr]
  exact opcodeName_of_allowed hallowed

/-- A text that fits is published, as long as its request is the active one. -/
theorem completed_publishes (h : Callbacks.Run sha256 log d) {r : EgpProtocolRequest}
    (hwork : d.work = some (.request r)) {outcome : Outcome} (hfits : Fits (outcome.json r))
    (hactive : d.activeRequest ≠ none) (o : HashTable.Visits) (now : Int) :
    (completed o now d outcome).lastResult = outcome.json r := by
  obtain ⟨-, -, -, -, -, -, hnone | ⟨hsome, -⟩⟩ := (routed_run h).flight r hwork
  · exact absurd hnone hactive
  · obtain ⟨hnonempty, hlength⟩ := hfits
    have hempty : (outcome.json r).isEmpty = false := List.isEmpty_eq_false_iff.mpr hnonempty
    have hpeer : (r.peerPath != (hideJson r).peerPath) = false := bne_self_eq_false _
    unfold completed
    simp only [hwork]
    unfold resultPublished
    simp only [hsome, hpeer, hempty, Nat.not_lt.mpr hlength, decide_false, Bool.or_self,
      Bool.false_eq_true, if_false]
    exact List.take_of_length_le hlength

end Runs

/-! ## Every value -/

/-- Whatever the daemon finds and in whatever order, both values of its status record are
made and fit.  Whatever the worker leaves of a request for any operation, and the text that
the request is accepted with, fit.  So no idle daemon refuses a completed request for its
text, and the result of a request in flight is published as long as the request is the
active one. -/
theorem values_fit (load : KeyFileParser) (J : JsonParser) (N : NetLibrary)
    (sha256 : Bytes → Bytes) :
    (∀ blocks, (∃ json,
        egpStatusDeviceInfoJson (egpStatusNew.run load J N blocks) = .ok json ∧ Fits json) ∧
      ∃ json, egpStatusRuntimeJson (egpStatusNew.run load J N blocks) = .ok json ∧ Fits json) ∧
    (∀ request operation, egpOpcodeName request.opcode = some operation →
      Fits (acceptedJson request) ∧
        ∀ outcome, Leaves J N outcome → Fits (outcome.json request)) ∧
    ∀ log d, Callbacks.Run sha256 log d →
      (∀ o peer c value now q windowEpoch connectionEpoch,
        (egpProtocolAccept sha256 o d.protocol peer c value now).2 = .ok (.complete q) →
        ∀ o' now' d', d'.work = none → d'.closing = false →
          (egpOperationsSubmit o' now' d' { q with windowEpoch, connectionEpoch }).2 = .ok ()) ∧
      ∀ r outcome, d.work = some (.request r) → Leaves J N outcome →
        Fits (outcome.json r) ∧
          (d.activeRequest ≠ none →
            ∀ o now, (completed o now d outcome).lastResult = outcome.json r) := by
  refine ⟨fun blocks => ?_, fun request operation hoperation => ?_, fun log d hrun => ⟨?_, ?_⟩⟩
  · have hsound := @sound_run load J N _ sound_new blocks
    exact ⟨deviceInfo_fits hsound, runtimeStatus_fits hsound⟩
  · exact ⟨accepted_fits hoperation, fun outcome hleaves => outcome_fits hleaves hoperation⟩
  · intro o peer c value now q windowEpoch connectionEpoch hcomplete o' now' d' hwork hclosing
    obtain ⟨operation, hoperation⟩ :=
      opcodeName_of_allowed (opcode_of_complete (routed_run hrun).tidy hcomplete)
    have hfits := @accepted_fits { q with windowEpoch, connectionEpoch } operation hoperation
    unfold egpOperationsSubmit
    rw [if_neg (by simp [hwork, hclosing]), if_neg (by simpa using hfits.1)]
  · intro r outcome hwork hleaves
    obtain ⟨operation, hoperation⟩ := opcode_inFlight hrun hwork
    have hfits := outcome_fits hleaves hoperation
    exact ⟨hfits, completed_publishes hrun hwork hfits⟩

/-- A failure that would take 1530 bytes to explain. -/
def verboseOutcome : Outcome :=
  ⟨egpErrorSet .wifiAuthFailed true .rolledBack (List.replicate 300 1), 0, []⟩

/-- A slot without anything else, and a message that is left out. -/
theorem values_fit_sample :
    (∃ json, egpStatusRuntimeJson (egpStatusNew.run readKeyFile JsonReader.referenceParser
        referenceLibrary [.provisioning .connected true,
          .endpointAndSlot none none none (some (ascii "a\n"))]) = .ok json ∧ Fits json) ∧
      ∃ r, sampleDaemon.work = some (.request r) ∧ Fits (verboseOutcome.json r) := by
  obtain ⟨hstatus, -, hresults⟩ := values_fit readKeyFile JsonReader.referenceParser
    referenceLibrary ProtocolRun.sampleDigest
  refine ⟨(hstatus _).2, ?_⟩
  have hstart : Callbacks.Run ProtocolRun.sampleDigest [] daemonNew := .start
  have hwritten := (hstart.step (.physicalPresence 1000)).step (.writeValue sampleEnv
    (some .provisioning) ProtocolRun.samplePeer (ProtocolRun.sampleFrame 3 0 "\x7b\x7d"))
  obtain ⟨log, hrun⟩ : ∃ log, Callbacks.Run ProtocolRun.sampleDigest log sampleDaemon :=
    ⟨_, hwritten⟩
  have hleaves : Leaves JsonReader.referenceParser referenceLibrary verboseOutcome :=
    .result .wifiAuthFailed true .rolledBack (List.replicate 300 1)
  have hbusy : sampleDaemon.work.isSome = true ∧ sampleDaemon.work ≠ some .reconcile := by
    decide +kernel
  cases hwork : sampleDaemon.work with
  | none =>
      rw [hwork] at hbusy
      exact absurd hbusy.1 (by decide)
  | some flight =>
      cases flight with
      | reconcile => exact absurd hwork hbusy.2
      | request r =>
          exact ⟨r, rfl, ((hresults _ _ hrun).2 r _ hwork hleaves).1⟩

end EdgeGuard.Provisioning.ValueBounds
