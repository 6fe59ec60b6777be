import EdgeGuard.Base.HashTable
import EdgeGuard.Provisioning.Model

/-!
# The request protocol

`protocol.c`: frames that peers write on two characteristics are reassembled into
requests, and completed requests are remembered so that a repetition is answered
from the cache.

The three hash tables are keyed by texts, as in the source.  The order in which a
table is visited is an argument (`Visits`).  Times are in microseconds, and their
sums are taken not to leave 64 bits.  SHA-256 is a parameter, as a function from
bytes to hexadecimal digits.
-/

namespace EdgeGuard.Provisioning.Protocol

open EdgeGuard.Base.CText EdgeGuard.Base.Utf8 EdgeGuard.Base.HashTable
open EdgeGuard.Provisioning.Model

def egpProtocolVersion : UInt8 := 1
def egpFrameHeaderBytes : Nat := 32
def egpProtocolMaxIncomplete : Nat := 8
def egpProtocolIdleTimeoutUs : Int := 30 * 1000000
def egpProtocolLifetimeUs : Int := 60 * 1000000
def egpProtocolReplayTtlUs : Int := 10 * 60 * 1000000
def completedCacheLimit : Nat := 64

/-- `G_MAXINT64`. -/
def int64Max : Int := 2 ^ 63 - 1

inductive EgpWritableCharacteristic
  | provisioning
  | control
  deriving DecidableEq, Repr

/-- The number of the characteristic. -/
def EgpWritableCharacteristic.number : EgpWritableCharacteristic → Nat
  | .provisioning => 0
  | .control => 1

def egpOpcodeSetWifi : UInt8 := 0x01
def egpOpcodeSetEndpoint : UInt8 := 0x02
def egpOpcodeForgetWifi : UInt8 := 0x03
def egpOpcodeCheckUpdateNow : UInt8 := 0x10

/-- Sixteen bytes. -/
abbrev TransactionId := { id : Bytes // id.length = 16 }

/-! ## Keys -/

/-- A digit of `%02x`. -/
def hexDigit (n : Nat) : UInt8 := if n < 10 then (0x30 + n).toUInt8 else (0x57 + n).toUInt8

/-- `%02x`. -/
def hexByte (b : UInt8) : Bytes := [hexDigit (b.toNat / 16), hexDigit (b.toNat % 16)]

/-- `egp_transaction_id_format`. -/
def egpTransactionIdFormat (id : TransactionId) : Bytes :=
  let hex (first count : Nat) := ((id.1.drop first).take count).flatMap hexByte
  hex 0 4 ++ [0x2d] ++ hex 4 2 ++ [0x2d] ++ hex 6 2 ++ [0x2d] ++ hex 8 2 ++ [0x2d] ++ hex 10 6

/-- `incomplete_key`. -/
def incompleteKey (peerPath : Bytes) (characteristic : EgpWritableCharacteristic) : Bytes :=
  decimal characteristic.number ++ [0x3a] ++ peerPath

/-- `completed_key`. -/
def completedKey (peerPath : Bytes) (characteristic : EgpWritableCharacteristic)
    (transactionId : TransactionId) : Bytes :=
  decimal characteristic.number ++ [0x3a] ++ peerPath ++ [0x3a] ++
    egpTransactionIdFormat transactionId

/-! ## State -/

structure Incomplete where
  peerPath : Bytes
  characteristic : EgpWritableCharacteristic
  transactionId : TransactionId
  opcode : UInt8
  totalLength : Nat
  data : Bytes
  received : List Bool
  receivedCount : Nat
  endSeen : Bool
  createdUs : Int
  touchedUs : Int
  deriving DecidableEq

structure Completed where
  digest : Bytes
  result : Bytes
  expiresUs : Int
  completedUs : Int
  deriving DecidableEq

structure EgpProtocol where
  incomplete : Table Bytes Incomplete
  completed : Table Bytes Completed
  /-- When the marker of a transaction that timed out goes away. -/
  expired : Table Bytes Int

/-- `egp_protocol_new`. -/
def egpProtocolNew : EgpProtocol := ⟨∅, ∅, ∅⟩

structure EgpProtocolRequest where
  peerPath : Bytes
  characteristic : EgpWritableCharacteristic
  transactionId : TransactionId
  windowEpoch : Nat
  connectionEpoch : Nat
  opcode : UInt8
  json : Bytes
  deriving DecidableEq

/-- The output of a successful `egp_protocol_accept`, by its disposition. -/
inductive EgpProtocolOutput
  | incomplete
  | complete (request : EgpProtocolRequest)
  | replay (request : EgpProtocolRequest) (cachedResult : Bytes)
  deriving DecidableEq

/-! ## Frames -/

/-- `g_variant_is_object_path`. -/
def isObjectPath (path : Bytes) : Bool :=
  match path with
  | [] => false
  | slash :: rest =>
      slash == 0x2f && (rest.isEmpty ||
        (rest.splitOn 0x2f).all fun element =>
          !element.isEmpty && element.all fun b => isAlnum b || b == 0x5f)

/-- `opcode_allowed`. -/
def opcodeAllowed (characteristic : EgpWritableCharacteristic) (opcode : UInt8) : Bool :=
  match characteristic with
  | .provisioning =>
      opcode == egpOpcodeSetWifi || opcode == egpOpcodeSetEndpoint ||
        opcode == egpOpcodeForgetWifi
  | .control => opcode == egpOpcodeCheckUpdateNow

/-- `fail`. -/
def protocolFail (code : EgpErrorCode) (retryable : Bool) (message : String) : EgpError :=
  egpErrorSet code retryable .none (ascii message)

/-- `read_be16`. -/
def readBe16 (value : Bytes) (offset : Nat) : Nat :=
  (value.getD offset 0).toNat * 256 + (value.getD (offset + 1) 0).toNat

/-- `transaction_id_nonzero`. -/
def transactionIdNonzero (id : Bytes) : Bool := id.any (· != 0)

/-- What `egp_protocol_accept` takes from a frame. -/
structure Frame where
  opcode : UInt8
  start : Bool
  finish : Bool
  transactionId : TransactionId
  total : Nat
  offset : Nat
  fragment : Bytes
  deriving DecidableEq

/-- The frame that a value of at least the header's length spells. -/
def frameOf (value : Bytes) (h : egpFrameHeaderBytes ≤ value.length) : Frame where
  opcode := value.getD 5 0
  start := (value.getD 6 0).toNat.testBit 0
  finish := (value.getD 6 0).toNat.testBit 1
  transactionId := ⟨(value.drop 8).take 16, by
    rw [List.length_take, List.length_drop]
    exact Nat.min_eq_left (Nat.le_sub_of_add_le (Nat.le_trans (by decide) h))⟩
  total := readBe16 value 24
  offset := readBe16 value 26
  fragment := value.drop egpFrameHeaderBytes

/-- The checks of `egp_protocol_accept` on the header. -/
def parseFrame (characteristic : EgpWritableCharacteristic) (value : Bytes) :
    Except EgpError Frame :=
  if h : egpFrameHeaderBytes ≤ value.length then
    let frame := frameOf value h
    if value.take 4 != ascii "EGP1" || value.getD 4 0 != egpProtocolVersion then
      .error (protocolFail .bleProtocolUnsupported false
        "Protocol magic or version is unsupported")
    else if 4 ≤ (value.getD 6 0).toNat || value.getD 7 0 != 0 || value.getD 30 0 != 0 ||
        value.getD 31 0 != 0 || !opcodeAllowed characteristic frame.opcode then
      .error (protocolFail .blePayloadInvalid true
        "Frame flags, reserved fields, or opcode are invalid")
    else if egpProtocolMaxJson < frame.total then
      .error (protocolFail .blePayloadTooLarge true
        "Logical request exceeds the protocol bound")
    else if readBe16 value 28 != frame.fragment.length || frame.total < frame.offset ||
        frame.total - frame.offset < frame.fragment.length ||
        !transactionIdNonzero frame.transactionId.1 ||
        (frame.start && frame.offset != 0) ||
        (frame.finish && frame.offset + frame.fragment.length != frame.total) then
      .error (protocolFail .blePayloadInvalid true
        "Frame lengths, offset, or transaction identifier are invalid")
    else .ok frame
  else
    .error (protocolFail .blePayloadInvalid true "Frame is shorter than the fixed header")

/-! ## Timeouts -/

/-- The test of both timeouts. -/
def Incomplete.timedOut (now : Int) (t : Incomplete) : Bool :=
  egpProtocolIdleTimeoutUs ≤ now - t.touchedUs || egpProtocolLifetimeUs ≤ now - t.createdUs

/-- `remember_timeout`, on the table of markers. -/
def rememberTimeout (o : Visits) (now : Int) (expired : Table Bytes Int) (t : Incomplete) :
    Table Bytes Int :=
  (evict o completedCacheLimit (size expired) expired).insert
    (completedKey t.peerPath t.characteristic t.transactionId) (now + egpProtocolLifetimeUs)

/-- `egp_protocol_expire`.  The loop over the incomplete transactions removes and
remembers those that timed out, in the order of the table. -/
def egpProtocolExpire (o : Visits) (p : EgpProtocol) (now : Int) : EgpProtocol :=
  if now ≤ 0 then p
  else
    let gone := ((o.order p.incomplete.entries).map Sigma.snd).filter (·.timedOut now)
    { incomplete := retain (fun _ t => !t.timedOut now) p.incomplete
      completed := retain (fun _ c => now < c.expiresUs) p.completed
      expired := retain (fun _ expires => now < expires)
        (gone.foldl (rememberTimeout o now) p.expired) }

/-- The test of `egp_protocol_drop_peer` on the key of a marker: what stands between
the first and the last colon. -/
def markerOf (peerPath key : Bytes) : Bool :=
  let first := key.findIdx (· == 0x3a)
  let last := key.length - 1 - key.reverse.findIdx (· == 0x3a)
  key.contains 0x3a && first + 1 < last && (key.take last).drop (first + 1) == peerPath

/-- `egp_protocol_drop_peer`. -/
def egpProtocolDropPeer (p : EgpProtocol) (peerPath : Bytes) : EgpProtocol :=
  { p with
    incomplete := retain (fun _ t => t.peerPath != peerPath) p.incomplete
    expired := retain (fun key _ => !markerOf peerPath key) p.expired }

/-- `egp_protocol_drop_all`. -/
def egpProtocolDropAll (_ : EgpProtocol) : EgpProtocol := egpProtocolNew

/-! ## Completion -/

/-- What `digest_request` feeds to SHA-256. -/
def digestInput (peerPath : Bytes) (characteristic : EgpWritableCharacteristic)
    (opcode : UInt8) (data : Bytes) : Bytes :=
  peerPath ++ [characteristic.number.toUInt8, opcode,
    (data.length / 256).toUInt8, data.length.toUInt8] ++ data

/-- `prune_completed_limit`. -/
def pruneCompletedLimit (o : Visits) (completed : Table Bytes Completed) :
    Table Bytes Completed :=
  prune o Completed.completedUs int64Max completedCacheLimit (size completed) completed

/-- The bytes of the transaction's request. -/
def Incomplete.json (t : Incomplete) : Bytes := t.data.take t.totalLength

/-- The text is one that `complete_transaction` accepts. -/
def requestText (json : Bytes) : Bool := valid json && !json.contains 0

def Incomplete.request (t : Incomplete) : EgpProtocolRequest where
  peerPath := t.peerPath
  characteristic := t.characteristic
  transactionId := t.transactionId
  windowEpoch := 0
  connectionEpoch := 0
  opcode := t.opcode
  json := t.json

/-- What a call leaves and answers. -/
abbrev Accepted := EgpProtocol × Except EgpError EgpProtocolOutput

/-- `complete_transaction`. -/
def completeTransaction (sha256 : Bytes → Bytes) (o : Visits) (p : EgpProtocol) (key : Bytes)
    (t : Incomplete) (now : Int) : Accepted :=
  let rest := { p with incomplete := p.incomplete.erase key }
  if !requestText t.json then
    (rest, .error (protocolFail .blePayloadInvalid true
      "Request JSON is not valid NUL-free UTF-8"))
  else
    let digest := sha256 (digestInput t.peerPath t.characteristic t.opcode t.json)
    let cacheKey := completedKey t.peerPath t.characteristic t.transactionId
    match p.completed.lookup cacheKey with
    | some completed =>
        if completed.digest != digest then
          (rest, .error (protocolFail .bleReplayRejected false
            "Completed transaction identifier was reused with different content"))
        else (rest, .ok (.replay t.request completed.result))
    | none =>
        let entry : Completed := ⟨digest, [], now + egpProtocolReplayTtlUs, now⟩
        ({ rest with completed := (pruneCompletedLimit o p.completed).insert cacheKey entry },
          .ok (.complete t.request))

/-! ## Acceptance -/

/-- The loop that takes the bytes of a fragment; `none` is a conflict. -/
def mergeBytes (t : Incomplete) (position : Nat) : Bytes → Option Incomplete
  | [] => some t
  | byte :: rest =>
      if t.received.getD position false then
        if t.data.getD position 0 != byte then none else mergeBytes t (position + 1) rest
      else
        mergeBytes
          { t with
            received := t.received.set position true
            data := t.data.set position byte
            receivedCount := t.receivedCount + 1 }
          (position + 1) rest

/-- The transaction that a first frame opens. -/
def Incomplete.fresh (peerPath : Bytes) (characteristic : EgpWritableCharacteristic)
    (frame : Frame) (now : Int) : Incomplete where
  peerPath := peerPath
  characteristic := characteristic
  transactionId := frame.transactionId
  opcode := frame.opcode
  totalLength := frame.total
  data := List.replicate egpProtocolMaxJson 0
  received := List.replicate egpProtocolMaxJson false
  receivedCount := 0
  endSeen := false
  createdUs := now
  touchedUs := now

/-- What comes of a frame: an answer, or a transaction that is whole. -/
inductive Assembly
  | answered (p : EgpProtocol) (reply : Except EgpError EgpProtocolOutput)
  | whole (p : EgpProtocol) (key : Bytes) (t : Incomplete)

/-- The part of `egp_protocol_accept` that adds a frame to its transaction. -/
def mergeFrame (p : EgpProtocol) (key : Bytes) (t : Incomplete) (frame : Frame) (now : Int) :
    Assembly :=
  let rest := { p with incomplete := p.incomplete.erase key }
  match mergeBytes t frame.offset frame.fragment with
  | none =>
      .answered rest (.error (protocolFail .bleFragmentConflict true
        "Overlapping fragment bytes conflict"))
  | some merged =>
      let merged := { merged with touchedUs := now, endSeen := merged.endSeen || frame.finish }
      if merged.endSeen && merged.receivedCount != frame.total then
        .answered rest (.error (protocolFail .bleFragmentConflict true
          "END arrived while the logical request still has gaps"))
      else if !merged.endSeen then
        .answered { p with incomplete := p.incomplete.insert key merged } (.ok .incomplete)
      else .whole p key merged

def timeoutError : EgpError :=
  protocolFail .bleTransactionTimeout true "Incomplete transaction expired"

/-- The part of `egp_protocol_accept` behind the transaction that the peer had. -/
def assembleFrame (o : Visits) (p : EgpProtocol) (peerPath : Bytes)
    (characteristic : EgpWritableCharacteristic) (frame : Frame) (now : Int) : Assembly :=
  let key := incompleteKey peerPath characteristic
  let p := egpProtocolExpire o p now
  if (p.expired.lookup (completedKey peerPath characteristic frame.transactionId)).isSome then
    .answered p (.error timeoutError)
  else
    match p.incomplete.lookup key with
    | none =>
        if !frame.start then
          .answered p (.error (protocolFail .bleFragmentConflict true
            "First fragment must carry START"))
        else if egpProtocolMaxIncomplete ≤ size p.incomplete then
          .answered p (.error (protocolFail .provisioningBusy true
            "Global incomplete transaction limit reached"))
        else mergeFrame p key (.fresh peerPath characteristic frame now) frame now
    | some t =>
        if t.transactionId != frame.transactionId || t.opcode != frame.opcode ||
            t.totalLength != frame.total then
          .answered p (.error (protocolFail .provisioningBusy true
            "Peer already has an incomplete transaction on this characteristic"))
        else mergeFrame p key t frame now

/-- `egp_protocol_accept` up to `complete_transaction`. -/
def assemble (o : Visits) (p : EgpProtocol) (peerPath : Bytes)
    (characteristic : EgpWritableCharacteristic) (value : Bytes) (now : Int) : Assembly :=
  if egpDbusPathCap ≤ peerPath.length || !isObjectPath peerPath || now ≤ 0 then
    .answered p (.error (protocolFail .blePayloadInvalid true "Protocol input is invalid"))
  else
    match parseFrame characteristic value with
    | .error error => .answered p (.error error)
    | .ok frame =>
        let key := incompleteKey peerPath characteristic
        match p.incomplete.lookup key with
        | none => assembleFrame o p peerPath characteristic frame now
        | some t =>
            if t.timedOut now then
              let p := { p with
                incomplete := p.incomplete.erase key
                expired := rememberTimeout o now p.expired t }
              if t.transactionId = frame.transactionId then .answered p (.error timeoutError)
              else assembleFrame o p peerPath characteristic frame now
            else assembleFrame o p peerPath characteristic frame now

/-- `egp_protocol_accept`. -/
def egpProtocolAccept (sha256 : Bytes → Bytes) (o : Visits) (p : EgpProtocol) (peerPath : Bytes)
    (characteristic : EgpWritableCharacteristic) (value : Bytes) (now : Int) : Accepted :=
  match assemble o p peerPath characteristic value now with
  | .answered p reply => (p, reply)
  | .whole p key t => completeTransaction sha256 o p key t now

/-- `egp_protocol_cache_result_id`. -/
def egpProtocolCacheResultId (o : Visits) (p : EgpProtocol) (peerPath : Bytes)
    (characteristic : EgpWritableCharacteristic) (transactionId : TransactionId)
    (resultJson : Bytes) (now : Int) : EgpProtocol × Except EgpError Unit :=
  if now ≤ 0 || egpProtocolMaxJson < resultJson.length || !valid resultJson then
    (p, .error (protocolFail .internalError true "Result cache input is invalid"))
  else
    let p := egpProtocolExpire o p now
    let key := completedKey peerPath characteristic transactionId
    match p.completed.lookup key with
    | none =>
        (p, .error (protocolFail .bleReplayRejected true
          "Completed request cache entry no longer exists"))
    | some completed =>
        let entry :=
          { completed with result := resultJson, expiresUs := now + egpProtocolReplayTtlUs }
        ({ p with completed := p.completed.insert key entry }, .ok ())

/-- `egp_protocol_cache_result`. -/
def egpProtocolCacheResult (sha256 : Bytes → Bytes) (o : Visits) (p : EgpProtocol)
    (request : EgpProtocolRequest) (resultJson : Bytes) (now : Int) :
    EgpProtocol × Except EgpError Unit :=
  if now ≤ 0 || egpProtocolMaxJson < resultJson.length || !valid resultJson then
    (p, .error (protocolFail .internalError true "Result cache input is invalid"))
  else
    let p := egpProtocolExpire o p now
    let key := completedKey request.peerPath request.characteristic request.transactionId
    let input :=
      digestInput request.peerPath request.characteristic request.opcode request.json
    match p.completed.lookup key with
    | none =>
        (p, .error (protocolFail .bleReplayRejected true
          "Completed request cache entry no longer exists"))
    | some completed =>
        if completed.digest != sha256 input then
          (p, .error (protocolFail .bleReplayRejected false
            "Result does not match the completed request digest"))
        else
          egpProtocolCacheResultId o p request.peerPath request.characteristic
            request.transactionId resultJson now

end EdgeGuard.Provisioning.Protocol
