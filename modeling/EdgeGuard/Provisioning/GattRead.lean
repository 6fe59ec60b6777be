import EdgeGuard.Base.HashTable
import EdgeGuard.Provisioning.Protocol

/-!
# Reads of characteristics

`gatt_read.c` and the part of `bluez.c` behind `ReadValue`: the options of a read, the
snapshot from which a long value is read piece by piece, and everything that throws the
snapshot away.

There is one slot for a snapshot, whoever reads.  What a handler serializes, and what
happens while it does, is part of the call; so are the two readings of the clock.  Sums of
times are taken not to leave 64 bits.
-/

namespace EdgeGuard.Provisioning.GattRead

open EdgeGuard.Base.CText EdgeGuard.Base.HashTable
open EdgeGuard.Provisioning.Model EdgeGuard.Provisioning.Protocol

def egpGattValueMaxBytes : Nat := 512
def egpGattDefaultMtu : Nat := 23
def egpGattMaxMtu : Nat := 517
def egpGattReadSnapshotTtlUs : Int := 30 * 1000000
def egpBluezOwnerCap : Nat := 64

inductive EgpBluezCharacteristic
  | deviceInfo
  | runtimeStatus
  | provisioningRequest
  | operationResult
  | controlRequest
  deriving DecidableEq, Repr

/-- `egp_error_set` as it is called here. -/
def readError (code : EgpErrorCode) (message : String) : EgpError :=
  egpErrorSet code true .none (ascii message)

/-! ## Options -/

/-- A variant, as far as the options tell variants apart. -/
inductive OptionValue
  | uint16 (n : UInt16)
  | boolean (b : Bool)
  | objectPath (path : Bytes) (valid : isObjectPath path = true)
  | other

abbrev Options := List (Bytes × OptionValue)

/-- `g_variant_lookup_value`. -/
def lookupValue (options : Options) (name : String) : Option OptionValue :=
  (options.find? (·.1 == ascii name)).map Prod.snd

/-- `uint16_option`: the value, and whether it is present. -/
def uint16Option (options : Options) (name : String) : Option (UInt16 × Bool) :=
  match lookupValue options name with
  | none => some (0, false)
  | some (.uint16 n) => some (n, true)
  | some _ => none

/-- `boolean_option`. -/
def booleanOption (options : Options) (name : String) : Option Bool :=
  match lookupValue options name with
  | none => some false
  | some (.boolean b) => some b
  | some _ => none

/-- `device_option`. -/
def deviceOption (options : Options) (required : Bool) : Option Bytes :=
  match lookupValue options "device" with
  | none => if required then none else some []
  | some (.objectPath path _) => if path.length < egpDbusPathCap then some path else none
  | some _ => none

structure EgpGattOptions where
  peerPath : Bytes
  offset : UInt16
  mtu : UInt16
  deriving DecidableEq

/-- `egp_gatt_parse_read_options`. -/
def egpGattParseReadOptions (options : Options) (requirePeer : Bool) :
    Except EgpError EgpGattOptions :=
  match uint16Option options "offset", uint16Option options "mtu",
      booleanOption options "prepare-authorize", deviceOption options requirePeer with
  | some (offset, _), some (mtu, mtuPresent), some prepare, some peerPath =>
      if prepare || (mtuPresent &&
          (mtu.toNat < egpGattDefaultMtu || egpGattMaxMtu < mtu.toNat)) then
        .error (readError .blePayloadInvalid
          "Unsupported ReadValue options or missing device identity")
      else .ok ⟨peerPath, offset, mtu⟩
  | _, _, _, _ => .error (readError .blePayloadInvalid
      "Unsupported ReadValue options or missing device identity")

/-! ## The snapshot -/

/-- `EgpGattReadSnapshot` when it is valid. -/
structure EgpGattReadSnapshot where
  characteristic : EgpBluezCharacteristic
  securityEpoch : Nat
  expiresAtUs : Int
  bluezOwner : Bytes
  peerPath : Bytes
  value : Bytes
  bound : value.length ≤ egpGattValueMaxBytes
  deriving DecidableEq

/-- `egp_gatt_read_snapshot_expired`. -/
def egpGattReadSnapshotExpired (snapshot : Option EgpGattReadSnapshot) (now : Int) : Bool :=
  snapshot.any fun s => now ≤ 0 || s.expiresAtUs ≤ now

/-- `egp_gatt_read_snapshot_begin`; on an error the slot is cleared. -/
def egpGattReadSnapshotBegin (bluezOwner peerPath : Bytes)
    (characteristic : EgpBluezCharacteristic) (securityEpoch : Nat) (value : Bytes) (now : Int) :
    Except EgpError EgpGattReadSnapshot :=
  if h : egpGattValueMaxBytes < value.length then
    .error (readError .blePayloadTooLarge "GATT read snapshot is invalid or exceeds 512 bytes")
  else if bluezOwner.isEmpty || egpBluezOwnerCap ≤ bluezOwner.length ||
      !isObjectPath peerPath || securityEpoch == 0 || now ≤ 0 then
    .error (readError .internalError "GATT read snapshot is invalid or exceeds 512 bytes")
  else
    .ok {
      characteristic
      securityEpoch
      expiresAtUs := now + egpGattReadSnapshotTtlUs
      bluezOwner := bluezOwner.take (egpBluezOwnerCap - 1)
      peerPath := peerPath.take (egpDbusPathCap - 1)
      value
      bound := Nat.le_of_not_lt h }

/-- `snapshot_matches`. -/
def snapshotMatches (snapshot : EgpGattReadSnapshot) (bluezOwner peerPath : Bytes)
    (characteristic : EgpBluezCharacteristic) (securityEpoch : Nat) : Bool :=
  securityEpoch != 0 && snapshot.characteristic == characteristic &&
    snapshot.securityEpoch == securityEpoch && snapshot.bluezOwner == bluezOwner &&
    snapshot.peerPath == peerPath

/-- The largest piece that an MTU allows. -/
def responseMax (mtu : UInt16) : Nat :=
  (if mtu == 0 then egpGattDefaultMtu else mtu.toNat) - 1

/-- `egp_gatt_read_snapshot_slice`: the slot behind the call, and the piece. -/
def egpGattReadSnapshotSlice (slot : Option EgpGattReadSnapshot) (bluezOwner peerPath : Bytes)
    (characteristic : EgpBluezCharacteristic) (securityEpoch : Nat) (offset mtu : UInt16)
    (now : Int) : Option EgpGattReadSnapshot × Except EgpError Bytes :=
  if mtu != 0 && (mtu.toNat < egpGattDefaultMtu || egpGattMaxMtu < mtu.toNat) then
    (slot, .error (readError .blePayloadInvalid "ReadValue MTU is invalid"))
  else
    match slot with
    | none => (none, .error (readError .bleInvalidOffset
        "Read snapshot is unavailable or stale; restart at offset zero"))
    | some snapshot =>
        if egpGattReadSnapshotExpired (some snapshot) now ||
            !snapshotMatches snapshot bluezOwner peerPath characteristic securityEpoch then
          (none, .error (readError .bleInvalidOffset
            "Read snapshot is unavailable or stale; restart at offset zero"))
        else if snapshot.value.length < offset.toNat then
          (slot, .error (readError .bleInvalidOffset "ReadValue offset exceeds the value length"))
        else
          let remaining := snapshot.value.length - offset.toNat
          let count := min remaining (responseMax mtu)
          (if count < responseMax mtu then none else slot,
            .ok ((snapshot.value.drop offset.toNat).take count))

/-! ## The adapter -/

/-- The members of `EgpBluez` that a read depends on. -/
structure EgpBluez where
  uniqueOwner : { owner : Bytes // owner.length < egpBluezOwnerCap }
  peerEpochs : Table Bytes Nat
  nextPeerEpoch : Nat
  readSnapshot : Option EgpGattReadSnapshot
  /-- `read_snapshot_timeout_source` is set. -/
  timeoutArmed : Bool

/-- `g_strlcpy` into `unique_owner`. -/
def ownerText (owner : Bytes) : { owner : Bytes // owner.length < egpBluezOwnerCap } :=
  ⟨owner.take (egpBluezOwnerCap - 1), by
    rw [List.length_take]
    exact Nat.lt_of_le_of_lt (Nat.min_le_left _ _) (by decide)⟩

def egpBluezNew : EgpBluez where
  uniqueOwner := ownerText []
  peerEpochs := ∅
  nextPeerEpoch := 0
  readSnapshot := none
  timeoutArmed := false

/-- `clear_read_snapshot`. -/
def clearReadSnapshot (bluez : EgpBluez) : EgpBluez :=
  { bluez with readSnapshot := none, timeoutArmed := false }

/-- `expire_read_snapshot`, which runs while the timeout is armed. -/
def expireReadSnapshot (bluez : EgpBluez) : EgpBluez :=
  if bluez.timeoutArmed then { bluez with readSnapshot := none, timeoutArmed := false } else bluez

/-- `next_epoch_locked`. -/
def nextEpochLocked (epoch : Nat) : Nat :=
  let next := (epoch + 1) % 2 ^ 64
  if next == 0 then 1 else next

/-- `peer_epoch_locked`. -/
def peerEpochLocked (bluez : EgpBluez) (peerPath : Bytes) (create : Bool) : EgpBluez × Nat :=
  match bluez.peerEpochs.lookup peerPath with
  | some stored => (bluez, stored)
  | none =>
      if create then
        let epoch := nextEpochLocked bluez.nextPeerEpoch
        ({ bluez with
          peerEpochs := bluez.peerEpochs.insert peerPath epoch, nextPeerEpoch := epoch }, epoch)
      else (bluez, 0)

/-- What a read is bound to on the side of the daemon. -/
structure ReadContext where
  owner : Bytes
  securityEpoch : Nat
  deriving DecidableEq

/-- `read_context`; without a context it returns `FALSE`. -/
def readContext (bluez : EgpBluez) (peerPath : Bytes) (create : Bool) :
    EgpBluez × Option ReadContext :=
  let (bluez, epoch) := peerEpochLocked bluez peerPath create
  (bluez, if bluez.uniqueOwner.1.isEmpty || epoch == 0 then none
    else some ⟨bluez.uniqueOwner.1, epoch⟩)

/-! ## What happens beside the reads -/

inductive Disturbance
  | nameAppeared (owner : Bytes)
  | nameVanished
  /-- `bump_peer_epoch`, from a change of the properties of a device. -/
  | peerChanged (peerPath : Bytes)
  | setWindow
  | invalidateRead (characteristic : EgpBluezCharacteristic) (peerPath : Option Bytes)
  | peerSecurity (peerPath : Bytes)
  | timeout

/-- `bump_peer_epoch`. -/
def bumpPeerEpoch (bluez : EgpBluez) (peerPath : Bytes) : EgpBluez :=
  let epoch := nextEpochLocked bluez.nextPeerEpoch
  let bluez := { bluez with
    peerEpochs := bluez.peerEpochs.insert peerPath epoch, nextPeerEpoch := epoch }
  if bluez.readSnapshot.any (·.peerPath == peerPath) then clearReadSnapshot bluez else bluez

/-- What `name_appeared` and `name_vanished` do to the peers. -/
def changeOwner (bluez : EgpBluez) (owner : Bytes) : EgpBluez :=
  { clearReadSnapshot bluez with
    uniqueOwner := ownerText owner
    peerEpochs := ∅
    nextPeerEpoch := nextEpochLocked bluez.nextPeerEpoch }

/-- `egp_bluez_invalidate_read`. -/
def egpBluezInvalidateRead (bluez : EgpBluez) (characteristic : EgpBluezCharacteristic)
    (peerPath : Option Bytes) : EgpBluez :=
  match bluez.readSnapshot with
  | none => bluez
  | some snapshot =>
      if snapshot.characteristic != characteristic then bluez
      else if peerPath.all (· == snapshot.peerPath) then clearReadSnapshot bluez
      else bluez

def disturb (bluez : EgpBluez) : Disturbance → EgpBluez
  | .nameAppeared owner => changeOwner bluez owner
  | .nameVanished => changeOwner bluez []
  | .peerChanged peerPath => bumpPeerEpoch bluez peerPath
  | .setWindow => clearReadSnapshot bluez
  | .invalidateRead characteristic peerPath =>
      egpBluezInvalidateRead bluez characteristic peerPath
  | .peerSecurity peerPath =>
      if isObjectPath peerPath then (peerEpochLocked bluez peerPath true).1 else bluez
  | .timeout => expireReadSnapshot bluez

def disturbed (bluez : EgpBluez) (disturbances : List Disturbance) : EgpBluez :=
  disturbances.foldl disturb bluez

/-! ## ReadValue -/

/-- What the handler of a read serializes, and what happens meanwhile. -/
structure Handled where
  meanwhile : List Disturbance
  serialized : Except EgpError Bytes

structure ReadCall where
  characteristic : EgpBluezCharacteristic
  options : Options
  /-- `none` when there is no handler. -/
  handled : Option Handled
  nowBegin : Int
  nowSlice : Int

/-- The part of `characteristic_call` for a read at offset zero. -/
def beginRead (bluez : EgpBluez) (call : ReadCall) (peerPath : Bytes) (context : ReadContext) :
    EgpBluez × Except EgpError Unit :=
  match call.handled with
  | none => (bluez, .error (readError .internalError "ReadValue handler is unavailable"))
  | some handled =>
      let bluez := disturbed bluez handled.meanwhile
      match handled.serialized with
      | .error error => (bluez, .error error)
      | .ok value =>
          if (readContext bluez peerPath false).2 != some context then
            (bluez, .error (readError .bleUnauthorized
              "Read security context changed during serialization"))
          else
            match egpGattReadSnapshotBegin context.owner peerPath call.characteristic
                context.securityEpoch value call.nowBegin with
            | .error error => ({ bluez with readSnapshot := none }, .error error)
            | .ok snapshot =>
                ({ bluez with readSnapshot := some snapshot, timeoutArmed := true }, .ok ())

/-- The end of `characteristic_call` for a read. -/
def sliceRead (bluez : EgpBluez) (call : ReadCall) (parsed : EgpGattOptions)
    (context : ReadContext) : EgpBluez × Except EgpError Bytes :=
  let (slot, reply) := egpGattReadSnapshotSlice bluez.readSnapshot context.owner parsed.peerPath
    call.characteristic context.securityEpoch parsed.offset parsed.mtu call.nowSlice
  ({ bluez with
    readSnapshot := slot
    timeoutArmed := bluez.timeoutArmed && !(reply.isOk && slot.isNone) }, reply)

/-- `characteristic_call` with `ReadValue`. -/
def characteristicRead (bluez : EgpBluez) (call : ReadCall) : EgpBluez × Except EgpError Bytes :=
  match egpGattParseReadOptions call.options true with
  | .error error => (bluez, .error error)
  | .ok parsed =>
      let (bluez, found) := readContext bluez parsed.peerPath (parsed.offset == 0)
      match found with
      | none =>
          (bluez, .error (if parsed.offset == 0 then
            readError .bluezUnavailable "Active BlueZ read context is unavailable"
          else readError .bleInvalidOffset
            "Read snapshot is unavailable; restart at offset zero"))
      | some context =>
          if parsed.offset == 0 then
            match beginRead bluez call parsed.peerPath context with
            | (bluez, .error error) => (bluez, .error error)
            | (bluez, .ok ()) => sliceRead bluez call parsed context
          else sliceRead bluez call parsed context

end EdgeGuard.Provisioning.GattRead
