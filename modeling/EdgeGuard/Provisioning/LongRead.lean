import EdgeGuard.Base.Pieces
import EdgeGuard.Provisioning.GattRead

/-!
# Long reads

A value is read whole, whatever the sizes of its pieces; and a piece that is read at an
offset belongs to the value that the same reader opened last, whatever happened since.

## Main results

* `reads_whole` — the pieces of an undisturbed reader.
* `slot_run` — the slot belongs to the last read at offset zero that succeeded.
* `long_reads` — both, for the reads of the adapter.
-/

namespace EdgeGuard.Provisioning.LongRead

open EdgeGuard.Base.CText EdgeGuard.Base.HashTable EdgeGuard.Base.Pieces
open EdgeGuard.Provisioning.Model EdgeGuard.Provisioning.Protocol
open EdgeGuard.Provisioning.GattRead

/-! ## Options and pieces -/

/-- The MTU of a read, if it has one. -/
def MtuOk (mtu : UInt16) : Prop :=
  mtu = 0 ∨ egpGattDefaultMtu ≤ mtu.toNat ∧ mtu.toNat ≤ egpGattMaxMtu

theorem deviceOption_ok {options : Options} {peer : Bytes}
    (h : deviceOption options true = some peer) :
    isObjectPath peer = true ∧ peer.length < egpDbusPathCap := by
  unfold deviceOption at h
  split at h
  · cases h
  · rename_i path hvalid hfound
    split at h
    · rename_i hlength
      rw [← Option.some.inj h]
      exact ⟨hvalid, hlength⟩
    · cases h
  · cases h

theorem uint16Option_absent {options : Options} {name : String} {n : UInt16}
    (h : uint16Option options name = some (n, false)) : n = 0 := by
  unfold uint16Option at h
  split at h
  · cases h
    rfl
  · cases h
  · cases h

/-- Options that are parsed name a peer and an MTU in range. -/
theorem parse_ok {options : Options} {parsed : EgpGattOptions}
    (h : egpGattParseReadOptions options true = .ok parsed) :
    isObjectPath parsed.peerPath = true ∧ parsed.peerPath.length < egpDbusPathCap ∧
      MtuOk parsed.mtu := by
  unfold egpGattParseReadOptions at h
  split at h
  · rename_i offset hasOffset mtu mtuPresent prepare peer _ hmtu _ hpeer
    split at h
    · cases h
    · rename_i htests
      rw [← Except.ok.inj h]
      obtain ⟨hpath, hlength⟩ := deviceOption_ok hpeer
      refine ⟨hpath, hlength, ?_⟩
      cases mtuPresent with
      | false => exact .inl (uint16Option_absent hmtu)
      | true =>
          simp only [Bool.true_and, Bool.or_eq_true, decide_eq_true_eq, not_or] at htests
          right
          show egpGattDefaultMtu ≤ mtu.toNat ∧ mtu.toNat ≤ egpGattMaxMtu
          omega
  · cases h

/-- Every piece may have 22 bytes at least. -/
theorem responseMax_le {mtu : UInt16} (h : MtuOk mtu) : 22 ≤ responseMax mtu := by
  unfold responseMax
  by_cases hzero : mtu = 0
  · rw [if_pos (by simp [hzero])]
    decide
  · rw [if_neg (by simpa using hzero)]
    rcases h with h | h
    · exact absurd h hzero
    · have hleast : 23 ≤ mtu.toNat := h.1
      omega

theorem mtuTest_of_ok {mtu : UInt16} (h : MtuOk mtu) :
    (mtu != 0 && (mtu.toNat < egpGattDefaultMtu || egpGattMaxMtu < mtu.toNat)) = false := by
  rcases h with rfl | h
  · rfl
  · have hlow : decide (mtu.toNat < egpGattDefaultMtu) = false := decide_eq_false (by omega)
    have hhigh : decide (egpGattMaxMtu < mtu.toNat) = false := decide_eq_false (by omega)
    rw [hlow, hhigh, Bool.or_false, Bool.and_false]

/-! ## Slices -/

/-- Who reads what. -/
structure Reader where
  owner : Bytes
  securityEpoch : Nat
  peerPath : Bytes
  characteristic : EgpBluezCharacteristic
  deriving DecidableEq

/-- The snapshot was begun for the reader. -/
structure BegunFor (snapshot : EgpGattReadSnapshot) (reader : Reader) : Prop where
  owner : snapshot.bluezOwner = reader.owner
  securityEpoch : snapshot.securityEpoch = reader.securityEpoch
  peerPath : snapshot.peerPath = reader.peerPath
  characteristic : snapshot.characteristic = reader.characteristic

theorem snapshotMatches_iff {snapshot : EgpGattReadSnapshot} {reader : Reader} :
    snapshotMatches snapshot reader.owner reader.peerPath reader.characteristic
        reader.securityEpoch = true ↔
      BegunFor snapshot reader ∧ reader.securityEpoch ≠ 0 := by
  simp only [snapshotMatches, Bool.and_eq_true, bne_iff_ne, beq_iff_eq]
  constructor
  · rintro ⟨⟨⟨⟨hne, hc⟩, hepoch⟩, howner⟩, hpeer⟩
    exact ⟨⟨howner, hepoch, hpeer, hc⟩, hne⟩
  · rintro ⟨⟨howner, hepoch, hpeer, hc⟩, hne⟩
    exact ⟨⟨⟨⟨hne, hc⟩, hepoch⟩, howner⟩, hpeer⟩

/-- The slot behind a piece: a short one was the last. -/
def slotBehind (snapshot : EgpGattReadSnapshot) (offset size : Nat) :
    Option EgpGattReadSnapshot :=
  if (piece snapshot.value offset size).length < size then none else some snapshot

theorem piece_count (value : Bytes) (offset size : Nat) :
    (value.drop offset).take (min (value.length - offset) size) = piece value offset size := by
  rw [piece]
  by_cases hsize : size ≤ value.length - offset
  · rw [Nat.min_eq_right hsize]
  · rw [Nat.min_eq_left (by omega), List.take_of_length_le (by rw [List.length_drop]),
      List.take_of_length_le (by rw [List.length_drop]; omega)]

/-- A slice of a live snapshot is the piece at its offset. -/
theorem slice_live {snapshot : EgpGattReadSnapshot} {reader : Reader} {offset mtu : UInt16}
    {now : Int} (hmtu : MtuOk mtu) (hreader : BegunFor snapshot reader)
    (hepoch : reader.securityEpoch ≠ 0) (hnow : 0 < now) (hlive : now < snapshot.expiresAtUs)
    (hoffset : offset.toNat ≤ snapshot.value.length) :
    egpGattReadSnapshotSlice (some snapshot) reader.owner reader.peerPath reader.characteristic
        reader.securityEpoch offset mtu now =
      (slotBehind snapshot offset.toNat (responseMax mtu),
        .ok (piece snapshot.value offset.toNat (responseMax mtu))) := by
  have hexpired : egpGattReadSnapshotExpired (some snapshot) now = false := by
    simp only [egpGattReadSnapshotExpired, Option.any_some, Bool.or_eq_false_iff,
      decide_eq_false_iff_not]
    omega
  have hmatches := snapshotMatches_iff.mpr ⟨hreader, hepoch⟩
  unfold egpGattReadSnapshotSlice
  rw [mtuTest_of_ok hmtu, if_neg (by decide)]
  simp only [hexpired, hmatches]
  rw [if_neg (by decide), if_neg (by omega), piece_count, slotBehind, length_piece, Nat.min_comm]

/-- A slice that succeeds is a piece of the snapshot of its reader. -/
theorem slice_ok {slot : Option EgpGattReadSnapshot} (reader : Reader) {offset mtu : UInt16}
    {now : Int} {bytes : Bytes}
    (h : (egpGattReadSnapshotSlice slot reader.owner reader.peerPath reader.characteristic
      reader.securityEpoch offset mtu now).2 = .ok bytes) :
    ∃ snapshot, slot = some snapshot ∧ BegunFor snapshot reader ∧
      offset.toNat ≤ snapshot.value.length ∧
      bytes = piece snapshot.value offset.toNat (responseMax mtu) := by
  unfold egpGattReadSnapshotSlice at h
  split at h
  · cases h
  · split at h
    · cases h
    · rename_i snapshot
      split at h
      · cases h
      · rename_i hlive
        split at h
        · cases h
        · rename_i hoffset
          simp only [Bool.or_eq_true, Bool.not_eq_true', not_or, Bool.not_eq_false] at hlive
          refine ⟨snapshot, rfl, (snapshotMatches_iff.mp hlive.2).1, by omega, ?_⟩
          rw [← piece_count]
          exact (Except.ok.inj h).symm

/-- A slice never fills the slot. -/
theorem slice_slot (slot : Option EgpGattReadSnapshot) (owner peer : Bytes)
    (c : EgpBluezCharacteristic) (epoch : Nat) (offset mtu : UInt16) (now : Int) :
    (egpGattReadSnapshotSlice slot owner peer c epoch offset mtu now).1 = slot ∨
      (egpGattReadSnapshotSlice slot owner peer c epoch offset mtu now).1 = none := by
  unfold egpGattReadSnapshotSlice
  split
  · exact .inl rfl
  · split
    · exact .inr rfl
    · split
      · exact .inr rfl
      · split
        · exact .inl rfl
        · simp only
          split
          · exact .inr rfl
          · exact .inl rfl

/-! ## Beginnings -/

/-- A snapshot that is begun belongs to its reader, for its time. -/
theorem begin_ok {context : ReadContext} {peer value : Bytes} {c : EgpBluezCharacteristic}
    {now : Int} {snapshot : EgpGattReadSnapshot}
    (h : egpGattReadSnapshotBegin context.owner peer c context.securityEpoch value now =
      .ok snapshot) (hpeer : peer.length < egpDbusPathCap) :
    BegunFor snapshot ⟨context.owner, context.securityEpoch, peer, c⟩ ∧
      snapshot.value = value ∧ snapshot.expiresAtUs = now + egpGattReadSnapshotTtlUs := by
  unfold egpGattReadSnapshotBegin at h
  split at h
  · cases h
  · split at h
    · cases h
    · rename_i htests
      simp only [Bool.or_eq_true, decide_eq_true_eq, not_or] at htests
      have howner : context.owner.length < egpBluezOwnerCap := by omega
      rw [← Except.ok.inj h]
      refine ⟨⟨?_, rfl, ?_, rfl⟩, rfl, rfl⟩
      · exact List.take_of_length_le (by omega)
      · exact List.take_of_length_le (by omega)

/-- A value within the bound begins a snapshot that is live. -/
theorem begin_live {context : ReadContext} {peer value : Bytes} (c : EgpBluezCharacteristic)
    {now : Int} (hvalue : value.length ≤ egpGattValueMaxBytes) (howner : context.owner ≠ [])
    (hcap : context.owner.length < egpBluezOwnerCap) (hpeer : isObjectPath peer = true)
    (hepoch : context.securityEpoch ≠ 0) (hnow : 0 < now) :
    ∃ snapshot, egpGattReadSnapshotBegin context.owner peer c context.securityEpoch value now =
      .ok snapshot := by
  unfold egpGattReadSnapshotBegin
  rw [dif_neg (by omega), if_neg]
  · exact ⟨_, rfl⟩
  · simp only [hpeer, Bool.not_true, Bool.or_false, Bool.or_eq_true, List.isEmpty_iff,
      decide_eq_true_eq, beq_iff_eq, not_or]
    exact ⟨⟨⟨howner, by omega⟩, hepoch⟩, by omega⟩

/-- What a context is made of. -/
theorem readContext_some {s : EgpBluez} {peer : Bytes} {create : Bool} {context : ReadContext}
    (h : (readContext s peer create).2 = some context) :
    context.owner ≠ [] ∧ context.owner.length < egpBluezOwnerCap ∧ context.securityEpoch ≠ 0 := by
  unfold readContext at h
  simp only at h
  split at h
  · cases h
  · rename_i htests
    simp only [Bool.or_eq_true, List.isEmpty_iff, beq_iff_eq, not_or] at htests
    rw [← Option.some.inj h]
    exact ⟨htests.1, (peerEpochLocked s peer create).1.uniqueOwner.2, htests.2⟩

theorem peerEpochLocked_slot (s : EgpBluez) (peer : Bytes) (create : Bool) :
    (peerEpochLocked s peer create).1.readSnapshot = s.readSnapshot := by
  unfold peerEpochLocked
  split
  · rfl
  · split
    · rfl
    · rfl

/-- Looking the context up creates nothing. -/
theorem readContext_kept (s : EgpBluez) (peer : Bytes) : (readContext s peer false).1 = s := by
  unfold readContext peerEpochLocked
  cases s.peerEpochs.lookup peer with
  | none => rfl
  | some epoch => rfl

/-- A read has a context while the link of its peer stands. -/
theorem readContext_iff {s : EgpBluez} {peer : Bytes} {context : ReadContext} :
    (readContext s peer false).2 = some context ↔
      s.uniqueOwner.1 = context.owner ∧ context.owner ≠ [] ∧ context.securityEpoch ≠ 0 ∧
        s.peerEpochs.lookup peer = some context.securityEpoch := by
  obtain ⟨owner, epoch⟩ := context
  unfold readContext peerEpochLocked
  cases hfound : s.peerEpochs.lookup peer with
  | none =>
      simp only [Bool.false_eq_true, if_false, beq_self_eq_true, Bool.or_true, if_true]
      constructor
      · intro h
        cases h
      · rintro ⟨-, -, -, h⟩
        cases h
  | some stored =>
      simp only
      by_cases htests : s.uniqueOwner.1.isEmpty || stored == 0
      · rw [if_pos htests]
        simp only [Bool.or_eq_true, List.isEmpty_iff, beq_iff_eq] at htests
        constructor
        · intro h
          cases h
        · rintro ⟨rfl, howner, hepoch, hsame⟩
          rw [Option.some.injEq] at hsame
          rcases htests with h | h
          · exact absurd h howner
          · exact absurd (hsame.symm.trans h) hepoch
      · rw [if_neg htests]
        simp only [Bool.or_eq_true, List.isEmpty_iff, beq_iff_eq, not_or] at htests
        simp only [Option.some.injEq, ReadContext.mk.injEq]
        constructor
        · rintro ⟨rfl, rfl⟩
          exact ⟨rfl, htests.1, htests.2, rfl⟩
        · rintro ⟨rfl, -, -, rfl⟩
          exact ⟨rfl, rfl⟩

/-! ## An undisturbed reader -/

/-- What may happen between the reads of a value without an end to it. -/
def Harmless (peer : Bytes) (c : EgpBluezCharacteristic) : Disturbance → Prop
  | .peerChanged other => other ≠ peer
  | .invalidateRead c' other => c' ≠ c ∨ ∃ path, other = some path ∧ path ≠ peer
  | .peerSecurity _ => True
  | _ => False

/-- The reader is in the middle of a value. -/
structure Reading (s : EgpBluez) (reader : Reader) (snapshot : EgpGattReadSnapshot) : Prop where
  slot : s.readSnapshot = some snapshot
  begun : BegunFor snapshot reader
  context : (readContext s reader.peerPath false).2 = some ⟨reader.owner, reader.securityEpoch⟩

/-- A harmless disturbance leaves the reading. -/
theorem Reading.disturb {s : EgpBluez} {reader : Reader} {snapshot : EgpGattReadSnapshot}
    (h : Reading s reader snapshot) {d : Disturbance}
    (hd : Harmless reader.peerPath reader.characteristic d) :
    Reading (disturb s d) reader snapshot := by
  obtain ⟨howner, hne, hepoch, hlookup⟩ := readContext_iff.mp h.context
  cases d with
  | peerChanged other =>
      have hother : other ≠ reader.peerPath := hd
      have hslot : s.readSnapshot.any (·.peerPath == other) = false := by
        rw [h.slot, Option.any_some, beq_eq_false_iff_ne, h.begun.peerPath]
        exact hother.symm
      have hkept : GattRead.disturb s (.peerChanged other) =
          { s with
            peerEpochs := s.peerEpochs.insert other (nextEpochLocked s.nextPeerEpoch)
            nextPeerEpoch := nextEpochLocked s.nextPeerEpoch } := by
        show bumpPeerEpoch s other = _
        simp only [bumpPeerEpoch, hslot]
        rfl
      rw [hkept]
      refine ⟨h.slot, h.begun, readContext_iff.mpr ⟨howner, hne, hepoch, ?_⟩⟩
      show (s.peerEpochs.insert other _).lookup _ = _
      rw [lookup_insert_eq, if_neg hother.symm, hlookup]
  | invalidateRead c' other =>
      have hkept : GattRead.disturb s (.invalidateRead c' other) = s := by
        show egpBluezInvalidateRead s c' other = s
        simp only [egpBluezInvalidateRead, h.slot]
        rcases hd with hc | ⟨path, rfl, hpath⟩
        · rw [if_pos (by simpa [h.begun.characteristic] using hc.symm)]
        · have hdiffers : (some path).all (· == snapshot.peerPath) = false := by
            rw [Option.all_some, beq_eq_false_iff_ne, h.begun.peerPath]
            exact hpath
          rw [hdiffers]
          split
          · rfl
          · rfl
      rw [hkept]
      exact h
  | peerSecurity other =>
      show Reading (if isObjectPath other then _ else s) reader snapshot
      split
      · refine ⟨(peerEpochLocked_slot s other true).trans h.slot, h.begun, ?_⟩
        unfold peerEpochLocked
        cases hfound : s.peerEpochs.lookup other with
        | some stored => exact h.context
        | none =>
            apply readContext_iff.mpr
            refine ⟨howner, hne, hepoch, ?_⟩
            show (s.peerEpochs.insert other _).lookup _ = _
            rw [lookup_insert_eq, if_neg, hlookup]
            rintro rfl
            rw [hfound] at hlookup
            cases hlookup
      · exact h
  | _ => exact hd.elim

theorem Reading.disturbed {s : EgpBluez} {reader : Reader} {snapshot : EgpGattReadSnapshot}
    (h : Reading s reader snapshot) {ds : List Disturbance}
    (hds : ∀ d ∈ ds, Harmless reader.peerPath reader.characteristic d) :
    Reading (disturbed s ds) reader snapshot := by
  induction ds generalizing s with
  | nil => exact h
  | cons d ds ih =>
      apply ih (h.disturb (hds d (by simp)))
      intro d' hd'
      exact hds d' (by simp [hd'])

/-- The end of a read, once the slot is the reader's. -/
theorem Reading.slice {s : EgpBluez} {reader : Reader} {snapshot : EgpGattReadSnapshot}
    (h : Reading s reader snapshot) {call : ReadCall} {parsed : EgpGattOptions}
    (hmtu : MtuOk parsed.mtu) (hpeer : parsed.peerPath = reader.peerPath)
    (hc : call.characteristic = reader.characteristic) (hnow : 0 < call.nowSlice)
    (hlive : call.nowSlice < snapshot.expiresAtUs)
    (hoffset : parsed.offset.toNat ≤ snapshot.value.length) :
    ∃ t, sliceRead s call parsed ⟨reader.owner, reader.securityEpoch⟩ =
        (t, .ok (piece snapshot.value parsed.offset.toNat (responseMax parsed.mtu))) ∧
      ((piece snapshot.value parsed.offset.toNat (responseMax parsed.mtu)).length =
        responseMax parsed.mtu → Reading t reader snapshot) := by
  obtain ⟨howner, hne, hepoch, hlookup⟩ := readContext_iff.mp h.context
  have hslice := slice_live hmtu h.begun hepoch hnow hlive hoffset
  unfold sliceRead
  rw [h.slot, hpeer, hc, hslice]
  refine ⟨_, rfl, fun hwhole => ⟨?_, h.begun, readContext_iff.mpr ⟨howner, hne, hepoch, hlookup⟩⟩⟩
  show slotBehind _ _ _ = _
  rw [slotBehind, if_neg (by omega)]

/-- A read at the offset that was reached. -/
theorem Reading.read {s : EgpBluez} {reader : Reader} {snapshot : EgpGattReadSnapshot}
    (h : Reading s reader snapshot) {call : ReadCall} {parsed : EgpGattOptions}
    (hparsed : egpGattParseReadOptions call.options true = .ok parsed)
    (hpeer : parsed.peerPath = reader.peerPath)
    (hc : call.characteristic = reader.characteristic) (hstart : parsed.offset ≠ 0)
    (hnow : 0 < call.nowSlice) (hlive : call.nowSlice < snapshot.expiresAtUs)
    (hoffset : parsed.offset.toNat ≤ snapshot.value.length) :
    ∃ t, characteristicRead s call =
        (t, .ok (piece snapshot.value parsed.offset.toNat (responseMax parsed.mtu))) ∧
      ((piece snapshot.value parsed.offset.toNat (responseMax parsed.mtu)).length =
        responseMax parsed.mtu → Reading t reader snapshot) := by
  have hcontinued : (parsed.offset == 0) = false := beq_eq_false_iff_ne.mpr hstart
  have hcontext : readContext s parsed.peerPath false =
      (s, some ⟨reader.owner, reader.securityEpoch⟩) := by
    rw [hpeer]
    exact Prod.ext (readContext_kept s reader.peerPath) h.context
  have hread : characteristicRead s call =
      sliceRead s call parsed ⟨reader.owner, reader.securityEpoch⟩ := by
    unfold characteristicRead
    rw [hparsed]
    simp only [hcontinued, hcontext]
    rfl
  rw [hread]
  exact h.slice (parse_ok hparsed).2.2 hpeer hc hnow hlive hoffset

/-- A read at offset zero, whose handler leaves the context alone. -/
theorem first_read {s : EgpBluez} {peer value : Bytes} {context : ReadContext} {call : ReadCall}
    {parsed : EgpGattOptions} {meanwhile : List Disturbance}
    (hvalue : value.length ≤ egpGattValueMaxBytes)
    (hparsed : egpGattParseReadOptions call.options true = .ok parsed)
    (hpeer : parsed.peerPath = peer) (hstart : parsed.offset = 0)
    (hhandled : call.handled = some ⟨meanwhile, .ok value⟩)
    (hcontext : (readContext s peer true).2 = some context)
    (hsame : (readContext (disturbed (readContext s peer true).1 meanwhile) peer false).2 =
      some context)
    (hbegin : 0 < call.nowBegin) (hnow : 0 < call.nowSlice)
    (hlive : call.nowSlice < call.nowBegin + egpGattReadSnapshotTtlUs) :
    ∃ t snapshot, snapshot.value = value ∧
      snapshot.expiresAtUs = call.nowBegin + egpGattReadSnapshotTtlUs ∧
      characteristicRead s call = (t, .ok (piece value 0 (responseMax parsed.mtu))) ∧
      ((piece value 0 (responseMax parsed.mtu)).length = responseMax parsed.mtu →
        Reading t ⟨context.owner, context.securityEpoch, peer, call.characteristic⟩ snapshot) := by
  obtain ⟨hpath, hlength, hmtu⟩ := parse_ok hparsed
  rw [hpeer] at hpath hlength
  obtain ⟨hne, hcap, hepoch⟩ := readContext_some hcontext
  obtain ⟨snapshot, hsnapshot⟩ :=
    begin_live call.characteristic hvalue hne hcap hpath hepoch hbegin
  obtain ⟨hbegun, hstored, hexpires⟩ := begin_ok hsnapshot hlength
  generalize hmid : disturbed (readContext s peer true).1 meanwhile = mid at hsame
  obtain ⟨howner, -, -, hlookup⟩ := readContext_iff.mp hsame
  have hreading : Reading { mid with readSnapshot := some snapshot, timeoutArmed := true }
      ⟨context.owner, context.securityEpoch, peer, call.characteristic⟩ snapshot :=
    ⟨rfl, hbegun, readContext_iff.mpr ⟨howner, hne, hepoch, hlookup⟩⟩
  have hoffset : parsed.offset.toNat ≤ snapshot.value.length := by
    rw [hstart]
    exact Nat.zero_le _
  obtain ⟨t, hslice, hrest⟩ := hreading.slice hmtu hpeer rfl hnow (by omega) hoffset
  rw [hstored, hstart] at hslice hrest
  refine ⟨t, snapshot, hstored, hexpires, ?_, hrest⟩
  have hfound : readContext s parsed.peerPath true =
      ((readContext s peer true).1, some context) := by
    rw [hpeer]
    exact Prod.ext rfl hcontext
  have hzero : (parsed.offset == 0) = true := beq_iff_eq.mpr hstart
  have hready : beginRead (readContext s peer true).1 call peer context =
      ({ mid with readSnapshot := some snapshot, timeoutArmed := true }, .ok ()) := by
    unfold beginRead
    rw [hhandled]
    simp only [hmid, hsame, hsnapshot]
    rw [if_neg (by simp)]
  unfold characteristicRead
  rw [hparsed]
  simp only [hzero, hfound, if_true]
  rw [hpeer, hready]
  exact hslice

/-! ## A value read to its end -/

/-- A read of a peer, with what happens before it. -/
structure NextRead where
  before : List Disturbance
  call : ReadCall

/-- The pieces of so many reads, each of them chosen by its number and by the number of
bytes so far; `none` when one of them failed. -/
def readOn (s : EgpBluez) (next : Nat → Nat → NextRead) : Nat → Option (EgpBluez × List Bytes)
  | 0 => some (s, [])
  | k + 1 => (readOn s next k).bind fun (t, got) =>
      let read := next k got.flatten.length
      match characteristicRead (disturbed t read.before) read.call with
      | (t, .ok bytes) => some (t, got ++ [bytes])
      | (_, .error _) => none

/-- The peer reads on where it has arrived, with MTUs of its own, in time and with nothing
in between that ends the value. -/
structure Undisturbed (s : EgpBluez) (next : Nat → Nat → NextRead) (peer : Bytes)
    (c : EgpBluezCharacteristic) (value : Bytes) (mtus : Nat → UInt16) : Prop where
  options : ∀ k n, n ≤ value.length →
    egpGattParseReadOptions (next k n).call.options true = .ok ⟨peer, n.toUInt16, mtus k⟩
  characteristic : ∀ k n, (next k n).call.characteristic = c
  quiet : ∀ k n, ∀ d ∈ (next (k + 1) n).before, Harmless peer c d
  served : ∃ meanwhile context, (next 0 0).call.handled = some ⟨meanwhile, .ok value⟩ ∧
    (readContext (disturbed s (next 0 0).before) peer true).2 = some context ∧
    (readContext (disturbed (readContext (disturbed s (next 0 0).before) peer true).1 meanwhile)
      peer false).2 = some context
  began : 0 < (next 0 0).call.nowBegin
  within : ∀ k n, 0 < (next k n).call.nowSlice ∧
    (next k n).call.nowSlice < (next 0 0).call.nowBegin + egpGattReadSnapshotTtlUs

theorem toNat_toUInt16 {n : Nat} (h : n ≤ egpGattValueMaxBytes) : n.toUInt16.toNat = n := by
  have hsmall : n ≤ 512 := h
  exact Nat.mod_eq_of_lt (by omega)

section Whole

variable {s : EgpBluez} {next : Nat → Nat → NextRead} {peer value : Bytes}
  {c : EgpBluezCharacteristic} {mtus : Nat → UInt16}

theorem readOn_succ {k : Nat} {t t' : EgpBluez} {got : List Bytes} {bytes : Bytes}
    (h : readOn s next k = some (t, got))
    (hread : characteristicRead (disturbed t (next k got.flatten.length).before)
      (next k got.flatten.length).call = (t', .ok bytes)) :
    readOn s next (k + 1) = some (t', got ++ [bytes]) := by
  rw [readOn, h, Option.bind_some]
  simp only [hread]

/-- The sizes of the pieces. -/
def sizesOf (mtus : Nat → UInt16) (k : Nat) : Nat := responseMax (mtus k)

/-- The reads up to the first short piece, that one included. -/
theorem reads_run (h : Undisturbed s next peer c value mtus)
    (hvalue : value.length ≤ egpGattValueMaxBytes) {n : Nat}
    (hwhole : ∀ k < n, (piece value (start value (sizesOf mtus) k) (sizesOf mtus k)).length =
      sizesOf mtus k) :
    ∃ reader snapshot, reader.peerPath = peer ∧ reader.characteristic = c ∧
      snapshot.value = value ∧
      snapshot.expiresAtUs = (next 0 0).call.nowBegin + egpGattReadSnapshotTtlUs ∧
      ∀ k ≤ n, ∃ t, readOn s next (k + 1) = some (t, pieces value (sizesOf mtus) (k + 1)) ∧
        (k < n → Reading t reader snapshot) := by
  obtain ⟨meanwhile, context, hhandled, hcontext, hsame⟩ := h.served
  have hopen := h.options 0 0 (Nat.zero_le _)
  obtain ⟨hnow, hlive⟩ := h.within 0 0
  obtain ⟨t, snapshot, hstored, hexpires, hfirst, hreading⟩ :=
    first_read hvalue hopen rfl rfl hhandled hcontext hsame h.began hnow hlive
  refine ⟨⟨context.owner, context.securityEpoch, peer, c⟩, snapshot, rfl, rfl, hstored, hexpires,
    ?_⟩
  intro k hk
  induction k with
  | zero =>
      have hreads := readOn_succ (k := 0) rfl hfirst
      refine ⟨t, hreads, fun hlast => ?_⟩
      have hreading := hreading (hwhole 0 hlast)
      rw [h.characteristic] at hreading
      exact hreading
  | succ k ih =>
      obtain ⟨u, hu, hreads⟩ := ih (by omega)
      have hreads := (hreads (by omega)).disturbed
        (h.quiet k (pieces value (sizesOf mtus) (k + 1)).flatten.length)
      have hlength : (pieces value (sizesOf mtus) (k + 1)).flatten.length =
          start value (sizesOf mtus) (k + 1) := length_joined _
      have hle : start value (sizesOf mtus) (k + 1) ≤ value.length := start_le _
      have hleast : ∀ j, 22 ≤ sizesOf mtus j := by
        intro j
        exact responseMax_le (parse_ok (h.options j 0 (Nat.zero_le _))).2.2
      have hfar : (k + 1) * 22 ≤ start value (sizesOf mtus) (k + 1) :=
        start_of_whole hleast fun j hj => (hwhole j (by omega)).ge
      have hoptions := h.options (k + 1) _ hle
      have hoffset := toNat_toUInt16 (Nat.le_trans hle hvalue)
      have hstart : (start value (sizesOf mtus) (k + 1)).toUInt16 ≠ 0 := by
        intro hzero
        rw [hzero] at hoffset
        have hnone : (0 : UInt16).toNat = 0 := rfl
        omega
      obtain ⟨hnow, hlive⟩ := h.within (k + 1) (start value (sizesOf mtus) (k + 1))
      rw [hlength] at hreads
      obtain ⟨v, hread, hrest⟩ := hreads.read hoptions rfl (h.characteristic _ _) hstart hnow
        (by rw [hexpires]; exact hlive) (by rw [hstored, hoffset]; exact hle)
      rw [hstored, hoffset] at hread hrest
      refine ⟨v, ?_, fun hlast => hrest (hwhole (k + 1) hlast)⟩
      rw [pieces_succ (k + 1)]
      apply readOn_succ hu
      rw [hlength]
      exact hread

theorem getD_pieces {text : Bytes} {sizes : Nat → Nat} {count k : Nat} (h : k < count) :
    (pieces text sizes count).getD k [] = piece text (start text sizes k) (sizes k) := by
  rw [List.getD_eq_getElem?_getD, pieces, List.getElem?_map, List.getElem?_range h]
  rfl

/-- An undisturbed peer has the value when its first short piece comes, and that it does
after no more whole pieces than the smallest MTU fits into the value. -/
theorem reads_whole (h : Undisturbed s next peer c value mtus)
    (hvalue : value.length ≤ egpGattValueMaxBytes) :
    ∃ n t got, n * 22 ≤ value.length ∧ readOn s next (n + 1) = some (t, got) ∧
      got.length = n + 1 ∧ got.flatten = value ∧
      (∀ k < n, (got.getD k []).length = responseMax (mtus k)) ∧
      (got.getD n []).length < responseMax (mtus n) := by
  have hleast : ∀ k, 22 ≤ sizesOf mtus k := by
    intro k
    exact responseMax_le (parse_ok (h.options k 0 (Nat.zero_le _))).2.2
  obtain ⟨n, hcount, hwhole, hshort, hjoined⟩ :=
    @short_piece value (sizesOf mtus) 22 (by decide) hleast
  obtain ⟨reader, snapshot, -, -, -, -, hrun⟩ := reads_run h hvalue hwhole
  obtain ⟨t, hreads, -⟩ := hrun n (le_refl n)
  refine ⟨n, t, _, hcount, hreads, by simp [pieces], hjoined, ?_, ?_⟩
  · intro k hk
    rw [getD_pieces (by omega)]
    exact hwhole k hk
  · rw [getD_pieces (by omega)]
    exact hshort

end Whole

/-! ## Runs -/

inductive Event
  | read (call : ReadCall)
  | disturbance (d : Disturbance)

def step (s : EgpBluez) : Event → EgpBluez × Option (Except EgpError Bytes)
  | .read call =>
      let r := characteristicRead s call
      (r.1, some r.2)
  | .disturbance d => (disturb s d, none)

/-- An event, the state that it found and the answer to a read. -/
structure Entry where
  before : EgpBluez
  event : Event
  reply : Option (Except EgpError Bytes)

/-- The states that the adapter reaches, with the log of what happened. -/
inductive Run : List Entry → EgpBluez → Prop
  | start : Run [] egpBluezNew
  | step {log : List Entry} {s : EgpBluez} (h : Run log s) (event : Event) :
      Run (log ++ [⟨s, event, (LongRead.step s event).2⟩]) (LongRead.step s event).1

/-- The reader on whose behalf a call is made. -/
def readerOf (s : EgpBluez) (call : ReadCall) (parsed : EgpGattOptions) : Option Reader :=
  (readContext s parsed.peerPath (parsed.offset == 0)).2.map fun context =>
    ⟨context.owner, context.securityEpoch, parsed.peerPath, call.characteristic⟩

/-- The entry is a successful read of the value by the reader at offset zero. -/
structure Opens (e : Entry) (reader : Reader) (value : Bytes) : Prop where
  opened : ∃ call parsed meanwhile bytes, e.event = .read call ∧
    egpGattParseReadOptions call.options true = .ok parsed ∧ parsed.offset = 0 ∧
    readerOf e.before call parsed = some reader ∧
    call.handled = some ⟨meanwhile, .ok value⟩ ∧ e.reply = some (.ok bytes)

/-- What a call may do to the slot: nothing, or to clear it. -/
def Shrinks (s t : EgpBluez) : Prop := t.readSnapshot = s.readSnapshot ∨ t.readSnapshot = none

theorem Shrinks.trans {s t u : EgpBluez} (hst : Shrinks s t) (htu : Shrinks t u) :
    Shrinks s u := by
  rcases htu with hsame | hnone
  · rcases hst with hsame' | hnone'
    · exact .inl (hsame.trans hsame')
    · exact .inr (hsame.trans hnone')
  · exact .inr hnone

/-- A disturbance puts nothing into the slot. -/
theorem shrinks_disturb (s : EgpBluez) (d : Disturbance) : Shrinks s (disturb s d) := by
  cases d with
  | nameAppeared owner => exact .inr rfl
  | nameVanished => exact .inr rfl
  | peerChanged peer =>
      show Shrinks s (bumpPeerEpoch s peer)
      unfold bumpPeerEpoch
      simp only
      split
      · exact .inr rfl
      · exact .inl rfl
  | setWindow => exact .inr rfl
  | invalidateRead c peer =>
      show Shrinks s (egpBluezInvalidateRead s c peer)
      unfold egpBluezInvalidateRead
      split
      · exact .inl rfl
      · split
        · exact .inl rfl
        · split
          · exact .inr rfl
          · exact .inl rfl
  | peerSecurity peer =>
      show Shrinks s (if isObjectPath peer then _ else s)
      split
      · exact .inl (peerEpochLocked_slot s peer true)
      · exact .inl rfl
  | timeout =>
      show Shrinks s (expireReadSnapshot s)
      unfold expireReadSnapshot
      split
      · exact .inr rfl
      · exact .inl rfl

theorem shrinks_disturbed (s : EgpBluez) (ds : List Disturbance) : Shrinks s (disturbed s ds) := by
  induction ds generalizing s with
  | nil => exact .inl rfl
  | cons d ds ih => exact (shrinks_disturb s d).trans (ih _)

theorem shrinks_sliceRead (s : EgpBluez) (call : ReadCall) (parsed : EgpGattOptions)
    (context : ReadContext) : Shrinks s (sliceRead s call parsed context).1 :=
  slice_slot s.readSnapshot _ _ _ _ _ _ _

/-- A read at offset zero leaves no slot behind when its slice fails. -/
theorem slice_error_zero {slot : Option EgpGattReadSnapshot} {owner peer : Bytes}
    {c : EgpBluezCharacteristic} {epoch : Nat} {mtu : UInt16} {now : Int} {error : EgpError}
    (hmtu : MtuOk mtu)
    (h : (egpGattReadSnapshotSlice slot owner peer c epoch 0 mtu now).2 = .error error) :
    (egpGattReadSnapshotSlice slot owner peer c epoch 0 mtu now).1 = none := by
  unfold egpGattReadSnapshotSlice at h ⊢
  rw [mtuTest_of_ok hmtu, if_neg (by decide)] at h ⊢
  cases slot with
  | none => rfl
  | some snapshot =>
      simp only at h ⊢
      split
      · rfl
      · rename_i hlive
        have hinside : ¬ snapshot.value.length < (0 : UInt16).toNat := Nat.not_lt_zero _
        rw [if_neg hlive, if_neg hinside] at h
        cases h

/-- What a read does, by its answer. -/
inductive Reads (s : EgpBluez) (call : ReadCall) (after : EgpBluez)
    (reply : Except EgpError Bytes) : Prop
  | failed (error : EgpError) (eq : reply = .error error) (slot : Shrinks s after)
  | continued (parsed : EgpGattOptions) (reader : Reader) (snapshot : EgpGattReadSnapshot)
      (options : egpGattParseReadOptions call.options true = .ok parsed)
      (offset : parsed.offset ≠ 0) (who : readerOf s call parsed = some reader)
      (held : s.readSnapshot = some snapshot) (begun : BegunFor snapshot reader)
      (inside : parsed.offset.toNat ≤ snapshot.value.length)
      (eq : reply =
        .ok (piece snapshot.value parsed.offset.toNat (responseMax parsed.mtu)))
      (slot : Shrinks s after)
  | opened (parsed : EgpGattOptions) (reader : Reader) (meanwhile : List Disturbance)
      (value : Bytes) (options : egpGattParseReadOptions call.options true = .ok parsed)
      (offset : parsed.offset = 0) (who : readerOf s call parsed = some reader)
      (handled : call.handled = some ⟨meanwhile, .ok value⟩)
      (eq : reply = .ok (piece value 0 (responseMax parsed.mtu)))
      (slot : ∀ snapshot, after.readSnapshot = some snapshot →
        BegunFor snapshot reader ∧ snapshot.value = value)

/-- A read from the start fails, or opens the slot anew. -/
theorem beginRead_cases (s : EgpBluez) (call : ReadCall) {peer : Bytes} (context : ReadContext)
    (hpeer : peer.length < egpDbusPathCap) :
    (∃ error, (beginRead s call peer context).2 = .error error ∧
      Shrinks s (beginRead s call peer context).1) ∨
    ∃ meanwhile value snapshot, call.handled = some ⟨meanwhile, .ok value⟩ ∧
      (beginRead s call peer context).2 = .ok () ∧
      (beginRead s call peer context).1.readSnapshot = some snapshot ∧
      BegunFor snapshot ⟨context.owner, context.securityEpoch, peer, call.characteristic⟩ ∧
      snapshot.value = value := by
  unfold beginRead
  cases hhandled : call.handled with
  | none => exact .inl ⟨_, rfl, .inl rfl⟩
  | some handled =>
      obtain ⟨meanwhile, serialized⟩ := handled
      have hshrinks := shrinks_disturbed s meanwhile
      cases serialized with
      | error error => exact .inl ⟨error, rfl, hshrinks⟩
      | ok value =>
          simp only
          split
          · exact .inl ⟨_, rfl, hshrinks⟩
          · cases hbegin : egpGattReadSnapshotBegin context.owner peer call.characteristic
              context.securityEpoch value call.nowBegin with
            | error error => exact .inl ⟨error, rfl, .inr rfl⟩
            | ok snapshot =>
                obtain ⟨hbegun, hvalue, -⟩ := begin_ok hbegin hpeer
                exact .inr ⟨meanwhile, value, snapshot, rfl, rfl, rfl, hbegun, hvalue⟩

/-- The end of a read that has just begun its snapshot. -/
theorem sliceRead_opened {s t : EgpBluez} {call : ReadCall} {parsed : EgpGattOptions}
    {context : ReadContext} {meanwhile : List Disturbance} {value : Bytes}
    {snapshot : EgpGattReadSnapshot}
    (hparsed : egpGattParseReadOptions call.options true = .ok parsed)
    (hoffset : parsed.offset = 0)
    (hwho : readerOf s call parsed = some
      ⟨context.owner, context.securityEpoch, parsed.peerPath, call.characteristic⟩)
    (hhandled : call.handled = some ⟨meanwhile, .ok value⟩)
    (hheld : t.readSnapshot = some snapshot)
    (hbegun : BegunFor snapshot
      ⟨context.owner, context.securityEpoch, parsed.peerPath, call.characteristic⟩)
    (hvalue : snapshot.value = value) :
    Reads s call (sliceRead t call parsed context).1 (sliceRead t call parsed context).2 := by
  have hmtu := (parse_ok hparsed).2.2
  cases hreply : (sliceRead t call parsed context).2 with
  | error error =>
      refine .failed error rfl (.inr ?_)
      have hslice : (egpGattReadSnapshotSlice t.readSnapshot context.owner parsed.peerPath
          call.characteristic context.securityEpoch parsed.offset parsed.mtu call.nowSlice).2 =
          .error error := hreply
      show (egpGattReadSnapshotSlice t.readSnapshot context.owner parsed.peerPath
        call.characteristic context.securityEpoch parsed.offset parsed.mtu call.nowSlice).1 = none
      rw [hoffset] at hslice ⊢
      exact slice_error_zero hmtu hslice
  | ok bytes =>
      obtain ⟨snapshot', hslot, -, -, hbytes⟩ := slice_ok
        ⟨context.owner, context.securityEpoch, parsed.peerPath, call.characteristic⟩ hreply
      obtain rfl := Option.some.inj (hheld.symm.trans hslot)
      rw [hvalue, hoffset] at hbytes
      refine .opened parsed _ meanwhile value hparsed hoffset hwho hhandled (by rw [hbytes]; rfl) ?_
      intro last hlast
      rcases shrinks_sliceRead t call parsed context with hsame | hnone
      · rw [hsame, hheld] at hlast
        rw [← Option.some.inj hlast]
        exact ⟨hbegun, hvalue⟩
      · rw [hnone] at hlast
        cases hlast

/-- The ways a read can be answered. -/
theorem characteristicRead_cases (s : EgpBluez) (call : ReadCall) :
    Reads s call (characteristicRead s call).1 (characteristicRead s call).2 := by
  unfold characteristicRead
  cases hparsed : egpGattParseReadOptions call.options true with
  | error error => exact .failed error rfl (.inl rfl)
  | ok parsed =>
      obtain ⟨hpath, hlength, hmtu⟩ := parse_ok hparsed
      simp only
      have hslot : Shrinks s (readContext s parsed.peerPath (parsed.offset == 0)).1 :=
        .inl (peerEpochLocked_slot s parsed.peerPath (parsed.offset == 0))
      cases hcontext : (readContext s parsed.peerPath (parsed.offset == 0)).2 with
      | none => exact .failed _ rfl hslot
      | some context =>
          simp only
          have hwho : readerOf s call parsed = some
              ⟨context.owner, context.securityEpoch, parsed.peerPath, call.characteristic⟩ := by
            rw [readerOf, hcontext]
            rfl
          by_cases hoffset : parsed.offset = 0
          · rw [if_pos (by simpa using hoffset)]
            generalize hr : (readContext s parsed.peerPath (parsed.offset == 0)).1 = r at hslot
            rcases beginRead_cases r call context hlength with
              ⟨error, herror, hshrinks⟩ |
              ⟨meanwhile, value, snapshot, hhandled, hready, hheld, hbegun, hvalue⟩
            · generalize beginRead r call parsed.peerPath context = begun at herror hshrinks ⊢
              obtain ⟨t, ready⟩ := begun
              obtain rfl : ready = .error error := herror
              exact .failed error rfl (hslot.trans hshrinks)
            · generalize beginRead r call parsed.peerPath context = begun at hready hheld ⊢
              obtain ⟨t, ready⟩ := begun
              obtain rfl : ready = .ok () := hready
              exact sliceRead_opened hparsed hoffset hwho hhandled hheld hbegun hvalue
          · rw [if_neg (by simpa using hoffset)]
            have hkept : (readContext s parsed.peerPath (parsed.offset == 0)).1 = s := by
              rw [beq_eq_false_iff_ne.mpr hoffset]
              exact readContext_kept s parsed.peerPath
            rw [hkept]
            have hshrinks := shrinks_sliceRead s call parsed context
            cases hreply : (sliceRead s call parsed context).2 with
            | error error => exact .failed error rfl hshrinks
            | ok bytes =>
                obtain ⟨snapshot, hheld, hbegun, hinside, hbytes⟩ := slice_ok
                  ⟨context.owner, context.securityEpoch, parsed.peerPath, call.characteristic⟩
                  hreply
                exact .continued parsed _ snapshot hparsed hoffset hwho hheld hbegun hinside
                  (by rw [hbytes]) hshrinks

/-! ## The slot over a run -/

/-- The slot holds the value of the last read that opened one. -/
def SlotOpened (log : List Entry) (s : EgpBluez) : Prop :=
  ∀ snapshot, s.readSnapshot = some snapshot → ∃ front e back reader,
    log = front ++ e :: back ∧ Opens e reader snapshot.value ∧ BegunFor snapshot reader ∧
    ∀ x ∈ back, ∀ reader' value', ¬ Opens x reader' value'

/-- An entry that opens nothing leaves the slot as it was opened. -/
theorem SlotOpened.snoc {log : List Entry} {s t : EgpBluez} {entry : Entry}
    (h : SlotOpened log s) (hslot : Shrinks s t)
    (hentry : ∀ reader value, ¬ Opens entry reader value) : SlotOpened (log ++ [entry]) t := by
  intro snapshot hsnapshot
  rcases hslot with hsame | hnone
  · rw [hsame] at hsnapshot
    obtain ⟨front, e, back, reader, hlog, hopens, hbegun, hback⟩ := h snapshot hsnapshot
    refine ⟨front, e, back ++ [entry], reader, by rw [hlog, List.append_assoc]; rfl, hopens,
      hbegun, ?_⟩
    intro x hx
    rcases List.mem_append.mp hx with hx | hx
    · exact hback x hx
    · rw [List.mem_singleton.mp hx]
      exact hentry
  · rw [hnone] at hsnapshot
    cases hsnapshot

/-- Every event keeps the slot as the last read from the start opened it. -/
theorem slot_step {log : List Entry} {s : EgpBluez} (h : SlotOpened log s) (event : Event) :
    SlotOpened (log ++ [⟨s, event, (step s event).2⟩]) (step s event).1 := by
  cases event with
  | disturbance d =>
      apply h.snoc (shrinks_disturb s d)
      rintro reader value ⟨call, parsed, meanwhile, bytes, hevent, -⟩
      cases hevent
  | read call =>
      show SlotOpened (log ++ [⟨s, .read call, some (characteristicRead s call).2⟩])
        (characteristicRead s call).1
      cases characteristicRead_cases s call with
      | failed error eq slot =>
          apply h.snoc slot
          rintro reader value ⟨call', parsed, meanwhile, bytes, -, -, -, -, -, hreply⟩
          have hsame : some (characteristicRead s call).2 = some (.ok bytes) := hreply
          rw [eq] at hsame
          cases hsame
      | continued parsed reader snapshot options offset who held begun inside eq slot =>
          apply h.snoc slot
          rintro reader' value ⟨call', parsed', meanwhile, bytes, hevent, hparsed, hzero, -⟩
          cases hevent
          rw [options] at hparsed
          cases hparsed
          exact offset hzero
      | opened parsed reader meanwhile value options offset who handled eq slot =>
          intro snapshot hsnapshot
          obtain ⟨hbegun, hvalue⟩ := slot snapshot hsnapshot
          have hopens : Opens ⟨s, .read call, some (characteristicRead s call).2⟩ reader
              snapshot.value := by
            rw [hvalue]
            exact ⟨call, parsed, meanwhile, piece value 0 (responseMax parsed.mtu), rfl, options,
              offset, who, handled, congrArg some eq⟩
          refine ⟨log, _, [], reader, rfl, hopens, hbegun, ?_⟩
          intro x hx
          cases hx

/-- In every run what is in the slot was opened by the last read from the start. -/
theorem slot_run {log : List Entry} {s : EgpBluez} (h : Run log s) : SlotOpened log s := by
  induction h with
  | start =>
      intro snapshot hsnapshot
      cases hsnapshot
  | step h event ih => exact slot_step ih event

/-- The bytes are a piece of the value that the reader opened last. -/
def OfLastOpened (log : List Entry) (s : EgpBluez) (call : ReadCall) (parsed : EgpGattOptions)
    (bytes : Bytes) : Prop :=
  ∃ reader value front e back, readerOf s call parsed = some reader ∧
    log = front ++ e :: back ∧ Opens e reader value ∧
    (∀ x ∈ back, ∀ value', ¬ Opens x reader value') ∧ parsed.offset.toNat ≤ value.length ∧
    bytes = (value.drop parsed.offset.toNat).take (responseMax parsed.mtu)

/-- A slice that is answered is a piece of the value that was opened last. -/
theorem piece_of_last {log : List Entry} {s : EgpBluez} (h : Run log s) {call : ReadCall}
    {parsed : EgpGattOptions} {bytes : Bytes}
    (hparsed : egpGattParseReadOptions call.options true = .ok parsed)
    (hoffset : parsed.offset ≠ 0) (hreply : (characteristicRead s call).2 = .ok bytes) :
    OfLastOpened log s call parsed bytes := by
  cases characteristicRead_cases s call with
  | failed error eq slot =>
      rw [eq] at hreply
      cases hreply
  | opened parsed' reader meanwhile value options offset who handled eq slot =>
      rw [hparsed] at options
      cases options
      exact absurd offset hoffset
  | continued parsed' reader snapshot options offset who held begun inside eq slot =>
      rw [hparsed] at options
      cases options
      rw [eq] at hreply
      obtain ⟨front, e, back, reader', hlog, hopens, hbegun, hback⟩ := slot_run h snapshot held
      have hsame : reader' = reader := by
        obtain ⟨owner, epoch, peer, c⟩ := reader
        obtain ⟨owner', epoch', peer', c'⟩ := reader'
        rw [Reader.mk.injEq]
        exact ⟨hbegun.owner.symm.trans begun.owner,
          hbegun.securityEpoch.symm.trans begun.securityEpoch,
          hbegun.peerPath.symm.trans begun.peerPath,
          hbegun.characteristic.symm.trans begun.characteristic⟩
      subst hsame
      exact ⟨reader', snapshot.value, front, e, back, who, hlog, hopens,
        fun x hx value' => hback x hx reader' value', inside, (Except.ok.inj hreply).symm⟩

/-! ## Long reads -/

/-- The value of an undisturbed peer comes whole, and no piece at an offset comes from
anything but the value that its reader opened last. -/
theorem long_reads :
    (∀ s next peer c value mtus, value.length ≤ egpGattValueMaxBytes →
      Undisturbed s next peer c value mtus →
      ∃ n t got, n * 22 ≤ value.length ∧ readOn s next (n + 1) = some (t, got) ∧
        got.length = n + 1 ∧ got.flatten = value ∧
        (∀ k < n, (got.getD k []).length = responseMax (mtus k)) ∧
        (got.getD n []).length < responseMax (mtus n)) ∧
    ∀ log s, Run log s → ∀ call parsed bytes,
      egpGattParseReadOptions call.options true = .ok parsed → parsed.offset ≠ 0 →
      (characteristicRead s call).2 = .ok bytes → OfLastOpened log s call parsed bytes :=
  ⟨fun _ _ _ _ _ _ hvalue h => reads_whole h hvalue,
    fun _ _ h _ _ _ hparsed hoffset hreply => piece_of_last h hparsed hoffset hreply⟩

def samplePeer : Bytes := ascii "/org/bluez/hci0/dev_AA"

/-- Two pieces of the default size. -/
def sampleValue : Bytes := List.replicate 22 0x41 ++ List.replicate 22 0x42

def sampleOptions (offset : Nat) : Options :=
  [(ascii "device", .objectPath samplePeer (by decide)), (ascii "offset", .uint16 offset.toUInt16)]

def sampleCall (offset : Nat) (now : Int) : ReadCall where
  characteristic := .runtimeStatus
  options := sampleOptions offset
  handled := some ⟨[.peerSecurity samplePeer], .ok sampleValue⟩
  nowBegin := now
  nowSlice := now

/-- Behind each read another peer changes. -/
def sampleNext (k offset : Nat) : NextRead :=
  ⟨if k = 0 then [.nameAppeared (ascii ":1.42")]
    else [.peerChanged (ascii "/org/bluez/hci0/dev_BB")], sampleCall offset 1000⟩

/-- The samples are read without a disturbance. -/
theorem undisturbed_sample : Undisturbed egpBluezNew sampleNext samplePeer .runtimeStatus
    sampleValue (fun _ => 0) where
  options _ _ _ := rfl
  characteristic _ _ := rfl
  quiet := by
    intro k n d hd
    rw [List.mem_singleton.mp hd]
    show ascii "/org/bluez/hci0/dev_BB" ≠ samplePeer
    decide
  served := ⟨_, ⟨ascii ":1.42", 2⟩, rfl, by decide, by decide⟩
  began := by decide
  within := by
    intro k n
    show (0 : Int) < 1000 ∧ (1000 : Int) < 1000 + egpGattReadSnapshotTtlUs
    decide

/-- A value of two whole pieces needs a third read, and a fourth one fails; the second
piece belongs to what the first read opened. -/
theorem long_reads_sample :
    (∃ n t got, n * 22 ≤ sampleValue.length ∧ readOn egpBluezNew sampleNext (n + 1) =
      some (t, got) ∧ got.length = n + 1 ∧ got.flatten = sampleValue ∧
      (∀ k < n, (got.getD k []).length = responseMax 0) ∧
      (got.getD n []).length < responseMax 0) ∧
    (readOn egpBluezNew sampleNext 3).map (fun r => r.2.map List.length) = some [22, 22, 0] ∧
    (readOn egpBluezNew sampleNext 4).isNone = true ∧
    ∃ log s, Run log s ∧
      OfLastOpened log s (sampleCall 22 1001) ⟨samplePeer, 22, 0⟩ (List.replicate 22 0x42) := by
  have hrun := (Run.start.step (.disturbance (.nameAppeared (ascii ":1.42")))).step
    (.read (sampleCall 0 1000))
  exact ⟨long_reads.1 _ _ _ _ _ _ (by decide) undisturbed_sample, by decide, by decide, _, _, hrun,
    long_reads.2 _ _ hrun _ _ _ rfl (by decide) (by decide)⟩

end EdgeGuard.Provisioning.LongRead
