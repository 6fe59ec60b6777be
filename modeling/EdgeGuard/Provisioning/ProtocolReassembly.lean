import Mathlib.Data.List.Chain
import EdgeGuard.Provisioning.ProtocolRun

/-!
# Reassembled requests

A completed request is made of frames of one transaction, and of nothing else: the
bitmap, the counter and the data of a transaction stay in step with the frames that
were accepted since its first.

## Main results

* `mergeBytes_some`, `mergeBytes_none_iff` — what a fragment does to the bytes.
* `recorded_run` — every live transaction is what the log says of it.
* `reassembly_sound` — what completed requests are made of, and what repeated,
  conflicting and refused frames do.
-/

namespace EdgeGuard.Provisioning.ProtocolReassembly

open EdgeGuard.Base.CText EdgeGuard.Base.HashTable
open EdgeGuard.Provisioning.Model EdgeGuard.Provisioning.Protocol
open EdgeGuard.Provisioning.ProtocolRun

/-! ## The bytes of a transaction -/

/-- The byte that a fragment carries for a position. -/
def fragmentAt (offset : Nat) (fragment : Bytes) (position : Nat) : Option UInt8 :=
  if offset ≤ position then fragment[position - offset]? else none

def frameAt (frame : Frame) (position : Nat) : Option UInt8 :=
  fragmentAt frame.offset frame.fragment position

/-- The byte that a transaction has received for a position. -/
def byteAt (t : Incomplete) (position : Nat) : Option UInt8 :=
  if t.received.getD position false then some (t.data.getD position 0) else none

/-- The arrays and the counter of a transaction are in step. -/
structure Stored (t : Incomplete) : Prop where
  total : t.totalLength ≤ egpProtocolMaxJson
  data : t.data.length = egpProtocolMaxJson
  received : t.received.length = egpProtocolMaxJson
  count : t.receivedCount = t.received.count true
  bound : ∀ position, t.received.getD position false = true → position < t.totalLength

theorem fragmentAt_nil (offset position : Nat) : fragmentAt offset [] position = none := by
  simp [fragmentAt]

theorem fragmentAt_cons (offset : Nat) (byte : UInt8) (rest : Bytes) (position : Nat) :
    fragmentAt offset (byte :: rest) position =
      if position = offset then some byte else fragmentAt (offset + 1) rest position := by
  unfold fragmentAt
  by_cases heq : position = offset
  · rw [if_pos (by omega), if_pos heq, heq, Nat.sub_self]
    rfl
  · rw [if_neg heq]
    by_cases hle : offset + 1 ≤ position
    · rw [if_pos (by omega), if_pos hle]
      rw [show position - offset = position - (offset + 1) + 1 from by omega]
      rfl
    · rw [if_neg (by omega), if_neg hle]

theorem fragmentAt_some {offset position : Nat} {fragment : Bytes} {byte : UInt8}
    (h : fragmentAt offset fragment position = some byte) :
    offset ≤ position ∧ position < offset + fragment.length := by
  unfold fragmentAt at h
  split at h
  · have hlt := (List.getElem?_eq_some_iff.mp h).1
    omega
  · cases h

/-- A new byte is stored. -/
def putByte (t : Incomplete) (position : Nat) (byte : UInt8) : Incomplete :=
  { t with
    received := t.received.set position true
    data := t.data.set position byte
    receivedCount := t.receivedCount + 1 }

/-- Bytes are merged one by one: an equal one is passed over, another one is a conflict. -/
theorem mergeBytes_cons (t : Incomplete) (position : Nat) (byte : UInt8) (rest : Bytes) :
    mergeBytes t position (byte :: rest) =
      match byteAt t position with
      | some stored => if stored != byte then none else mergeBytes t (position + 1) rest
      | none => mergeBytes (putByte t position byte) (position + 1) rest := by
  unfold byteAt
  rw [mergeBytes]
  by_cases hreceived : t.received.getD position false = true
  · rw [if_pos hreceived, if_pos hreceived]
  · rw [if_neg hreceived, if_neg hreceived]
    rfl

/-- The byte that is put is there, and the others are as before. -/
theorem byteAt_put {t : Incomplete} (h : Stored t) (position : Nat) (byte : UInt8)
    (hlt : position < t.totalLength) (other : Nat) :
    byteAt (putByte t position byte) other =
      if other = position then some byte else byteAt t other := by
  have hreceived : position < t.received.length := by
    rw [h.received]
    exact Nat.lt_of_lt_of_le hlt h.total
  have hdata : position < t.data.length := by
    rw [h.data]
    exact Nat.lt_of_lt_of_le hlt h.total
  simp only [byteAt, putByte, List.getD_eq_getElem?_getD, List.getElem?_set]
  by_cases heq : other = position
  · subst heq
    simp [hreceived, hdata]
  · rw [if_neg (Ne.symm heq), if_neg (Ne.symm heq), if_neg heq]

/-- A byte that is put at a free place is stored and counted. -/
theorem stored_put {t : Incomplete} (h : Stored t) {position : Nat} (byte : UInt8)
    (hlt : position < t.totalLength) (hnone : byteAt t position = none) :
    Stored (putByte t position byte) := by
  have hreceived : position < t.received.length := by
    rw [h.received]
    exact Nat.lt_of_lt_of_le hlt h.total
  have hnew : t.received[position] = false := by
    simpa [byteAt, List.getD_eq_getElem?_getD, hreceived] using hnone
  refine ⟨h.total, by simp [putByte, h.data], by simp [putByte, h.received], ?_, ?_⟩
  · show t.receivedCount + 1 = (t.received.set position true).count true
    rw [List.count_set hreceived, h.count, hnew]
    simp
  · intro other hother
    simp only [putByte, List.getD_eq_getElem?_getD, List.getElem?_set] at hother
    by_cases heq : position = other
    · rw [← heq]
      exact hlt
    · rw [if_neg heq] at hother
      apply h.bound
      rw [List.getD_eq_getElem?_getD]
      exact hother

/-- A fragment that is taken agrees with what was there, and adds its bytes. -/
theorem mergeBytes_some {t m : Incomplete} {position : Nat} {fragment : Bytes}
    (h : mergeBytes t position fragment = some m) (hstored : Stored t)
    (hfits : position + fragment.length ≤ t.totalLength) :
    Stored m ∧ ∀ other, byteAt m other =
      (fragmentAt position fragment other).or (byteAt t other) ∧
        ∀ byte, byteAt t other = some byte → byteAt m other = some byte := by
  induction fragment generalizing t position with
  | nil =>
      cases h
      refine ⟨hstored, fun other => ⟨?_, fun _ hbyte => hbyte⟩⟩
      rw [fragmentAt_nil, Option.none_or]
  | cons byte rest ih =>
      rw [List.length_cons] at hfits
      rw [mergeBytes_cons] at h
      cases hat : byteAt t position with
      | some stored =>
          rw [hat] at h
          simp only at h
          split at h
          · cases h
          · rename_i hsame
            have hsame : stored = byte := by simpa using hsame
            obtain ⟨hm, hbytes⟩ := ih h hstored (by omega)
            refine ⟨hm, fun other => ⟨?_, (hbytes other).2⟩⟩
            rw [fragmentAt_cons]
            by_cases heq : other = position
            · rw [if_pos heq, Option.some_or]
              subst heq
              rw [(hbytes other).2 stored hat, hsame]
            · rw [if_neg heq]
              exact (hbytes other).1
      | none =>
          rw [hat] at h
          simp only at h
          have hput := byteAt_put hstored position byte (by omega)
          obtain ⟨hm, hbytes⟩ := ih h (stored_put hstored byte (by omega) hat) (by
            show position + 1 + rest.length ≤ t.totalLength
            omega)
          refine ⟨hm, fun other => ⟨?_, fun b hb => ?_⟩⟩
          · rw [fragmentAt_cons]
            by_cases heq : other = position
            · rw [if_pos heq, Option.some_or]
              apply (hbytes other).2
              rw [hput, if_pos heq]
            · rw [if_neg heq, (hbytes other).1, hput, if_neg heq]
          · apply (hbytes other).2
            rw [hput, if_neg]
            · exact hb
            · rintro rfl
              rw [hat] at hb
              cases hb

/-- A fragment is refused exactly when it contradicts a byte that is there. -/
theorem mergeBytes_none_iff {t : Incomplete} {position : Nat} {fragment : Bytes}
    (hstored : Stored t) (hfits : position + fragment.length ≤ t.totalLength) :
    mergeBytes t position fragment = none ↔
      ∃ other stored byte, byteAt t other = some stored ∧
        fragmentAt position fragment other = some byte ∧ stored ≠ byte := by
  induction fragment generalizing t position with
  | nil => simp [mergeBytes, fragmentAt_nil]
  | cons byte rest ih =>
      rw [List.length_cons] at hfits
      rw [mergeBytes_cons]
      simp only [fragmentAt_cons]
      have hbehind : ∀ other b, fragmentAt (position + 1) rest other = some b →
          other ≠ position := by
        rintro other b hb rfl
        have hbounds := fragmentAt_some hb
        omega
      cases hat : byteAt t position with
      | some stored =>
          simp only
          by_cases hsame : stored = byte
          · rw [if_neg (by simpa using hsame), ih hstored (by omega)]
            constructor
            · rintro ⟨other, a, b, ha, hb, hne⟩
              refine ⟨other, a, b, ha, ?_, hne⟩
              rw [if_neg (hbehind other b hb)]
              exact hb
            · rintro ⟨other, a, b, ha, hb, hne⟩
              by_cases heq : other = position
              · rw [if_pos heq] at hb
                rw [heq, hat] at ha
                cases ha
                cases hb
                exact absurd hsame hne
              · rw [if_neg heq] at hb
                exact ⟨other, a, b, ha, hb, hne⟩
          · rw [if_pos (by simpa using hsame)]
            refine ⟨fun _ => ⟨position, stored, byte, hat, by rw [if_pos rfl], hsame⟩,
              fun _ => rfl⟩
      | none =>
          simp only
          have hput := byteAt_put hstored position byte (by omega)
          rw [ih (stored_put hstored byte (by omega) hat) (by
            show position + 1 + rest.length ≤ t.totalLength
            omega)]
          constructor
          · rintro ⟨other, a, b, ha, hb, hne⟩
            rw [hput, if_neg (hbehind other b hb)] at ha
            refine ⟨other, a, b, ha, ?_, hne⟩
            rw [if_neg (hbehind other b hb)]
            exact hb
          · rintro ⟨other, a, b, ha, hb, hne⟩
            by_cases heq : other = position
            · rw [heq, hat] at ha
              cases ha
            · rw [if_neg heq] at hb
              refine ⟨other, a, b, ?_, hb, hne⟩
              rw [hput, if_neg heq]
              exact ha

/-- Nothing is received behind the end of the request. -/
theorem Stored.behind {t : Incomplete} (h : Stored t) :
    (t.received.drop t.totalLength).count true = 0 := by
  rw [List.count_eq_zero]
  intro hmem
  obtain ⟨i, hi, hget⟩ := List.mem_iff_getElem.mp hmem
  rw [List.getElem_drop] at hget
  have hlt := h.bound (t.totalLength + i) (by
    rw [List.getD_eq_getElem?_getD, List.getElem?_eq_getElem (by
      rw [List.length_drop] at hi
      omega), hget]
    rfl)
  omega

/-- The text of a transaction is as long as it was announced. -/
theorem Stored.length_json {t : Incomplete} (h : Stored t) : t.json.length = t.totalLength := by
  rw [Incomplete.json, List.length_take, h.data]
  exact Nat.min_eq_left h.total

/-- A received byte is in the text at its position. -/
theorem Stored.getElem?_json {t : Incomplete} (h : Stored t) {position : Nat} {byte : UInt8}
    (hbyte : byteAt t position = some byte) : t.json[position]? = some byte := by
  unfold byteAt at hbyte
  split at hbyte
  · rename_i hreceived
    have hlt := h.bound position hreceived
    have hdata : position < t.data.length := by
      rw [h.data]
      exact Nat.lt_of_lt_of_le hlt h.total
    rw [List.getD_eq_getElem?_getD, List.getElem?_eq_getElem hdata] at hbyte
    rw [Incomplete.json, List.getElem?_take_of_lt hlt, List.getElem?_eq_getElem hdata]
    exact hbyte
  · cases hbyte

/-- The counter is the length of the request only when every byte is there. -/
theorem Stored.complete {t : Incomplete} (h : Stored t) (hcount : t.receivedCount = t.totalLength)
    {position : Nat} (hlt : position < t.totalLength) :
    t.received.getD position false = true := by
  have htotal : t.totalLength ≤ t.received.length := by
    rw [h.received]
    exact h.total
  have hbehind := h.behind
  have hfront : (t.received.take t.totalLength).count true =
      (t.received.take t.totalLength).length := by
    have hsplit := congrArg (List.count true) (List.take_append_drop t.totalLength t.received)
    rw [List.count_append, hbehind, ← h.count, hcount] at hsplit
    rw [List.length_take]
    omega
  have hposition : position < t.received.length := by omega
  have hmem : t.received[position] ∈ t.received.take t.totalLength := by
    rw [← List.getElem_take (j := t.totalLength) (h := by rw [List.length_take]; omega)]
    exact List.getElem_mem _
  rw [List.getD_eq_getElem?_getD, List.getElem?_eq_getElem hposition,
    ← List.count_eq_length.mp hfront _ hmem]
  rfl

/-! ## The frames of a transaction in the log -/

/-- A frame that was accepted. -/
structure Contribution where
  now : Int
  frame : Frame

/-- The frame that a call contributed to the transactions of a peer on a
characteristic. -/
def contribution (peer : Bytes) (c : EgpWritableCharacteristic) (e : LogEntry) :
    Option Contribution :=
  match e.event, e.reply with
  | .accept peer' c' value, .accepted (.ok _) =>
      if peer' = peer ∧ c' = c then
        match parseFrame c' value with
        | .ok frame => some ⟨e.now, frame⟩
        | .error _ => none
      else none
  | _, _ => none

def contributions (peer : Bytes) (c : EgpWritableCharacteristic) (log : List LogEntry) :
    List Contribution := log.filterMap (contribution peer c)

/-- The call takes away the transaction that the peer has on the characteristic: the
peer is dropped, or a frame with a right header completes a transaction or is refused
neither as busy nor for a timeout. -/
def Ends (peer : Bytes) (c : EgpWritableCharacteristic) (e : LogEntry) : Prop :=
  match e.event, e.reply with
  | .dropAll, _ => True
  | .dropPeer peer', _ => peer' = peer
  | .accept peer' c' value, .accepted reply =>
      peer' = peer ∧ c' = c ∧ Acceptable peer' e.now ∧ (∃ frame, parseFrame c' value = .ok frame) ∧
        match reply with
        | .ok output => output ≠ .incomplete
        | .error error =>
            error.code ≠ .provisioningBusy ∧ error.code ≠ .bleTransactionTimeout
  | _, _ => False

/-- The log leads to a state in which the peer has no transaction on the characteristic
that is alive at the time. -/
def Vacant (sha256 : Bytes → Bytes) (log : List LogEntry) (peer : Bytes)
    (c : EgpWritableCharacteristic) (now : Int) : Prop :=
  ∃ clock p, Run sha256 log clock p ∧
    ∀ t, p.incomplete.lookup (incompleteKey peer c) = some t → t.timedOut now = true

/-- The part of the log from the first frame of a transaction on holds frames of its
fields, and its bytes are theirs; in front of that part there is no transaction. -/
structure Gathered (sha256 : Bytes → Bytes) (front log : List LogEntry) (t : Incomplete) :
    Prop where
  vacant : Vacant sha256 front t.peerPath t.characteristic t.createdUs
  starts : ∃ first rest, contributions t.peerPath t.characteristic log = first :: rest ∧
    first.frame.start = true ∧ first.now = t.createdUs ∧
    (log.head?.bind (contribution t.peerPath t.characteristic)) = some first
  fields : ∀ k ∈ contributions t.peerPath t.characteristic log,
    k.frame.transactionId = t.transactionId ∧ k.frame.opcode = t.opcode ∧
      k.frame.total = t.totalLength
  bytes : ∀ k ∈ contributions t.peerPath t.characteristic log, ∀ position byte,
    frameAt k.frame position = some byte → byteAt t position = some byte
  covers : ∀ position byte, byteAt t position = some byte →
    ∃ k ∈ contributions t.peerPath t.characteristic log, frameAt k.frame position = some byte
  idle : (contributions t.peerPath t.characteristic log).IsChain
    fun a b => b.now - a.now < egpProtocolIdleTimeoutUs
  touched : (contributions t.peerPath t.characteristic log).getLast?.map Contribution.now =
    some t.touchedUs
  lifetime : ∀ k ∈ contributions t.peerPath t.characteristic log,
    t.createdUs ≤ k.now ∧ k.now - t.createdUs < egpProtocolLifetimeUs

/-- What the log knows of a live transaction. -/
structure Recorded (sha256 : Bytes → Bytes) (log : List LogEntry) (clock : Int)
    (t : Incomplete) : Prop where
  stored : Stored t
  endSeen : t.endSeen = false
  created : t.createdUs ≤ clock
  gathered : ∃ front back, log = front ++ back ∧
    (∀ e ∈ back, ¬ Ends t.peerPath t.characteristic e) ∧ Gathered sha256 front back t

theorem contributions_append (peer : Bytes) (c : EgpWritableCharacteristic)
    (xs ys : List LogEntry) :
    contributions peer c (xs ++ ys) = contributions peer c xs ++ contributions peer c ys :=
  List.filterMap_append

variable {sha256 : Bytes → Bytes}

/-- What does not end a transaction does not end it behind others either. -/
theorem not_ends_snoc {peer : Bytes} {c : EgpWritableCharacteristic} {back : List LogEntry}
    (h : ∀ e ∈ back, ¬ Ends peer c e) {e : LogEntry} (he : ¬ Ends peer c e) :
    ∀ x ∈ back ++ [e], ¬ Ends peer c x := by
  intro x hx
  rcases List.mem_append.mp hx with hx | hx
  · exact h x hx
  · rw [List.mem_singleton.mp hx]
    exact he

/-- A call that neither contributes to a transaction nor ends it does not matter. -/
theorem Recorded.extend {log : List LogEntry} {clock now : Int} {t : Incomplete}
    (h : Recorded sha256 log clock t) (hlater : clock ≤ now) {e : LogEntry}
    (hnone : contribution t.peerPath t.characteristic e = none)
    (hopen : ¬ Ends t.peerPath t.characteristic e) :
    Recorded sha256 (log ++ [e]) now t := by
  obtain ⟨front, back, hlog, hunended, hback⟩ := h.gathered
  refine ⟨h.stored, h.endSeen, Int.le_trans h.created hlater, front, back ++ [e], ?_,
    not_ends_snoc hunended hopen, ?_⟩
  · rw [hlog, List.append_assoc]
  · have hsame : contributions t.peerPath t.characteristic (back ++ [e]) =
        contributions t.peerPath t.characteristic back := by
      rw [contributions_append]
      simp [contributions, hnone]
    obtain ⟨first, rest, hcs, hstart, hnow, hhead⟩ := hback.starts
    refine ⟨hback.vacant, ⟨first, rest, hsame.trans hcs, hstart, hnow, ?_⟩, hsame ▸ hback.fields,
      hsame ▸ hback.bytes, hsame ▸ hback.covers, hsame ▸ hback.idle, hsame ▸ hback.touched,
      hsame ▸ hback.lifetime⟩
    cases back with
    | nil => cases hhead
    | cons e' back => exact hhead

/-- The frame that a transaction takes up is recorded with it. -/
theorem gathered_merge {front back : List LogEntry} {t m : Incomplete} {frame : Frame}
    {now : Int} {endSeen : Bool} (hback : Gathered sha256 front back t) (hstored : Stored t)
    (hmerge : mergeBytes t frame.offset frame.fragment = some m)
    (hfits : frame.offset + frame.fragment.length ≤ t.totalLength)
    (hid : t.transactionId = frame.transactionId) (hopcode : t.opcode = frame.opcode)
    (htotal : t.totalLength = frame.total) (hlive : t.timedOut now = false)
    (hcreated : t.createdUs ≤ now) {e : LogEntry}
    (hentry : contribution t.peerPath t.characteristic e = some ⟨now, frame⟩) :
    Gathered sha256 front (back ++ [e]) { m with touchedUs := now, endSeen } := by
  obtain ⟨hpeer, hc, hid', hopcode', htotal', -, hcreated'⟩ := mergeBytes_same hmerge
  obtain ⟨-, hbytes⟩ := mergeBytes_some hmerge hstored hfits
  simp only [Incomplete.timedOut, Bool.or_eq_false_iff, decide_eq_false_iff_not,
    Int.not_le] at hlive
  have hcs : contributions m.peerPath m.characteristic (back ++ [e]) =
      contributions t.peerPath t.characteristic back ++ [⟨now, frame⟩] := by
    rw [hpeer, hc, contributions_append]
    simp [contributions, hentry]
  obtain ⟨first, rest, hfirst, hstart, hnow, hhead⟩ := hback.starts
  constructor
  · show Vacant sha256 front m.peerPath m.characteristic m.createdUs
    rw [hpeer, hc, hcreated']
    exact hback.vacant
  · refine ⟨first, rest ++ [⟨now, frame⟩], ?_, hstart, hnow.trans hcreated'.symm, ?_⟩
    · show contributions m.peerPath m.characteristic (back ++ [e]) = _
      rw [hcs, hfirst, List.cons_append]
    · show (back ++ [e]).head?.bind (contribution m.peerPath m.characteristic) = some first
      rw [hpeer, hc]
      cases back with
      | nil => cases hhead
      | cons e' back => exact hhead
  · intro k hk
    rw [show contributions _ _ _ = _ from hcs] at hk
    show k.frame.transactionId = m.transactionId ∧ k.frame.opcode = m.opcode ∧
      k.frame.total = m.totalLength
    rw [hid', hopcode', htotal']
    rcases List.mem_append.mp hk with hk | hk
    · exact hback.fields k hk
    · rw [List.mem_singleton.mp hk]
      exact ⟨hid.symm, hopcode.symm, htotal.symm⟩
  · intro k hk position byte hbyte
    rw [show contributions _ _ _ = _ from hcs] at hk
    show byteAt m position = some byte
    rcases List.mem_append.mp hk with hk | hk
    · exact (hbytes position).2 byte (hback.bytes k hk position byte hbyte)
    · rw [List.mem_singleton.mp hk] at hbyte
      rw [(hbytes position).1, show fragmentAt _ _ position = some byte from hbyte, Option.some_or]
  · intro position byte hbyte
    rw [show contributions _ _ _ = _ from hcs]
    have hbyte : byteAt m position = some byte := hbyte
    rw [(hbytes position).1] at hbyte
    cases hat : fragmentAt frame.offset frame.fragment position with
    | some b =>
        rw [hat, Option.some_or] at hbyte
        cases hbyte
        exact ⟨⟨now, frame⟩, by simp, hat⟩
    | none =>
        rw [hat, Option.none_or] at hbyte
        obtain ⟨k, hk, hkb⟩ := hback.covers position byte hbyte
        exact ⟨k, by simp [hk], hkb⟩
  · rw [show contributions _ _ _ = _ from hcs]
    refine List.isChain_append.mpr ⟨hback.idle, .singleton _, ?_⟩
    intro a ha b hb
    have htouched := hback.touched
    rw [show (contributions t.peerPath t.characteristic back).getLast? = some a from ha] at htouched
    cases hb
    have : a.now = t.touchedUs := by simpa using htouched
    show now - a.now < egpProtocolIdleTimeoutUs
    omega
  · rw [show contributions _ _ _ = _ from hcs]
    simp
  · intro k hk
    rw [show contributions _ _ _ = _ from hcs] at hk
    show m.createdUs ≤ k.now ∧ k.now - m.createdUs < egpProtocolLifetimeUs
    rw [hcreated']
    rcases List.mem_append.mp hk with hk | hk
    · exact hback.lifetime k hk
    · rw [List.mem_singleton.mp hk]
      exact ⟨hcreated, hlive.2⟩

/-- The transaction that a first frame opens has received nothing. -/
theorem byteAt_fresh (peer : Bytes) (c : EgpWritableCharacteristic) (frame : Frame) (now : Int)
    (position : Nat) : byteAt (.fresh peer c frame now) position = none := by
  have hnone : (List.replicate egpProtocolMaxJson false).getD position false = false := by
    rw [List.getD_eq_getElem?_getD, List.getElem?_replicate]
    split
    · rfl
    · rfl
  rw [byteAt, if_neg]
  rw [show Incomplete.received _ = List.replicate egpProtocolMaxJson false from rfl, hnone]
  exact Bool.false_ne_true

theorem stored_fresh (peer : Bytes) (c : EgpWritableCharacteristic) {frame : Frame} (now : Int)
    (htotal : frame.total ≤ egpProtocolMaxJson) : Stored (.fresh peer c frame now) := by
  refine ⟨htotal, List.length_replicate, List.length_replicate, ?_, fun position h => ?_⟩
  · show 0 = (List.replicate egpProtocolMaxJson false).count true
    rw [List.count_replicate]
    rfl
  · have hnone := byteAt_fresh peer c frame now position
    rw [byteAt, if_pos h] at hnone
    cases hnone

/-- A transaction that is begun has gathered its START alone. -/
theorem gathered_fresh {peer : Bytes} {c : EgpWritableCharacteristic} {m : Incomplete}
    {frame : Frame} {now : Int} {endSeen : Bool} {front : List LogEntry}
    (hvacant : Vacant sha256 front peer c now) (hstart : frame.start = true)
    (hmerge : mergeBytes (.fresh peer c frame now) frame.offset frame.fragment = some m)
    (htotal : frame.total ≤ egpProtocolMaxJson)
    (hfits : frame.offset + frame.fragment.length ≤ frame.total) {e : LogEntry}
    (hentry : contribution peer c e = some ⟨now, frame⟩) :
    Gathered sha256 front [e] { m with touchedUs := now, endSeen } := by
  obtain ⟨hpeer, hc, hid, hopcode, htotal', -, hcreated⟩ := mergeBytes_same hmerge
  obtain ⟨-, hbytes⟩ := mergeBytes_some hmerge (stored_fresh peer c now htotal) hfits
  have hcs : contributions m.peerPath m.characteristic [e] = [⟨now, frame⟩] := by
    rw [hpeer, hc]
    simp [contributions, Incomplete.fresh, hentry]
  have hbyte : ∀ position, byteAt m position = fragmentAt frame.offset frame.fragment position := by
    intro position
    rw [(hbytes position).1, byteAt_fresh, Option.or_none]
  constructor
  · show Vacant sha256 front m.peerPath m.characteristic m.createdUs
    rw [hpeer, hc, hcreated]
    exact hvacant
  · refine ⟨⟨now, frame⟩, [], hcs, hstart, hcreated.symm, ?_⟩
    show contribution m.peerPath m.characteristic e = _
    rw [hpeer, hc]
    exact hentry
  · intro k hk
    rw [show contributions _ _ _ = _ from hcs, List.mem_singleton] at hk
    rw [hk]
    exact ⟨hid.symm, hopcode.symm, htotal'.symm⟩
  · intro k hk position byte hk'
    rw [show contributions _ _ _ = _ from hcs, List.mem_singleton] at hk
    rw [hk] at hk'
    show byteAt m position = some byte
    rw [hbyte]
    exact hk'
  · intro position byte hb
    rw [show contributions _ _ _ = _ from hcs]
    have hb : byteAt m position = some byte := hb
    rw [hbyte] at hb
    exact ⟨⟨now, frame⟩, by simp, hb⟩
  · rw [show contributions _ _ _ = _ from hcs]
    exact .singleton _
  · rw [show contributions _ _ _ = _ from hcs]
    rfl
  · intro k hk
    rw [show contributions _ _ _ = _ from hcs, List.mem_singleton] at hk
    rw [hk]
    show m.createdUs ≤ now ∧ now - m.createdUs < egpProtocolLifetimeUs
    rw [hcreated]
    show now ≤ now ∧ now - now < egpProtocolLifetimeUs
    rw [egpProtocolLifetimeUs]
    omega

/-! ## The invariant of a run -/

/-- A frame that parses lies within its total. -/
theorem parseFrame_ok {c : EgpWritableCharacteristic} {value : Bytes} {frame : Frame}
    (h : parseFrame c value = .ok frame) :
    frame.total ≤ egpProtocolMaxJson ∧ frame.offset + frame.fragment.length ≤ frame.total := by
  unfold parseFrame at h
  split at h
  · rename_i hlength
    simp only at h
    split at h
    · cases h
    · split at h
      · cases h
      · split at h
        · cases h
        · split at h
          · cases h
          · rename_i htotal hfits
            cases h
            simp only [Bool.or_eq_true, decide_eq_true_eq, not_or] at hfits
            omega
  · cases h

/-- A call on another key contributes nothing to a transaction. -/
theorem contribution_other {t : Incomplete} {peer : Bytes} {c : EgpWritableCharacteristic}
    (h : incompleteKey t.peerPath t.characteristic ≠ incompleteKey peer c) (now : Int)
    (value : Bytes) (reply : Reply) :
    contribution t.peerPath t.characteristic ⟨now, .accept peer c value, reply⟩ = none := by
  unfold contribution
  split
  · rename_i hevent _
    cases hevent
    rw [if_neg]
    rintro ⟨hpeer, hc⟩
    rw [hpeer, hc] at h
    exact h rfl
  · rfl

/-- Nor does it end one. -/
theorem not_ends_other {t : Incomplete} {peer : Bytes} {c : EgpWritableCharacteristic}
    (h : incompleteKey t.peerPath t.characteristic ≠ incompleteKey peer c) (now : Int)
    (value : Bytes) (reply : Except EgpError EgpProtocolOutput) :
    ¬ Ends t.peerPath t.characteristic ⟨now, .accept peer c value, .accepted reply⟩ := by
  rintro ⟨hpeer, hc, -⟩
  rw [hpeer, hc] at h
  exact h rfl

/-- A frame for a transaction that the log leaves open, or for none. -/
theorem not_ends_incomplete (peer peer' : Bytes) (c c' : EgpWritableCharacteristic) (now : Int)
    (value : Bytes) :
    ¬ Ends peer c ⟨now, .accept peer' c' value, .accepted (.ok .incomplete)⟩ :=
  fun h => h.2.2.2.2 rfl

/-- The entry of an accepted frame. -/
theorem contribution_accepted (peer : Bytes) {c : EgpWritableCharacteristic} {value : Bytes}
    {frame : Frame} (hframe : parseFrame c value = .ok frame) (now : Int)
    (output : EgpProtocolOutput) :
    contribution peer c ⟨now, .accept peer c value, .accepted (.ok output)⟩ =
      some ⟨now, frame⟩ := by
  simp [contribution, hframe]

/-- A frame that joins a transaction is recorded with it. -/
theorem joined_recorded {log : List LogEntry} {clock now : Int} {p q : EgpProtocol}
    (hrun : Run sha256 log clock p) {peer : Bytes} {c : EgpWritableCharacteristic}
    {value : Bytes} {frame : Frame} {t m : Incomplete} (endSeen : Bool) (output : EgpProtocolOutput)
    (h : ∀ k t, p.incomplete.lookup k = some t → Recorded sha256 log clock t)
    (hlater : clock ≤ now) (hframe : parseFrame c value = .ok frame) (haged : Aged now p q)
    (hq : Tidy q) (hjoins : Joins q peer c frame now t)
    (hmerge : mergeBytes t frame.offset frame.fragment = some m) :
    Stored { m with touchedUs := now, endSeen } ∧ m.createdUs ≤ now ∧
      ∃ front back, log = front ++ back ∧ (∀ e ∈ back, ¬ Ends peer c e) ∧
        Gathered sha256 front (back ++ [⟨now, .accept peer c value, .accepted (.ok output)⟩])
          { m with touchedUs := now, endSeen } := by
  obtain ⟨htotal, hfits⟩ := parseFrame_ok hframe
  obtain ⟨hpeer, hc, hid, hopcode, htotal'⟩ := hjoins.fields hq
  have hentry := contribution_accepted peer hframe now output
  have hcreated := (mergeBytes_same hmerge).2.2.2.2.2.2
  cases hjoins with
  | live found current id opcode total =>
      have hrecorded := h _ _ (haged.incomplete _ _ found)
      have hstored := (mergeBytes_some hmerge hrecorded.stored (by omega)).1
      have htime : t.createdUs ≤ now := Int.le_trans hrecorded.created hlater
      refine ⟨⟨hstored.total, hstored.data, hstored.received, hstored.count, hstored.bound⟩,
        hcreated ▸ htime, ?_⟩
      obtain ⟨front, back, hlog, hunended, hback⟩ := hrecorded.gathered
      rw [hpeer, hc] at hunended
      refine ⟨front, back, hlog, hunended, ?_⟩
      have hentry : contribution t.peerPath t.characteristic
          ⟨now, .accept peer c value, .accepted (.ok output)⟩ = some ⟨now, frame⟩ := by
        rw [hpeer, hc]
        exact hentry
      exact gathered_merge hback hrecorded.stored hmerge (by omega) hid hopcode htotal' current
        htime hentry
  | opened absent start fresh =>
      subst fresh
      have hstored := (mergeBytes_some hmerge (stored_fresh peer c now htotal) hfits).1
      refine ⟨⟨hstored.total, hstored.data, hstored.received, hstored.count, hstored.bound⟩,
        Int.le_of_eq hcreated, log, [], (List.append_nil log).symm, ?_, ?_⟩
      · intro e he
        cases he
      · -- a transaction that was there until now had timed out
        have hvacant : Vacant sha256 log peer c now := by
          refine ⟨clock, p, hrun, fun t ht => ?_⟩
          by_contra hlive
          rw [haged.live _ _ ht (by simpa using hlive)] at absent
          cases absent
        exact gathered_fresh hvacant start hmerge htotal hfits hentry

/-- Every live transaction is recorded, and stays so whatever is called. -/
theorem recorded_accept {log : List LogEntry} {clock now : Int} {p : EgpProtocol}
    (hrun : Run sha256 log clock p)
    (h : ∀ k t, p.incomplete.lookup k = some t → Recorded sha256 log clock t)
    (hlater : clock ≤ now) (o : Visits) (peer : Bytes) (c : EgpWritableCharacteristic)
    (value : Bytes) :
    let s := egpProtocolAccept sha256 o p peer c value now
    ∀ k t, s.1.incomplete.lookup k = some t →
      Recorded sha256 (log ++ [⟨now, .accept peer c value, .accepted s.2⟩]) now t := by
  have hp := tidy_run hrun
  have hother : ∀ k t reply, p.incomplete.lookup k = some t → k ≠ incompleteKey peer c →
      Recorded sha256 (log ++ [⟨now, .accept peer c value, .accepted reply⟩]) now t := by
    intro k t reply hk hne
    rw [hp.keyed k t hk] at hne
    exact (h k t hk).extend hlater (contribution_other hne now value _)
      (not_ends_other hne now value reply)
  have hrefused : ∀ k t error, p.incomplete.lookup k = some t →
      ¬ Ends t.peerPath t.characteristic
        ⟨now, .accept peer c value, .accepted (.error error)⟩ →
      Recorded sha256 (log ++ [⟨now, .accept peer c value, .accepted (.error error)⟩]) now t :=
    fun k t error hk hopen => (h k t hk).extend hlater rfl hopen
  have herased : ∀ q : EgpProtocol, Aged now p q → ∀ k t,
      (q.incomplete.erase (incompleteKey peer c)).lookup k = some t →
        p.incomplete.lookup k = some t ∧ k ≠ incompleteKey peer c := by
    intro q hq k t hk
    rw [lookup_erase_eq] at hk
    split at hk
    · cases hk
    · rename_i hne
      exact ⟨hq.incomplete k t hk, hne⟩
  intro s k t hk
  simp only [s, egpProtocolAccept] at hk ⊢
  rcases assemble_cases o p peer c value now with ⟨hheader, error, heq⟩ |
    ⟨-, frame, hframe, hcases⟩
  · rw [heq] at hk ⊢
    refine hrefused k t error hk ?_
    rintro ⟨-, -, hinput, ⟨frame, hframe⟩, -⟩
    rcases hheader with hnot | ⟨error', herror⟩
    · exact hnot hinput
    · cases herror.symm.trans hframe
  · cases hcases with
    | refused q error aged eq code =>
        rw [eq] at hk ⊢
        refine hrefused k t error (aged.incomplete k t hk) ?_
        rintro ⟨hpeer, hc, -, -, hbusy, htimeout⟩
        rcases code with hcode | hcode | habsent
        · exact hbusy hcode
        · exact htimeout hcode
        · rw [(hp.aged aged).keyed k t hk, ← hpeer, ← hc, habsent] at hk
          cases hk
    | joined q t₀ aged current unmarked joins eq =>
        rw [eq] at hk ⊢
        cases mergeFrame_cases q (incompleteKey peer c) t₀ frame now with
        | conflict error bytes code eq =>
            rw [eq] at hk ⊢
            obtain ⟨hk, hne⟩ := herased q aged k t hk
            exact hother k t _ hk hne
        | gap m error bytes ended count code eq =>
            rw [eq] at hk ⊢
            obtain ⟨hk, hne⟩ := herased q aged k t hk
            exact hother k t _ hk hne
        | kept m bytes open_ eq =>
            rw [eq] at hk ⊢
            simp only [lookup_insert_eq] at hk
            by_cases hkey : k = incompleteKey peer c
            · rw [if_pos hkey] at hk
              cases hk
              obtain ⟨hstored, hcreated, front, back, hlog, hunended, hback⟩ :=
                joined_recorded hrun false .incomplete h hlater hframe aged (hp.aged aged) joins
                  bytes
              obtain ⟨hpeer, hc, -⟩ := joins.fields (hp.aged aged)
              obtain ⟨hpeer', hc', -⟩ := mergeBytes_same bytes
              refine ⟨hstored, rfl, hcreated, front, back ++ [_], by rw [hlog, List.append_assoc],
                ?_, hback⟩
              show ∀ e ∈ back ++ [_], ¬ Ends m.peerPath m.characteristic e
              rw [hpeer', hc', hpeer, hc]
              exact not_ends_snoc hunended (not_ends_incomplete _ _ _ _ _ _)
            · rw [if_neg hkey] at hk
              exact hother k t _ (aged.incomplete k t hk) hkey
        | whole m bytes ended count eq =>
            rw [eq] at hk ⊢
            obtain ⟨completed, hstate⟩ := completeTransaction_state sha256 o q
              (incompleteKey peer c) { m with touchedUs := now, endSeen := true } now
            simp only [hstate] at hk
            obtain ⟨hk, hne⟩ := herased q aged k t hk
            exact hother k t _ hk hne

/-- In every run a transaction has gathered what it holds since its START, and nothing ended
it in between. -/
theorem recorded_run {log : List LogEntry} {clock : Int} {p : EgpProtocol}
    (h : Run sha256 log clock p) :
    ∀ k t, p.incomplete.lookup k = some t → Recorded sha256 log clock t := by
  induction h with
  | start =>
      intro k t hk
      cases hk
  | @step log clock p h o now later event ih =>
      intro k t hk
      have hkept : p.incomplete.lookup k = some t →
          contribution t.peerPath t.characteristic
            ⟨now, event, (step sha256 o p now event).2⟩ = none →
          ¬ Ends t.peerPath t.characteristic ⟨now, event, (step sha256 o p now event).2⟩ →
          Recorded sha256 (log ++ [⟨now, event, (step sha256 o p now event).2⟩]) now t :=
        fun hp hnone hopen => (ih k t hp).extend later hnone hopen
      cases event with
      | accept peer c value => exact recorded_accept h ih later o peer c value k t hk
      | cacheResultId peer c id result =>
          refine hkept ?_ rfl nofun
          have haged := (expire_aged o p now).1
          simp only [step, egpProtocolCacheResultId] at hk
          split at hk
          · exact hk
          · split at hk
            · exact haged.incomplete k t hk
            · exact haged.incomplete k t hk
      | expire => exact hkept ((expire_aged o p now).1.incomplete k t hk) rfl id
      | dropPeer peer =>
          simp only [step, egpProtocolDropPeer, lookup_retain, Option.filter_eq_some_iff] at hk
          refine hkept hk.1 rfl ?_
          rintro rfl
          simp at hk
      | dropAll => cases hk

/-! ## Completed requests -/

/-- The request is what the frames of the log, which begins with the first of them,
carry.  In front of it the peer had no transaction on the characteristic, and the one
that it opens is not ended before its last frame; a timeout is excluded by `idle` and
`lifetime`. -/
structure Assembled (sha256 : Bytes → Bytes) (front log : List LogEntry)
    (q : EgpProtocolRequest) : Prop where
  starts : ∃ first rest, contributions q.peerPath q.characteristic log = first :: rest ∧
    first.frame.start = true ∧
    (log.head?.bind (contribution q.peerPath q.characteristic)) = some first ∧
    Vacant sha256 front q.peerPath q.characteristic first.now
  unended : ∀ e ∈ log.dropLast, ¬ Ends q.peerPath q.characteristic e
  fields : ∀ k ∈ contributions q.peerPath q.characteristic log,
    k.frame.transactionId = q.transactionId ∧ k.frame.opcode = q.opcode ∧
      k.frame.total = q.json.length
  bytes : ∀ k ∈ contributions q.peerPath q.characteristic log, ∀ position byte,
    frameAt k.frame position = some byte → q.json[position]? = some byte
  covers : ∀ position < q.json.length,
    ∃ k ∈ contributions q.peerPath q.characteristic log,
      ∃ byte, frameAt k.frame position = some byte
  idle : (contributions q.peerPath q.characteristic log).IsChain
    fun a b => b.now - a.now < egpProtocolIdleTimeoutUs
  lifetime : ∀ a ∈ contributions q.peerPath q.characteristic log,
    ∀ b ∈ contributions q.peerPath q.characteristic log,
      b.now - a.now < egpProtocolLifetimeUs

/-- A transaction that is full is assembled from the frames since its START. -/
theorem assembled_of_gathered {front back : List LogEntry} {t : Incomplete}
    (h : Gathered sha256 front back t) (hstored : Stored t)
    (hcount : t.receivedCount = t.totalLength)
    (hunended : ∀ e ∈ back.dropLast, ¬ Ends t.peerPath t.characteristic e) :
    Assembled sha256 front back t.request := by
  have hlength := hstored.length_json
  obtain ⟨first, rest, hcs, hstart, hnow, hhead⟩ := h.starts
  refine ⟨⟨first, rest, hcs, hstart, hhead, hnow ▸ h.vacant⟩, hunended, fun k hk => ?_,
    fun k hk position byte hb => ?_, fun position hlt => ?_, h.idle, fun a ha b hb => ?_⟩
  · obtain ⟨hid, hopcode, htotal⟩ := h.fields k hk
    exact ⟨hid, hopcode, htotal.trans hlength.symm⟩
  · exact hstored.getElem?_json (h.bytes k hk position byte hb)
  · have hlt : position < t.totalLength := hlength ▸ hlt
    have hbyte : byteAt t position = some (t.data.getD position 0) := by
      rw [byteAt, if_pos (hstored.complete hcount hlt)]
    obtain ⟨k, hk, hkb⟩ := h.covers position _ hbyte
    exact ⟨k, hk, _, hkb⟩
  · have ha' := h.lifetime a ha
    have hb' := h.lifetime b hb
    omega

/-- The request of an answer. -/
theorem completeTransaction_request {o : Visits} {p : EgpProtocol}
    {key : Bytes} {t : Incomplete} {now : Int} {output : EgpProtocolOutput}
    (h : (completeTransaction sha256 o p key t now).2 = .ok output) :
    output = .complete t.request ∨ ∃ cached, output = .replay t.request cached := by
  unfold completeTransaction at h
  simp only at h
  split at h
  · cases h
  · split at h
    · split at h
      · cases h
      · cases h
        exact .inr ⟨_, rfl⟩
    · cases h
      exact .inl rfl

/-! ## Frames for a live transaction -/

/-- A frame for the live transaction of its peer is added to it. -/
theorem assemble_live {p : EgpProtocol} (hp : Tidy p) (o : Visits) {peer : Bytes}
    {c : EgpWritableCharacteristic} {value : Bytes} {now : Int} {frame : Frame} {t : Incomplete}
    (hinput : Acceptable peer now) (hframe : parseFrame c value = .ok frame)
    (hfound : p.incomplete.lookup (incompleteKey peer c) = some t)
    (hlive : t.timedOut now = false) (hid : t.transactionId = frame.transactionId)
    (hopcode : t.opcode = frame.opcode) (htotal : t.totalLength = frame.total) :
    assemble o p peer c value now =
      mergeFrame (egpProtocolExpire o p now) (incompleteKey peer c) t frame now := by
  obtain ⟨hlength, hpath, hnow⟩ := hinput
  have haged := (expire_aged o p now).1
  have hfound' := haged.live _ _ hfound hlive
  obtain ⟨hpeer, hc⟩ := incompleteKey_inj (hp.keyed _ _ hfound)
  have hunmarked := (hp.aged haged).unmarked _ _ hfound'
  rw [← hpeer, ← hc, hid] at hunmarked
  unfold assemble
  rw [if_neg (by simp [hpath]; omega), hframe]
  simp only [hfound, hlive, Bool.false_eq_true, if_false]
  unfold assembleFrame
  simp only [hunmarked, hfound', hid, hopcode, htotal, Option.isSome_none, Bool.false_eq_true,
    if_false, bne_self_eq_false, Bool.or_self]

/-- A fragment that brings nothing new changes nothing. -/
theorem mergeBytes_repeated {t : Incomplete} {position : Nat} {fragment : Bytes}
    (h : ∀ other byte, fragmentAt position fragment other = some byte →
      byteAt t other = some byte) : mergeBytes t position fragment = some t := by
  induction fragment generalizing position with
  | nil => rfl
  | cons byte rest ih =>
      have hfirst := h position byte (by rw [fragmentAt_cons, if_pos rfl])
      rw [mergeBytes_cons, hfirst]
      simp only [bne_self_eq_false, Bool.false_eq_true, if_false]
      apply ih
      intro other b hb
      apply h
      have hbounds := fragmentAt_some hb
      rw [fragmentAt_cons, if_neg (by omega)]
      exact hb

/-- What is refused behind the last frame is not refused as busy. -/
theorem completeTransaction_code {o : Visits} {p : EgpProtocol}
    {key : Bytes} {t : Incomplete} {now : Int} {error : EgpError}
    (h : (completeTransaction sha256 o p key t now).2 = .error error) :
    error.code ≠ .provisioningBusy := by
  unfold completeTransaction at h
  simp only at h
  split at h
  · cases h
    exact (nomatch ·)
  · split at h
    · split at h
      · cases h
        exact (nomatch ·)
      · cases h
    · cases h

/-- Only a whole transaction is answered with a request. -/
theorem request_assembled {log : List LogEntry} {clock now : Int} {p : EgpProtocol}
    (hrun : Run sha256 log clock p) (hlater : clock ≤ now) (o : Visits) {peer : Bytes}
    {c : EgpWritableCharacteristic} {value : Bytes} {q : EgpProtocolRequest}
    {output : EgpProtocolOutput}
    (hok : (egpProtocolAccept sha256 o p peer c value now).2 = .ok output)
    (houtput : output = .complete q ∨ ∃ cached, output = .replay q cached) :
    q.peerPath = peer ∧ q.characteristic = c ∧
      ∃ front back, log ++ [⟨now, .accept peer c value, .accepted (.ok output)⟩] = front ++ back ∧
        Assembled sha256 front back q := by
  have hp := tidy_run hrun
  unfold egpProtocolAccept at hok
  rcases assemble_cases o p peer c value now with ⟨-, error, heq⟩ | ⟨-, frame, hframe, hcases⟩
  · rw [heq] at hok
    cases hok
  · cases hcases with
    | refused r error aged eq =>
        rw [eq] at hok
        cases hok
    | joined r t aged current unmarked joins eq =>
        rw [eq] at hok
        have hr := hp.aged aged
        cases mergeFrame_cases r (incompleteKey peer c) t frame now with
        | conflict error bytes code eq =>
            rw [eq] at hok
            cases hok
        | gap m error bytes ended count code eq =>
            rw [eq] at hok
            cases hok
        | kept m bytes open_ eq =>
            rw [eq] at hok
            cases hok
            rcases houtput with hq | ⟨cached, hq⟩
            · cases hq
            · cases hq
        | whole m bytes ended count eq =>
            rw [eq] at hok
            obtain ⟨hpeer, hc, -, -, htotal⟩ := joins.fields hr
            obtain ⟨hpeer', hc', -, -, htotal', -⟩ := mergeBytes_same bytes
            obtain ⟨hstored, -, front, back, hlog, hunended, hgathered⟩ := joined_recorded hrun
              true output (recorded_run hrun) hlater hframe aged hr joins bytes
            have hq : q = Incomplete.request { m with touchedUs := now, endSeen := true } := by
              rcases completeTransaction_request hok with hrequest | ⟨cached, hrequest⟩
              · rw [hrequest] at houtput
                rcases houtput with hq | ⟨cached, hq⟩
                · cases hq
                  rfl
                · cases hq
              · rw [hrequest] at houtput
                rcases houtput with hq | ⟨cached', hq⟩
                · cases hq
                · cases hq
                  rfl
            rw [hq]
            refine ⟨hpeer'.trans hpeer, hc'.trans hc, front, back ++ [_], by
              rw [hlog, List.append_assoc], ?_⟩
            apply assembled_of_gathered hgathered hstored
            · exact count.trans (htotal'.trans htotal).symm
            · rw [List.dropLast_concat]
              show ∀ e ∈ back, ¬ Ends m.peerPath m.characteristic e
              rw [hpeer', hc', hpeer, hc]
              exact hunended

/-- A frame for a live transaction that brings nothing new. -/
theorem accept_repeated {p : EgpProtocol} {o : Visits} {peer : Bytes}
    {c : EgpWritableCharacteristic} {value : Bytes} {now : Int} {frame : Frame} {t : Incomplete}
    (hassemble : assemble o p peer c value now =
      mergeFrame (egpProtocolExpire o p now) (incompleteKey peer c) t frame now)
    (hopen : t.endSeen = false) (hfinish : frame.finish = false)
    (hrepeated : ∀ position byte, frameAt frame position = some byte →
      byteAt t position = some byte) :
    egpProtocolAccept sha256 o p peer c value now =
      ({ egpProtocolExpire o p now with
        incomplete := (egpProtocolExpire o p now).incomplete.insert (incompleteKey peer c)
          { t with touchedUs := now } }, .ok .incomplete) := by
  have hmerge := mergeBytes_repeated hrepeated
  unfold egpProtocolAccept
  rw [hassemble]
  unfold mergeFrame
  simp only [hmerge, hopen, hfinish, Bool.or_self, Bool.false_and, Bool.false_eq_true, if_false,
    Bool.not_false, if_true]

/-- A frame for a live transaction that contradicts it, or ends it too early. -/
theorem accept_discards {p : EgpProtocol} {o : Visits} {peer : Bytes}
    {c : EgpWritableCharacteristic} {value : Bytes} {now : Int} {frame : Frame} {t : Incomplete}
    (hassemble : assemble o p peer c value now =
      mergeFrame (egpProtocolExpire o p now) (incompleteKey peer c) t frame now)
    (hstored : Stored t) (hframe : parseFrame c value = .ok frame)
    (htotal : t.totalLength = frame.total)
    (hbad : (∃ position stored byte, byteAt t position = some stored ∧
        frameAt frame position = some byte ∧ stored ≠ byte) ∨
      (frame.finish = true ∧ ∃ position < t.totalLength,
        byteAt t position = none ∧ frameAt frame position = none)) :
    (∃ error, (egpProtocolAccept sha256 o p peer c value now).2 = .error error ∧
        error.code = .bleFragmentConflict) ∧
      (egpProtocolAccept sha256 o p peer c value now).1.incomplete.lookup
        (incompleteKey peer c) = none := by
  obtain ⟨-, hfits⟩ := parseFrame_ok hframe
  have hgone : ∀ q : EgpProtocol, (q.incomplete.erase (incompleteKey peer c)).lookup
      (incompleteKey peer c) = none := fun q => AList.lookup_erase _ _
  -- a fragment that is taken leaves the gap where it is
  have hnot : ∀ m, mergeBytes t frame.offset frame.fragment = some m →
      frame.finish = true ∧ m.receivedCount ≠ frame.total := by
    intro m hmerge
    rcases hbad with hconflict | ⟨hfinish, position, hlt, hnone, hnone'⟩
    · rw [(mergeBytes_none_iff hstored (by omega)).mpr hconflict] at hmerge
      cases hmerge
    · refine ⟨hfinish, fun hcount => ?_⟩
      obtain ⟨hm, hbytes⟩ := mergeBytes_some hmerge hstored (by omega)
      have htotal' := (mergeBytes_same hmerge).2.2.2.2.1
      have hreceived := hm.complete (hcount.trans (htotal'.trans htotal).symm)
        (htotal'.symm ▸ hlt)
      have hempty : byteAt m position = none := by
        rw [(hbytes position).1, hnone, show fragmentAt _ _ position = none from hnone']
        rfl
      rw [byteAt, if_pos hreceived] at hempty
      cases hempty
  unfold egpProtocolAccept
  rw [hassemble]
  cases mergeFrame_cases (egpProtocolExpire o p now) (incompleteKey peer c) t frame now with
  | conflict error bytes code eq =>
      rw [eq]
      exact ⟨⟨error, rfl, code⟩, hgone _⟩
  | gap m error bytes ended count code eq =>
      rw [eq]
      exact ⟨⟨error, rfl, code⟩, hgone _⟩
  | kept m bytes open_ eq =>
      rw [(hnot m bytes).1, Bool.or_true] at open_
      cases open_
  | whole m bytes ended count eq => exact absurd count (hnot m bytes).2

/-- A frame that is refused as busy. -/
theorem accept_busy {p : EgpProtocol} {o : Visits} {peer : Bytes}
    {c : EgpWritableCharacteristic} {value : Bytes} {now : Int} {error : EgpError}
    (h : (egpProtocolAccept sha256 o p peer c value now).2 = .error error)
    (hcode : error.code = .provisioningBusy) {k : Bytes} {t : Incomplete}
    (hk : p.incomplete.lookup k = some t) (hlive : t.timedOut now = false) :
    (egpProtocolAccept sha256 o p peer c value now).1.incomplete.lookup k = some t := by
  unfold egpProtocolAccept at h ⊢
  rcases assemble_cases o p peer c value now with ⟨-, error', heq⟩ | ⟨-, frame, -, hcases⟩
  · rw [heq]
    exact hk
  · cases hcases with
    | refused q error' aged eq =>
        rw [eq]
        exact aged.live k t hk hlive
    | joined q t₀ aged current unmarked joins eq =>
        rw [eq] at h
        cases mergeFrame_cases q (incompleteKey peer c) t₀ frame now with
        | conflict error' bytes code eq =>
            rw [eq] at h
            cases h
            rw [code] at hcode
            cases hcode
        | gap m error' bytes ended count code eq =>
            rw [eq] at h
            cases h
            rw [code] at hcode
            cases hcode
        | kept m bytes open_ eq =>
            rw [eq] at h
            cases h
        | whole m bytes ended count eq =>
            rw [eq] at h
            exact absurd hcode (completeTransaction_code h)

/-- In every run, for every next frame: a completed request is what the frames of its
transaction carry, from the one that opened it on; a frame that repeats bytes changes
the time alone; one that contradicts a byte, or ends a request with a gap, takes the
transaction away; one with a wrong header changes nothing; and one that is refused as
busy leaves every live transaction alone. -/
theorem reassembly_sound (sha256 : Bytes → Bytes) (log : List LogEntry) (clock : Int)
    (p : EgpProtocol) (hrun : Run sha256 log clock p) (o : Visits) (now : Int)
    (hlater : clock ≤ now) (peer : Bytes) (c : EgpWritableCharacteristic) (value : Bytes) :
    let s := egpProtocolAccept sha256 o p peer c value now
    (∀ q, (s.2 = .ok (.complete q) ∨ ∃ cached, s.2 = .ok (.replay q cached)) →
      q.peerPath = peer ∧ q.characteristic = c ∧
        ∃ front back, log ++ [⟨now, .accept peer c value, .accepted s.2⟩] = front ++ back ∧
          Assembled sha256 front back q) ∧
    (∀ frame t, Acceptable peer now → parseFrame c value = .ok frame →
      p.incomplete.lookup (incompleteKey peer c) = some t → t.timedOut now = false →
      t.transactionId = frame.transactionId → t.opcode = frame.opcode →
      t.totalLength = frame.total →
      (frame.finish = false →
        (∀ position byte, frameAt frame position = some byte → byteAt t position = some byte) →
        s = ({ egpProtocolExpire o p now with
          incomplete := (egpProtocolExpire o p now).incomplete.insert (incompleteKey peer c)
            { t with touchedUs := now } }, .ok .incomplete)) ∧
      ((∃ position stored byte, byteAt t position = some stored ∧
            frameAt frame position = some byte ∧ stored ≠ byte) ∨
          (frame.finish = true ∧ ∃ position < t.totalLength,
            byteAt t position = none ∧ frameAt frame position = none) →
        (∃ error, s.2 = .error error ∧ error.code = .bleFragmentConflict) ∧
          s.1.incomplete.lookup (incompleteKey peer c) = none)) ∧
    (¬ Acceptable peer now ∨ (∃ error, parseFrame c value = .error error) → s.1 = p) ∧
    (∀ error, s.2 = .error error → error.code = .provisioningBusy →
      ∀ k t, p.incomplete.lookup k = some t → t.timedOut now = false →
        s.1.incomplete.lookup k = some t) := by
  have hp := tidy_run hrun
  have hrecorded := recorded_run hrun
  intro s
  refine ⟨fun q hq => ?_, fun frame t hinput hframe hfound hlive hid hopcode htotal => ?_,
    fun hheader => ?_, fun error herror hcode k t hk hlive => accept_busy herror hcode hk hlive⟩
  · rcases hq with hq | ⟨cached, hq⟩
    · rw [hq]
      exact request_assembled hrun hlater o hq (.inl rfl)
    · rw [hq]
      exact request_assembled hrun hlater o hq (.inr ⟨cached, rfl⟩)
  · have hassemble := assemble_live hp o hinput hframe hfound hlive hid hopcode htotal
    have hrecord := hrecorded _ _ hfound
    exact ⟨accept_repeated hassemble hrecord.endSeen,
      accept_discards hassemble hrecord.stored hframe htotal⟩
  · show (egpProtocolAccept sha256 o p peer c value now).1 = p
    unfold egpProtocolAccept
    rcases assemble_cases o p peer c value now with ⟨-, error, heq⟩ | ⟨hinput, frame, hframe, -⟩
    · rw [heq]
    · rcases hheader with hnot | ⟨error, herror⟩
      · exact absurd hinput hnot
      · rw [hframe] at herror
        cases herror

/-! ### A request in two frames -/

/-- The state behind the first frame. -/
def sampleState : EgpProtocol :=
  (step sampleDigest .plain egpProtocolNew 1000
    (.accept samplePeer .provisioning (sampleFrame 1 0 "\x7b"))).1

/-- Two frames of one byte each. -/
theorem reassembly_sound_two_frames :
    ∃ q, (egpProtocolAccept sampleDigest .plain sampleState samplePeer .provisioning
        (sampleFrame 2 1 "\x7d") 1200).2 = .ok (.complete q) ∧ q.json = ascii "\x7b\x7d" ∧
      ∃ front back,
        [⟨1000, .accept samplePeer .provisioning (sampleFrame 1 0 "\x7b"),
            .accepted (.ok .incomplete)⟩,
          ⟨1200, .accept samplePeer .provisioning (sampleFrame 2 1 "\x7d"),
            .accepted (.ok (.complete q))⟩] = front ++ back ∧
          Assembled sampleDigest front back q := by
  have hfirst : (step sampleDigest .plain egpProtocolNew 1000
      (.accept samplePeer .provisioning (sampleFrame 1 0 "\x7b"))).2 =
        .accepted (.ok .incomplete) := by
    show Reply.accepted _ = _
    exact congrArg Reply.accepted (by decide +kernel)
  have hsecond : (egpProtocolAccept sampleDigest .plain sampleState samplePeer .provisioning
      (sampleFrame 2 1 "\x7d") 1200).2 = .ok (.complete
        ⟨samplePeer, .provisioning, ⟨1 :: List.replicate 15 0, by decide⟩, 0, 0, 3,
          ascii "\x7b\x7d"⟩) := by
    decide +kernel
  have hrun : Run sampleDigest [⟨1000, .accept samplePeer .provisioning (sampleFrame 1 0 "\x7b"),
      .accepted (.ok .incomplete)⟩] 1000 sampleState := by
    rw [← hfirst]
    exact .step .start .plain (by decide) _
  have hsound := (reassembly_sound sampleDigest _ 1000 sampleState hrun .plain 1200 (by decide)
    samplePeer .provisioning (sampleFrame 2 1 "\x7d")).1 _ (.inl hsecond)
  rw [hsecond] at hsound
  exact ⟨_, hsecond, rfl, hsound.2.2⟩

end EdgeGuard.Provisioning.ProtocolReassembly
