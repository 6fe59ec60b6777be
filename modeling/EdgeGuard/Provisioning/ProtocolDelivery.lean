import EdgeGuard.Provisioning.FrameFormat
import EdgeGuard.Provisioning.ProtocolReassembly

/-!
# Delivery of requests

A peer that sends a request in pieces, in any order and with repetitions, but in time
and without a gap, has it delivered as it is, whatever arrives in between from other
peers, on the other characteristic or under other identifiers.

## Main results

* `held_course` — what the daemon holds of a message on its way.
* `delivery` — the answer to every next piece of a message.
-/

namespace EdgeGuard.Provisioning.ProtocolDelivery

open EdgeGuard.Base.CText EdgeGuard.Base.HashTable
open EdgeGuard.Provisioning.Model EdgeGuard.Provisioning.Protocol
open EdgeGuard.Provisioning.ProtocolRun EdgeGuard.Provisioning.ProtocolReassembly
open EdgeGuard.Provisioning.FrameFormat

/-! ## Messages and their pieces -/

/-- A request, as its peer sends it. -/
structure Message where
  peer : Bytes
  characteristic : EgpWritableCharacteristic
  id : TransactionId
  opcode : UInt8
  json : Bytes

structure Message.Valid (m : Message) : Prop where
  short : m.peer.length < egpDbusPathCap
  path : isObjectPath m.peer = true
  allowed : opcodeAllowed m.characteristic m.opcode = true
  nonzero : transactionIdNonzero m.id.1 = true
  fits : m.json.length ≤ egpProtocolMaxJson

/-- A stretch of the message, with the flags that it is sent with. -/
structure Piece where
  start : Bool
  finish : Bool
  offset : Nat
  count : Nat

structure Message.Fits (m : Message) (piece : Piece) : Prop where
  room : piece.offset + piece.count ≤ m.json.length
  start : piece.start = true → piece.offset = 0
  finish : piece.finish = true → piece.offset + piece.count = m.json.length

def Message.frame (m : Message) (piece : Piece) : Frame where
  opcode := m.opcode
  start := piece.start
  finish := piece.finish
  transactionId := m.id
  total := m.json.length
  offset := piece.offset
  fragment := (m.json.drop piece.offset).take piece.count

def Message.key (m : Message) : Bytes := incompleteKey m.peer m.characteristic

/-- The key of the message among the completed and the expired ones. -/
def Message.mark (m : Message) : Bytes := completedKey m.peer m.characteristic m.id

def Message.request (m : Message) : EgpProtocolRequest where
  peerPath := m.peer
  characteristic := m.characteristic
  transactionId := m.id
  windowEpoch := 0
  connectionEpoch := 0
  opcode := m.opcode
  json := m.json

/-- The digest under which the message is remembered. -/
def Message.digest (sha256 : Bytes → Bytes) (m : Message) : Bytes :=
  sha256 (digestInput m.peer m.characteristic m.opcode m.json)

/-- One of the pieces has the position. -/
def Covered (sent : List Piece) (position : Nat) : Prop :=
  ∃ piece ∈ sent, piece.offset ≤ position ∧ position < piece.offset + piece.count

/-- The times of a transaction have not run out. -/
def InTime (created touched now : Int) : Prop :=
  now - touched < egpProtocolIdleTimeoutUs ∧ now - created < egpProtocolLifetimeUs

/-- The next piece comes when there is room for it or, behind the first, in time. -/
def Timely (o : Visits) (p : EgpProtocol) (sent : List Piece) (created touched now : Int)
    (piece : Piece) : Prop :=
  if sent = [] then
    piece.start = true ∧ size (egpProtocolExpire o p now).incomplete < egpProtocolMaxIncomplete
  else InTime created touched now

/-- What else is called does not concern the message: it is for another key, or a frame
with another header for a transaction that is there. -/
inductive Message.Foreign (m : Message) (sent : List Piece) : Event → Prop
  | elsewhere (peer : Bytes) (c : EgpWritableCharacteristic) (value : Bytes)
      (other : peer ≠ m.peer ∨ c ≠ m.characteristic) : m.Foreign sent (.accept peer c value)
  | malformed (peer : Bytes) (c : EgpWritableCharacteristic) (value : Bytes) (error : EgpError)
      (refused : parseFrame c value = .error error) : m.Foreign sent (.accept peer c value)
  | stray (peer : Bytes) (c : EgpWritableCharacteristic) (value : Bytes) (frame : Frame)
      (parsed : parseFrame c value = .ok frame) (underway : sent ≠ [])
      (differs : frame.transactionId ≠ m.id ∨ frame.opcode ≠ m.opcode ∨
        frame.total ≠ m.json.length) : m.Foreign sent (.accept peer c value)
  | cacheResultId (peer : Bytes) (c : EgpWritableCharacteristic) (id : TransactionId)
      (result : Bytes) : m.Foreign sent (.cacheResultId peer c id result)
  | expire : m.Foreign sent .expire
  | dropPeer (peer : Bytes) (other : peer ≠ m.peer) : m.Foreign sent (.dropPeer peer)

/-- The states in which some pieces of the message have been sent, none of them the
last; the times are those of the first and of the latest piece, and of the latest call. -/
inductive Course (sha256 : Bytes → Bytes) (m : Message) :
    List Piece → Int → Int → Int → EgpProtocol → Prop
  | ready {log : List LogEntry} {clock : Int} {p : EgpProtocol} (run : Run sha256 log clock p)
      (idle : p.incomplete.lookup m.key = none) (unmarked : p.expired.lookup m.mark = none) :
      Course sha256 m [] clock clock clock p
  | piece {sent : List Piece} {created touched clock : Int} {p : EgpProtocol}
      (h : Course sha256 m sent created touched clock p) (o : Visits) {now : Int}
      (later : clock ≤ now) (positive : 0 < now) (piece : Piece) (fits : m.Fits piece)
      (timely : Timely o p sent created touched now piece) (goes_on : piece.finish = false) :
      Course sha256 m (sent ++ [piece]) (if sent = [] then now else created) now now
        (ProtocolRun.step sha256 o p now
          (.accept m.peer m.characteristic (encodeFrame (m.frame piece)))).1
  | other {sent : List Piece} {created touched clock : Int} {p : EgpProtocol}
      (h : Course sha256 m sent created touched clock p) (o : Visits) {now : Int}
      (later : clock ≤ now) (event : Event) (foreign : m.Foreign sent event) :
      Course sha256 m sent created touched now (ProtocolRun.step sha256 o p now event).1

/-- A piece that fits a valid message makes a well-formed frame. -/
theorem Message.Valid.wellFormed {m : Message} (hm : m.Valid) {piece : Piece}
    (h : m.Fits piece) : WellFormed m.characteristic (m.frame piece) := by
  have hroom := h.room
  have hlength : (m.frame piece).fragment.length = piece.count := by
    show ((m.json.drop piece.offset).take piece.count).length = piece.count
    rw [List.length_take, List.length_drop]
    omega
  refine ⟨hm.allowed, hm.fits, ?_, hm.nonzero, h.start, fun hfinish => ?_⟩
  · rw [hlength]
    exact hroom
  · rw [hlength]
    exact h.finish hfinish

/-- The bytes of a piece are those of the message. -/
theorem frameAt_frame (m : Message) (piece : Piece) (position : Nat) :
    frameAt (m.frame piece) position =
      if piece.offset ≤ position ∧ position < piece.offset + piece.count then m.json[position]?
      else none := by
  show (if piece.offset ≤ position then
    ((m.json.drop piece.offset).take piece.count)[position - piece.offset]? else none) = _
  by_cases hle : piece.offset ≤ position
  · rw [if_pos hle, List.getElem?_take, List.getElem?_drop, Nat.add_sub_cancel' hle]
    by_cases hlt : position < piece.offset + piece.count
    · rw [if_pos (by omega), if_pos ⟨hle, hlt⟩]
    · rw [if_neg (by omega), if_neg (fun h => hlt h.2)]
  · rw [if_neg hle, if_neg (fun h => hle h.1)]

/-! ## What is held -/

/-- The transaction holds the pieces that were sent, and nothing else. -/
structure Holds (m : Message) (sent : List Piece) (t : Incomplete) : Prop where
  id : t.transactionId = m.id
  opcode : t.opcode = m.opcode
  total : t.totalLength = m.json.length
  peer : t.peerPath = m.peer
  characteristic : t.characteristic = m.characteristic
  stored : Stored t
  bytes : ∀ position byte, byteAt t position = some byte → m.json[position]? = some byte
  covered : ∀ position, (byteAt t position).isSome = true ↔ Covered sent position

/-- What the daemon holds of a message on its way. -/
structure Held (sha256 : Bytes → Bytes) (m : Message) (sent : List Piece)
    (created touched clock : Int) (p : EgpProtocol) : Prop where
  reached : ∃ log, Run sha256 log clock p
  before : sent = [] → p.incomplete.lookup m.key = none ∧ p.expired.lookup m.mark = none
  underway : sent ≠ [] → InTime created touched clock →
    ∃ t, p.incomplete.lookup m.key = some t ∧ t.createdUs = created ∧ t.touchedUs = touched ∧
      t.endSeen = false ∧ Holds m sent t

theorem not_timedOut_iff {t : Incomplete} {now : Int} :
    t.timedOut now = false ↔ InTime t.createdUs t.touchedUs now := by
  simp [Incomplete.timedOut, InTime]

theorem InTime.earlier {created touched clock now : Int} (h : InTime created touched now)
    (hlater : clock ≤ now) : InTime created touched clock :=
  ⟨Int.lt_of_le_of_lt (Int.sub_le_sub_right hlater _) h.1,
    Int.lt_of_le_of_lt (Int.sub_le_sub_right hlater _) h.2⟩

theorem covered_append (sent : List Piece) (piece : Piece) (position : Nat) :
    Covered (sent ++ [piece]) position ↔
      (piece.offset ≤ position ∧ position < piece.offset + piece.count) ∨
        Covered sent position := by
  simp [Covered, or_and_right, exists_or, or_comm]

/-- Time alone brings the peer no transaction, and the message no marker. -/
theorem absent_aged {m : Message} {p q : EgpProtocol} {now : Int} (hp : Tidy p)
    (hq : Aged now p q) (hidle : p.incomplete.lookup m.key = none)
    (hunmarked : p.expired.lookup m.mark = none) :
    q.incomplete.lookup m.key = none ∧ q.expired.lookup m.mark = none := by
  constructor
  · rw [Option.eq_none_iff_forall_ne_some]
    intro t ht
    rw [hq.incomplete _ t ht] at hidle
    cases hidle
  · by_contra hmarked
    rcases hq.expired m.mark (by simpa [Option.isSome_iff_ne_none] using hmarked) with
      hold | ⟨k, t, hk, -, heq⟩
    · rw [hunmarked] at hold
      cases hold
    · -- only a transaction of the same peer leaves the marker
      obtain ⟨hpeer, hc, -⟩ := completedKey_inj heq
      have hkey := hp.keyed k t hk
      rw [← hpeer, ← hc] at hkey
      rw [show p.incomplete.lookup k = none from hkey ▸ hidle] at hk
      cases hk

/-- A frame changes nothing but what time does and its own key. -/
theorem accept_aged (sha256 : Bytes → Bytes) (o : Visits) (p : EgpProtocol) (peer : Bytes)
    (c : EgpWritableCharacteristic) (value : Bytes) (now : Int) :
    ∃ q, Aged now p q ∧ (egpProtocolAccept sha256 o p peer c value now).1.expired = q.expired ∧
      ∀ k ≠ incompleteKey peer c,
        (egpProtocolAccept sha256 o p peer c value now).1.incomplete.lookup k =
          q.incomplete.lookup k := by
  unfold egpProtocolAccept
  rcases assemble_cases o p peer c value now with ⟨-, error, heq⟩ | ⟨-, frame, -, hcases⟩
  · rw [heq]
    exact ⟨p, .refl now p, rfl, fun k _ => rfl⟩
  · cases hcases with
    | refused q error aged eq =>
        rw [eq]
        exact ⟨q, aged, rfl, fun k _ => rfl⟩
    | joined q t aged current unmarked joins eq =>
        rw [eq]
        refine ⟨q, aged, ?_⟩
        cases mergeFrame_cases q (incompleteKey peer c) t frame now with
        | conflict error bytes code eq =>
            rw [eq]
            exact ⟨rfl, fun k hk => AList.lookup_erase_ne hk⟩
        | gap m error bytes ended count code eq =>
            rw [eq]
            exact ⟨rfl, fun k hk => AList.lookup_erase_ne hk⟩
        | kept m bytes open_ eq =>
            rw [eq]
            exact ⟨rfl, fun k hk => AList.lookup_insert_ne hk⟩
        | whole m bytes ended count eq =>
            rw [eq]
            obtain ⟨completed, hstate⟩ := completeTransaction_state sha256 o q
              (incompleteKey peer c) { m with touchedUs := now, endSeen := true } now
            simp only [hstate]
            exact ⟨trivial, fun k hk => AList.lookup_erase_ne hk⟩

/-- What a call leaves of a message on its way. -/
structure Spares (m : Message) (now : Int) (p q : EgpProtocol) : Prop where
  before : p.incomplete.lookup m.key = none → p.expired.lookup m.mark = none →
    q.incomplete.lookup m.key = none ∧ q.expired.lookup m.mark = none
  live : ∀ t, p.incomplete.lookup m.key = some t → t.timedOut now = false →
    t.transactionId = m.id → t.opcode = m.opcode → t.totalLength = m.json.length →
    q.incomplete.lookup m.key = some t

theorem Spares.refl (m : Message) (now : Int) (p : EgpProtocol) : Spares m now p p :=
  ⟨fun hidle hunmarked => ⟨hidle, hunmarked⟩, fun _ ht _ _ _ _ => ht⟩

theorem spares_aged {m : Message} {p q : EgpProtocol} {now : Int} (hp : Tidy p)
    (hq : Aged now p q) : Spares m now p q :=
  ⟨absent_aged hp hq, fun t ht hlive _ _ _ => hq.live _ t ht hlive⟩

/-- A frame for another key. -/
theorem spares_elsewhere {sha256 : Bytes → Bytes} {m : Message} {p : EgpProtocol} (hp : Tidy p)
    (o : Visits) {peer : Bytes} {c : EgpWritableCharacteristic} (value : Bytes) (now : Int)
    (hother : peer ≠ m.peer ∨ c ≠ m.characteristic) :
    Spares m now p (egpProtocolAccept sha256 o p peer c value now).1 := by
  obtain ⟨q, haged, hexpired, hkeys⟩ := accept_aged sha256 o p peer c value now
  have hkey := hkeys m.key fun heq => by
    obtain ⟨hpeer, hc⟩ := incompleteKey_inj heq
    rcases hother with hne | hne
    · exact hne hpeer.symm
    · exact hne hc.symm
  have hspares := spares_aged (m := m) hp haged
  constructor
  · rw [hkey, hexpired]
    exact hspares.before
  · rw [hkey]
    exact hspares.live

/-- A frame with another header for the transaction of the message. -/
theorem live_stray {sha256 : Bytes → Bytes} {m : Message} {p : EgpProtocol} (o : Visits)
    {peer : Bytes} {c : EgpWritableCharacteristic} {value : Bytes} {now : Int} {frame : Frame}
    (hframe : parseFrame c value = .ok frame)
    (hdiffers : frame.transactionId ≠ m.id ∨ frame.opcode ≠ m.opcode ∨
      frame.total ≠ m.json.length) {t : Incomplete}
    (hfound : p.incomplete.lookup (incompleteKey peer c) = some t)
    (hlive : t.timedOut now = false) (hid : t.transactionId = m.id) (hopcode : t.opcode = m.opcode)
    (htotal : t.totalLength = m.json.length) :
    (egpProtocolAccept sha256 o p peer c value now).1.incomplete.lookup (incompleteKey peer c) =
      some t := by
  unfold egpProtocolAccept
  rcases assemble_cases o p peer c value now with ⟨-, error, heq⟩ | ⟨-, frame', hframe', hcases⟩
  · rw [heq]
    exact hfound
  · rw [hframe] at hframe'
    cases hframe'
    cases hcases with
    | refused q error aged eq =>
        rw [eq]
        exact aged.live _ t hfound hlive
    | joined q t' aged current unmarked joins eq =>
        have hq := aged.live _ t hfound hlive
        cases joins with
        | live found current id opcode total =>
            rw [hq] at found
            cases found
            rw [← id, ← opcode, ← total] at hdiffers
            tauto
        | opened absent start fresh =>
            rw [hq] at absent
            cases absent

/-- What does not concern a message spares it. -/
theorem spares_foreign (sha256 : Bytes → Bytes) {m : Message} {sent : List Piece}
    {p : EgpProtocol} (hp : Tidy p) (o : Visits) (now : Int) {event : Event}
    (h : m.Foreign sent event) (hbefore : sent = [] ∨ ∃ t, p.incomplete.lookup m.key = some t) :
    Spares m now p (step sha256 o p now event).1 := by
  cases h with
  | elsewhere peer c value other => exact spares_elsewhere hp o value now other
  | malformed peer c value error refused =>
      show Spares m now p (egpProtocolAccept sha256 o p peer c value now).1
      unfold egpProtocolAccept
      rcases assemble_cases o p peer c value now with ⟨-, error', heq⟩ | ⟨-, frame, hframe, -⟩
      · rw [heq]
        exact .refl m now p
      · rw [refused] at hframe
        cases hframe
  | stray peer c value frame parsed underway differs =>
      obtain ⟨t, ht⟩ := hbefore.resolve_left underway
      by_cases hkey : peer = m.peer ∧ c = m.characteristic
      · obtain ⟨rfl, rfl⟩ := hkey
        constructor
        · intro hidle
          rw [ht] at hidle
          cases hidle
        · intro t' ht' hlive hid hopcode htotal
          exact live_stray o parsed differs ht' hlive hid hopcode htotal
      · exact spares_elsewhere hp o value now (by tauto)
  | cacheResultId peer c id result =>
      have hspares := spares_aged (m := m) hp (expire_aged o p now).1
      show Spares m now p (egpProtocolCacheResultId o p peer c id result now).1
      unfold egpProtocolCacheResultId
      split
      · exact .refl m now p
      · simp only
        split
        · exact hspares
        · exact ⟨hspares.before, hspares.live⟩
  | expire => exact spares_aged hp (expire_aged o p now).1
  | dropPeer peer other =>
      constructor
      · intro hidle hunmarked
        simp [step, egpProtocolDropPeer, lookup_retain, hidle, hunmarked]
      · intro t ht _ _ _ _
        have hpeer : t.peerPath ≠ peer := by
          have hkey := hp.keyed _ t ht
          rw [← (incompleteKey_inj hkey).1]
          exact other.symm
        simp [step, egpProtocolDropPeer, lookup_retain, ht, hpeer]

/-! ## The next piece -/

/-- What the daemon adds the next piece to. -/
structure Target (m : Message) (sent : List Piece) (o : Visits) (p : EgpProtocol) (piece : Piece)
    (now : Int) (t : Incomplete) : Prop where
  eq : assemble o p m.peer m.characteristic (encodeFrame (m.frame piece)) now =
    mergeFrame (egpProtocolExpire o p now) m.key t (m.frame piece) now
  open_ : t.endSeen = false
  holds : Holds m sent t

/-- The first piece opens a transaction. -/
theorem assemble_open {m : Message} (hm : m.Valid) {p : EgpProtocol} (hp : Tidy p) (o : Visits)
    {now : Int} (hnow : 0 < now) {piece : Piece} (hfits : m.Fits piece)
    (hidle : p.incomplete.lookup m.key = none) (hunmarked : p.expired.lookup m.mark = none)
    (hstart : piece.start = true)
    (hroom : size (egpProtocolExpire o p now).incomplete < egpProtocolMaxIncomplete) :
    Target m [] o p piece now (.fresh m.peer m.characteristic (m.frame piece) now) := by
  have hframe := parseFrame_encodeFrame (hm.wellFormed hfits)
  obtain ⟨hidle', hunmarked'⟩ := absent_aged hp (expire_aged o p now).1 hidle hunmarked
  unfold Message.key at hidle hidle'
  change (egpProtocolExpire o p now).expired.lookup
    (completedKey m.peer m.characteristic (m.frame piece).transactionId) = none at hunmarked'
  have hpath := hm.path
  have hshort := hm.short
  have hstart' : (m.frame piece).start = true := hstart
  refine ⟨?_, rfl, ⟨rfl, rfl, rfl, rfl, rfl, stored_fresh _ _ _ hm.fits, ?_, ?_⟩⟩
  · unfold assemble
    rw [if_neg (by simp [hpath]; omega), hframe]
    simp only [hidle]
    unfold assembleFrame
    simp only [hunmarked', hidle', hstart', Option.isSome_none, Bool.false_eq_true,
      Bool.not_true, if_false]
    rw [if_neg (Nat.not_le.mpr hroom)]
    rfl
  · intro position byte hbyte
    rw [byteAt_fresh] at hbyte
    cases hbyte
  · intro position
    rw [byteAt_fresh]
    simp [Covered]

/-- Every next piece finds what was sent before it. -/
theorem target_of_held {sha256 : Bytes → Bytes} {m : Message} (hm : m.Valid) {sent : List Piece}
    {created touched clock now : Int} {p : EgpProtocol}
    (h : Held sha256 m sent created touched clock p) (o : Visits) (hlater : clock ≤ now)
    (hnow : 0 < now) {piece : Piece} (hfits : m.Fits piece)
    (htimely : Timely o p sent created touched now piece) :
    ∃ t, Target m sent o p piece now t ∧ t.createdUs = if sent = [] then now else created := by
  obtain ⟨log, hrun⟩ := h.reached
  have hp := tidy_run hrun
  unfold Timely at htimely
  by_cases hsent : sent = []
  · rw [if_pos hsent] at htimely ⊢
    obtain ⟨hidle, hunmarked⟩ := h.before hsent
    subst hsent
    exact ⟨_, assemble_open hm hp o hnow hfits hidle hunmarked htimely.1 htimely.2, rfl⟩
  · rw [if_neg hsent] at htimely ⊢
    obtain ⟨t, hfound, hcreated, htouched, hopen, hholds⟩ :=
      h.underway hsent (htimely.earlier hlater)
    refine ⟨t, ⟨?_, hopen, hholds⟩, hcreated⟩
    exact assemble_live hp o ⟨hm.short, hm.path, hnow⟩
      (parseFrame_encodeFrame (hm.wellFormed hfits)) hfound
      (not_timedOut_iff.mpr (hcreated.symm ▸ htouched.symm ▸ htimely)) hholds.id hholds.opcode
      hholds.total

/-- The piece is added, whatever of it was there. -/
theorem merge_holds {m : Message} {sent : List Piece} {t : Incomplete} (h : Holds m sent t)
    {piece : Piece} (hfits : m.Fits piece) :
    ∃ t', mergeBytes t (m.frame piece).offset (m.frame piece).fragment = some t' ∧
      Holds m (sent ++ [piece]) t' := by
  have hpiece := frameAt_frame m piece
  have hroom : (m.frame piece).offset + (m.frame piece).fragment.length ≤ t.totalLength := by
    have hroom := hfits.room
    rw [h.total]
    show piece.offset + ((m.json.drop piece.offset).take piece.count).length ≤ m.json.length
    rw [List.length_take, List.length_drop]
    omega
  cases hmerge : mergeBytes t (m.frame piece).offset (m.frame piece).fragment with
  | none =>
      obtain ⟨position, stored, byte, hstored, hbyte, hne⟩ :=
        (mergeBytes_none_iff h.stored hroom).mp hmerge
      have hjson := h.bytes position stored hstored
      rw [show fragmentAt _ _ position = _ from hpiece position] at hbyte
      split at hbyte
      · rw [hjson] at hbyte
        exact absurd (Option.some.inj hbyte) hne
      · cases hbyte
  | some t' =>
      obtain ⟨hstored, hbytes⟩ := mergeBytes_some hmerge h.stored hroom
      obtain ⟨hpeer, hc, hid, hopcode, htotal, -, -⟩ := mergeBytes_same hmerge
      have hbyte : ∀ position, byteAt t' position =
          (if piece.offset ≤ position ∧ position < piece.offset + piece.count then
            m.json[position]? else none).or (byteAt t position) := by
        intro position
        rw [(hbytes position).1, show fragmentAt _ _ position = _ from hpiece position]
      refine ⟨t', rfl, hid.trans h.id, hopcode.trans h.opcode, htotal.trans h.total,
        hpeer.trans h.peer, hc.trans h.characteristic, hstored, fun position byte hb => ?_,
        fun position => ?_⟩
      · rw [hbyte] at hb
        rcases Option.or_eq_some_iff.mp hb with hb | ⟨-, hb⟩
        · split at hb
          · exact hb
          · cases hb
        · exact h.bytes position byte hb
      · rw [hbyte, Option.isSome_or, Bool.or_eq_true, h.covered, covered_append]
        apply or_congr_left
        split
        · rename_i hin
          have hroom := hfits.room
          have hlt : position < m.json.length := by omega
          simp [hin, hlt]
        · rename_i hout
          simp [hout]

/-- The times and the flag of the end do not matter for what is held. -/
theorem Holds.touch {m : Message} {sent : List Piece} {t : Incomplete} (h : Holds m sent t)
    (touchedUs : Int) (endSeen : Bool) : Holds m sent { t with touchedUs, endSeen } :=
  ⟨h.id, h.opcode, h.total, h.peer, h.characteristic,
    ⟨h.stored.total, h.stored.data, h.stored.received, h.stored.count, h.stored.bound⟩,
    h.bytes, h.covered⟩

/-- The counter is the length of the message exactly when no position is missing. -/
theorem Holds.count_iff {m : Message} {sent : List Piece} {t : Incomplete} (h : Holds m sent t) :
    t.receivedCount = m.json.length ↔ ∀ position < m.json.length, Covered sent position := by
  have hsome : ∀ position, t.received.getD position false = true ↔ Covered sent position := by
    intro position
    rw [← h.covered, byteAt]
    split
    · simp_all
    · simp_all
  rw [← h.total]
  constructor
  · intro hcount position hlt
    rw [← hsome]
    exact h.stored.complete hcount hlt
  · intro hall
    have htotal : t.totalLength ≤ t.received.length := h.stored.received ▸ h.stored.total
    have hlength : (t.received.take t.totalLength).length = t.totalLength := by
      rw [List.length_take]
      exact Nat.min_eq_left htotal
    have hfront : (t.received.take t.totalLength).count true = t.totalLength := by
      refine (List.count_eq_length.mpr fun received hmem => ?_).trans hlength
      obtain ⟨position, hposition, hget⟩ := List.mem_iff_getElem.mp hmem
      have hlt : position < t.totalLength := hlength ▸ hposition
      have hreceived := (hsome position).mpr (hall position hlt)
      rw [List.getD_eq_getElem?_getD, List.getElem?_eq_getElem (Nat.lt_of_lt_of_le hlt htotal)]
        at hreceived
      rw [← hget, List.getElem_take]
      exact hreceived.symm
    have hsplit := congrArg (List.count true) (List.take_append_drop t.totalLength t.received)
    rw [List.count_append, hfront, h.stored.behind, Nat.add_zero, ← h.stored.count] at hsplit
    exact hsplit.symm

/-- A piece that is not the last is kept. -/
theorem accept_kept (sha256 : Bytes → Bytes) {m : Message} {sent : List Piece} {o : Visits}
    {p : EgpProtocol} {piece : Piece} {now : Int} {t : Incomplete}
    (h : Target m sent o p piece now t) (hfits : m.Fits piece) (hgoes : piece.finish = false) :
    ∃ t', Holds m (sent ++ [piece]) t' ∧ t'.createdUs = t.createdUs ∧ t'.touchedUs = now ∧
      t'.endSeen = false ∧
      egpProtocolAccept sha256 o p m.peer m.characteristic (encodeFrame (m.frame piece)) now =
        ({ egpProtocolExpire o p now with
          incomplete := (egpProtocolExpire o p now).incomplete.insert m.key t' },
          .ok .incomplete) := by
  obtain ⟨t', hmerge, hholds⟩ := merge_holds h.holds hfits
  obtain ⟨-, -, -, -, -, hopen, hcreated⟩ := mergeBytes_same hmerge
  have hended : (t'.endSeen || (m.frame piece).finish) = false := by
    rw [hopen, h.open_]
    exact hgoes
  refine ⟨{ t' with touchedUs := now, endSeen := false }, hholds.touch now false, hcreated, rfl,
    rfl, ?_⟩
  unfold egpProtocolAccept
  rw [h.eq]
  cases mergeFrame_cases (egpProtocolExpire o p now) m.key t (m.frame piece) now with
  | conflict error bytes code eq =>
      rw [hmerge] at bytes
      cases bytes
  | gap m' error bytes ended count code eq =>
      rw [hmerge] at bytes
      cases bytes
      rw [hended] at ended
      cases ended
  | kept m' bytes open_ eq =>
      rw [hmerge] at bytes
      cases bytes
      rw [eq]
  | whole m' bytes ended count eq =>
      rw [hmerge] at bytes
      cases bytes
      rw [hended] at ended
      cases ended

/-- Along a course the transaction holds exactly the bytes of the pieces that were sent, as
long as it is in time. -/
theorem held_course {sha256 : Bytes → Bytes} {m : Message} (hm : m.Valid) {sent : List Piece}
    {created touched clock : Int} {p : EgpProtocol}
    (h : Course sha256 m sent created touched clock p) :
    Held sha256 m sent created touched clock p := by
  induction h with
  | @ready log clock p run idle unmarked =>
      exact ⟨⟨log, run⟩, fun _ => ⟨idle, unmarked⟩, fun hsent => absurd rfl hsent⟩
  | @piece sent created touched clock p h o now later positive piece fits timely goes_on ih =>
      obtain ⟨log, hrun⟩ := ih.reached
      obtain ⟨t, htarget, hcreated⟩ := target_of_held hm ih o later positive fits timely
      obtain ⟨t', hholds, hcreated', htouched, hopen, haccept⟩ :=
        accept_kept sha256 htarget fits goes_on
      refine ⟨⟨_, hrun.step o later _⟩, fun hsent => by simp at hsent, fun _ _ => ?_⟩
      refine ⟨t', ?_, hcreated'.trans hcreated, htouched, hopen, hholds⟩
      show (egpProtocolAccept sha256 o p m.peer m.characteristic (encodeFrame (m.frame piece))
        now).1.incomplete.lookup m.key = some t'
      rw [haccept]
      exact AList.lookup_insert _
  | @other sent created touched clock p h o now later event foreign ih =>
      obtain ⟨log, hrun⟩ := ih.reached
      refine ⟨⟨_, hrun.step o later event⟩, fun hsent => ?_, fun hsent htime => ?_⟩
      · have hspares := spares_foreign sha256 (tidy_run hrun) o now foreign (.inl hsent)
        obtain ⟨hidle, hunmarked⟩ := ih.before hsent
        exact hspares.before hidle hunmarked
      · obtain ⟨t, hfound, hcreated, htouched, hopen, hholds⟩ :=
          ih.underway hsent (htime.earlier later)
        have hspares := spares_foreign sha256 (tidy_run hrun) o now foreign
          (.inr ⟨t, hfound⟩)
        have hlive : t.timedOut now = false :=
          not_timedOut_iff.mpr (hcreated.symm ▸ htouched.symm ▸ htime)
        exact ⟨t, hspares.live t hfound hlive hholds.id hholds.opcode hholds.total, hcreated,
          htouched, hopen, hholds⟩

/-! ## The last piece -/

/-- The text of a transaction with every byte of the message is the message. -/
theorem Holds.json_eq {m : Message} {sent : List Piece} {t : Incomplete} (h : Holds m sent t)
    (hall : ∀ position < m.json.length, Covered sent position) : t.json = m.json := by
  have hlength : t.json.length = m.json.length := h.stored.length_json.trans h.total
  apply List.ext_getElem? fun position => ?_
  by_cases hlt : position < m.json.length
  · obtain ⟨byte, hbyte⟩ := Option.isSome_iff_exists.mp ((h.covered position).mpr (hall _ hlt))
    rw [h.bytes position byte hbyte, h.stored.getElem?_json hbyte]
  · rw [List.getElem?_eq_none (by omega), List.getElem?_eq_none (by omega)]

/-- The last piece makes the transaction whole, unless something is missing. -/
theorem accept_last (sha256 : Bytes → Bytes) {m : Message} {sent : List Piece} {o : Visits}
    {p : EgpProtocol} {piece : Piece} {now : Int} {t : Incomplete}
    (h : Target m sent o p piece now t) (hfits : m.Fits piece) (hfinish : piece.finish = true) :
    ((∃ position < m.json.length, ¬ Covered (sent ++ [piece]) position) →
      ∃ error, (egpProtocolAccept sha256 o p m.peer m.characteristic (encodeFrame (m.frame piece))
        now).2 = .error error ∧ error.code = .bleFragmentConflict) ∧
    ((∀ position < m.json.length, Covered (sent ++ [piece]) position) →
      ∃ t', Holds m (sent ++ [piece]) t' ∧
        egpProtocolAccept sha256 o p m.peer m.characteristic (encodeFrame (m.frame piece)) now =
          completeTransaction sha256 o (egpProtocolExpire o p now) m.key t' now) := by
  obtain ⟨t', hmerge, hholds⟩ := merge_holds h.holds hfits
  have hended : (t'.endSeen || (m.frame piece).finish) = true := by
    rw [show (m.frame piece).finish = true from hfinish, Bool.or_true]
  have hcount := hholds.count_iff
  unfold egpProtocolAccept
  rw [h.eq]
  cases mergeFrame_cases (egpProtocolExpire o p now) m.key t (m.frame piece) now with
  | conflict error bytes code eq =>
      rw [hmerge] at bytes
      cases bytes
  | gap m' error bytes ended count code eq =>
      rw [hmerge] at bytes
      cases bytes
      rw [eq]
      exact ⟨fun _ => ⟨error, rfl, code⟩, fun hall => absurd (hcount.mpr hall) count⟩
  | kept m' bytes open_ eq =>
      rw [hmerge] at bytes
      cases bytes
      rw [hended] at open_
      cases open_
  | whole m' bytes ended count eq =>
      rw [hmerge] at bytes
      cases bytes
      rw [eq]
      refine ⟨fun ⟨position, hlt, hnot⟩ => absurd (hcount.mp count position hlt) hnot,
        fun _ => ⟨_, hholds.touch now true, rfl⟩⟩

/-- What is remembered of a completed request behind the check of the times. -/
theorem completed_expire (o : Visits) (p : EgpProtocol) {now : Int} (hnow : 0 < now) (k : Bytes)
    (e : Completed) :
    (egpProtocolExpire o p now).completed.lookup k = some e ↔
      p.completed.lookup k = some e ∧ now < e.expiresUs := by
  obtain ⟨haged, hcurrent, -⟩ := expire_aged o p now
  constructor
  · intro h
    exact ⟨haged.completed k e h, hcurrent hnow k e h⟩
  · rintro ⟨h, hlt⟩
    exact haged.current k e h hlt

/-- The answer to a message that is whole. -/
theorem complete_message (sha256 : Bytes → Bytes) (o : Visits) (q : EgpProtocol) {m : Message}
    {sent : List Piece} {t : Incomplete} (h : Holds m sent t) (hjson : t.json = m.json)
    (now : Int) :
    (requestText m.json = false →
      ∃ error, (completeTransaction sha256 o q m.key t now).2 = .error error ∧
        error.code = .blePayloadInvalid) ∧
    (requestText m.json = true →
      (q.completed.lookup m.mark = none →
        (completeTransaction sha256 o q m.key t now).2 = .ok (.complete m.request)) ∧
      ∀ e, q.completed.lookup m.mark = some e →
        (e.digest = m.digest sha256 →
          (completeTransaction sha256 o q m.key t now).2 = .ok (.replay m.request e.result)) ∧
        (e.digest ≠ m.digest sha256 →
          ∃ error, (completeTransaction sha256 o q m.key t now).2 = .error error ∧
            error.code = .bleReplayRejected)) := by
  have hrequest : t.request = m.request := by
    unfold Incomplete.request Message.request
    rw [h.peer, h.characteristic, h.id, h.opcode, hjson]
  have hdigest : sha256 (digestInput t.peerPath t.characteristic t.opcode m.json) =
      m.digest sha256 := by
    rw [h.peer, h.characteristic, h.opcode]
    rfl
  have hmark : completedKey t.peerPath t.characteristic t.transactionId = m.mark := by
    rw [h.peer, h.characteristic, h.id]
    rfl
  unfold completeTransaction
  simp only [hrequest, hjson, hdigest]
  rw [hmark]
  refine ⟨fun htext => ?_, fun htext => ⟨fun hnone => ?_, fun e he => ⟨fun hsame => ?_,
    fun hother => ?_⟩⟩⟩
  · rw [if_pos (by simp [htext])]
    exact ⟨_, rfl, rfl⟩
  · rw [if_neg (by simp [htext]), hnone]
  · rw [if_neg (by simp [htext]), he]
    simp only [hsame, bne_self_eq_false, Bool.false_eq_true, if_false]
  · rw [if_neg (by simp [htext]), he]
    simp only
    rw [if_pos (by simpa using hother)]
    exact ⟨_, rfl, rfl⟩

/-- However a message has come on its way, the next piece of it that comes in time is
taken.  If it is not the last, more is waited for.  If it is, and a position was never
sent, the message is refused as a conflict; if none is missing, the request of the
message is delivered, or answered from what is remembered of it, as long as it is a
text. -/
theorem delivery (sha256 : Bytes → Bytes) (m : Message) (hm : m.Valid) (sent : List Piece)
    (created touched clock : Int) (p : EgpProtocol)
    (h : Course sha256 m sent created touched clock p) (o : Visits) (now : Int)
    (hlater : clock ≤ now) (hnow : 0 < now) (piece : Piece) (hfits : m.Fits piece)
    (htimely : Timely o p sent created touched now piece) :
    let answer := (egpProtocolAccept sha256 o p m.peer m.characteristic
      (encodeFrame (m.frame piece)) now).2
    (piece.finish = false → answer = .ok .incomplete) ∧
    (piece.finish = true → (∃ position < m.json.length, ¬ Covered (sent ++ [piece]) position) →
      ∃ error, answer = .error error ∧ error.code = .bleFragmentConflict) ∧
    (piece.finish = true → (∀ position < m.json.length, Covered (sent ++ [piece]) position) →
      (requestText m.json = false →
        ∃ error, answer = .error error ∧ error.code = .blePayloadInvalid) ∧
      (requestText m.json = true →
        ((∀ e, p.completed.lookup m.mark = some e → e.expiresUs ≤ now) →
          answer = .ok (.complete m.request)) ∧
        ∀ e, p.completed.lookup m.mark = some e → now < e.expiresUs →
          (e.digest = m.digest sha256 → answer = .ok (.replay m.request e.result)) ∧
          (e.digest ≠ m.digest sha256 →
            ∃ error, answer = .error error ∧ error.code = .bleReplayRejected))) := by
  obtain ⟨t, htarget, -⟩ := target_of_held hm (held_course hm h) o hlater hnow hfits htimely
  intro answer
  refine ⟨fun hgoes => ?_, fun hfinish => (accept_last sha256 htarget hfits hfinish).1,
    fun hfinish hall => ?_⟩
  · obtain ⟨t', -, -, -, -, haccept⟩ := accept_kept sha256 htarget hfits hgoes
    simp only [answer, haccept]
  · obtain ⟨t', hholds, haccept⟩ := (accept_last sha256 htarget hfits hfinish).2 hall
    obtain ⟨hinvalid, hvalid⟩ := complete_message sha256 o (egpProtocolExpire o p now) hholds
      (hholds.json_eq hall) now
    simp only [answer, haccept]
    refine ⟨hinvalid, fun htext => ⟨fun hold => ?_, fun e he hcurrent => ?_⟩⟩
    · apply (hvalid htext).1
      rw [Option.eq_none_iff_forall_ne_some]
      intro e he
      obtain ⟨he, hlt⟩ := (completed_expire o p hnow _ e).mp he
      have hle := hold e he
      omega
    · exact (hvalid htext).2 e ((completed_expire o p hnow _ e).mpr ⟨he, hcurrent⟩)

/-! ### A request in two pieces -/

def sampleMessage : Message :=
  ⟨samplePeer, .provisioning, ⟨2 :: List.replicate 15 0, by decide⟩, egpOpcodeForgetWifi,
    ascii "\x7b\x7d"⟩

/-- The state behind the first piece and a frame of another peer. -/
def sampleUnderway : EgpProtocol :=
  (step sampleDigest .plain
    (step sampleDigest .plain egpProtocolNew 1000
      (.accept samplePeer .provisioning (encodeFrame (sampleMessage.frame ⟨true, false, 0, 1⟩)))).1
    1100
    (.accept (ascii "/org/bluez/hci0/dev_BB") .provisioning (sampleFrame 1 0 "\x7b"))).1

/-- A message of two pieces, delivered with the second. -/
theorem delivery_two_pieces :
    (egpProtocolAccept sampleDigest .plain sampleUnderway samplePeer .provisioning
      (encodeFrame (sampleMessage.frame ⟨false, true, 1, 1⟩)) 1200).2 =
        .ok (.complete sampleMessage.request) := by
  have hm : sampleMessage.Valid :=
    ⟨by decide, by decide, by decide, by decide, by decide⟩
  have hfirst : sampleMessage.Fits ⟨true, false, 0, 1⟩ := ⟨by decide, by decide, by decide⟩
  have hsecond : sampleMessage.Fits ⟨false, true, 1, 1⟩ := ⟨by decide, by decide, by decide⟩
  have hready : Course sampleDigest sampleMessage [] 0 0 0 egpProtocolNew :=
    .ready .start rfl rfl
  have hstarted : Course sampleDigest sampleMessage [⟨true, false, 0, 1⟩] 1000 1000 1000 _ :=
    hready.piece .plain (by decide) (by decide) _ hfirst ⟨rfl, by decide⟩ rfl
  have hcourse : Course sampleDigest sampleMessage [⟨true, false, 0, 1⟩] 1000 1000 1100
      sampleUnderway :=
    hstarted.other .plain (by decide) _ (.elsewhere _ _ _ (.inl (by decide)))
  have hall : ∀ position < sampleMessage.json.length,
      Covered ([⟨true, false, 0, 1⟩] ++ [⟨false, true, 1, 1⟩]) position := by
    intro position hlt
    have hlt : position < 2 := hlt
    rw [covered_append]
    by_cases hzero : position = 0
    · subst hzero
      exact .inr ⟨_, List.mem_singleton_self _, by decide⟩
    · refine .inl ⟨?_, hlt⟩
      show 1 ≤ position
      omega
  have hnew : sampleUnderway.completed.lookup sampleMessage.mark = none := by decide +kernel
  refine (((delivery sampleDigest sampleMessage hm _ _ _ _ _ hcourse .plain 1200 (by decide)
    (by decide) _ hsecond ⟨by decide, by decide⟩).2.2 rfl hall).2 (by decide)).1 fun e he => ?_
  rw [hnew] at he
  cases he

end EdgeGuard.Provisioning.ProtocolDelivery
