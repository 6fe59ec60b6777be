import Mathlib.Tactic.Common
import EdgeGuard.Provisioning.Protocol

/-!
# Runs of the request protocol

The calls of the protocol engine in any order, at times that do not decrease, with
the log of what each of them answered.

## Main results

* `incompleteKey_inj`, `completedKey_inj` — the texts under which transactions are
  kept belong to one peer, characteristic and identifier.
* `assemble_cases` — what a frame does before it is added to a transaction.
* `tidy_run` — a live transaction stands under its own key and is not marked as
  timed out.
-/

namespace EdgeGuard.Provisioning.ProtocolRun

open EdgeGuard.Base.CText EdgeGuard.Base.HashTable
open EdgeGuard.Provisioning.Model EdgeGuard.Provisioning.Protocol

/-! ## Keys -/

theorem decimal_number (c : EgpWritableCharacteristic) :
    decimal c.number = [0x30 + c.number.toUInt8] := by
  cases c with
  | provisioning => exact decimal_of_lt (by decide)
  | control => exact decimal_of_lt (by decide)

theorem number_inj {c c' : EgpWritableCharacteristic}
    (h : (0x30 : UInt8) + c.number.toUInt8 = 0x30 + c'.number.toUInt8) : c = c' := by
  revert h
  cases c <;> cases c' <;> decide

theorem incompleteKey_inj {peer peer' : Bytes} {c c' : EgpWritableCharacteristic}
    (h : incompleteKey peer c = incompleteKey peer' c') : peer = peer' ∧ c = c' := by
  simp only [incompleteKey, decimal_number, List.cons_append, List.nil_append,
    List.cons.injEq] at h
  exact ⟨h.2.2, number_inj h.1⟩

theorem hexDigit_inj : ∀ m < 16, ∀ n < 16, hexDigit m = hexDigit n → m = n := by decide

theorem hexDigit_ne_dash : ∀ n < 16, hexDigit n ≠ 0x2d := by decide

theorem hexByte_append_inj {b b' : UInt8} {rest rest' : Bytes}
    (h : hexByte b ++ rest = hexByte b' ++ rest') : b = b' ∧ rest = rest' := by
  simp only [hexByte, List.cons_append, List.nil_append, List.cons.injEq] at h
  obtain ⟨hhigh, hlow, hrest⟩ := h
  have hb := b.toNat_lt
  have hb' := b'.toNat_lt
  have hhigh := hexDigit_inj _ (by omega) _ (by omega) hhigh
  have hlow := hexDigit_inj _ (by omega) _ (by omega) hlow
  refine ⟨UInt8.toNat_inj.mp ?_, hrest⟩
  omega

/-- The bytes of an identifier are read back from their digits. -/
theorem hexBytes_inj {l l' : Bytes} (h : l.flatMap hexByte = l'.flatMap hexByte) : l = l' := by
  induction l generalizing l' with
  | nil =>
      cases l' with
      | nil => rfl
      | cons b l' => simp [hexByte] at h
  | cons b l ih =>
      cases l' with
      | nil => simp [hexByte] at h
      | cons b' l' =>
          rw [List.flatMap_cons, List.flatMap_cons] at h
          obtain ⟨hb, hrest⟩ := hexByte_append_inj h
          rw [hb, ih hrest]

theorem length_hexBytes (l : Bytes) : (l.flatMap hexByte).length = 2 * l.length := by
  induction l with
  | nil => rfl
  | cons b l ih =>
      rw [List.flatMap_cons, List.length_append, ih, List.length_cons]
      simp only [hexByte, List.length_cons, List.length_nil]
      omega

/-- The format of an identifier is that of its bytes, but for the dashes. -/
theorem filter_format (id : TransactionId) :
    (egpTransactionIdFormat id).filter (· != 0x2d) = id.1.flatMap hexByte := by
  have hhex : ∀ l : Bytes, (l.flatMap hexByte).filter (· != 0x2d) = l.flatMap hexByte := by
    intro l
    rw [List.filter_eq_self]
    intro b hb
    obtain ⟨a, -, hb⟩ := List.mem_flatMap.mp hb
    have ha := a.toNat_lt
    have hne : ∀ n < 16, (hexDigit n != 0x2d) = true :=
      fun n hn => bne_iff_ne.mpr (hexDigit_ne_dash n hn)
    simp only [hexByte, List.mem_cons, List.not_mem_nil, or_false] at hb
    rcases hb with rfl | rfl
    · exact hne _ (by omega)
    · exact hne _ (by omega)
  have hslice : ∀ m n : Nat, (id.1.drop m).take n ++ id.1.drop (m + n) = id.1.drop m := by
    intro m n
    rw [← List.drop_drop]
    exact List.take_append_drop n _
  have hlast : (id.1.drop 10).take 6 = id.1.drop 10 := by
    rw [List.take_of_length_le]
    rw [List.length_drop, id.2]
  have hwhole : (id.1.drop 0).take 4 ++ (id.1.drop 4).take 2 ++ (id.1.drop 6).take 2 ++
      (id.1.drop 8).take 2 ++ (id.1.drop 10).take 6 = id.1 := by
    rw [hlast, List.append_assoc, hslice 8 2, List.append_assoc, hslice 6 2, List.append_assoc,
      hslice 4 2, hslice 0 4, List.drop_zero]
  have hdash : ([0x2d] : Bytes).filter (· != 0x2d) = [] := rfl
  simp only [egpTransactionIdFormat, List.filter_append, hhex, hdash, List.append_nil]
  rw [← List.flatMap_append, ← List.flatMap_append, ← List.flatMap_append, ← List.flatMap_append,
    hwhole]

theorem format_inj {id id' : TransactionId}
    (h : egpTransactionIdFormat id = egpTransactionIdFormat id') : id = id' := by
  apply Subtype.ext
  apply hexBytes_inj
  rw [← filter_format, ← filter_format, h]

theorem length_format (id : TransactionId) : (egpTransactionIdFormat id).length = 36 := by
  have h := id.2
  simp only [egpTransactionIdFormat, List.length_append, length_hexBytes, List.length_take,
    List.length_drop, List.length_cons, List.length_nil]
  omega

theorem completedKey_inj {peer peer' : Bytes} {c c' : EgpWritableCharacteristic}
    {id id' : TransactionId} (h : completedKey peer c id = completedKey peer' c' id') :
    peer = peer' ∧ c = c' ∧ id = id' := by
  unfold completedKey at h
  obtain ⟨hfront, hid⟩ := List.append_inj' h (by rw [length_format, length_format])
  obtain ⟨hkey, -⟩ := List.append_inj' hfront rfl
  obtain ⟨hpeer, hc⟩ := incompleteKey_inj hkey
  exact ⟨hpeer, hc, format_inj hid⟩

/-! ## What time does -/

/-- The state after a while: transactions vanish only when they timed out, and what
is marked has vanished; completed requests vanish only when they expired. -/
structure Aged (now : Int) (p q : EgpProtocol) : Prop where
  incomplete : ∀ k t, q.incomplete.lookup k = some t → p.incomplete.lookup k = some t
  live : ∀ k t, p.incomplete.lookup k = some t → t.timedOut now = false →
    q.incomplete.lookup k = some t
  expired : ∀ m, (q.expired.lookup m).isSome = true → (p.expired.lookup m).isSome = true ∨
    ∃ k t, p.incomplete.lookup k = some t ∧ q.incomplete.lookup k = none ∧
      m = completedKey t.peerPath t.characteristic t.transactionId
  completed : ∀ k c, q.completed.lookup k = some c → p.completed.lookup k = some c
  current : ∀ k c, p.completed.lookup k = some c → now < c.expiresUs →
    q.completed.lookup k = some c

theorem Aged.refl (now : Int) (p : EgpProtocol) : Aged now p p :=
  ⟨fun _ _ h => h, fun _ _ h _ => h, fun _ h => .inl h, fun _ _ h => h, fun _ _ h _ => h⟩

/-- Ageing twice is ageing. -/
theorem Aged.trans {now : Int} {p q r : EgpProtocol} (hpq : Aged now p q) (hqr : Aged now q r) :
    Aged now p r := by
  refine ⟨fun k t h => hpq.incomplete k t (hqr.incomplete k t h),
    fun k t h hlive => hqr.live k t (hpq.live k t h hlive) hlive, fun m hm => ?_,
    fun k c h => hpq.completed k c (hqr.completed k c h),
    fun k c h hcurrent => hqr.current k c (hpq.current k c h hcurrent) hcurrent⟩
  rcases hqr.expired m hm with hm | ⟨k, t, hk, hgone, hm⟩
  · rcases hpq.expired m hm with hm | ⟨k, t, hk, hgone, hm⟩
    · exact .inl hm
    · refine .inr ⟨k, t, hk, ?_, hm⟩
      apply Option.eq_none_iff_forall_not_mem.mpr
      intro t' ht'
      rw [hqr.incomplete k t' ht'] at hgone
      cases hgone
  · exact .inr ⟨k, t, hpq.incomplete k t hk, hgone, hm⟩

/-- A new marker is that of the transaction that is remembered. -/
theorem lookup_rememberTimeout (o : Visits) (now : Int) (expired : Table Bytes Int)
    (t : Incomplete) {m : Bytes} (h : ((rememberTimeout o now expired t).lookup m).isSome = true) :
    (expired.lookup m).isSome = true ∨
      m = completedKey t.peerPath t.characteristic t.transactionId := by
  unfold rememberTimeout at h
  rw [lookup_insert_eq] at h
  split at h
  · exact .inr ‹_›
  · left
    obtain ⟨v, hv⟩ := Option.isSome_iff_exists.mp h
    rw [lookup_evict_le o _ _ _ hv]
    rfl

/-- A marker was there before or is that of a transaction that timed out. -/
theorem lookup_rememberTimeouts (o : Visits) (now : Int) (gone : List Incomplete)
    (expired : Table Bytes Int) {m : Bytes}
    (h : ((gone.foldl (rememberTimeout o now) expired).lookup m).isSome = true) :
    (expired.lookup m).isSome = true ∨
      ∃ t ∈ gone, m = completedKey t.peerPath t.characteristic t.transactionId := by
  induction gone generalizing expired with
  | nil => exact .inl h
  | cons t gone ih =>
      rcases ih _ h with hm | ⟨t', ht', hm⟩
      · rcases lookup_rememberTimeout o now expired t hm with hm | hm
        · exact .inl hm
        · exact .inr ⟨t, by simp, hm⟩
      · exact .inr ⟨t', by simp [ht'], hm⟩

theorem isSome_of_filter {α : Type} {f : α → Bool} {x : Option α}
    (h : (x.filter f).isSome = true) : x.isSome = true := by
  cases x with
  | none => exact h
  | some a => rfl

/-- `egp_protocol_expire`: after it, every completed request is current. -/
theorem expire_aged (o : Visits) (p : EgpProtocol) (now : Int) :
    Aged now p (egpProtocolExpire o p now) ∧
      (0 < now → ∀ k c, (egpProtocolExpire o p now).completed.lookup k = some c →
        now < c.expiresUs) ∧
      (0 < now → ∀ k t, (egpProtocolExpire o p now).incomplete.lookup k = some t →
        t.timedOut now = false) := by
  unfold egpProtocolExpire
  split
  · exact ⟨Aged.refl now p, fun h => by omega, fun h => by omega⟩
  · refine ⟨⟨?_, ?_, ?_, ?_, ?_⟩, fun _ => ?_, fun _ => ?_⟩
    · intro k t h
      simp only [lookup_retain, Option.filter_eq_some_iff] at h
      exact h.1
    · intro k t h hlive
      simp only [lookup_retain, Option.filter_eq_some_iff]
      exact ⟨h, by simp [hlive]⟩
    · intro m hm
      simp only [lookup_retain] at hm
      rcases lookup_rememberTimeouts o now _ p.expired (isSome_of_filter hm) with hm | ⟨t, ht, hm⟩
      · exact .inl hm
      · right
        obtain ⟨ht, hout⟩ := List.mem_filter.mp ht
        obtain ⟨⟨k, t'⟩, hentry, rfl⟩ := List.mem_map.mp ht
        have hk : p.incomplete.lookup k = some t' :=
          lookup_eq_some_iff.mpr ((o.perm _).mem_iff.mp hentry)
        refine ⟨k, t', hk, ?_, hm⟩
        simp only [lookup_retain, hk, Option.filter_some, hout, Bool.not_true,
          Bool.false_eq_true, if_false]
    · intro k c h
      simp only [lookup_retain, Option.filter_eq_some_iff] at h
      exact h.1
    · intro k c h hcurrent
      simp only [lookup_retain, Option.filter_eq_some_iff]
      exact ⟨h, by simpa using hcurrent⟩
    · intro k c h
      simp only [lookup_retain, Option.filter_eq_some_iff] at h
      simpa using h.2
    · intro k t h
      simp only [lookup_retain, Option.filter_eq_some_iff] at h
      simpa using h.2

/-- The transaction that the peer had has timed out. -/
theorem aged_erase (o : Visits) (p : EgpProtocol) {now : Int} {key : Bytes} {t : Incomplete}
    (h : p.incomplete.lookup key = some t) (hout : t.timedOut now = true) :
    Aged now p { p with
      incomplete := p.incomplete.erase key
      expired := rememberTimeout o now p.expired t } := by
  refine ⟨fun k t' h' => ?_, fun k t' h' hlive => ?_, fun m hm => ?_, fun _ _ h => h,
    fun _ _ h _ => h⟩
  · simp only [lookup_erase_eq] at h'
    split at h'
    · cases h'
    · exact h'
  · simp only [lookup_erase_eq]
    rw [if_neg, h']
    rintro rfl
    rw [h] at h'
    cases h'
    rw [hout] at hlive
    cases hlive
  · rcases lookup_rememberTimeout o now p.expired t hm with hm | hm
    · exact .inl hm
    · exact .inr ⟨key, t, h, AList.lookup_erase key _, hm⟩

/-! ## What a frame does -/

/-- The transaction that a frame is added to: the live one of the peer, or one that
the frame opens. -/
inductive Joins (q : EgpProtocol) (peer : Bytes) (c : EgpWritableCharacteristic) (frame : Frame)
    (now : Int) (t : Incomplete) : Prop
  | live (found : q.incomplete.lookup (incompleteKey peer c) = some t)
      (current : t.timedOut now = false) (id : t.transactionId = frame.transactionId)
      (opcode : t.opcode = frame.opcode) (total : t.totalLength = frame.total)
  | opened (absent : q.incomplete.lookup (incompleteKey peer c) = none)
      (start : frame.start = true) (fresh : t = .fresh peer c frame now)

/-- What `assemble` comes to behind the checks of the header: an error that leaves what
time has prepared, BUSY or a timeout where the peer has a transaction, or a frame that
is added to a transaction. -/
inductive Assembles (p : EgpProtocol) (peer : Bytes) (c : EgpWritableCharacteristic)
    (frame : Frame) (now : Int) (result : Assembly) : Prop
  | refused (q : EgpProtocol) (error : EgpError) (aged : Aged now p q)
      (eq : result = .answered q (.error error))
      (code : error.code = .provisioningBusy ∨ error.code = .bleTransactionTimeout ∨
        q.incomplete.lookup (incompleteKey peer c) = none)
  | joined (q : EgpProtocol) (t : Incomplete) (aged : Aged now p q)
      (current : ∀ k e, q.completed.lookup k = some e → now < e.expiresUs)
      (unmarked : q.expired.lookup (completedKey peer c frame.transactionId) = none)
      (joins : Joins q peer c frame now t)
      (eq : result = mergeFrame q (incompleteKey peer c) t frame now)

/-- What a frame can do to its transaction, case by case. -/
theorem assembleFrame_cases (o : Visits) {p q : EgpProtocol} (peer : Bytes)
    (c : EgpWritableCharacteristic) (frame : Frame) {now : Int} (hnow : 0 < now)
    (hq : Aged now p q) :
    Assembles p peer c frame now (assembleFrame o q peer c frame now) := by
  obtain ⟨haged, hcurrent, hlive⟩ := expire_aged o q now
  have haged := hq.trans haged
  unfold assembleFrame
  simp only
  generalize egpProtocolExpire o q now = r at haged hcurrent hlive ⊢
  split
  · exact .refused r _ haged rfl (.inr (.inl rfl))
  · rename_i hmarked
    have hunmarked : r.expired.lookup (completedKey peer c frame.transactionId) = none := by
      simpa using hmarked
    split
    · rename_i habsent
      split
      · exact .refused r _ haged rfl (.inr (.inr habsent))
      · rename_i hstart
        split
        · exact .refused r _ haged rfl (.inl rfl)
        · exact .joined r _ haged (hcurrent hnow) hunmarked
            (.opened habsent (by simpa using hstart) rfl) rfl
    · rename_i t hfound
      split
      · exact .refused r _ haged rfl (.inl rfl)
      · rename_i hsame
        simp only [Bool.or_eq_true, bne_iff_ne, ne_eq, not_or, Decidable.not_not] at hsame
        exact .joined r t haged (hcurrent hnow) hunmarked
          (.live hfound (hlive hnow _ _ hfound) hsame.1.1 hsame.1.2 hsame.2) rfl

/-- The input that `egp_protocol_accept` looks at before the frame. -/
def Acceptable (peer : Bytes) (now : Int) : Prop :=
  peer.length < egpDbusPathCap ∧ isObjectPath peer = true ∧ 0 < now

/-- A frame is refused without a trace, or its header is right and it goes on. -/
theorem assemble_cases (o : Visits) (p : EgpProtocol) (peer : Bytes)
    (c : EgpWritableCharacteristic) (value : Bytes) (now : Int) :
    ((¬ Acceptable peer now ∨ ∃ error, parseFrame c value = .error error) ∧
        ∃ error, assemble o p peer c value now = .answered p (.error error)) ∨
      (Acceptable peer now ∧ ∃ frame, parseFrame c value = .ok frame ∧
        Assembles p peer c frame now (assemble o p peer c value now)) := by
  unfold assemble
  by_cases hinput : Acceptable peer now
  · obtain ⟨hlength, hpath, hnow⟩ := hinput
    rw [if_neg (by simp [hpath]; omega)]
    cases hframe : parseFrame c value with
    | error error => exact .inl ⟨.inr ⟨error, rfl⟩, error, rfl⟩
    | ok frame =>
        refine .inr ⟨⟨hlength, hpath, hnow⟩, frame, rfl, ?_⟩
        simp only
        split
        · exact assembleFrame_cases o peer c frame hnow (.refl now p)
        · rename_i t hfound
          by_cases hout : t.timedOut now = true
          · rw [if_pos hout]
            have haged := aged_erase o p hfound hout
            split
            · exact .refused _ _ haged rfl (.inr (.inl rfl))
            · exact assembleFrame_cases o peer c frame hnow haged
          · rw [if_neg hout]
            exact assembleFrame_cases o peer c frame hnow (.refl now p)
  · rw [if_pos (by
      simp only [Acceptable, not_and_or, Nat.not_lt, Bool.not_eq_true, Int.not_lt] at hinput
      simp only [Bool.or_eq_true, decide_eq_true_eq, Bool.not_eq_true']
      tauto)]
    exact .inl ⟨.inl hinput, _, rfl⟩

/-! ## Runs -/

inductive Event
  | accept (peer : Bytes) (c : EgpWritableCharacteristic) (value : Bytes)
  | cacheResultId (peer : Bytes) (c : EgpWritableCharacteristic) (id : TransactionId)
      (result : Bytes)
  | expire
  | dropPeer (peer : Bytes)
  | dropAll

inductive Reply
  | accepted (reply : Except EgpError EgpProtocolOutput)
  | cached (reply : Except EgpError Unit)
  | none

def step (sha256 : Bytes → Bytes) (o : Visits) (p : EgpProtocol) (now : Int) :
    Event → EgpProtocol × Reply
  | .accept peer c value =>
      let r := egpProtocolAccept sha256 o p peer c value now
      (r.1, .accepted r.2)
  | .cacheResultId peer c id result =>
      let r := egpProtocolCacheResultId o p peer c id result now
      (r.1, .cached r.2)
  | .expire => (egpProtocolExpire o p now, .none)
  | .dropPeer peer => (egpProtocolDropPeer p peer, .none)
  | .dropAll => (egpProtocolDropAll p, .none)

/-- A call, and what it answered. -/
structure LogEntry where
  now : Int
  event : Event
  reply : Reply

/-- The states that calls reach at times that do not decrease, with the log of the
calls. -/
inductive Run (sha256 : Bytes → Bytes) : List LogEntry → Int → EgpProtocol → Prop
  | start : Run sha256 [] 0 egpProtocolNew
  | step {log : List LogEntry} {clock : Int} {p : EgpProtocol} (h : Run sha256 log clock p)
      (o : Visits) {now : Int} (later : clock ≤ now) (event : Event) :
      Run sha256 (log ++ [⟨now, event, (step sha256 o p now event).2⟩]) now
        (ProtocolRun.step sha256 o p now event).1

/-- Every live transaction stands under its own key, and is not marked as timed
out. -/
structure Tidy (p : EgpProtocol) : Prop where
  keyed : ∀ k t, p.incomplete.lookup k = some t →
    k = incompleteKey t.peerPath t.characteristic
  unmarked : ∀ k t, p.incomplete.lookup k = some t →
    p.expired.lookup (completedKey t.peerPath t.characteristic t.transactionId) = none

theorem tidy_new : Tidy egpProtocolNew := by
  constructor
  · intro k t hk
    cases hk
  · intro k t hk
    cases hk

/-- Ageing keeps the tables tidy. -/
theorem Tidy.aged {p q : EgpProtocol} {now : Int} (h : Tidy p) (hq : Aged now p q) : Tidy q := by
  refine ⟨fun k t hk => h.keyed k t (hq.incomplete k t hk), fun k t hk => ?_⟩
  have hp := hq.incomplete k t hk
  by_contra hmarked
  rcases hq.expired _ (by simpa [Option.isSome_iff_ne_none] using hmarked) with hm |
    ⟨k', t', hk', hgone, hm⟩
  · rw [h.unmarked k t hp] at hm
    cases hm
  · obtain ⟨hpeer, hc, -⟩ := completedKey_inj hm
    rw [h.keyed k' t' hk', ← hpeer, ← hc, ← h.keyed k t hp, hk] at hgone
    cases hgone

/-- What the call leaves of the transactions under other keys. -/
theorem Tidy.erase {p : EgpProtocol} (h : Tidy p) (key : Bytes)
    (completed : Table Bytes Completed) :
    Tidy { p with incomplete := p.incomplete.erase key, completed } := by
  have hsub : ∀ k t, (p.incomplete.erase key).lookup k = some t →
      p.incomplete.lookup k = some t := fun k t hk => lookup_of_erase hk
  exact ⟨fun k t hk => h.keyed k t (hsub k t hk), fun k t hk => h.unmarked k t (hsub k t hk)⟩

/-- Merging changes the bytes and their count only. -/
theorem mergeBytes_same {t m : Incomplete} {position : Nat} {bytes : Bytes}
    (h : mergeBytes t position bytes = some m) :
    m.peerPath = t.peerPath ∧ m.characteristic = t.characteristic ∧
      m.transactionId = t.transactionId ∧ m.opcode = t.opcode ∧
      m.totalLength = t.totalLength ∧ m.endSeen = t.endSeen ∧ m.createdUs = t.createdUs := by
  induction bytes generalizing t position with
  | nil =>
      cases h
      exact ⟨rfl, rfl, rfl, rfl, rfl, rfl, rfl⟩
  | cons b bytes ih =>
      unfold mergeBytes at h
      split at h
      · split at h
        · cases h
        · exact ih h
      · have hrest := ih h
        exact hrest

/-- The transaction that a frame joins has the fields of the frame. -/
theorem Joins.fields {q : EgpProtocol} {peer : Bytes} {c : EgpWritableCharacteristic}
    {frame : Frame} {now : Int} {t : Incomplete} (h : Joins q peer c frame now t)
    (hq : Tidy q) :
    t.peerPath = peer ∧ t.characteristic = c ∧ t.transactionId = frame.transactionId ∧
      t.opcode = frame.opcode ∧ t.totalLength = frame.total := by
  cases h with
  | live found current id opcode total =>
      obtain ⟨hpeer, hc⟩ := incompleteKey_inj (hq.keyed _ _ found)
      exact ⟨hpeer.symm, hc.symm, id, opcode, total⟩
  | opened absent start fresh =>
      rw [fresh]
      exact ⟨rfl, rfl, rfl, rfl, rfl⟩

/-- What `mergeFrame` comes to. -/
inductive Merges (q : EgpProtocol) (key : Bytes) (t : Incomplete) (frame : Frame) (now : Int)
    (result : Assembly) : Prop
  | conflict (error : EgpError) (bytes : mergeBytes t frame.offset frame.fragment = none)
      (code : error.code = .bleFragmentConflict)
      (eq : result = .answered { q with incomplete := q.incomplete.erase key } (.error error))
  | gap (m : Incomplete) (error : EgpError)
      (bytes : mergeBytes t frame.offset frame.fragment = some m)
      (ended : (m.endSeen || frame.finish) = true) (count : m.receivedCount ≠ frame.total)
      (code : error.code = .bleFragmentConflict)
      (eq : result = .answered { q with incomplete := q.incomplete.erase key } (.error error))
  | kept (m : Incomplete) (bytes : mergeBytes t frame.offset frame.fragment = some m)
      (open_ : (m.endSeen || frame.finish) = false)
      (eq : result = .answered
        { q with
          incomplete := q.incomplete.insert key { m with touchedUs := now, endSeen := false } }
        (.ok .incomplete))
  | whole (m : Incomplete) (bytes : mergeBytes t frame.offset frame.fragment = some m)
      (ended : (m.endSeen || frame.finish) = true) (count : m.receivedCount = frame.total)
      (eq : result = .whole q key { m with touchedUs := now, endSeen := true })

/-- What merging a frame can come to. -/
theorem mergeFrame_cases (q : EgpProtocol) (key : Bytes) (t : Incomplete) (frame : Frame)
    (now : Int) : Merges q key t frame now (mergeFrame q key t frame now) := by
  unfold mergeFrame
  cases hbytes : mergeBytes t frame.offset frame.fragment with
  | none => exact .conflict _ hbytes rfl rfl
  | some m =>
      simp only
      by_cases hended : (m.endSeen || frame.finish) = true
      · by_cases hcount : m.receivedCount = frame.total
        · rw [if_neg (by simp [hcount]), if_neg (by simp [hended])]
          refine .whole m hbytes hended hcount ?_
          rw [hended]
        · rw [if_pos (by simpa [hended] using hcount)]
          exact .gap m _ hbytes hended hcount rfl rfl
      · rw [Bool.not_eq_true] at hended
        rw [if_neg (by simp [hended]), if_pos (by simp [hended])]
        refine .kept m hbytes hended ?_
        rw [hended]

/-- `complete_transaction` takes the transaction away, whatever it answers. -/
theorem completeTransaction_state (sha256 : Bytes → Bytes) (o : Visits) (q : EgpProtocol)
    (key : Bytes) (t : Incomplete) (now : Int) :
    ∃ completed, (completeTransaction sha256 o q key t now).1 =
      { q with incomplete := q.incomplete.erase key, completed } := by
  unfold completeTransaction
  simp only
  split
  · exact ⟨q.completed, rfl⟩
  · split
    · split
      · exact ⟨q.completed, rfl⟩
      · exact ⟨q.completed, rfl⟩
    · exact ⟨_, rfl⟩

/-- A transaction under its own key, without a marker, keeps the tables tidy. -/
theorem tidy_insert {q : EgpProtocol} {peer : Bytes} {c : EgpWritableCharacteristic}
    {t : Incomplete} (hq : Tidy q) (hpeer : t.peerPath = peer) (hc : t.characteristic = c)
    (hunmarked : q.expired.lookup (completedKey peer c t.transactionId) = none) :
    Tidy { q with incomplete := q.incomplete.insert (incompleteKey peer c) t } := by
  constructor
  · intro k t' hk
    simp only [lookup_insert_eq] at hk
    split at hk
    · cases hk
      rw [hpeer, hc]
      assumption
    · exact hq.keyed k t' hk
  · intro k t' hk
    simp only [lookup_insert_eq] at hk
    split at hk
    · cases hk
      rw [hpeer, hc]
      exact hunmarked
    · exact hq.unmarked k t' hk

/-- A value that arrives keeps the tables tidy. -/
theorem tidy_accept {sha256 : Bytes → Bytes} {p : EgpProtocol} (h : Tidy p) (o : Visits)
    (peer : Bytes) (c : EgpWritableCharacteristic) (value : Bytes) (now : Int) :
    Tidy (egpProtocolAccept sha256 o p peer c value now).1 := by
  unfold egpProtocolAccept
  rcases assemble_cases o p peer c value now with ⟨-, error, heq⟩ | ⟨-, frame, -, hcases⟩
  · rw [heq]
    exact h
  · cases hcases with
    | refused q error aged eq =>
        rw [eq]
        exact h.aged aged
    | joined q t aged current unmarked joins eq =>
        have hq := h.aged aged
        obtain ⟨hpeer, hc, hid, -, -⟩ := joins.fields hq
        rw [eq]
        cases mergeFrame_cases q (incompleteKey peer c) t frame now with
        | conflict error bytes code eq =>
            rw [eq]
            exact hq.erase _ q.completed
        | gap m error bytes ended count code eq =>
            rw [eq]
            exact hq.erase _ q.completed
        | kept m bytes open_ eq =>
            obtain ⟨hpeer', hc', hid', -⟩ := mergeBytes_same bytes
            rw [eq]
            refine tidy_insert (t := { m with touchedUs := now, endSeen := false }) hq
              (hpeer'.trans hpeer) (hc'.trans hc) ?_
            show q.expired.lookup (completedKey peer c m.transactionId) = none
            rw [hid', hid]
            exact unmarked
        | whole m bytes ended count eq =>
            rw [eq]
            obtain ⟨completed, hstate⟩ := completeTransaction_state sha256 o q
              (incompleteKey peer c) { m with touchedUs := now, endSeen := true } now
            simp only [hstate]
            exact hq.erase _ completed

/-- Every step keeps the tables tidy. -/
theorem tidy_step {sha256 : Bytes → Bytes} {p : EgpProtocol} (h : Tidy p) (o : Visits) (now : Int)
    (event : Event) : Tidy (step sha256 o p now event).1 := by
  cases event with
  | accept peer c value => exact tidy_accept h o peer c value now
  | cacheResultId peer c id result =>
      have haged := h.aged (expire_aged o p now).1
      show Tidy (egpProtocolCacheResultId o p peer c id result now).1
      unfold egpProtocolCacheResultId
      split
      · exact h
      · simp only
        split
        · exact haged
        · exact ⟨haged.keyed, haged.unmarked⟩
  | expire => exact h.aged (expire_aged o p now).1
  | dropPeer peer =>
      have hsub : ∀ k t, (egpProtocolDropPeer p peer).incomplete.lookup k = some t →
          p.incomplete.lookup k = some t := by
        intro k t hk
        simp only [egpProtocolDropPeer, lookup_retain, Option.filter_eq_some_iff] at hk
        exact hk.1
      refine ⟨fun k t hk => h.keyed k t (hsub k t hk), fun k t hk => ?_⟩
      simp [step, egpProtocolDropPeer, lookup_retain, h.unmarked k t (hsub k t hk)]
  | dropAll => exact tidy_new

theorem tidy_run {sha256 : Bytes → Bytes} {log : List LogEntry} {clock : Int} {p : EgpProtocol}
    (h : Run sha256 log clock p) : Tidy p := by
  induction h with
  | start => exact tidy_new
  | step h o later event ih => exact tidy_step ih o _ event

/-- A transaction becomes whole in a state that only time has prepared. -/
theorem aged_of_whole {o : Visits} {p r : EgpProtocol} {peer : Bytes}
    {c : EgpWritableCharacteristic} {value : Bytes} {now : Int} {key : Bytes} {t : Incomplete}
    (h : assemble o p peer c value now = .whole r key t) : Aged now p r := by
  rcases assemble_cases o p peer c value now with ⟨-, error, heq⟩ | ⟨-, frame, -, hcases⟩
  · rw [heq] at h
    cases h
  · cases hcases with
    | refused q error aged eq =>
        rw [eq] at h
        cases h
    | joined q t' aged current unmarked joins eq =>
        rw [eq] at h
        cases mergeFrame_cases q (incompleteKey peer c) t' frame now with
        | conflict error bytes code eq =>
            rw [eq] at h
            cases h
        | gap m error bytes ended count code eq =>
            rw [eq] at h
            cases h
        | kept m bytes open_ eq =>
            rw [eq] at h
            cases h
        | whole m bytes ended count eq =>
            rw [eq] at h
            cases h
            exact aged

/-! ### Sample frames -/

def samplePeer : Bytes := ascii "/org/bluez/hci0/dev_AA"

/-- SHA-256 where the samples use it. -/
def sampleDigest (input : Bytes) : Bytes :=
  if input == digestInput samplePeer .provisioning egpOpcodeForgetWifi (ascii "\x7b\x7d") then
    ascii "e64ae43651fc81b05796074e65d9f638a06aa6a5a18853905f71270fd6d5bfa0"
  else []

/-- A frame of a FORGET_WIFI request of two bytes. -/
def sampleFrame (flags offset : UInt8) (fragment : String) : Bytes :=
  ascii "EGP1" ++ [1, 3, flags, 0] ++ 1 :: List.replicate 15 0 ++
    [0, 2, 0, offset, 0, (ascii fragment).length.toUInt8, 0, 0] ++ ascii fragment

end EdgeGuard.Provisioning.ProtocolRun
