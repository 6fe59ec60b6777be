import EdgeGuard.Provisioning.PeerIsolation
import EdgeGuard.Provisioning.ProtocolReassembly

/-!
# The tables of the request protocol

What the three tables can hold, over every sequence of calls, and what is left of a peer
that is dropped.

## Main results

* `bounded_perform` — every call keeps the tables within their limits.
* `markerOf_completedKey` — a marker is told by its peer, whatever its path.
* `tables_bounded` — both, over runs.
-/

namespace EdgeGuard.Provisioning.ProtocolTables

open EdgeGuard.Base.CText EdgeGuard.Base.HashTable
open EdgeGuard.Provisioning.Model EdgeGuard.Provisioning.Protocol
open EdgeGuard.Provisioning.ProtocolRun EdgeGuard.Provisioning.ProtocolReassembly
open EdgeGuard.Provisioning.PeerIsolation

/-! ## The invariant -/

/-- A live transaction under its key. -/
structure Held (key : Bytes) (t : Incomplete) : Prop where
  keyed : key = incompleteKey t.peerPath t.characteristic
  path : isObjectPath t.peerPath = true
  stored : Stored t

/-- The key of a marker. -/
def MarkerKey (key : Bytes) : Prop :=
  ∃ peer c id, isObjectPath peer = true ∧ key = completedKey peer c id

/-- The markers of transactions that timed out. -/
structure MarkersOk (expired : Table Bytes Int) : Prop where
  room : size expired ≤ completedCacheLimit
  keys : ∀ key, (expired.lookup key).isSome = true → MarkerKey key

/-- The requests that were completed; the oldest one can be found among them. -/
structure CompletedOk (completed : Table Bytes Completed) : Prop where
  room : size completed ≤ completedCacheLimit
  dated : ∀ key e, completed.lookup key = some e → e.completedUs < int64Max

structure Bounded (p : EgpProtocol) : Prop where
  room : size p.incomplete ≤ egpProtocolMaxIncomplete
  held : ∀ key t, p.incomplete.lookup key = some t → Held key t
  completed : CompletedOk p.completed
  expired : MarkersOk p.expired

variable {p q : EgpProtocol} {o : Visits} {now : Int}

/-- The empty tables are bounded. -/
theorem bounded_new : Bounded egpProtocolNew where
  room := Nat.zero_le _
  held := by
    intro key t h
    cases h
  completed := ⟨Nat.zero_le _, by
    intro key e h
    cases h⟩
  expired := ⟨Nat.zero_le _, by
    intro key h
    cases h⟩

/-- Transactions vanish. -/
theorem Bounded.shrink (h : Bounded p) {incomplete : Table Bytes Incomplete}
    (hsub : ∀ key t, incomplete.lookup key = some t → p.incomplete.lookup key = some t) :
    Bounded { p with incomplete } where
  room := Nat.le_trans (size_le_of_lookup hsub) h.room
  held := fun key t ht => h.held key t (hsub key t ht)
  completed := h.completed
  expired := h.expired

theorem Bounded.erase (h : Bounded p) (key : Bytes) :
    Bounded { p with incomplete := p.incomplete.erase key } :=
  h.shrink fun _ _ ht => lookup_of_erase ht

/-! ## Markers -/

/-- A marker that is added keeps the bounds of the markers. -/
theorem markersOk_remember {expired : Table Bytes Int} (h : MarkersOk expired) {t : Incomplete}
    (hpath : isObjectPath t.peerPath = true) : MarkersOk (rememberTimeout o now expired t) where
  room := by
    have hlimit : 0 < completedCacheLimit := by decide
    have hroom := size_evict_lt o hlimit (size expired) (le_refl _)
    have hinsert := size_insert_le (evict o completedCacheLimit (size expired) expired)
      (completedKey t.peerPath t.characteristic t.transactionId) (now + egpProtocolLifetimeUs)
    unfold rememberTimeout
    omega
  keys := by
    intro key hkey
    rcases lookup_rememberTimeout o now expired t hkey with hold | rfl
    · exact h.keys key hold
    · exact ⟨_, _, _, hpath, rfl⟩

theorem markersOk_rememberAll {gone : List Incomplete} {expired : Table Bytes Int}
    (h : MarkersOk expired) (hpaths : ∀ t ∈ gone, isObjectPath t.peerPath = true) :
    MarkersOk (gone.foldl (rememberTimeout o now) expired) := by
  induction gone generalizing expired with
  | nil => exact h
  | cons t gone ih =>
      apply ih (markersOk_remember h (hpaths t (by simp)))
      intro t' ht'
      exact hpaths t' (by simp [ht'])

theorem markersOk_retain {expired : Table Bytes Int} (h : MarkersOk expired)
    (keep : Bytes → Int → Bool) : MarkersOk (retain keep expired) where
  room := Nat.le_trans (size_retain_le keep expired) h.room
  keys := by
    intro key hkey
    rw [lookup_retain] at hkey
    exact h.keys key (isSome_of_filter hkey)

/-- Expiry keeps the bounds. -/
theorem bounded_expire (h : Bounded p) (o : Visits) (now : Int) :
    Bounded (egpProtocolExpire o p now) := by
  unfold egpProtocolExpire
  split
  · exact h
  · have hpaths : ∀ t ∈ ((o.order p.incomplete.entries).map Sigma.snd).filter (·.timedOut now),
        isObjectPath t.peerPath = true := by
      intro t ht
      obtain ⟨⟨key, t'⟩, hentry, rfl⟩ := List.mem_map.mp (List.mem_filter.mp ht).1
      exact (h.held key t' (lookup_eq_some_iff.mpr ((o.perm _).mem_iff.mp hentry))).path
    have hmarkers := @markersOk_rememberAll o now _ _ h.expired hpaths
    refine ⟨?_, ?_, ⟨?_, ?_⟩, markersOk_retain hmarkers fun _ expires => now < expires⟩
    · exact Nat.le_trans (size_retain_le _ _) h.room
    · intro key t ht
      simp only [lookup_retain, Option.filter_eq_some_iff] at ht
      exact h.held key t ht.1
    · exact Nat.le_trans (size_retain_le _ _) h.completed.room
    · intro key e he
      simp only [lookup_retain, Option.filter_eq_some_iff] at he
      exact h.completed.dated key e he.1

/-! ## Frames -/

/-- The state behind the answer, or in front of the completion. -/
def Fits : Assembly → Prop
  | .answered p _ => Bounded p
  | .whole p _ _ => Bounded p

/-- A transaction that takes a frame, and a place in the table for it. -/
theorem mergeFrame_fits {now : Int} (h : Bounded p) {key : Bytes} {t : Incomplete} {frame : Frame}
    (hheld : Held key t) (htotal : t.totalLength = frame.total)
    (hfits : frame.offset + frame.fragment.length ≤ frame.total)
    (hplace : (∃ t', p.incomplete.lookup key = some t') ∨
      size p.incomplete < egpProtocolMaxIncomplete) :
    Fits (mergeFrame p key t frame now) := by
  cases mergeFrame_cases p key t frame now with
  | conflict error bytes code eq =>
      rw [eq]
      exact h.erase key
  | gap m error bytes ended count code eq =>
      rw [eq]
      exact h.erase key
  | kept m bytes open_ eq =>
      rw [eq]
      obtain ⟨hpeer, hc, -⟩ := mergeBytes_same bytes
      have hstored := (mergeBytes_some bytes hheld.stored (by omega)).1
      have hnew : Held key { m with touchedUs := now, endSeen := false } := by
        refine ⟨?_, ?_, ⟨hstored.total, hstored.data, hstored.received, hstored.count,
          hstored.bound⟩⟩
        · rw [hheld.keyed, hpeer, hc]
        · exact hpeer ▸ hheld.path
      refine ⟨?_, ?_, h.completed, h.expired⟩
      · rcases hplace with ⟨t', ht'⟩ | hroom
        · show size (p.incomplete.insert key _) ≤ _
          rw [size_insert_of_lookup ht']
          exact h.room
        · exact Nat.le_trans (size_insert_le _ _ _) hroom
      · intro key' t' ht'
        have hparts : (if key' = key then some _ else p.incomplete.lookup key') = some t' :=
          (lookup_insert_eq _ _ _ _).symm.trans ht'
        split at hparts
        · rename_i hkey
          rw [hkey, ← Option.some.inj hparts]
          exact hnew
        · exact h.held key' t' hparts
  | whole m bytes ended count eq =>
      rw [eq]
      exact h

/-- A frame keeps the bounds of the transactions. -/
theorem assembleFrame_fits (h : Bounded p) (o : Visits) {peer : Bytes}
    (hpeer : isObjectPath peer = true) (c : EgpWritableCharacteristic) {frame : Frame}
    (htotal : frame.total ≤ egpProtocolMaxJson)
    (hfits : frame.offset + frame.fragment.length ≤ frame.total) :
    Fits (assembleFrame o p peer c frame now) := by
  have hr := bounded_expire h o now
  unfold assembleFrame
  simp only
  generalize egpProtocolExpire o p now = r at hr ⊢
  split
  · exact hr
  · cases hfound : r.incomplete.lookup (incompleteKey peer c) with
    | none =>
        simp only
        split
        · exact hr
        · by_cases hfull : egpProtocolMaxIncomplete ≤ size r.incomplete
          · rw [if_pos hfull]
            exact hr
          · rw [if_neg hfull]
            have hfresh : Held (incompleteKey peer c) (.fresh peer c frame now) :=
              ⟨rfl, hpeer, stored_fresh peer c now htotal⟩
            exact mergeFrame_fits hr hfresh rfl hfits (.inr (by omega))
    | some t =>
        simp only
        split
        · exact hr
        · rename_i hsame
          simp only [Bool.or_eq_true, bne_iff_ne, ne_eq, not_or, Decidable.not_not] at hsame
          exact mergeFrame_fits hr (hr.held _ t hfound) hsame.2 hfits (.inl ⟨t, hfound⟩)

/-- A value keeps the bounds of the transactions. -/
theorem assemble_fits (h : Bounded p) (o : Visits) (peer : Bytes)
    (c : EgpWritableCharacteristic) (value : Bytes) (now : Int) :
    Fits (assemble o p peer c value now) := by
  unfold assemble
  split
  · exact h
  · rename_i hinput
    have hpeer : isObjectPath peer = true := by
      simp only [Bool.or_eq_true, not_or, Bool.not_eq_true', Bool.not_eq_false] at hinput
      exact hinput.1.2
    cases hframe : parseFrame c value with
    | error error => exact h
    | ok frame =>
        obtain ⟨htotal, hfits⟩ := parseFrame_ok hframe
        simp only
        cases hfound : p.incomplete.lookup (incompleteKey peer c) with
        | none => exact assembleFrame_fits h o hpeer c htotal hfits
        | some t =>
            simp only
            split
            · have haged : Bounded { p with
                  incomplete := p.incomplete.erase (incompleteKey peer c)
                  expired := rememberTimeout o now p.expired t } := by
                have herase := h.erase (incompleteKey peer c)
                exact ⟨herase.room, herase.held, h.completed,
                  markersOk_remember h.expired (h.held _ t hfound).path⟩
              split
              · exact haged
              · exact assembleFrame_fits haged o hpeer c htotal hfits
            · exact assembleFrame_fits h o hpeer c htotal hfits

/-- A completion keeps the bounds. -/
theorem bounded_complete (sha256 : Bytes → Bytes) (h : Bounded p) (o : Visits) (key : Bytes)
    (t : Incomplete) (hnow : now < int64Max) :
    Bounded (completeTransaction sha256 o p key t now).1 := by
  unfold completeTransaction
  simp only
  split
  · exact h.erase key
  · split
    · split
      · exact h.erase key
      · exact h.erase key
    · have herase := h.erase key
      refine ⟨herase.room, herase.held, ⟨?_, ?_⟩, h.expired⟩
      · have hlimit : 0 < completedCacheLimit := by decide
        have hroom := size_prune_lt o Completed.completedUs int64Max hlimit (size p.completed)
          (le_refl _) h.completed.dated
        exact Nat.le_trans (size_insert_le _ _ _) hroom
      · intro key' e he
        simp only [lookup_insert_eq] at he
        split at he
        · rw [← Option.some.inj he]
          exact hnow
        · exact h.completed.dated key' e (lookup_prune_le o _ _ _ _ _ he)

theorem bounded_accept (sha256 : Bytes → Bytes) (h : Bounded p) (o : Visits) (peer : Bytes)
    (c : EgpWritableCharacteristic) (value : Bytes) (hnow : now < int64Max) :
    Bounded (egpProtocolAccept sha256 o p peer c value now).1 := by
  have hfits := assemble_fits h o peer c value now
  unfold egpProtocolAccept
  generalize assemble o p peer c value now = assembly at hfits ⊢
  cases assembly with
  | answered q reply => exact hfits
  | whole q key t => exact bounded_complete sha256 hfits o key t hnow

/-! ## The other calls -/

/-- A cached result keeps the bounds. -/
theorem bounded_cacheResultId (h : Bounded p) (o : Visits) (peer : Bytes)
    (c : EgpWritableCharacteristic) (id : TransactionId) (result : Bytes) :
    Bounded (egpProtocolCacheResultId o p peer c id result now).1 := by
  have hr := bounded_expire h o now
  unfold egpProtocolCacheResultId
  split
  · exact h
  · simp only
    generalize egpProtocolExpire o p now = r at hr ⊢
    cases hfound : r.completed.lookup (completedKey peer c id) with
    | none => exact hr
    | some completed =>
        refine ⟨hr.room, hr.held, ⟨?_, ?_⟩, hr.expired⟩
        · show size (r.completed.insert _ _) ≤ _
          rw [size_insert_of_lookup hfound]
          exact hr.completed.room
        · intro key e he
          simp only [lookup_insert_eq] at he
          split at he
          · rw [← Option.some.inj he]
            exact hr.completed.dated _ completed hfound
          · exact hr.completed.dated key e he

theorem bounded_dropPeer (h : Bounded p) (peer : Bytes) : Bounded (egpProtocolDropPeer p peer) where
  room := Nat.le_trans (size_retain_le _ _) h.room
  held := by
    intro key t ht
    simp only [egpProtocolDropPeer, lookup_retain, Option.filter_eq_some_iff] at ht
    exact h.held key t ht.1
  completed := h.completed
  expired := markersOk_retain h.expired fun key _ => !markerOf peer key

/-- Every step keeps the bounds. -/
theorem bounded_step (sha256 : Bytes → Bytes) (h : Bounded p) (o : Visits) (hnow : now < int64Max)
    (event : Event) : Bounded (step sha256 o p now event).1 := by
  cases event with
  | accept peer c value => exact bounded_accept sha256 h o peer c value hnow
  | cacheResultId peer c id result => exact bounded_cacheResultId h o peer c id result
  | expire => exact bounded_expire h o now
  | dropPeer peer => exact bounded_dropPeer h peer
  | dropAll => exact bounded_new

/-- Every call of the interface keeps the bounds. -/
theorem bounded_perform (sha256 : Bytes → Bytes) (h : Bounded p) {call : Call}
    (hnow : call.now < int64Max) : Bounded (perform sha256 p call).1 := by
  obtain ⟨now, o, action⟩ := call
  cases action with
  | event event => exact bounded_step sha256 h o hnow event
  | cacheResult request result =>
      have hr := bounded_expire h o now
      show Bounded (egpProtocolCacheResult sha256 o p request result now).1
      unfold egpProtocolCacheResult
      split
      · exact h
      · simp only
        split
        · exact hr
        · split
          · exact hr
          · exact bounded_cacheResultId hr o _ _ _ _

/-! ## A peer that is dropped -/

theorem colon_not_mem_format (id : TransactionId) : 0x3a ∉ egpTransactionIdFormat id := by
  intro hmem
  have hfilter : (0x3a : UInt8) ∈ (egpTransactionIdFormat id).filter (· != 0x2d) :=
    List.mem_filter.mpr ⟨hmem, rfl⟩
  rw [filter_format] at hfilter
  obtain ⟨b, -, hb⟩ := List.mem_flatMap.mp hfilter
  have hlt := b.toNat_lt
  have hne : ∀ n < 16, hexDigit n ≠ 0x3a := by decide
  simp only [hexByte, List.mem_cons, List.not_mem_nil, or_false] at hb
  rcases hb with hb | hb
  · exact hne _ (by omega) hb.symm
  · exact hne _ (by omega) hb.symm

theorem findIdx_colon {front : Bytes} (h : 0x3a ∉ front) (rest : Bytes) :
    (front ++ 0x3a :: rest).findIdx (· == 0x3a) = front.length := by
  have hnone : front.findIdx (· == 0x3a) = front.length := by
    rw [List.findIdx_eq_length]
    intro b hb
    rw [beq_eq_false_iff_ne]
    rintro rfl
    exact h hb
  rw [List.findIdx_append, hnone, if_neg (by omega), List.findIdx_cons]
  exact Nat.zero_add _

/-- The key of a marker names its peer between the first colon and the last one, also
when the path itself has colons. -/
theorem markerOf_completedKey {peer other : Bytes} (hne : peer ≠ [])
    (c : EgpWritableCharacteristic) (id : TransactionId) :
    markerOf other (completedKey peer c id) = true ↔ peer = other := by
  have hnumber : (0x3a : UInt8) ∉ decimal c.number := by
    rw [decimal_number]
    cases c <;> decide
  have hlength : (decimal c.number).length = 1 := by
    rw [decimal_number]
    rfl
  have hkey : completedKey peer c id =
      decimal c.number ++ 0x3a :: (peer ++ 0x3a :: egpTransactionIdFormat id) := by
    simp only [completedKey, List.append_assoc, List.cons_append, List.nil_append]
  have hfirst : (completedKey peer c id).findIdx (· == 0x3a) = 1 := by
    rw [hkey, findIdx_colon hnumber, hlength]
  have hreverse : (completedKey peer c id).reverse =
      (egpTransactionIdFormat id).reverse ++
        0x3a :: (decimal c.number ++ 0x3a :: peer).reverse := by
    rw [hkey]
    simp only [List.reverse_append, List.reverse_cons, List.append_assoc, List.nil_append,
      List.cons_append]
  have hlast : (completedKey peer c id).reverse.findIdx (· == 0x3a) = 36 := by
    rw [hreverse, findIdx_colon, List.length_reverse, length_format]
    rw [List.mem_reverse]
    exact colon_not_mem_format id
  have hsize : (completedKey peer c id).length = peer.length + 39 := by
    rw [hkey]
    simp only [List.length_append, List.length_cons, hlength, length_format]
    omega
  have hpos : 0 < peer.length := List.length_pos_iff.mpr hne
  have hmiddle : ((completedKey peer c id).take (peer.length + 2)).drop 2 = peer := by
    rw [hkey, decimal_number]
    simp
  have hcontains : (completedKey peer c id).contains 0x3a = true := by
    rw [hkey]
    simp
  unfold markerOf
  simp only [hfirst, hlast, hsize, hcontains, Bool.true_and, Bool.and_eq_true, decide_eq_true_eq,
    beq_iff_eq]
  rw [show peer.length + 39 - 1 - 36 = peer.length + 2 from by omega, hmiddle]
  constructor
  · exact And.right
  · intro h
    exact ⟨by omega, h⟩

/-- What `egp_protocol_drop_peer` leaves. -/
structure Drops (peer : Bytes) (p q : EgpProtocol) : Prop where
  transactions : ∀ c, q.incomplete.lookup (incompleteKey peer c) = none
  markers : ∀ c id, q.expired.lookup (completedKey peer c id) = none
  otherTransactions : ∀ key, (∀ c, key ≠ incompleteKey peer c) →
    q.incomplete.lookup key = p.incomplete.lookup key
  otherMarkers : ∀ key, (∀ c id, key ≠ completedKey peer c id) →
    q.expired.lookup key = p.expired.lookup key
  completed : q.completed = p.completed

/-- Dropping a peer leaves nothing of it, and everything of the other peers. -/
theorem drops_dropPeer (h : Bounded p) {peer : Bytes} (hpeer : isObjectPath peer = true) :
    Drops peer p (egpProtocolDropPeer p peer) where
  transactions := by
    intro c
    simp only [egpProtocolDropPeer, lookup_retain]
    cases hfound : p.incomplete.lookup (incompleteKey peer c) with
    | none => rfl
    | some t =>
        have hsame := (incompleteKey_inj (h.held _ t hfound).keyed).1
        rw [Option.filter_some, if_neg (by simp [hsame])]
  markers := by
    intro c id
    have hne : peer ≠ [] := by
      rintro rfl
      cases hpeer
    simp only [egpProtocolDropPeer, lookup_retain, (markerOf_completedKey hne c id).mpr rfl]
    cases p.expired.lookup (completedKey peer c id) <;> rfl
  otherTransactions := by
    intro key hkey
    simp only [egpProtocolDropPeer, lookup_retain]
    cases hfound : p.incomplete.lookup key with
    | none => rfl
    | some t =>
        have hother : t.peerPath ≠ peer := by
          intro hsame
          have hkeyed := (h.held key t hfound).keyed
          rw [hsame] at hkeyed
          exact hkey _ hkeyed
        rw [Option.filter_some, if_pos (by simpa using hother)]
  otherMarkers := by
    intro key hkey
    simp only [egpProtocolDropPeer, lookup_retain]
    cases hfound : p.expired.lookup key with
    | none => rfl
    | some expires =>
        obtain ⟨owner, c, id, howner, rfl⟩ := h.expired.keys key (by rw [hfound]; rfl)
        have hne : owner ≠ [] := by
          rintro rfl
          cases howner
        have hother : markerOf peer (completedKey owner c id) = false := by
          rw [Bool.eq_false_iff, ne_eq, markerOf_completedKey hne]
          rintro rfl
          exact hkey c id rfl
        rw [hother]
        rfl
  completed := rfl

/-! ## Runs -/

/-- The state behind the calls. -/
def reached (sha256 : Bytes → Bytes) (calls : List PeerIsolation.Call) : EgpProtocol :=
  calls.foldl (fun p call => (perform sha256 p call).1) egpProtocolNew

/-- The time that the engine adds to the clock does not leave 64 bits. -/
def Clocked (calls : List PeerIsolation.Call) : Prop :=
  ∀ call ∈ calls, call.now + egpProtocolReplayTtlUs ≤ int64Max

instance (calls : List PeerIsolation.Call) : Decidable (Clocked calls) :=
  inferInstanceAs (Decidable (∀ call ∈ calls, _))

/-- Any number of calls keeps the bounds. -/
theorem bounded_calls (sha256 : Bytes → Bytes) {calls : List PeerIsolation.Call}
    (hclock : Clocked calls) (h : Bounded p) :
    Bounded (calls.foldl (fun p call => (perform sha256 p call).1) p) := by
  induction calls generalizing p with
  | nil => exact h
  | cons call calls ih =>
      have hnow := hclock call (by simp)
      have hlate : call.now < int64Max := by
        rw [egpProtocolReplayTtlUs] at hnow
        omega
      apply ih
      · intro other hother
        exact hclock other (by simp [hother])
      · exact bounded_perform sha256 h hlate

theorem bounded_reached (sha256 : Bytes → Bytes) {calls : List PeerIsolation.Call}
    (hclock : Clocked calls) : Bounded (reached sha256 calls) :=
  bounded_calls sha256 hclock bounded_new

/-- The tables of a reachable state, and what is dropped with a peer. -/
theorem tables_bounded (sha256 : Bytes → Bytes) (calls : List PeerIsolation.Call)
    (hclock : Clocked calls) :
    size (reached sha256 calls).incomplete ≤ egpProtocolMaxIncomplete ∧
    (∀ key t key' t', (reached sha256 calls).incomplete.lookup key = some t →
      (reached sha256 calls).incomplete.lookup key' = some t' → t.peerPath = t'.peerPath →
        t.characteristic = t'.characteristic → key = key' ∧ t = t') ∧
    (∀ key t, (reached sha256 calls).incomplete.lookup key = some t →
      t.receivedCount = t.received.count true ∧
      (∀ position, t.totalLength ≤ position → t.received.getD position false = false) ∧
      t.totalLength ≤ egpProtocolMaxJson) ∧
    size (reached sha256 calls).completed ≤ completedCacheLimit ∧
    size (reached sha256 calls).expired ≤ completedCacheLimit ∧
    ∀ peer, isObjectPath peer = true →
      Drops peer (reached sha256 calls) (egpProtocolDropPeer (reached sha256 calls) peer) := by
  have h := bounded_reached sha256 hclock
  refine ⟨h.room, ?_, ?_, h.completed.room, h.expired.room, fun _ hpeer => drops_dropPeer h hpeer⟩
  · intro key t key' t' ht ht' hpeer hc
    have hkey : key = key' := by
      rw [(h.held key t ht).keyed, (h.held key' t' ht').keyed, hpeer, hc]
    subst hkey
    exact ⟨rfl, Option.some.inj (ht.symm.trans ht')⟩
  · intro key t ht
    have hstored := (h.held key t ht).stored
    refine ⟨hstored.count, ?_, hstored.total⟩
    intro position hbehind
    rw [Bool.eq_false_iff]
    intro hset
    have hbefore := hstored.bound position hset
    omega

/-- Two frames of a peer and one of its neighbour, all on the way. -/
theorem tables_bounded_neighbours :
    size (reached (fun _ => []) sharedCalls).incomplete ≤ egpProtocolMaxIncomplete :=
  (tables_bounded (fun _ => []) sharedCalls (by decide +kernel)).1

end EdgeGuard.Provisioning.ProtocolTables
