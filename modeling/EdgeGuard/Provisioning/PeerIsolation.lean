import EdgeGuard.Base.Noninterference
import EdgeGuard.Provisioning.ProtocolRun

/-!
# What a peer learns of the others

All peers share the tables of the protocol engine, and every call of one of them
ages the entries of all.  While no transaction of a peer times out and no table is
full, the others change nothing that the peer can observe.

## Main results

* `unwinding` — the conditions on one call.
* `replies_independent` — two runs that differ in the calls of other peers.
-/

namespace EdgeGuard.Provisioning.PeerIsolation

open EdgeGuard.Base EdgeGuard.Base.CText EdgeGuard.Base.Utf8 EdgeGuard.Base.HashTable
open EdgeGuard.Provisioning.Model EdgeGuard.Provisioning.Protocol
open EdgeGuard.Provisioning.ProtocolRun

/-! ## Calls -/

/-- The calls of a run, and the one that names the whole request. -/
inductive Action
  | event (event : Event)
  | cacheResult (request : EgpProtocolRequest) (result : Bytes)

/-- A call, with the orders in which it visits the tables. -/
structure Call where
  now : Int
  visits : Visits
  action : Action

def concerns (peer : Bytes) : Action → Bool
  | .event (.accept other _ _) => other == peer
  | .event (.cacheResultId other _ _ _) => other == peer
  | .event (.dropPeer other) => other == peer
  | .event .expire => true
  | .event .dropAll => true
  | .cacheResult request _ => request.peerPath == peer

/-- The time and the action of a call that concerns the peer. -/
def concerning (peer : Bytes) (call : Call) : Option (Int × Action) :=
  if concerns peer call.action then some (call.now, call.action) else none

def perform (sha256 : Bytes → Bytes) (p : EgpProtocol) (call : Call) : EgpProtocol × Reply :=
  match call.action with
  | .event event => step sha256 call.visits p call.now event
  | .cacheResult request result =>
      let r := egpProtocolCacheResult sha256 call.visits p request result call.now
      (r.1, .cached r.2)

/-- The tests of `egp_protocol_accept` in front of its tables. -/
def frameTaken (peer : Bytes) (c : EgpWritableCharacteristic) (value : Bytes) (now : Int) :
    Except EgpError Frame :=
  if egpDbusPathCap ≤ peer.length || !isObjectPath peer || now ≤ 0 then
    .error (protocolFail .blePayloadInvalid true "Protocol input is invalid")
  else parseFrame c value

/-- The tests of both functions that cache a result. -/
def resultRefused (now : Int) (result : Bytes) : Bool :=
  now ≤ 0 || egpProtocolMaxJson < result.length || !valid result

/-- The call looks for transactions that have timed out. -/
def ages (now : Int) : Action → Bool
  | .event (.accept peer c value) => (frameTaken peer c value now).isOk
  | .event (.cacheResultId _ _ _ result) => !resultRefused now result
  | .event .expire => 0 < now
  | .event (.dropPeer _) => false
  | .event .dropAll => false
  | .cacheResult _ result => !resultRefused now result

/-- The call finds no transaction of the peer that has timed out, and room in the
tables. -/
def Quiet (peer : Bytes) (p : EgpProtocol) (call : Call) : Prop :=
  (ages call.now call.action = true → ∀ e ∈ p.incomplete.entries, e.2.peerPath = peer →
    e.2.timedOut call.now = false) ∧
  size p.incomplete < egpProtocolMaxIncomplete ∧ size p.completed < completedCacheLimit

instance (peer : Bytes) (p : EgpProtocol) (call : Call) : Decidable (Quiet peer p call) :=
  inferInstanceAs (Decidable (_ ∧ _))

/-! ## Views -/

/-- What the tables hold of one peer. -/
@[ext]
structure View where
  incomplete : EgpWritableCharacteristic → Option Incomplete
  completed : EgpWritableCharacteristic → TransactionId → Option Completed

/-- The view from some time on: completed requests that have expired by then are not
part of it. -/
def viewOf (peer : Bytes) (clock : Int) (p : EgpProtocol) : View where
  incomplete c := p.incomplete.lookup (incompleteKey peer c)
  completed c id :=
    (p.completed.lookup (completedKey peer c id)).filter fun e => decide (clock < e.expiresUs)

/-- No transaction of the peer is marked as timed out. -/
def Unmarked (peer : Bytes) (p : EgpProtocol) : Prop :=
  ∀ c id, p.expired.lookup (completedKey peer c id) = none

/-- No transaction of the peer has timed out. -/
def Live (peer : Bytes) (now : Int) (p : EgpProtocol) : Prop :=
  ∀ k t, p.incomplete.lookup k = some t → t.peerPath = peer → t.timedOut now = false

variable {sha256 : Bytes → Bytes} {peer : Bytes} {clock now : Int} {p q r : EgpProtocol}
  {o o' : Visits}

/-- The view of a peer depends on its own keys. -/
theorem viewOf_congr
    (hincomplete : ∀ c, q.incomplete.lookup (incompleteKey peer c) =
      p.incomplete.lookup (incompleteKey peer c))
    (hcompleted : ∀ c id, q.completed.lookup (completedKey peer c id) =
      p.completed.lookup (completedKey peer c id)) :
    viewOf peer clock q = viewOf peer clock p := by
  apply View.ext
  · exact funext hincomplete
  · funext c id
    show Option.filter _ _ = Option.filter _ _
    rw [hcompleted c id]

/-- What agrees now agrees later. -/
theorem viewOf_later {later : Int} (hle : clock ≤ later)
    (h : viewOf peer clock p = viewOf peer clock q) :
    viewOf peer later p = viewOf peer later q := by
  have hfilter : ∀ (x : Option Completed), x.filter (fun e => decide (later < e.expiresUs)) =
      (x.filter fun e => decide (clock < e.expiresUs)).filter
        fun e => decide (later < e.expiresUs) := by
    intro x
    rw [Option.filter_filter]
    congr 1
    funext e
    by_cases hlater : later < e.expiresUs
    · have hclock : clock < e.expiresUs := by omega
      simp [hlater, hclock]
    · simp [hlater]
  have hincomplete := congrArg View.incomplete h
  have hcompleted := congrArg View.completed h
  apply View.ext
  · exact hincomplete
  · funext c id
    show Option.filter _ _ = Option.filter _ _
    rw [hfilter, hfilter (q.completed.lookup _)]
    exact congrArg _ (congrFun (congrFun hcompleted c) id)

theorem Quiet.live {call : Call} (h : Quiet peer p call)
    (hages : ages call.now call.action = true) : Live peer call.now p :=
  fun _ _ hk hpeer => h.1 hages _ (lookup_eq_some_iff.mp hk) hpeer

/-- What time takes away is not seen, nor is it a transaction of the peer. -/
theorem aged_view (h : Aged now p q) (hp : Tidy p) (hlive : Live peer now p)
    (hle : now ≤ clock) :
    viewOf peer clock q = viewOf peer clock p ∧ (Unmarked peer p → Unmarked peer q) := by
  constructor
  · apply View.ext
    · funext c
      show q.incomplete.lookup _ = p.incomplete.lookup _
      cases hfound : p.incomplete.lookup (incompleteKey peer c) with
      | none =>
          apply Option.eq_none_iff_forall_not_mem.mpr
          intro t ht
          rw [h.incomplete _ t ht] at hfound
          cases hfound
      | some t =>
          have hpeer := (incompleteKey_inj (hp.keyed _ t hfound)).1
          exact h.live _ t hfound (hlive _ t hfound hpeer.symm)
    · funext c id
      show Option.filter _ _ = Option.filter _ _
      cases hfound : p.completed.lookup (completedKey peer c id) with
      | none =>
          cases hkept : q.completed.lookup (completedKey peer c id) with
          | none => rfl
          | some e =>
              rw [h.completed _ e hkept] at hfound
              cases hfound
      | some e =>
          by_cases hcurrent : clock < e.expiresUs
          · rw [h.current _ e hfound (by omega)]
          · cases hkept : q.completed.lookup (completedKey peer c id) with
            | none => rw [Option.filter_some, if_neg (by simpa using hcurrent), Option.filter_none]
            | some e' =>
                have hsame := h.completed _ e' hkept
                rw [hfound] at hsame
                cases hsame
                rfl
  · intro hunmarked c id
    by_contra hmarked
    rcases h.expired _ (by simpa [Option.isSome_iff_ne_none] using hmarked) with
      hm | ⟨k, t, hk, hgone, hm⟩
    · rw [hunmarked c id] at hm
      cases hm
    · have hpeer := (completedKey_inj hm).1
      rw [h.live k t hk (hlive k t hk hpeer.symm)] at hgone
      cases hgone

/-! ## Calls of other peers -/

theorem frameTaken_ok {c : EgpWritableCharacteristic} {value : Bytes} {frame : Frame}
    (hinput : Acceptable peer now) (hframe : parseFrame c value = .ok frame) :
    frameTaken peer c value now = .ok frame := by
  obtain ⟨hlength, hpath, hnow⟩ := hinput
  unfold frameTaken
  rw [if_neg (by simp [hpath]; omega)]
  exact hframe

/-- The transactions under other keys stay. -/
theorem view_erase_other {key : Bytes} (hkey : ∀ c, incompleteKey peer c ≠ key) :
    viewOf peer clock { p with incomplete := p.incomplete.erase key } = viewOf peer clock p := by
  refine viewOf_congr (fun c => ?_) fun _ _ => rfl
  show (p.incomplete.erase key).lookup _ = _
  rw [lookup_erase_eq, if_neg (hkey c)]

theorem view_insert_other {key : Bytes} (hkey : ∀ c, incompleteKey peer c ≠ key)
    (t : Incomplete) :
    viewOf peer clock { p with incomplete := p.incomplete.insert key t } =
      viewOf peer clock p := by
  refine viewOf_congr (fun c => ?_) fun _ _ => rfl
  show (p.incomplete.insert key t).lookup _ = _
  rw [lookup_insert_eq, if_neg (hkey c)]

theorem view_completed_other {key : Bytes} (hkey : ∀ c id, completedKey peer c id ≠ key)
    (e : Completed) :
    viewOf peer clock { p with completed := p.completed.insert key e } =
      viewOf peer clock p := by
  refine viewOf_congr (fun _ => rfl) fun c id => ?_
  show (p.completed.insert key e).lookup _ = _
  rw [lookup_insert_eq, if_neg (hkey c id)]

/-- With room in the table nothing is pruned. -/
theorem pruneCompletedLimit_of_lt (o : Visits) {completed : Table Bytes Completed}
    (h : size completed < completedCacheLimit) : pruneCompletedLimit o completed = completed :=
  prune_of_lt o _ _ _ h

/-- `complete_transaction` for another peer. -/
theorem completeTransaction_other (o : Visits) {t : Incomplete} {key : Bytes}
    (hkey : ∀ c, incompleteKey peer c ≠ key) (hpeer : t.peerPath ≠ peer)
    (hroom : size p.completed < completedCacheLimit) :
    viewOf peer clock (completeTransaction sha256 o p key t now).1 = viewOf peer clock p := by
  have herase : viewOf peer clock { p with incomplete := p.incomplete.erase key } =
      viewOf peer clock p := view_erase_other hkey
  unfold completeTransaction
  simp only
  split
  · exact herase
  · split
    · split
      · exact herase
      · exact herase
    · rw [pruneCompletedLimit_of_lt o hroom]
      refine Eq.trans ?_ herase
      exact view_completed_other (p := { p with incomplete := p.incomplete.erase key })
        (fun c id h => hpeer (completedKey_inj h).1.symm) _

theorem completeTransaction_expired (o : Visits) (t : Incomplete) (key : Bytes) :
    (completeTransaction sha256 o p key t now).1.expired = p.expired := by
  obtain ⟨completed, hstate⟩ := completeTransaction_state sha256 o p key t now
  rw [hstate]

/-- A frame of another peer. -/
theorem accept_other {other : Bytes} {c : EgpWritableCharacteristic} {value : Bytes}
    (hp : Tidy p) (hquiet : Quiet peer p ⟨now, o, .event (.accept other c value)⟩)
    (hne : other ≠ peer)
    (hle : now ≤ clock) :
    viewOf peer clock (egpProtocolAccept sha256 o p other c value now).1 =
        viewOf peer clock p ∧
      (Unmarked peer p → Unmarked peer (egpProtocolAccept sha256 o p other c value now).1) := by
  unfold egpProtocolAccept
  rcases assemble_cases o p other c value now with ⟨-, error, heq⟩ | ⟨hinput, frame, hframe, hcases⟩
  · rw [heq]
    exact ⟨rfl, id⟩
  · have hlive : Live peer now p := by
      apply hquiet.live
      show (frameTaken other c value now).isOk = true
      rw [frameTaken_ok hinput hframe]
      rfl
    have hkey : ∀ c', incompleteKey peer c' ≠ incompleteKey other c :=
      fun c' h => hne (incompleteKey_inj h).1.symm
    cases hcases with
    | refused q error aged eq =>
        rw [eq]
        exact aged_view aged hp hlive hle
    | joined q t aged current unmarked joins eq =>
        obtain ⟨hview, hmarks⟩ := aged_view aged hp hlive hle
        have hpeer := (joins.fields (hp.aged aged)).1
        have hroom : size q.completed < completedCacheLimit :=
          Nat.lt_of_le_of_lt (size_le_of_lookup aged.completed) hquiet.2.2
        rw [eq]
        cases mergeFrame_cases q (incompleteKey other c) t frame now with
        | conflict error bytes code eq =>
            rw [eq]
            exact ⟨(view_erase_other hkey).trans hview, hmarks⟩
        | gap m error bytes ended count code eq =>
            rw [eq]
            exact ⟨(view_erase_other hkey).trans hview, hmarks⟩
        | kept m bytes open_ eq =>
            rw [eq]
            exact ⟨(view_insert_other hkey _).trans hview, hmarks⟩
        | whole m bytes ended count eq =>
            rw [eq]
            have hother : m.peerPath ≠ peer := by
              rw [(mergeBytes_same bytes).1, hpeer]
              exact hne
            refine ⟨(completeTransaction_other o hkey hother hroom).trans hview,
              fun hunmarked => ?_⟩
            intro c' id
            rw [completeTransaction_expired]
            exact hmarks hunmarked c' id

theorem frameAges {c : EgpWritableCharacteristic} {value : Bytes} {frame : Frame}
    (h : frameTaken peer c value now = .ok frame) :
    ages now (.event (.accept peer c value)) = true := by
  show (frameTaken peer c value now).isOk = true
  rw [h]
  rfl

theorem live_of_aged (h : Aged now p q) (hlive : Live peer now p) : Live peer now q :=
  fun k t hk hpeer => hlive k t (h.incomplete k t hk) hpeer

theorem test_of_refused {result : Bytes} (h : resultRefused now result = true) :
    (decide (now ≤ 0) || decide (egpProtocolMaxJson < result.length) || !valid result) = true := h

theorem test_of_taken {result : Bytes} (h : ¬ resultRefused now result = true) :
    ¬ (decide (now ≤ 0) || decide (egpProtocolMaxJson < result.length) || !valid result) = true := h

theorem ages_of_taken {result : Bytes} (h : ¬ resultRefused now result = true) :
    (!resultRefused now result) = true := by
  rw [eq_false_of_ne_true h]
  rfl

/-- The result of another peer's request. -/
theorem cacheResultId_other {other : Bytes} (o : Visits) (c : EgpWritableCharacteristic)
    (id : TransactionId) {result : Bytes} (hp : Tidy p) (hne : other ≠ peer)
    (hlive : (!resultRefused now result) = true → Live peer now p) (hle : now ≤ clock) :
    viewOf peer clock (egpProtocolCacheResultId o p other c id result now).1 =
        viewOf peer clock p ∧
      (Unmarked peer p → Unmarked peer (egpProtocolCacheResultId o p other c id result now).1) := by
  unfold egpProtocolCacheResultId
  by_cases hinput : resultRefused now result = true
  · rw [if_pos (test_of_refused hinput)]
    exact ⟨rfl, fun h => h⟩
  · rw [if_neg (test_of_taken hinput)]
    obtain ⟨hview, hmarks⟩ :=
      aged_view (expire_aged o p now).1 hp (hlive (ages_of_taken hinput)) hle
    simp only
    split
    · exact ⟨hview, hmarks⟩
    · refine ⟨Eq.trans ?_ hview, hmarks⟩
      exact view_completed_other (fun c' id' h => hne (completedKey_inj h).1.symm) _

/-- A call that does not concern the peer. -/
theorem perform_other {call : Call} (hp : Tidy p) (hquiet : Quiet peer p call)
    (hother : concerning peer call = none) (hle : call.now ≤ clock) :
    viewOf peer clock (perform sha256 p call).1 = viewOf peer clock p ∧
      (Unmarked peer p → Unmarked peer (perform sha256 p call).1) := by
  obtain ⟨now, o, action⟩ := call
  have hconcerns : concerns peer action = false := by
    unfold concerning at hother
    by_contra h
    rw [if_pos (by simpa using h)] at hother
    cases hother
  cases action with
  | event event =>
      cases event with
      | accept other c value =>
          exact accept_other hp hquiet (by simpa [concerns] using hconcerns) hle
      | cacheResultId other c id result =>
          exact cacheResultId_other o c id hp (by simpa [concerns] using hconcerns)
            hquiet.live hle
      | dropPeer other =>
          have hne : other ≠ peer := by simpa [concerns] using hconcerns
          constructor
          · refine viewOf_congr (fun c => ?_) fun _ _ => rfl
            show (retain (fun _ t => t.peerPath != other) p.incomplete).lookup _ = _
            rw [lookup_retain]
            cases hfound : p.incomplete.lookup (incompleteKey peer c) with
            | none => rfl
            | some t =>
                have hpeer := (incompleteKey_inj (hp.keyed _ t hfound)).1
                rw [Option.filter_some, if_pos (by simpa [← hpeer] using hne.symm)]
          · intro hunmarked c id
            show (retain (fun key _ => !markerOf other key) p.expired).lookup _ = none
            rw [lookup_retain, hunmarked c id]
            rfl
      | expire => cases hconcerns
      | dropAll => cases hconcerns
  | cacheResult request result =>
      have hne : request.peerPath ≠ peer := by simpa [concerns] using hconcerns
      show viewOf peer clock (egpProtocolCacheResult sha256 o p request result now).1 = _ ∧
        (_ → Unmarked peer (egpProtocolCacheResult sha256 o p request result now).1)
      unfold egpProtocolCacheResult
      by_cases hinput : resultRefused now result = true
      · rw [if_pos (test_of_refused hinput)]
        exact ⟨rfl, fun h => h⟩
      · rw [if_neg (test_of_taken hinput)]
        have hlive : Live peer now p := hquiet.live (ages_of_taken hinput)
        have haged := (expire_aged o p now).1
        obtain ⟨hview, hmarks⟩ := aged_view haged hp hlive hle
        simp only
        split
        · exact ⟨hview, hmarks⟩
        · split
          · exact ⟨hview, hmarks⟩
          · obtain ⟨hview', hmarks'⟩ := cacheResultId_other o request.characteristic
              request.transactionId (hp.aged haged) hne
              (fun _ => live_of_aged haged hlive) hle
            exact ⟨hview'.trans hview, hmarks' ∘ hmarks⟩

/-! ## Calls of the peer -/

/-- The transaction that a frame of the peer is added to, from the one that it has. -/
def joined (found : Option Incomplete) (peer : Bytes) (c : EgpWritableCharacteristic)
    (frame : Frame) (now : Int) : Except EgpError Incomplete :=
  match found with
  | none =>
      if !frame.start then
        .error (protocolFail .bleFragmentConflict true "First fragment must carry START")
      else .ok (.fresh peer c frame now)
  | some t =>
      if t.transactionId != frame.transactionId || t.opcode != frame.opcode ||
          t.totalLength != frame.total then
        .error (protocolFail .provisioningBusy true
          "Peer already has an incomplete transaction on this characteristic")
      else .ok t

/-- The rest of `egp_protocol_accept` for a frame that is added, or not. -/
def addFrame (p : EgpProtocol) (key : Bytes) (frame : Frame) (now : Int) :
    Except EgpError Incomplete → Assembly
  | .error error => .answered p (.error error)
  | .ok t => mergeFrame p key t frame now

theorem assemble_of_error {c : EgpWritableCharacteristic} {value : Bytes} {error : EgpError}
    (h : frameTaken peer c value now = .error error) :
    assemble o p peer c value now = .answered p (.error error) := by
  unfold frameTaken at h
  unfold assemble
  split at h
  · rename_i hinput
    rw [if_pos hinput, ← Except.error.inj h]
  · rename_i hinput
    rw [if_neg hinput, h]

theorem now_pos_of_taken {c : EgpWritableCharacteristic} {value : Bytes} {frame : Frame}
    (h : frameTaken peer c value now = .ok frame) : 0 < now := by
  unfold frameTaken at h
  split at h
  · cases h
  · rename_i hinput
    simp only [Bool.or_eq_true, decide_eq_true_eq, not_or] at hinput
    omega

/-- While the peer's transactions are live, the engine looks at them only. -/
theorem assemble_of_ok {c : EgpWritableCharacteristic} {value : Bytes} {frame : Frame}
    (h : frameTaken peer c value now = .ok frame) (hp : Tidy p) (hlive : Live peer now p)
    (hunmarked : Unmarked peer p) (hroom : size p.incomplete < egpProtocolMaxIncomplete) :
    assemble o p peer c value now =
      addFrame (egpProtocolExpire o p now) (incompleteKey peer c) frame now
        (joined (p.incomplete.lookup (incompleteKey peer c)) peer c frame now) := by
  have hassemble : assemble o p peer c value now = assembleFrame o p peer c frame now := by
    unfold frameTaken at h
    unfold assemble
    split at h
    · cases h
    · rename_i hinput
      rw [if_neg hinput, h]
      simp only
      split
      · rfl
      · rename_i t hfound
        have hpeer := (incompleteKey_inj (hp.keyed _ t hfound)).1
        rw [if_neg (by simp [hlive _ t hfound hpeer.symm])]
  obtain ⟨haged, -⟩ := expire_aged o p now
  obtain ⟨hview, hmarks⟩ := aged_view haged hp hlive (le_refl now)
  have hsame : (egpProtocolExpire o p now).incomplete.lookup (incompleteKey peer c) =
      p.incomplete.lookup (incompleteKey peer c) :=
    congrFun (congrArg View.incomplete hview) c
  have hsize : size (egpProtocolExpire o p now).incomplete < egpProtocolMaxIncomplete :=
    Nat.lt_of_le_of_lt (size_le_of_lookup haged.incomplete) hroom
  rw [hassemble]
  unfold assembleFrame
  simp only
  rw [if_neg (by simp [hmarks hunmarked c frame.transactionId]), ← hsame]
  cases (egpProtocolExpire o p now).incomplete.lookup (incompleteKey peer c) with
  | none =>
      unfold joined
      simp only
      split
      · rfl
      · rw [if_neg (by omega)]
        rfl
  | some t =>
      unfold joined
      simp only
      split
      · rfl
      · rfl

/-- The states look the same to the peer, which has no marker in either. -/
structure Agree (peer : Bytes) (clock : Int) (p q : EgpProtocol) : Prop where
  view : viewOf peer clock p = viewOf peer clock q
  left : Unmarked peer p
  right : Unmarked peer q

theorem Agree.incomplete (h : Agree peer clock p q) (c : EgpWritableCharacteristic) :
    p.incomplete.lookup (incompleteKey peer c) = q.incomplete.lookup (incompleteKey peer c) :=
  congrFun (congrArg View.incomplete h.view) c

theorem Agree.completedView (h : Agree peer clock p q) :
    (viewOf peer clock p).completed = (viewOf peer clock q).completed :=
  congrArg View.completed h.view

theorem Agree.aged {p' q' : EgpProtocol} (h : Agree peer now p q) (hp : Tidy p) (hq : Tidy q)
    (hpp : Aged now p p') (hqq : Aged now q q') (hp' : Live peer now p)
    (hq' : Live peer now q) : Agree peer now p' q' := by
  obtain ⟨hleft, hleft'⟩ := aged_view hpp hp hp' (le_refl now)
  obtain ⟨hright, hright'⟩ := aged_view hqq hq hq' (le_refl now)
  exact ⟨(hleft.trans h.view).trans hright.symm, hleft' h.left, hright' h.right⟩

theorem Agree.erase (h : Agree peer clock p q) (key : Bytes) :
    Agree peer clock { p with incomplete := p.incomplete.erase key }
      { q with incomplete := q.incomplete.erase key } := by
  have hcompleted := h.completedView
  refine ⟨View.ext ?_ hcompleted, h.left, h.right⟩
  funext c
  show (p.incomplete.erase key).lookup _ = (q.incomplete.erase key).lookup _
  rw [lookup_erase_eq, lookup_erase_eq, h.incomplete c]

theorem Agree.insert (h : Agree peer clock p q) (key : Bytes) (t : Incomplete) :
    Agree peer clock { p with incomplete := p.incomplete.insert key t }
      { q with incomplete := q.incomplete.insert key t } := by
  have hcompleted := h.completedView
  refine ⟨View.ext ?_ hcompleted, h.left, h.right⟩
  funext c
  show (p.incomplete.insert key t).lookup _ = (q.incomplete.insert key t).lookup _
  rw [lookup_insert_eq, lookup_insert_eq, h.incomplete c]

/-- Two states that agree do so behind the same completion. -/
theorem Agree.complete (h : Agree peer clock p q) (key : Bytes) (e : Completed) :
    Agree peer clock { p with completed := p.completed.insert key e }
      { q with completed := q.completed.insert key e } := by
  have hincomplete : (viewOf peer clock p).incomplete = (viewOf peer clock q).incomplete :=
    congrArg View.incomplete h.view
  refine ⟨View.ext hincomplete ?_, h.left, h.right⟩
  funext c id
  have hsame := congrFun (congrFun h.completedView c) id
  show ((p.completed.insert key e).lookup _).filter _ =
    ((q.completed.insert key e).lookup _).filter _
  rw [lookup_insert_eq, lookup_insert_eq]
  split
  · rfl
  · exact hsame

/-- Every completed request is current. -/
def Current (now : Int) (p : EgpProtocol) : Prop :=
  ∀ k e, p.completed.lookup k = some e → now < e.expiresUs

theorem Current.filter (h : Current now p) (k : Bytes) :
    (p.completed.lookup k).filter (fun e => decide (now < e.expiresUs)) =
      p.completed.lookup k := by
  cases hfound : p.completed.lookup k with
  | none => rfl
  | some e => rw [Option.filter_some, if_pos (by simpa using h k e hfound)]

theorem Agree.completed (h : Agree peer now p q) (hp : Current now p) (hq : Current now q)
    (c : EgpWritableCharacteristic) (id : TransactionId) :
    p.completed.lookup (completedKey peer c id) = q.completed.lookup (completedKey peer c id) := by
  have hsame := congrFun (congrFun h.completedView c) id
  rw [← hp.filter, ← hq.filter]
  exact hsame

/-- The same answer, and states that look the same to the peer. -/
def Alike (peer : Bytes) (now : Int) (a b : Accepted) : Prop :=
  Agree peer now a.1 b.1 ∧ a.2 = b.2

/-- `complete_transaction` for the peer. -/
theorem Agree.completeTransaction (h : Agree peer now p q) (hp : Current now p)
    (hq : Current now q) (hproom : size p.completed < completedCacheLimit)
    (hqroom : size q.completed < completedCacheLimit) (key : Bytes) {t : Incomplete}
    (hpeer : t.peerPath = peer) :
    Alike peer now (completeTransaction sha256 o p key t now)
      (completeTransaction sha256 o' q key t now) := by
  have hlookup := h.completed hp hq t.characteristic t.transactionId
  have herase := h.erase key
  unfold Protocol.completeTransaction
  simp only
  by_cases htext : (!requestText t.json) = true
  · rw [if_pos htext, if_pos htext]
    exact ⟨herase, rfl⟩
  · rw [if_neg htext, if_neg htext, hpeer, hlookup]
    cases q.completed.lookup (completedKey peer t.characteristic t.transactionId) with
    | none =>
        rw [pruneCompletedLimit_of_lt o hproom, pruneCompletedLimit_of_lt o' hqroom]
        exact ⟨herase.complete _ _, rfl⟩
    | some completed =>
        simp only
        split
        · exact ⟨herase, rfl⟩
        · exact ⟨herase, rfl⟩

/-- The end of `egp_protocol_accept`. -/
def finishFrame (sha256 : Bytes → Bytes) (o : Visits) (now : Int) : Assembly → Accepted
  | .answered p reply => (p, reply)
  | .whole p key t => completeTransaction sha256 o p key t now

theorem accept_eq (o : Visits) (p : EgpProtocol) (c : EgpWritableCharacteristic)
    (value : Bytes) : egpProtocolAccept sha256 o p peer c value now =
      finishFrame sha256 o now (assemble o p peer c value now) := rfl

/-- One frame of the peer is treated alike in two states that agree. -/
theorem Agree.addFrame (h : Agree peer now p q) (hp : Current now p) (hq : Current now q)
    (hproom : size p.completed < completedCacheLimit)
    (hqroom : size q.completed < completedCacheLimit) (key : Bytes) (frame : Frame)
    {chosen : Except EgpError Incomplete}
    (hpeer : ∀ t, chosen = .ok t → t.peerPath = peer) :
    Alike peer now (finishFrame sha256 o now (addFrame p key frame now chosen))
      (finishFrame sha256 o' now (addFrame q key frame now chosen)) := by
  cases chosen with
  | error error => exact ⟨h, rfl⟩
  | ok t =>
      show Alike peer now (finishFrame sha256 o now (mergeFrame p key t frame now))
        (finishFrame sha256 o' now (mergeFrame q key t frame now))
      unfold mergeFrame
      cases hbytes : mergeBytes t frame.offset frame.fragment with
      | none => exact ⟨h.erase key, rfl⟩
      | some m =>
          have hm : m.peerPath = peer := (mergeBytes_same hbytes).1.trans (hpeer t rfl)
          simp only
          split
          · exact ⟨h.erase key, rfl⟩
          · split
            · exact ⟨h.insert key _, rfl⟩
            · exact h.completeTransaction hp hq hproom hqroom key hm

theorem now_pos_of_result {result : Bytes} (h : ¬ resultRefused now result = true) : 0 < now := by
  simp only [resultRefused, Bool.or_eq_true, decide_eq_true_eq, not_or] at h
  omega

/-- The transaction that a frame joins is one of its peer. -/
theorem joined_peer (hp : Tidy p) {c : EgpWritableCharacteristic} {frame : Frame}
    {t : Incomplete}
    (h : joined (p.incomplete.lookup (incompleteKey peer c)) peer c frame now = .ok t) :
    t.peerPath = peer := by
  cases hfound : p.incomplete.lookup (incompleteKey peer c) with
  | none =>
      rw [hfound] at h
      unfold joined at h
      simp only at h
      split at h
      · cases h
      · cases h
        rfl
  | some found =>
      rw [hfound] at h
      unfold joined at h
      simp only at h
      split at h
      · cases h
      · cases h
        exact (incompleteKey_inj (hp.keyed _ _ hfound)).1.symm

/-- A frame of the peer. -/
theorem Agree.accept (h : Agree peer now p q) (hp : Tidy p) (hq : Tidy q)
    {c : EgpWritableCharacteristic} {value : Bytes}
    (hpq : Quiet peer p ⟨now, o, .event (.accept peer c value)⟩)
    (hqq : Quiet peer q ⟨now, o', .event (.accept peer c value)⟩) :
    Alike peer now (egpProtocolAccept sha256 o p peer c value now)
      (egpProtocolAccept sha256 o' q peer c value now) := by
  rw [accept_eq, accept_eq]
  cases htaken : frameTaken peer c value now with
  | error error =>
      rw [assemble_of_error htaken, assemble_of_error htaken]
      exact ⟨h, rfl⟩
  | ok frame =>
      have hp' : Live peer now p := hpq.live (frameAges htaken)
      have hq' : Live peer now q := hqq.live (frameAges htaken)
      obtain ⟨hpaged, hpcurrent, -⟩ := expire_aged o p now
      obtain ⟨hqaged, hqcurrent, -⟩ := expire_aged o' q now
      have hnow := now_pos_of_taken htaken
      have hproom : size (egpProtocolExpire o p now).completed < completedCacheLimit :=
        Nat.lt_of_le_of_lt (size_le_of_lookup hpaged.completed) hpq.2.2
      have hqroom : size (egpProtocolExpire o' q now).completed < completedCacheLimit :=
        Nat.lt_of_le_of_lt (size_le_of_lookup hqaged.completed) hqq.2.2
      rw [assemble_of_ok htaken hp hp' h.left hpq.2.1,
        assemble_of_ok htaken hq hq' h.right hqq.2.1, h.incomplete c]
      exact (h.aged hp hq hpaged hqaged hp' hq').addFrame (hpcurrent hnow) (hqcurrent hnow)
        hproom hqroom _ frame fun t ht => joined_peer hq ht

/-- The result of a request of the peer. -/
theorem Agree.cacheResultId (h : Agree peer now p q) (hp : Tidy p) (hq : Tidy q)
    (o o' : Visits) (c : EgpWritableCharacteristic) (id : TransactionId) {result : Bytes}
    (hp' : (!resultRefused now result) = true → Live peer now p)
    (hq' : (!resultRefused now result) = true → Live peer now q) :
    Agree peer now (egpProtocolCacheResultId o p peer c id result now).1
        (egpProtocolCacheResultId o' q peer c id result now).1 ∧
      (egpProtocolCacheResultId o p peer c id result now).2 =
        (egpProtocolCacheResultId o' q peer c id result now).2 := by
  unfold egpProtocolCacheResultId
  by_cases hinput : resultRefused now result = true
  · rw [if_pos (test_of_refused hinput), if_pos (test_of_refused hinput)]
    exact ⟨h, rfl⟩
  · rw [if_neg (test_of_taken hinput), if_neg (test_of_taken hinput)]
    have hnow := now_pos_of_result hinput
    have hages := ages_of_taken hinput
    obtain ⟨hpaged, hpcurrent, -⟩ := expire_aged o p now
    obtain ⟨hqaged, hqcurrent, -⟩ := expire_aged o' q now
    have haged := h.aged hp hq hpaged hqaged (hp' hages) (hq' hages)
    simp only
    rw [haged.completed (hpcurrent hnow) (hqcurrent hnow) c id]
    cases (egpProtocolExpire o' q now).completed.lookup (completedKey peer c id) with
    | none => exact ⟨haged, rfl⟩
    | some completed => exact ⟨haged.complete _ _, rfl⟩

/-- The result of a request of the peer, with the request. -/
theorem Agree.cacheResult {request : EgpProtocolRequest} {result : Bytes}
    (h : Agree request.peerPath now p q) (hp : Tidy p) (hq : Tidy q) (o o' : Visits)
    (hp' : (!resultRefused now result) = true → Live request.peerPath now p)
    (hq' : (!resultRefused now result) = true → Live request.peerPath now q) :
    Agree request.peerPath now (egpProtocolCacheResult sha256 o p request result now).1
        (egpProtocolCacheResult sha256 o' q request result now).1 ∧
      (egpProtocolCacheResult sha256 o p request result now).2 =
        (egpProtocolCacheResult sha256 o' q request result now).2 := by
  unfold egpProtocolCacheResult
  by_cases hinput : resultRefused now result = true
  · rw [if_pos (test_of_refused hinput), if_pos (test_of_refused hinput)]
    exact ⟨h, rfl⟩
  · rw [if_neg (test_of_taken hinput), if_neg (test_of_taken hinput)]
    have hnow := now_pos_of_result hinput
    have hages := ages_of_taken hinput
    obtain ⟨hpaged, hpcurrent, -⟩ := expire_aged o p now
    obtain ⟨hqaged, hqcurrent, -⟩ := expire_aged o' q now
    have haged := h.aged hp hq hpaged hqaged (hp' hages) (hq' hages)
    simp only
    rw [haged.completed (hpcurrent hnow) (hqcurrent hnow) request.characteristic
      request.transactionId]
    cases (egpProtocolExpire o' q now).completed.lookup
        (completedKey request.peerPath request.characteristic request.transactionId) with
    | none => exact ⟨haged, rfl⟩
    | some completed =>
        simp only
        split
        · exact ⟨haged, rfl⟩
        · exact haged.cacheResultId (hp.aged hpaged) (hq.aged hqaged) o o' _ _
            (fun hages => live_of_aged hpaged (hp' hages))
            (fun hages => live_of_aged hqaged (hq' hages))

/-- A call that concerns the peer. -/
theorem perform_own (h : Agree peer now p q) (hp : Tidy p) (hq : Tidy q) {action : Action}
    (hconcerns : concerns peer action = true) (hpq : Quiet peer p ⟨now, o, action⟩)
    (hqq : Quiet peer q ⟨now, o', action⟩) :
    Agree peer now (perform sha256 p ⟨now, o, action⟩).1
        (perform sha256 q ⟨now, o', action⟩).1 ∧
      (perform sha256 p ⟨now, o, action⟩).2 = (perform sha256 q ⟨now, o', action⟩).2 := by
  cases action with
  | event event =>
      cases event with
      | accept other c value =>
          obtain rfl : other = peer := by simpa [concerns] using hconcerns
          obtain ⟨hnext, hreply⟩ := h.accept hp hq hpq hqq
          exact ⟨hnext, congrArg Reply.accepted hreply⟩
      | cacheResultId other c id result =>
          obtain rfl : other = peer := by simpa [concerns] using hconcerns
          obtain ⟨hnext, hreply⟩ := h.cacheResultId hp hq o o' c id hpq.live hqq.live
          exact ⟨hnext, congrArg Reply.cached hreply⟩
      | expire =>
          refine ⟨?_, rfl⟩
          show Agree peer now (egpProtocolExpire o p now) (egpProtocolExpire o' q now)
          by_cases hnow : now ≤ 0
          · unfold egpProtocolExpire
            rw [if_pos hnow, if_pos hnow]
            exact h
          · have hages : ages now (.event .expire) = true := by simpa [ages] using hnow
            exact h.aged hp hq (expire_aged o p now).1 (expire_aged o' q now).1 (hpq.live hages)
              (hqq.live hages)
      | dropPeer other =>
          refine ⟨⟨View.ext ?_ h.completedView, ?_, ?_⟩, rfl⟩
          · funext c
            show (retain (fun _ t => t.peerPath != other) p.incomplete).lookup _ =
              (retain (fun _ t => t.peerPath != other) q.incomplete).lookup _
            rw [lookup_retain, lookup_retain, h.incomplete c]
          · intro c id
            show (retain (fun key _ => !markerOf other key) p.expired).lookup _ = none
            rw [lookup_retain, h.left c id]
            rfl
          · intro c id
            show (retain (fun key _ => !markerOf other key) q.expired).lookup _ = none
            rw [lookup_retain, h.right c id]
            rfl
      | dropAll => exact ⟨⟨rfl, fun _ _ => rfl, fun _ _ => rfl⟩, rfl⟩
  | cacheResult request result =>
      obtain rfl : request.peerPath = peer := by simpa [concerns] using hconcerns
      obtain ⟨hnext, hreply⟩ := h.cacheResult hp hq o o' hpq.live hqq.live
      exact ⟨hnext, congrArg Reply.cached hreply⟩

/-- Caching a result keeps the tables tidy. -/
theorem tidy_cacheResult (hp : Tidy p) (o : Visits) (request : EgpProtocolRequest)
    (result : Bytes) (now : Int) :
    Tidy (egpProtocolCacheResult sha256 o p request result now).1 := by
  have haged := hp.aged (expire_aged o p now).1
  unfold egpProtocolCacheResult
  split
  · exact hp
  · simp only
    split
    · exact haged
    · split
      · exact haged
      · exact @tidy_step sha256 _ haged o now
          (.cacheResultId request.peerPath request.characteristic request.transactionId result)

theorem tidy_perform (hp : Tidy p) (call : Call) : Tidy (perform sha256 p call).1 := by
  obtain ⟨now, o, action⟩ := call
  cases action with
  | event event => exact tidy_step hp o now event
  | cacheResult request result => exact tidy_cacheResult hp o request result now

/-! ## Two runs -/

theorem concerning_some {call : Call} {stamp : Int × Action}
    (h : concerning peer call = some stamp) :
    call.now = stamp.1 ∧ call.action = stamp.2 ∧ concerns peer call.action = true := by
  unfold concerning at h
  by_cases hconcerns : concerns peer call.action = true
  · rw [if_pos hconcerns] at h
    cases h
    exact ⟨rfl, rfl, hconcerns⟩
  · rw [if_neg hconcerns] at h
    cases h

/-- The protocol is an instance of the rules of noninterference. -/
theorem unwinding (sha256 : Bytes → Bytes) (peer : Bytes) :
    Noninterference.Unwinding (perform sha256) (concerning peer) Call.now Prod.fst (Agree peer)
      Tidy (Quiet peer) where
  stamp _ _ h := (concerning_some h).1
  keeps _ call h := tidy_perform h call
  later _ _ _ _ hle h := ⟨viewOf_later hle h.view, h.left, h.right⟩
  symm _ _ _ h := ⟨h.view.symm, h.right, h.left⟩
  other _ _ _ _ hp hquiet hother hle h := by
    obtain ⟨hview, hmarks⟩ := perform_other hp hquiet hother hle
    exact ⟨hview.trans h.view, hmarks h.left, h.right⟩
  own p q first second stamp hp hq hpq hqq hfirst hsecond h := by
    obtain ⟨now, o, action⟩ := first
    obtain ⟨now', o', action'⟩ := second
    obtain ⟨rfl, rfl, hconcerns⟩ := concerning_some hfirst
    obtain ⟨hnow, haction, -⟩ := concerning_some hsecond
    cases hnow
    cases haction
    exact perform_own h hp hq hconcerns hpq hqq

/-- The answers to the calls that concern the peer, in a run from the start. -/
def replies (sha256 : Bytes → Bytes) (peer : Bytes) (calls : List Call) : List Reply :=
  Noninterference.outputs (perform sha256) (concerning peer) egpProtocolNew calls

/-- No transaction of the peer times out in the run, and no limit is reached. -/
def Undisturbed (sha256 : Bytes → Bytes) (peer : Bytes) (calls : List Call) : Prop :=
  ∀ x ∈ Noninterference.states (perform sha256) egpProtocolNew calls, Quiet peer x.1 x.2

instance (sha256 : Bytes → Bytes) (peer : Bytes) (calls : List Call) :
    Decidable (Undisturbed sha256 peer calls) :=
  inferInstanceAs (Decidable (∀ x ∈ _, _))

/-- Two runs with the same calls that concern the peer give it the same answers. -/
theorem replies_independent (sha256 : Bytes → Bytes) (peer : Bytes) (first second : List Call)
    (hfirst : first.Pairwise fun a b => a.now ≤ b.now)
    (hsecond : second.Pairwise fun a b => a.now ≤ b.now)
    (hsame : first.filterMap (concerning peer) = second.filterMap (concerning peer))
    (hquiet : Undisturbed sha256 peer first) (hquiet' : Undisturbed sha256 peer second) :
    replies sha256 peer first = replies sha256 peer second := by
  have hstart : ∀ clock, Agree peer clock egpProtocolNew egpProtocolNew :=
    fun _ => ⟨rfl, fun _ _ => rfl, fun _ _ => rfl⟩
  -- from a time in front of every call
  obtain ⟨clock, hclock⟩ : ∃ clock : Int,
      ∀ stamp ∈ first.filterMap (concerning peer), clock ≤ stamp.1 := by
    cases first with
    | nil => exact ⟨0, by simp⟩
    | cons call rest =>
        refine ⟨call.now, fun stamp hstamp => ?_⟩
        obtain ⟨other, hother, hconcerning⟩ := List.mem_filterMap.mp hstamp
        rw [← (concerning_some hconcerning).1]
        rcases List.mem_cons.mp hother with rfl | hother
        · exact le_refl _
        · exact (List.pairwise_cons.mp hfirst).1 other hother
  exact (unwinding sha256 peer).outputs_eq first second clock egpProtocolNew egpProtocolNew tidy_new
    tidy_new (hstart clock) hclock hfirst hsecond hsame hquiet hquiet'

def sampleCall (now : Int) (peer : Bytes) (flags offset : UInt8) (fragment : String) : Call :=
  ⟨now, .plain, .event (.accept peer .provisioning (sampleFrame flags offset fragment))⟩

/-- A request in two frames. -/
def ownCalls : List Call :=
  [sampleCall 1 samplePeer 1 0 "\x7b", sampleCall 3 samplePeer 2 1 "\x7d"]

def neighbour : Bytes := ascii "/org/bluez/hci0/dev_BB"

/-- A neighbour begins a request with the same identifier in between. -/
def sharedCalls : List Call :=
  [sampleCall 1 samplePeer 1 0 "\x7b", sampleCall 2 neighbour 1 0 "\x7b",
    sampleCall 3 samplePeer 2 1 "\x7d"]

theorem replies_independent_neighbour :
    (replies sampleDigest samplePeer ownCalls).length = 2 ∧
      replies sampleDigest samplePeer ownCalls = replies sampleDigest samplePeer sharedCalls :=
  ⟨by decide +kernel,
    replies_independent sampleDigest samplePeer ownCalls sharedCalls (by decide) (by decide) rfl
      (by decide +kernel) (by decide +kernel)⟩

end EdgeGuard.Provisioning.PeerIsolation
