import EdgeGuard.Provisioning.Callbacks
import EdgeGuard.Provisioning.ProtocolReplay

/-!
# Where results go

What holds over any order of the daemon's callbacks, with one worker in flight.

The invariant `Routed` ties the four places a result passes through to the log: the
request in flight is the one that `active_request` names, as long as it names one,
and the cache and `last_result` hold texts that were made for requests of the
current epoch.  Whatever changes the epoch empties all four.

## Main results

* `results_routed` — a cached result is one of its own transaction; a result is
  read by the owner of the open window only, and was made for a transaction that
  it completed in this epoch; a result that comes after its epoch goes nowhere.
-/

namespace EdgeGuard.Provisioning.ResultRouting

open EdgeGuard.Base.CText EdgeGuard.Base.HashTable EdgeGuard.Base.Trace
open EdgeGuard.Provisioning.Model EdgeGuard.Provisioning.Protocol
open EdgeGuard.Provisioning.ProtocolRun (Tidy Aged Acceptable assemble_cases mergeFrame_cases
  tidy_new tidy_accept expire_aged completedKey_inj mergeBytes_same)
open EdgeGuard.Provisioning.ProtocolReplay (requestKey completeTransaction_eq)
open EdgeGuard.Provisioning.Security
open EdgeGuard.Provisioning.Authorization (egpStatusAgentIdle)
open EdgeGuard.Provisioning.Callbacks

/-! ## The cache -/

/-- The texts of a cache come from another one. -/
def TextsFrom (p q : EgpProtocol) : Prop :=
  ∀ key entry, q.completed.lookup key = some entry → entry.result ≠ [] →
    ∃ old, p.completed.lookup key = some old ∧ old.result = entry.result

theorem TextsFrom.refl (p : EgpProtocol) : TextsFrom p p :=
  fun _ entry h _ => ⟨entry, h, rfl⟩

theorem TextsFrom.trans {p q r : EgpProtocol} (hpq : TextsFrom p q) (hqr : TextsFrom q r) :
    TextsFrom p r := by
  intro key entry h hresult
  obtain ⟨middle, hmiddle, heq⟩ := hqr key entry h hresult
  obtain ⟨old, hold, heq'⟩ := hpq key middle hmiddle (heq ▸ hresult)
  exact ⟨old, hold, heq'.trans heq⟩

theorem textsFrom_of_aged {now : Int} {p q : EgpProtocol} (h : Aged now p q) : TextsFrom p q :=
  fun key entry hentry _ => ⟨entry, h.completed key entry hentry, rfl⟩

theorem textsFrom_new (p : EgpProtocol) : TextsFrom p egpProtocolNew := by
  intro key entry h
  cases h

/-- What `complete_transaction` does to the cache, and where its answers come from. -/
theorem completeTransaction_texts (sha256 : Bytes → Bytes) (o : Visits) (p : EgpProtocol)
    (key : Bytes) (t : Incomplete) (now : Int) :
    TextsFrom p (completeTransaction sha256 o p key t now).1 ∧
      (∀ q, (completeTransaction sha256 o p key t now).2 = .ok (.complete q) → q = t.request) ∧
      ∀ q cached, (completeTransaction sha256 o p key t now).2 = .ok (.replay q cached) →
        q = t.request ∧ ∃ entry, p.completed.lookup (requestKey q) = some entry ∧
          entry.result = cached := by
  by_cases htext : requestText t.json = true
  · rw [completeTransaction_eq htext]
    cases hfound : p.completed.lookup (requestKey t.request) with
    | some entry =>
        simp only
        split
        · exact ⟨.refl p, nofun, nofun⟩
        · refine ⟨.refl p, nofun, ?_⟩
          rintro q cached ⟨⟩
          exact ⟨rfl, entry, hfound, rfl⟩
    | none =>
        refine ⟨?_, ?_, nofun⟩
        · intro k entry hentry hresult
          simp only [lookup_insert_eq] at hentry
          split at hentry
          · cases hentry
            exact absurd rfl hresult
          · exact ⟨entry, lookup_prune_le o _ _ _ _ _ hentry, rfl⟩
        · rintro q ⟨⟩
          rfl
  · unfold completeTransaction
    simp only
    rw [if_pos (by simpa using htext)]
    exact ⟨.refl p, nofun, nofun⟩

/-- What a frame does to the cache, and where its answers come from. -/
structure Answers (p : EgpProtocol) (peer : Bytes) (c : EgpWritableCharacteristic)
    (r : Accepted) : Prop where
  texts : TextsFrom p r.1
  bounded : ∀ output, r.2 = .ok output → peer.length < egpDbusPathCap
  complete : ∀ q, r.2 = .ok (.complete q) → q.peerPath = peer ∧ q.characteristic = c
  replay : ∀ q cached, r.2 = .ok (.replay q cached) → q.peerPath = peer ∧
    ∃ entry, p.completed.lookup (requestKey q) = some entry ∧ entry.result = cached

/-- What accepting a value can answer, with the entry it comes from. -/
theorem accept_answers (sha256 : Bytes → Bytes) (o : Visits) {p : EgpProtocol} (h : Tidy p)
    (peer : Bytes) (c : EgpWritableCharacteristic) (value : Bytes) (now : Int) :
    Answers p peer c (egpProtocolAccept sha256 o p peer c value now) := by
  unfold egpProtocolAccept
  rcases assemble_cases o p peer c value now with ⟨-, error, heq⟩ | ⟨hinput, frame, -, hcases⟩
  · rw [heq]
    exact ⟨.refl p, nofun, nofun, nofun⟩
  · cases hcases with
    | refused q error aged eq =>
        rw [eq]
        exact ⟨textsFrom_of_aged aged, nofun, nofun, nofun⟩
    | joined q t aged current unmarked joins eq =>
        have haged := textsFrom_of_aged aged
        obtain ⟨hpeer, hc, -⟩ := joins.fields (h.aged aged)
        rw [eq]
        cases mergeFrame_cases q (incompleteKey peer c) t frame now with
        | conflict error bytes code eq =>
            rw [eq]
            exact ⟨haged, nofun, nofun, nofun⟩
        | gap m error bytes ended count code eq =>
            rw [eq]
            exact ⟨haged, nofun, nofun, nofun⟩
        | kept m bytes open_ eq =>
            rw [eq]
            exact ⟨haged, fun _ _ => hinput.1, nofun, nofun⟩
        | whole m bytes ended count eq =>
            rw [eq]
            obtain ⟨hpeer', hc', -⟩ := mergeBytes_same bytes
            obtain ⟨htexts, hcomplete, hreplay⟩ := completeTransaction_texts sha256 o q
              (incompleteKey peer c) { m with touchedUs := now, endSeen := true } now
            refine ⟨haged.trans htexts, fun _ _ => hinput.1, ?_, ?_⟩
            · intro r hr
              rw [hcomplete r hr]
              exact ⟨hpeer'.trans hpeer, hc'.trans hc⟩
            · intro r cached hr
              obtain ⟨rfl, entry, hentry, hcached⟩ := hreplay r cached hr
              exact ⟨hpeer'.trans hpeer, entry, aged.completed _ _ hentry, hcached⟩

/-- What the caching of a result does to the cache. -/
theorem cacheResultId_texts (o : Visits) {p : EgpProtocol} (h : Tidy p) (peer : Bytes)
    (c : EgpWritableCharacteristic) (id : TransactionId) (result : Bytes) (now : Int) :
    Tidy (egpProtocolCacheResultId o p peer c id result now).1 ∧
      ∀ key entry, (egpProtocolCacheResultId o p peer c id result now).1.completed.lookup key =
          some entry → entry.result ≠ [] →
        (key = completedKey peer c id ∧ entry.result = result) ∨
          ∃ old, p.completed.lookup key = some old ∧ old.result = entry.result := by
  refine ⟨@ProtocolRun.tidy_step (fun bytes => bytes) p h o now
    (.cacheResultId peer c id result), ?_⟩
  have haged := (expire_aged o p now).1
  intro key entry hentry hresult
  unfold egpProtocolCacheResultId at hentry
  split at hentry
  · exact .inr ⟨entry, hentry, rfl⟩
  · simp only at hentry
    split at hentry
    · exact .inr ⟨entry, haged.completed key entry hentry, rfl⟩
    · simp only [lookup_insert_eq] at hentry
      split at hentry
      · rename_i hkey
        cases hentry
        exact .inl ⟨hkey, rfl⟩
      · exact .inr ⟨entry, haged.completed key entry hentry, rfl⟩

/-! ## Requests and their results -/

section Results

variable (sha256 : Bytes → Bytes)

/-- The callback takes the frame that completes the transaction of the request, and
hands the request to the worker. -/
structure Completes (x : Entry) (r : EgpProtocolRequest) : Prop where
  write : ∃ env c value q, x.event = .writeValue env (some c) r.peerPath value ∧
    (egpProtocolAccept sha256 env.visits x.before.protocol r.peerPath c value env.acceptUs).2 =
      .ok (.complete q) ∧
    r = { q with windowEpoch := r.windowEpoch, connectionEpoch := r.connectionEpoch }
  bounded : r.peerPath.length < egpDbusPathCap
  idle : x.before.work = none
  busy : x.after.work = some (.request r)
  epoch : r.windowEpoch = x.after.security.windowEpoch

/-- The callback publishes a result of the request: that it is accepted, or what the
worker has made of it. -/
inductive Produces (x : Entry) (r : EgpProtocolRequest) : Bytes → Prop
  | accepted (completes : Completes sha256 x r) : Produces x r (acceptedJson r)
  | finished (o : Visits) (now : Int) (outcome : Outcome)
      (event : x.event = .completed o now outcome)
      (work : x.before.work = some (.request r)) : Produces x r (outcome.json r)

/-- Nothing in the log changes the epoch. -/
def Quiet (log : List Entry) : Prop :=
  ∀ y ∈ log, y.after.security.windowEpoch = y.before.security.windowEpoch

/-- The text is a result of a request that was completed in this epoch. -/
def ResultSince (log : List Entry) (epoch : Nat) (r : EgpProtocolRequest) (text : Bytes) : Prop :=
  ∃ a x b, log = a ++ x :: b ∧ Completes sha256 x r ∧ Quiet b ∧ r.windowEpoch = epoch ∧
    ∃ y ∈ x :: b, Produces sha256 y r text

/-- The request in flight since its completion, and what may still come of it: as
long as it is the active request, its epoch lasts. -/
def InFlight (log : List Entry) (d : Daemon) (r : EgpProtocolRequest) : Prop :=
  ∃ a x b, log = a ++ x :: b ∧ Completes sha256 x r ∧
    (∀ z ∈ b, z.before.work = some (.request r)) ∧
    (d.activeRequest = none ∨ d.activeRequest = some (hideJson r) ∧ Quiet b ∧
      r.windowEpoch = d.security.windowEpoch)

structure Routed (log : List Entry) (d : Daemon) : Prop where
  tidy : Tidy d.protocol
  flight : ∀ r, d.work = some (.request r) → InFlight sha256 log d r
  result : d.lastResult ≠ [] → ∃ r, r.peerPath = d.resultPeer ∧
    ResultSince sha256 log d.security.windowEpoch r d.lastResult
  cached : ∀ key entry, d.protocol.completed.lookup key = some entry → entry.result ≠ [] →
    ∃ r, requestKey r = key ∧ ResultSince sha256 log d.security.windowEpoch r entry.result

end Results

variable {sha256 : Bytes → Bytes} {log : List Entry} {d : Daemon} {x : Entry}

theorem Quiet.snoc {b : List Entry} (h : Quiet b)
    (hx : x.after.security.windowEpoch = x.before.security.windowEpoch) : Quiet (b ++ [x]) := by
  intro y hy
  rcases List.mem_append.mp hy with hy | hy
  · exact h y hy
  · rw [List.mem_singleton.mp hy]
    exact hx

theorem ResultSince.snoc {epoch : Nat} {r : EgpProtocolRequest} {text : Bytes}
    (h : ResultSince sha256 log epoch r text)
    (hx : x.after.security.windowEpoch = x.before.security.windowEpoch) :
    ResultSince sha256 (log ++ [x]) epoch r text := by
  obtain ⟨a, y, b, rfl, hcompletes, hquiet, hepoch, z, hz, hproduces⟩ := h
  refine ⟨a, y, b ++ [x], by simp, hcompletes, hquiet.snoc hx, hepoch, z, ?_, hproduces⟩
  rw [← List.cons_append]
  exact List.mem_append_left _ hz

/-- A callback that keeps the epoch, as far as its entry in the log goes. -/
theorem Routed.lift (h : Routed sha256 log d) (hbefore : x.before = d)
    (hx : x.after.security.windowEpoch = d.security.windowEpoch) :
    Routed sha256 (log ++ [x]) d := by
  subst hbefore
  refine ⟨h.tidy, ?_, ?_, ?_⟩
  · intro r hr
    obtain ⟨a, y, b, rfl, hcompletes, hwork, hactive⟩ := h.flight r hr
    refine ⟨a, y, b ++ [x], by simp, hcompletes, ?_, ?_⟩
    · intro z hz
      rcases List.mem_append.mp hz with hz | hz
      · exact hwork z hz
      · rw [List.mem_singleton.mp hz]
        exact hr
    · rcases hactive with hnone | ⟨hsome, hquiet, hepoch⟩
      · exact .inl hnone
      · exact .inr ⟨hsome, hquiet.snoc hx, hepoch⟩
  · intro hresult
    obtain ⟨r, hpeer, hsince⟩ := h.result hresult
    exact ⟨r, hpeer, hsince.snoc hx⟩
  · intro key entry hentry hresult
    obtain ⟨r, hkey, hsince⟩ := h.cached key entry hentry hresult
    exact ⟨r, hkey, hsince.snoc hx⟩

/-- A callback that forgets everything, whatever it does to the epoch. -/
theorem routed_forget (h : Routed sha256 log d) (hbefore : x.before = d) {d' : Daemon}
    (hwork : d'.work = d.work) : Routed sha256 (log ++ [x]) d'.forget := by
  subst hbefore
  refine ⟨tidy_new, ?_, fun hresult => absurd rfl hresult, ?_⟩
  · intro r hr
    have hr' : x.before.work = some (.request r) := hwork ▸ hr
    obtain ⟨a, y, b, rfl, hcompletes, hflight, -⟩ := h.flight r hr'
    refine ⟨a, y, b ++ [x], by simp, hcompletes, ?_, .inl rfl⟩
    intro z hz
    rcases List.mem_append.mp hz with hz | hz
    · exact hflight z hz
    · rw [List.mem_singleton.mp hz]
      exact hr'
  · intro key entry hentry
    cases hentry

/-! ### Changes of the state -/

theorem Routed.protocol {p : EgpProtocol} (h : Routed sha256 log d) (htidy : Tidy p)
    (htexts : TextsFrom d.protocol p) : Routed sha256 log { d with protocol := p } := by
  refine ⟨htidy, h.flight, h.result, ?_⟩
  intro key entry hentry hresult
  obtain ⟨old, hold, heq⟩ := htexts key entry hentry hresult
  rw [← heq]
  exact h.cached key old hold (heq ▸ hresult)

/-- A change of the security that keeps the epoch keeps the routing. -/
theorem Routed.security {s : EgpSecurity} (h : Routed sha256 log d)
    (hs : s.windowEpoch = d.security.windowEpoch) :
    Routed sha256 log { d with security := s } := by
  refine ⟨h.tidy, ?_, ?_, ?_⟩
  · intro r hr
    obtain ⟨a, y, b, hlog, hcompletes, hwork, hactive⟩ := h.flight r hr
    refine ⟨a, y, b, hlog, hcompletes, hwork, ?_⟩
    show d.activeRequest = none ∨ _ ∧ _ ∧ r.windowEpoch = s.windowEpoch
    rw [hs]
    exact hactive
  · show d.lastResult ≠ [] → ∃ r, _ ∧ ResultSince sha256 log s.windowEpoch r _
    rw [hs]
    exact h.result
  · show ∀ key entry, _ → _ → ∃ r, _ ∧ ResultSince sha256 log s.windowEpoch r _
    rw [hs]
    exact h.cached

/-- The worker goes, or another work item comes that is no request. -/
theorem Routed.work {w : Option Flight} (h : Routed sha256 log d)
    (hw : ∀ r, w ≠ some (.request r)) : Routed sha256 log { d with work := w } :=
  ⟨h.tidy, fun r hr => absurd hr (hw r), h.result, h.cached⟩

theorem Routed.idle {q : Option EgpProtocolRequest} (h : Routed sha256 log d)
    (hwork : d.work = none) : Routed sha256 log { d with activeRequest := q } := by
  refine ⟨h.tidy, ?_, h.result, h.cached⟩
  intro r hr
  rw [show d.work = some (.request r) from hr] at hwork
  cases hwork

/-- A change of the window behind other changes of the state. -/
theorem Routed.moved (h : Routed sha256 log d) (hbefore : x.before = d) (d' : Daemon)
    (hwork : d'.work = d.work) {m : Moved}
    (hquiet : x.after.security.windowEpoch = d.security.windowEpoch →
      Routed sha256 (log ++ [x]) d')
    (hsecurity : d'.security.windowEpoch = d.security.windowEpoch)
    (hm : m.changed = none → m.security.windowEpoch = d'.security.windowEpoch)
    (hafter : x.after = d'.moved m) : Routed sha256 (log ++ [x]) x.after := by
  unfold Daemon.moved at hafter
  simp only at hafter
  by_cases hchanged : m.changed.isSome = true
  · rw [if_pos hchanged] at hafter
    rw [hafter]
    exact routed_forget h hbefore hwork
  · rw [if_neg hchanged] at hafter
    have hnone : m.changed = none := by simpa using hchanged
    have hepoch : x.after.security.windowEpoch = d.security.windowEpoch := by
      rw [hafter]
      exact (hm hnone).trans hsecurity
    have hrouted := (hquiet hepoch).security (hm hnone)
    rw [hafter]
    exact hrouted

/-- A published result goes to the transaction of the active request. -/
theorem Routed.published {r : EgpProtocolRequest} {text : Bytes} (h : Routed sha256 log d)
    (o : Visits) (now : Int) (hbounded : r.peerPath.length < egpDbusPathCap)
    (hactive : ∀ q, d.activeRequest = some q → q = hideJson r ∧
      ResultSince sha256 log d.security.windowEpoch r text) :
    Routed sha256 log (resultPublished o now d r.peerPath text) := by
  unfold resultPublished
  cases hq : d.activeRequest with
  | none => exact h
  | some q =>
      obtain ⟨rfl, hsince⟩ := hactive q hq
      simp only
      split
      · exact h
      · rename_i hvalid
        simp only [Bool.or_eq_true, decide_eq_true_eq, not_or, Nat.not_lt] at hvalid
        obtain ⟨htidy, htexts⟩ := cacheResultId_texts o h.tidy (hideJson r).peerPath
          (hideJson r).characteristic (hideJson r).transactionId text now
        refine ⟨htidy, ?_, ?_, ?_⟩
        · intro r' hr'
          obtain ⟨a, y, b, hlog, hcompletes, hwork, hactive'⟩ := h.flight r' hr'
          refine ⟨a, y, b, hlog, hcompletes, hwork, ?_⟩
          simp only
          split
          · exact .inl rfl
          · rw [hq] at hactive'
            exact hactive'
        · intro _
          refine ⟨r, ?_, ?_⟩
          · exact (List.take_of_length_le (Nat.le_sub_one_of_lt hbounded)).symm
          · show ResultSince sha256 log d.security.windowEpoch r (text.take egpGattValueMaxBytes)
            rw [List.take_of_length_le hvalid.2]
            exact hsince
        · intro key entry hentry hresult
          rcases htexts key entry hentry hresult with ⟨rfl, heq⟩ | ⟨old, hold, heq⟩
          · rw [heq]
            exact ⟨r, rfl, hsince⟩
          · rw [← heq]
            exact h.cached key old hold (heq ▸ hresult)

/-! ### Writes -/

theorem resultPublished_frame (o : Visits) (now : Int) (d : Daemon) (peerPath text : Bytes) :
    (resultPublished o now d peerPath text).security = d.security ∧
      (resultPublished o now d peerPath text).work = d.work := by
  unfold resultPublished
  split
  · exact ⟨rfl, rfl⟩
  · split <;> exact ⟨rfl, rfl⟩

/-- The request that a completed transaction becomes. -/
def requestOf (q : EgpProtocolRequest) (d : Daemon) (peer : EgpPeerSecurity) :
    EgpProtocolRequest :=
  { q with windowEpoch := d.security.windowEpoch, connectionEpoch := peer.connectionEpoch }

/-- A request is refused, or becomes the work. -/
theorem submit_cases (o : Visits) (now : Int) (hwork : d.work = none) (r : EgpProtocolRequest) :
    (∃ error, egpOperationsSubmit o now d r = (d, .error error)) ∨
      egpOperationsSubmit o now d r =
        (resultPublished o now { d with work := some (.request r) } r.peerPath (acceptedJson r),
          .ok ()) := by
  unfold egpOperationsSubmit
  by_cases hclosing : d.closing = true
  · rw [if_pos (by simp [hclosing])]
    exact .inl ⟨_, rfl⟩
  · rw [if_neg (by simp [hclosing, hwork])]
    by_cases htext : (acceptedJson r).isEmpty = true
    · rw [if_pos htext]
      exact .inl ⟨_, rfl⟩
    · rw [if_neg htext]
      exact .inr rfl

/-- What comes of a completed transaction: nothing, or a worker whose request is
accepted. -/
theorem dispatch_complete (env : PeerEnv) (hwork : d.work = none) (peerPath : Bytes)
    (peer : EgpPeerSecurity) (q : EgpProtocolRequest) :
    (dispatch env d peerPath peer (.complete q)).1 = { d with activeRequest := none } ∨
      (dispatch env d peerPath peer (.complete q)).1 = resultPublished env.visits env.publishUs
        { d with
          activeRequest := some (hideJson (requestOf q d peer))
          work := some (.request (requestOf q d peer)) }
        q.peerPath (acceptedJson (requestOf q d peer)) := by
  have hsubmit := submit_cases env.visits env.publishUs
    (d := { d with activeRequest := some (hideJson (requestOf q d peer)) }) hwork
    (requestOf q d peer)
  rcases hsubmit with ⟨error, hr⟩ | hr
  · left
    unfold requestOf at hr
    unfold dispatch
    simp only [hr]
  · right
    unfold requestOf at hr ⊢
    unfold dispatch
    simp only [hr]

/-- Dispatching leaves the security. -/
theorem dispatch_security (env : PeerEnv) (hwork : d.work = none) (peerPath : Bytes)
    (peer : EgpPeerSecurity) (output : EgpProtocolOutput) :
    (dispatch env d peerPath peer output).1.security = d.security := by
  cases output with
  | incomplete => rfl
  | replay q cached =>
      unfold dispatch
      simp only
      split <;> rfl
  | complete q =>
      rcases dispatch_complete env hwork peerPath peer q with heq | heq
      · rw [heq]
      · rw [heq]
        exact (resultPublished_frame _ _ _ _ _).1

/-- The part of a write behind its authorization. -/
theorem Routed.dispatch (h : Routed sha256 (log ++ [x]) d) (hwork : d.work = none) (env : PeerEnv)
    {peerPath : Bytes} (peer : EgpPeerSecurity) {output : EgpProtocolOutput}
    (hbounded : peerPath.length < egpDbusPathCap)
    (hreplay : ∀ q cached, output = .replay q cached → cached ≠ [] →
      ∃ r, r.peerPath = peerPath ∧
        ResultSince sha256 (log ++ [x]) d.security.windowEpoch r cached)
    (hcomplete : ∀ q, output = .complete q → q.peerPath = peerPath ∧
      (x.after.work = some (.request (requestOf q d peer)) →
        Completes sha256 x (requestOf q d peer)))
    (hafter : x.after = (Callbacks.dispatch env d peerPath peer output).1) :
    Routed sha256 (log ++ [x]) x.after := by
  rw [hafter]
  cases output with
  | incomplete => exact h
  | replay q cached =>
      unfold Callbacks.dispatch
      simp only
      split
      · rename_i hcached
        simp only [Bool.and_eq_true, Bool.not_eq_true', List.isEmpty_eq_false_iff,
          decide_eq_true_eq] at hcached
        obtain ⟨r, hpeer, hsince⟩ := hreplay q cached rfl hcached.1
        refine ⟨h.tidy, h.flight, fun _ => ⟨r, ?_, ?_⟩, h.cached⟩
        · rw [hpeer]
          exact (List.take_of_length_le (Nat.le_sub_one_of_lt hbounded)).symm
        · show ResultSince _ _ _ _ (cached.take egpGattValueMaxBytes)
          rw [List.take_of_length_le hcached.2]
          exact hsince
      · exact h
  | complete q =>
      obtain ⟨hpeer, hcompletes⟩ := hcomplete q rfl
      rcases dispatch_complete env hwork peerPath peer q with heq | heq
      · rw [heq]
        exact h.idle hwork
      · have hbusy : x.after.work = some (.request (requestOf q d peer)) := by
          rw [hafter, heq]
          exact (resultPublished_frame _ _ _ _ _).2
        have hcompletes := hcompletes hbusy
        have hsince : ResultSince sha256 (log ++ [x]) d.security.windowEpoch (requestOf q d peer)
            (acceptedJson (requestOf q d peer)) :=
          ⟨log, x, [], rfl, hcompletes, fun y hy => absurd hy List.not_mem_nil, rfl, x,
            List.mem_cons_self, .accepted hcompletes⟩
        have hrouted : Routed sha256 (log ++ [x])
            { d with
              activeRequest := some (hideJson (requestOf q d peer))
              work := some (.request (requestOf q d peer)) } := by
          refine ⟨h.tidy, ?_, h.result, h.cached⟩
          intro r hr
          cases hr
          exact ⟨log, x, [], rfl, hcompletes, fun y hy => absurd hy List.not_mem_nil,
            .inr ⟨rfl, fun y hy => absurd hy List.not_mem_nil, rfl⟩⟩
        rw [heq]
        refine hrouted.published (r := requestOf q d peer) _ _ hcompletes.bounded ?_
        intro r hr
        cases hr
        exact ⟨rfl, hsince⟩

theorem closeWindow_unchanged {s : EgpSecurity} (h : (egpSecurityCloseWindow s).changed = none) :
    (egpSecurityCloseWindow s).security.windowEpoch = s.windowEpoch := by
  unfold egpSecurityCloseWindow at h ⊢
  split at h
  · cases h
  · rw [if_neg (by assumption)]

theorem openWindow_unchanged {s : EgpSecurity} {now : Int}
    (h : (egpSecurityOpenWindow s now).changed = none) :
    (egpSecurityOpenWindow s now).security.windowEpoch = s.windowEpoch := by
  unfold egpSecurityOpenWindow at h ⊢
  split at h
  · rw [if_pos (by assumption)]
  · cases h

theorem expiryTick_unchanged {s : EgpSecurity} {now : Int} (h : (expiryTick s now).changed = none) :
    (expiryTick s now).security.windowEpoch = s.windowEpoch := by
  unfold expiryTick at h ⊢
  by_cases hclosed : (!s.isOpen) = true
  · rw [if_pos hclosed]
  · rw [if_neg hclosed] at h ⊢
    split at h
    · cases h
    · rw [if_neg (by assumption)]

/-- An authorization keeps the epoch. -/
theorem authorizeSensitive_epoch (s : EgpSecurity) (peerPath : Bytes) (peer : EgpPeerSecurity)
    (claim : Bool) (now : Int) :
    (egpSecurityAuthorizeSensitive s peerPath peer claim now).1.windowEpoch = s.windowEpoch := by
  unfold egpSecurityAuthorizeSensitive
  split
  · rfl
  · split
    · rfl
    · split
      · rfl
      · split
        · rfl
        · split <;> rfl

/-- The part of a write behind an accepted frame. -/
theorem Routed.authorizeWrite (h : Routed sha256 log d) (hbefore : x.before = d)
    (hwork : d.work = none) {env : PeerEnv} {c : EgpWritableCharacteristic}
    {peerPath value : Bytes} {peer : EgpPeerSecurity} {output : EgpProtocolOutput}
    (hevent : x.event = .writeValue env (some c) peerPath value)
    (haccept : (egpProtocolAccept sha256 env.visits d.protocol peerPath c value env.acceptUs).2 =
      .ok output)
    (hafter : x.after = (Callbacks.authorizeWrite env
      { d with
        protocol := (egpProtocolAccept sha256 env.visits d.protocol peerPath c value
          env.acceptUs).1 }
      peerPath peer output).1) :
    Routed sha256 (log ++ [x]) x.after := by
  have hanswers := accept_answers sha256 env.visits h.tidy peerPath c value env.acceptUs
  have htidy := @tidy_accept sha256 _ h.tidy env.visits peerPath c value env.acceptUs
  generalize haccepted : egpProtocolAccept sha256 env.visits d.protocol peerPath c value
    env.acceptUs = accepted at hanswers htidy haccept hafter
  unfold Callbacks.authorizeWrite at hafter
  simp only at hafter
  have hepoch := authorizeSensitive_epoch d.security peerPath peer true env.authorizeUs
  generalize egpSecurityAuthorizeSensitive d.security peerPath peer true env.authorizeUs =
    authorized at hepoch hafter
  obtain ⟨security, answer⟩ := authorized
  cases answer with
  | error error =>
      simp only at hafter
      split at hafter
      · refine h.moved hbefore { d with protocol := egpProtocolDropAll accepted.1 } rfl ?_ rfl
          closeWindow_unchanged hafter
        intro hquiet
        exact (h.lift hbefore hquiet).protocol tidy_new (textsFrom_new _)
      · have hquiet : x.after.security.windowEpoch = d.security.windowEpoch := by rw [hafter]
        have hrouted := (h.lift hbefore hquiet).protocol tidy_new (textsFrom_new _)
        rw [hafter]
        exact hrouted
  | ok u =>
      have hquiet : x.after.security.windowEpoch = d.security.windowEpoch := by
        rw [hafter, dispatch_security env (by exact hwork)]
        exact hepoch
      have hlift := h.lift hbefore hquiet
      refine Routed.dispatch (d := { d with protocol := accepted.1, security })
        ((hlift.protocol htidy hanswers.texts).security hepoch) hwork env peer
        (hanswers.bounded output haccept) ?_ ?_ hafter
      · rintro q cached rfl hcached
        obtain ⟨hpeer, entry, hentry, rfl⟩ := hanswers.replay q cached haccept
        obtain ⟨r, hkey, hsince⟩ := hlift.cached _ _ hentry hcached
        refine ⟨r, (completedKey_inj hkey).1.trans hpeer, ?_⟩
        show ResultSince sha256 (log ++ [x]) security.windowEpoch r entry.result
        rw [hepoch]
        exact hsince
      · rintro q rfl
        have hq := hanswers.complete q haccept
        refine ⟨hq.1, ?_⟩
        intro hbusy
        have hrequest : requestOf q { d with protocol := accepted.1, security } peer =
            { q with
              windowEpoch := security.windowEpoch
              connectionEpoch := peer.connectionEpoch } :=
          rfl
        refine ⟨⟨env, c, value, q, ?_, ?_, rfl⟩, ?_, ?_, hbusy, ?_⟩
        · rw [hevent, hrequest, hq.1]
        · rw [hrequest, hbefore]
          simp only
          rw [hq.1, haccepted]
          exact haccept
        · rw [hrequest]
          simp only
          rw [hq.1]
          exact hanswers.bounded _ haccept
        · rw [hbefore]
          exact hwork
        · rw [hrequest, hafter, dispatch_security env (by exact hwork)]

/-- A callback that leaves the window alone and changes the protocol at most. -/
theorem Routed.onlyProtocol {p : EgpProtocol} (h : Routed sha256 log d) (hbefore : x.before = d)
    (hafter : x.after = { d with protocol := p }) (htidy : Tidy p)
    (htexts : TextsFrom d.protocol p) : Routed sha256 (log ++ [x]) x.after := by
  have hquiet : x.after.security.windowEpoch = d.security.windowEpoch := by rw [hafter]
  have hrouted := (h.lift hbefore hquiet).protocol htidy htexts
  rw [hafter]
  exact hrouted

theorem Routed.same (h : Routed sha256 log d) (hbefore : x.before = d) (hafter : x.after = d) :
    Routed sha256 (log ++ [x]) x.after :=
  h.onlyProtocol hbefore hafter h.tidy (.refl _)

theorem tidy_dropPeer {p : EgpProtocol} (h : Tidy p) (peerPath : Bytes) :
    Tidy (egpProtocolDropPeer p peerPath) :=
  @ProtocolRun.tidy_step (fun bytes => bytes) p h .plain 0 (.dropPeer peerPath)

/-- A write keeps the routing: what it publishes goes to the peer that sent it. -/
theorem Routed.writeValue (h : Routed sha256 log d) (hbefore : x.before = d) {env : PeerEnv}
    {characteristic : Option EgpWritableCharacteristic} {peerPath value : Bytes}
    (hevent : x.event = .writeValue env characteristic peerPath value)
    (hafter : x.after =
      (Callbacks.writeValue sha256 env d characteristic peerPath value).1) :
    Routed sha256 (log ++ [x]) x.after := by
  unfold Callbacks.writeValue at hafter
  cases characteristic with
  | none => exact h.same hbefore hafter
  | some c =>
      simp only at hafter
      by_cases hbusy : d.work.isSome = true
      · rw [if_pos hbusy] at hafter
        exact h.same hbefore hafter
      · rw [if_neg hbusy] at hafter
        have hwork : d.work = none := by simpa using hbusy
        cases hpeer : env.peer with
        | error error =>
            rw [hpeer] at hafter
            exact h.same hbefore hafter
        | ok peer =>
            rw [hpeer] at hafter
            simp only at hafter
            split at hafter
            · exact h.same hbefore hafter
            · split at hafter
              · exact h.onlyProtocol hbefore hafter (tidy_dropPeer h.tidy peerPath)
                  fun _ entry hentry _ => ⟨entry, hentry, rfl⟩
              · cases haccept : (egpProtocolAccept sha256 env.visits d.protocol peerPath c value
                    env.acceptUs).2 with
                | error error =>
                    rw [haccept] at hafter
                    exact h.onlyProtocol hbefore hafter (tidy_accept h.tidy _ _ _ _ _)
                      (accept_answers sha256 env.visits h.tidy peerPath c value env.acceptUs).texts
                | ok output =>
                    rw [haccept] at hafter
                    exact h.authorizeWrite hbefore hwork hevent haccept hafter

/-! ### The worker -/

/-- The request in flight is not the active one any more: its result goes nowhere. -/
theorem completed_stale {r : EgpProtocolRequest} (hwork : d.work = some (.request r))
    (hactive : d.activeRequest = none) (o : Visits) (now : Int) (outcome : Outcome) :
    completed o now d outcome = { d with work := none } := by
  unfold completed
  simp only [hwork]
  unfold resultPublished
  simp only [hactive]

/-- A completion keeps the routing: its result goes to the request it was made for. -/
theorem Routed.completed (h : Routed sha256 log d) (hbefore : x.before = d) {o : Visits}
    {now : Int} {outcome : Outcome} (hevent : x.event = .completed o now outcome)
    (hafter : x.after = Callbacks.completed o now d outcome) :
    Routed sha256 (log ++ [x]) x.after := by
  cases hwork : d.work with
  | none =>
      refine h.same hbefore (hafter.trans ?_)
      unfold Callbacks.completed
      simp only [hwork]
  | some flight =>
      cases flight with
      | reconcile =>
          have hafter' : x.after = { d with work := none } := by
            rw [hafter]
            unfold Callbacks.completed
            simp only [hwork]
          have hquiet : x.after.security.windowEpoch = d.security.windowEpoch := by rw [hafter']
          have hrouted := (h.lift hbefore hquiet).work (w := none) nofun
          rw [hafter']
          exact hrouted
      | request r =>
          have hafter' : x.after = resultPublished o now { d with work := none } r.peerPath
              (outcome.json r) := by
            rw [hafter]
            unfold Callbacks.completed
            simp only [hwork]
          have hquiet : x.after.security.windowEpoch = d.security.windowEpoch := by
            rw [hafter', (resultPublished_frame _ _ _ _ _).1]
          obtain ⟨a, y, b, hlog, hcompletes, -, hactive⟩ := h.flight r hwork
          have hrouted := (h.lift hbefore hquiet).work (w := none) nofun
          have hresult : ∀ q, d.activeRequest = some q → q = hideJson r ∧
              ResultSince sha256 (log ++ [x]) d.security.windowEpoch r (outcome.json r) := by
            intro q hq
            rcases hactive with hnone | ⟨hsome, hquiet', hepoch⟩
            · rw [hq] at hnone
              cases hnone
            · rw [hq] at hsome
              cases hsome
              refine ⟨rfl, a, y, b ++ [x], by simp [hlog], hcompletes, ?_, hepoch, x, by simp,
                .finished o now outcome hevent (hbefore ▸ hwork)⟩
              exact hquiet'.snoc (by rw [hquiet, hbefore])
          rw [hafter']
          exact hrouted.published o now hcompletes.bounded hresult

/-! ## Every run -/

/-- Every callback keeps the routing. -/
theorem routed_step (h : Routed sha256 log d) (event : Event) :
    Routed sha256 (log ++ [⟨d, event, (step sha256 d event).2, (step sha256 d event).1⟩])
      (step sha256 d event).1 := by
  generalize hx : (⟨d, event, (step sha256 d event).2, (step sha256 d event).1⟩ : Entry) = x
  have hbefore : x.before = d := by rw [← hx]
  have hevent : x.event = event := by rw [← hx]
  have hafter : x.after = (step sha256 d event).1 := by rw [← hx]
  rw [← hafter]
  cases event with
  | writeValue env characteristic peerPath value => exact h.writeValue hbefore hevent hafter
  | readResult env peerPath => exact h.same hbefore hafter
  | physicalPresence now =>
      exact h.moved hbefore d rfl (h.lift hbefore) rfl openWindow_unchanged hafter
  | inputLost => exact h.moved hbefore d rfl (h.lift hbefore) rfl closeWindow_unchanged hafter
  | windowTick now => exact h.moved hbefore d rfl (h.lift hbefore) rfl expiryTick_unchanged hafter
  | bluezLost =>
      rw [hafter]
      exact routed_forget h hbefore rfl
  | peerDisconnected peerPath =>
      exact h.onlyProtocol hbefore hafter (tidy_dropPeer h.tidy peerPath)
        fun _ entry hentry _ => ⟨entry, hentry, rfl⟩
  | expireProtocol o now =>
      have haged := (expire_aged o d.protocol now).1
      exact h.onlyProtocol hbefore hafter (h.tidy.aged haged) (textsFrom_of_aged haged)
  | completed o now outcome => exact h.completed hbefore hevent hafter
  | reconcile =>
      have hquiet : x.after.security.windowEpoch = d.security.windowEpoch := by
        rw [hafter]
        show (egpOperationsReconcile d).security.windowEpoch = _
        unfold egpOperationsReconcile
        split <;> rfl
      have hlift := h.lift hbefore hquiet
      rw [hafter]
      show Routed sha256 _ (egpOperationsReconcile d)
      unfold egpOperationsReconcile
      split
      · exact hlift
      · exact hlift.work nofun
  | shutDown =>
      have hquiet : x.after.security.windowEpoch = d.security.windowEpoch := by rw [hafter]; rfl
      have hlift := h.lift hbefore hquiet
      rw [hafter]
      exact ⟨hlift.tidy, hlift.flight, hlift.result, hlift.cached⟩

/-- Every result of a run is routed to the peer it is for. -/
theorem routed_run (h : Run sha256 log d) : Routed sha256 log d := by
  induction h with
  | start =>
      refine ⟨tidy_new, nofun, fun hresult => absurd rfl hresult, ?_⟩
      intro key entry hentry
      cases hentry
  | step h event ih => exact routed_step ih event

/-- Every entry of a run is a callback in a state of a run. -/
theorem run_entries (h : Run sha256 log d) :
    Throughout (fun front (x : Entry) => Run sha256 front x.before ∧
      (x.after, x.reply) = step sha256 x.before x.event) log := by
  induction h with
  | start => exact throughout_nil _
  | step h event ih => exact ih.snoc ⟨h, rfl⟩

/-- What a successful read has checked. -/
theorem readResult_ok {env : PeerEnv} {peerPath value : Bytes}
    (h : readResult env d peerPath = .ok value) :
    d.security.owner = peerPath ∧ d.security.openAt env.authorizeUs = true ∧
      d.resultPeer = peerPath ∧ d.lastResult = value ∧ value ≠ [] := by
  unfold readResult at h
  split at h
  · cases h
  · rename_i peer hpeer
    split at h
    · cases h
    · rename_i hread
      split at h
      · cases h
      · rename_i hresult
        cases h
        simp only [Bool.or_eq_true, List.isEmpty_iff, bne_iff_ne, ne_eq, not_or,
          Decidable.not_not] at hresult
        unfold egpSecurityCanReadResult egpSecurityAuthorizeSensitive at hread
        split at hread
        · cases hread
        · split at hread
          · cases hread
          · split at hread
            · cases hread
            · rename_i hopen
              rw [Bool.and_false, if_neg (by simp)] at hread
              split at hread
              · rename_i howner
                exact ⟨by simpa using howner, by simpa using hopen, hresult.2.symm, rfl, hresult.1⟩
              · cases hread

/-- In every order of the callbacks: what is cached under the key of a transaction is
a result that was published for it; a read of the result succeeds for the owner of
the window before its deadline only, and answers with a result of a transaction that
this peer completed in the current epoch; and when the worker is done with a request
whose epoch has changed since, the daemon keeps nothing of its result. -/
theorem results_routed (h : Run sha256 log d) :
    (∀ key entry, d.protocol.completed.lookup key = some entry → entry.result ≠ [] →
      ∃ r, requestKey r = key ∧ ∃ y ∈ log, Produces sha256 y r entry.result) ∧
    (∀ front y back env peerPath value, log = front ++ y :: back →
      y.event = .readResult env peerPath → y.reply = .read (.ok value) →
      y.before.security.owner = peerPath ∧ y.before.security.isOpen = true ∧
        0 < env.authorizeUs ∧ env.authorizeUs < y.before.security.deadlineUs ∧
        ∃ r, r.peerPath = peerPath ∧
          ResultSince sha256 front y.before.security.windowEpoch r value) ∧
    (∀ front y back o now outcome r, log = front ++ y :: back →
      y.event = .completed o now outcome → y.before.work = some (.request r) →
      ∃ a x b, front = a ++ x :: b ∧ Completes sha256 x r ∧
        (∀ z ∈ b, z.before.work = some (.request r)) ∧
        ((∃ z ∈ b, z.after.security.windowEpoch ≠ z.before.security.windowEpoch) →
          y.after = { y.before with work := none })) := by
  refine ⟨?_, ?_, ?_⟩
  · intro key entry hentry hresult
    obtain ⟨r, hkey, a, x, b, rfl, -, -, -, y, hy, hproduces⟩ :=
      (routed_run h).cached key entry hentry hresult
    exact ⟨r, hkey, y, List.mem_append_right _ hy, hproduces⟩
  · intro front y back env peerPath value hlog hevent hreply
    obtain ⟨hrun, hstep⟩ := run_entries h front y back hlog
    rw [hevent] at hstep
    have hread : readResult env y.before peerPath = .ok value := by
      have hreply' := congrArg Prod.snd hstep
      rw [hreply] at hreply'
      injection hreply' with heq
      exact heq.symm
    obtain ⟨howner, hopen, hpeer, hlast, hvalue⟩ := readResult_ok hread
    obtain ⟨hisOpen, hpositive, hdeadline⟩ := openAt_iff.mp hopen
    obtain ⟨r, hr, hsince⟩ := (routed_run hrun).result (hlast ▸ hvalue)
    rw [hpeer] at hr
    rw [hlast] at hsince
    exact ⟨howner, hisOpen, hpositive, hdeadline, r, hr, hsince⟩
  · intro front y back o now outcome r hlog hevent hwork
    obtain ⟨hrun, hstep⟩ := run_entries h front y back hlog
    rw [hevent] at hstep
    have hafter : y.after = completed o now y.before outcome := congrArg Prod.fst hstep
    obtain ⟨a, x, b, rfl, hcompletes, hflight, hactive⟩ := (routed_run hrun).flight r hwork
    refine ⟨a, x, b, rfl, hcompletes, hflight, ?_⟩
    rintro ⟨z, hz, hchanged⟩
    rcases hactive with hnone | ⟨-, hquiet, -⟩
    · rw [hafter]
      exact completed_stale hwork hnone o now outcome
    · exact absurd (hquiet z hz) hchanged

def sampleEnv : PeerEnv :=
  ⟨.ok ⟨true, true, true, true, true, 7⟩, some (ascii "IDLE"), 2000, 2001, 2002, 2003, .plain⟩

/-- The daemon after a window was opened and a request was written whole. -/
def sampleDaemon : Daemon :=
  (step ProtocolRun.sampleDigest
    (step ProtocolRun.sampleDigest daemonNew (.physicalPresence 1000)).1
    (.writeValue sampleEnv (some .provisioning) ProtocolRun.samplePeer
      (ProtocolRun.sampleFrame 3 0 "\x7b\x7d"))).1

/-- The peer that wrote the request reads that it is accepted. -/
theorem results_routed_sample :
    ∃ log d front y value, Run ProtocolRun.sampleDigest log d ∧ log = front ++ [y] ∧
      y.event = .readResult sampleEnv ProtocolRun.samplePeer ∧ y.reply = .read (.ok value) ∧
      ∃ r, r.peerPath = ProtocolRun.samplePeer ∧
        ResultSince ProtocolRun.sampleDigest front y.before.security.windowEpoch r value := by
  have hok : (readResult sampleEnv sampleDaemon ProtocolRun.samplePeer).isOk = true := by
    decide +kernel
  have hstart : Run ProtocolRun.sampleDigest [] daemonNew := .start
  have hwritten := (hstart.step (.physicalPresence 1000)).step (.writeValue sampleEnv
    (some .provisioning) ProtocolRun.samplePeer (ProtocolRun.sampleFrame 3 0 "\x7b\x7d"))
  have hrun := hwritten.step (.readResult sampleEnv ProtocolRun.samplePeer)
  cases hread : readResult sampleEnv sampleDaemon ProtocolRun.samplePeer with
  | error error =>
      rw [hread] at hok
      cases hok
  | ok value =>
      have hreply := congrArg Reply.read hread
      exact ⟨_, _, _, _, value, hrun, rfl, rfl, hreply,
        ((results_routed hrun).2.1 _ _ [] _ _ _ rfl rfl hreply).2.2.2.2⟩

end EdgeGuard.Provisioning.ResultRouting
