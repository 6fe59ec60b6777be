import EdgeGuard.Base.Trace
import EdgeGuard.Provisioning.ProtocolRun

/-!
# Repeated requests

A request that was completed is answered from the cache when it comes again.  The
cache forgets a request when everything is dropped, when its time is over, or when 64
others that are no older have been completed.

## Main results

* `cache_run` — the cache of a run is what its log says.
* `replayed_at_most_once` — when a key may be completed again, and what is answered
  when it may not.
-/

namespace EdgeGuard.Provisioning.ProtocolReplay

open EdgeGuard.Base.CText EdgeGuard.Base.HashTable EdgeGuard.Base.Trace
open EdgeGuard.Provisioning.Model EdgeGuard.Provisioning.Protocol
open EdgeGuard.Provisioning.ProtocolRun

/-! ## What the log says -/

def requestKey (q : EgpProtocolRequest) : Bytes :=
  completedKey q.peerPath q.characteristic q.transactionId

/-- The request that a call answered as complete. -/
def completion (e : LogEntry) : Option EgpProtocolRequest :=
  match e.reply with
  | .accepted (.ok (.complete q)) => some q
  | _ => none

/-- The call completed a request under the key. -/
def CompletesKey (key : Bytes) (e : LogEntry) : Prop :=
  ∃ q, completion e = some q ∧ requestKey q = key

/-- The result that a call cached under the key, with its time. -/
def cached (key : Bytes) (e : LogEntry) : Option (Int × Bytes) :=
  match e.event, e.reply with
  | .cacheResultId peer c id result, .cached (.ok ()) =>
      if completedKey peer c id = key then some (e.now, result) else none
  | _, _ => none

/-- The last result cached under the key. -/
def lastCached (key : Bytes) (log : List LogEntry) : Option (Int × Bytes) :=
  (log.filterMap (cached key)).getLast?

/-- The later of a completion and of the last result that was cached behind it. -/
def lastUse (key : Bytes) (completedUs : Int) (back : List LogEntry) : Int :=
  ((lastCached key back).map Prod.fst).getD completedUs

/-- The text of the last result, which is empty before there is one. -/
def lastResult (key : Bytes) (back : List LogEntry) : Bytes :=
  ((lastCached key back).map Prod.snd).getD []

/-- What may make the engine forget a completion at `completedUs`, with the calls
`back` behind it. -/
def MayForget (log : List LogEntry) (key : Bytes) (completedUs : Int)
    (back : List LogEntry) (now : Int) : Prop :=
  (∃ e ∈ back, e.event = .dropAll) ∨
    lastUse key completedUs back + egpProtocolReplayTtlUs ≤ now ∨
    ∃ others : List Bytes, others.Nodup ∧ completedCacheLimit ≤ others.length ∧ key ∉ others ∧
      ∀ other ∈ others, ∃ e ∈ log, CompletesKey other e ∧ completedUs ≤ e.now

/-- The entry of the cache for a completion. -/
def entryOf (sha256 : Bytes → Bytes) (completedUs : Int) (q : EgpProtocolRequest)
    (back : List LogEntry) : Completed where
  digest := sha256 (digestInput q.peerPath q.characteristic q.opcode q.json)
  result := lastResult (requestKey q) back
  expiresUs := lastUse (requestKey q) completedUs back + egpProtocolReplayTtlUs
  completedUs := completedUs

theorem lastCached_append (key : Bytes) (back : List LogEntry) (e : LogEntry) :
    lastCached key (back ++ [e]) =
      match cached key e with
      | some entry => some entry
      | none => lastCached key back := by
  unfold lastCached
  rw [List.filterMap_append]
  cases hcached : cached key e with
  | none => simp [hcached]
  | some entry => simp [hcached]

/-- A call that caches nothing under the key leaves the entry of a completion. -/
theorem entryOf_append {sha256 : Bytes → Bytes} (completedUs : Int) {q : EgpProtocolRequest}
    (back : List LogEntry) {e : LogEntry} (h : cached (requestKey q) e = none) :
    entryOf sha256 completedUs q (back ++ [e]) = entryOf sha256 completedUs q back := by
  simp only [entryOf, lastResult, lastUse, lastCached_append, h]

/-! ## The invariant of the cache -/

/-- The cache holds what the log has completed last under each key, or it may have
forgotten it; and everything in it comes from the log. -/
structure Cache (sha256 : Bytes → Bytes) (log : List LogEntry) (clock : Int)
    (completed : Table Bytes Completed) : Prop where
  last : ∀ front e back q, log = front ++ e :: back → completion e = some q →
    (∀ e' ∈ back, ¬ CompletesKey (requestKey q) e') →
    completed.lookup (requestKey q) = some (entryOf sha256 e.now q back) ∨
      completed.lookup (requestKey q) = none ∧ MayForget log (requestKey q) e.now back clock
  logged : ∀ key entry, completed.lookup key = some entry →
    ∃ e ∈ log, CompletesKey key e ∧ e.now = entry.completedUs

/-- A call that caches nothing under the key takes no cause away. -/
theorem MayForget.append {log : List LogEntry} {key : Bytes} {completedUs : Int}
    {back : List LogEntry} {now : Int} (h : MayForget log key completedUs back now)
    {e : LogEntry} (hcached : cached key e = none) :
    MayForget (log ++ [e]) key completedUs (back ++ [e]) now := by
  rcases h with ⟨x, hx, hdrop⟩ | httl | ⟨others, hnodup, hlength, hkey, hothers⟩
  · exact .inl ⟨x, by simp [hx], hdrop⟩
  · refine .inr (.inl ?_)
    simp only [lastUse, lastCached_append, hcached] at httl ⊢
    exact httl
  · refine .inr (.inr ⟨others, hnodup, hlength, hkey, fun other hother => ?_⟩)
    obtain ⟨x, hx, hcompletes, htime⟩ := hothers other hother
    exact ⟨x, by simp [hx], hcompletes, htime⟩

theorem MayForget.later {log : List LogEntry} {key : Bytes} {completedUs : Int}
    {back : List LogEntry} {clock now : Int} (h : MayForget log key completedUs back clock)
    (hlater : clock ≤ now) : MayForget log key completedUs back now := by
  rcases h with hdrop | httl | hothers
  · exact .inl hdrop
  · exact .inr (.inl (Int.le_trans httl hlater))
  · exact .inr (.inr hothers)

section Steps

variable {sha256 : Bytes → Bytes} {log : List LogEntry} {clock now : Int}
  {completed : Table Bytes Completed}

/-- Time passes: entries vanish when their time is over. -/
theorem Cache.aged {p q : EgpProtocol} (h : Cache sha256 log clock p.completed)
    (hlater : clock ≤ now) (hq : Aged now p q) : Cache sha256 log now q.completed := by
  constructor
  · intro front e back r hlog hr hlast
    cases hafter : q.completed.lookup (requestKey r) with
    | some entry =>
        left
        rcases h.last front e back r hlog hr hlast with hsome | ⟨hnone, -⟩
        · rw [hq.completed _ entry hafter] at hsome
          exact hsome
        · rw [hq.completed _ entry hafter] at hnone
          cases hnone
    | none =>
        refine .inr ⟨rfl, ?_⟩
        rcases h.last front e back r hlog hr hlast with hsome | ⟨-, hforget⟩
        · by_cases htime : now < (entryOf sha256 e.now r back).expiresUs
          · rw [hq.current _ _ hsome htime] at hafter
            cases hafter
          · exact .inr (.inl (Int.not_lt.mp htime))
        · exact hforget.later hlater
  · intro key entry hentry
    exact h.logged key entry (hq.completed key entry hentry)

/-- A call that neither completes a request nor caches a result. -/
theorem Cache.quiet (h : Cache sha256 log now completed) {x : LogEntry}
    (hcached : ∀ key, cached key x = none) (hcompletion : completion x = none) :
    Cache sha256 (log ++ [x]) now completed := by
  constructor
  · intro front e back' q hlog hq hlast
    rcases split_snoc hlog with ⟨-, -, rfl⟩ | ⟨back, rfl, hsplit⟩
    · rw [hcompletion] at hq
      cases hq
    · rw [entryOf_append e.now back (hcached _)]
      rcases h.last front e back q hsplit hq (fun e' he' => hlast e' (by simp [he'])) with
        hsome | ⟨hnone, hforget⟩
      · exact .inl hsome
      · exact .inr ⟨hnone, hforget.append (hcached _)⟩
  · intro key entry hentry
    obtain ⟨e, he, hcompletes, htime⟩ := h.logged key entry hentry
    exact ⟨e, by simp [he], hcompletes, htime⟩

/-- A request is completed: it gets an entry, for which another may have to go. -/
theorem Cache.complete (h : Cache sha256 log now completed) (htimes : ∀ e ∈ log, e.now ≤ now)
    (o : Visits) {x : LogEntry} {r : EgpProtocolRequest} (hx : completion x = some r)
    (htime : x.now = now) (hcached : ∀ key, cached key x = none)
    (hnew : completed.lookup (requestKey r) = none) :
    Cache sha256 (log ++ [x]) now
      ((pruneCompletedLimit o completed).insert (requestKey r) (entryOf sha256 now r [])) := by
  have hpruned : ∀ k entry, (pruneCompletedLimit o completed).lookup k = some entry →
      completed.lookup k = some entry := fun k entry hk => lookup_prune_le o _ _ _ _ _ hk
  have hxcompletes : CompletesKey (requestKey r) x := ⟨r, hx, rfl⟩
  constructor
  · intro front e back' q hlog hq hlast
    rw [lookup_insert_eq]
    rcases split_snoc hlog with ⟨rfl, -, rfl⟩ | ⟨back, rfl, hsplit⟩
    · rw [hx] at hq
      cases hq
      left
      rw [if_pos rfl, htime]
    · have hne : requestKey q ≠ requestKey r := by
        intro heq
        exact hlast x (by simp) (heq ▸ hxcompletes)
      rw [if_neg hne, entryOf_append e.now back (hcached _)]
      have hbefore := h.last front e back q hsplit hq fun e' he' => hlast e' (by simp [he'])
      cases hafter : (pruneCompletedLimit o completed).lookup (requestKey q) with
      | some entry =>
          left
          rcases hbefore with hsome | ⟨hnone, -⟩
          · rw [hpruned _ _ hafter] at hsome
            exact hsome
          · rw [hpruned _ _ hafter] at hnone
            cases hnone
      | none =>
          refine .inr ⟨rfl, ?_⟩
          rcases hbefore with hsome | ⟨-, hforget⟩
          · -- the entry made room: the others are no older
            obtain ⟨others, hnodup, hlength, hkey, hothers⟩ := prune_lost o _ _ _ _ _ hsome hafter
            have hfresh : requestKey r ∉ others := by
              intro hmem
              obtain ⟨entry, hentry, -⟩ := hothers _ hmem
              rw [hnew] at hentry
              cases hentry
            refine .inr (.inr ⟨requestKey r :: others, List.nodup_cons.mpr ⟨hfresh, hnodup⟩,
              hlength, by simp [hne, hkey], fun other hother => ?_⟩)
            rcases List.mem_cons.mp hother with rfl | hother
            · refine ⟨x, by simp, hxcompletes, ?_⟩
              rw [htime]
              exact htimes e (by simp [hsplit])
            · obtain ⟨entry, hentry, hrank⟩ := hothers other hother
              obtain ⟨y, hy, hcompletes, hytime⟩ := h.logged other entry hentry
              exact ⟨y, by simp [hy], hcompletes, hytime ▸ hrank⟩
          · exact hforget.append (hcached _)
  · intro key entry hentry
    rw [lookup_insert_eq] at hentry
    split at hentry
    · rename_i hkey
      cases hentry
      exact ⟨x, by simp, hkey ▸ hxcompletes, htime⟩
    · obtain ⟨e, he, hcompletes, hetime⟩ := h.logged key entry (hpruned _ _ hentry)
      exact ⟨e, by simp [he], hcompletes, hetime⟩

/-- A result is cached: the entry of its key gets it and lives on. -/
theorem Cache.cacheResult (h : Cache sha256 log now completed) {key result : Bytes}
    {entry : Completed} (hfound : completed.lookup key = some entry) {x : LogEntry}
    (hcompletion : completion x = none)
    (hcached : ∀ k, cached k x = if key = k then some (now, result) else none) :
    Cache sha256 (log ++ [x]) now (completed.insert key
      { entry with result, expiresUs := now + egpProtocolReplayTtlUs }) := by
  constructor
  · intro front e back' q hlog hq hlast
    rcases split_snoc hlog with ⟨-, -, rfl⟩ | ⟨back, rfl, hsplit⟩
    · rw [hcompletion] at hq
      cases hq
    · have hbefore := h.last front e back q hsplit hq fun e' he' => hlast e' (by simp [he'])
      rw [lookup_insert_eq]
      by_cases hkey : requestKey q = key
      · -- the entry that is found is that of the completion
        rw [if_pos hkey]
        rcases hbefore with hsome | ⟨hnone, -⟩
        · rw [hkey, hfound] at hsome
          cases hsome
          left
          simp only [entryOf, lastResult, lastUse, lastCached_append, hcached, hkey, if_true,
            Option.map_some, Option.getD_some]
        · rw [hkey, hfound] at hnone
          cases hnone
      · rw [if_neg hkey]
        have hother : cached (requestKey q) x = none := by
          rw [hcached, if_neg (Ne.symm hkey)]
        rw [entryOf_append e.now back hother]
        rcases hbefore with hsome | ⟨hnone, hforget⟩
        · exact .inl hsome
        · exact .inr ⟨hnone, hforget.append hother⟩
  · intro k entry' hentry'
    rw [lookup_insert_eq] at hentry'
    split at hentry'
    · rename_i hkey
      cases hentry'
      obtain ⟨e, he, hcompletes, htime⟩ := h.logged key entry hfound
      exact ⟨e, by simp [he], hkey ▸ hcompletes, htime⟩
    · obtain ⟨e, he, hcompletes, htime⟩ := h.logged k entry' hentry'
      exact ⟨e, by simp [he], hcompletes, htime⟩

/-- Everything is dropped. -/
theorem cache_dropAll {x : LogEntry} (hx : x.event = .dropAll) (hcompletion : completion x = none) :
    Cache sha256 (log ++ [x]) now ∅ := by
  constructor
  · intro front e back' q hlog hq hlast
    rcases split_snoc hlog with ⟨-, -, rfl⟩ | ⟨back, rfl, -⟩
    · rw [hcompletion] at hq
      cases hq
    · exact .inr ⟨rfl, .inl ⟨x, by simp, hx⟩⟩
  · intro key entry hentry
    cases hentry

end Steps

/-- The times of a log. -/
theorem times_run {sha256 : Bytes → Bytes} {log : List LogEntry} {clock : Int} {p : EgpProtocol}
    (h : Run sha256 log clock p) :
    (∀ e ∈ log, e.now ≤ clock) ∧ log.Pairwise fun a b => a.now ≤ b.now := by
  induction h with
  | start => exact ⟨by simp, .nil⟩
  | step h o later event ih =>
      constructor
      · intro e he
        rcases List.mem_append.mp he with he | he
        · exact Int.le_trans (ih.1 e he) later
        · exact Int.le_of_eq (congrArg LogEntry.now (List.mem_singleton.mp he))
      · refine List.pairwise_append.mpr ⟨ih.2, List.pairwise_singleton _ _, fun a ha b hb => ?_⟩
        rw [List.mem_singleton.mp hb]
        exact Int.le_trans (ih.1 a ha) later

/-- What `complete_transaction` answers, by what the cache holds. -/
theorem completeTransaction_eq {sha256 : Bytes → Bytes} {o : Visits} {p : EgpProtocol}
    {key : Bytes} {t : Incomplete} {now : Int} (htext : requestText t.json = true) :
    completeTransaction sha256 o p key t now =
      match p.completed.lookup (requestKey t.request) with
      | some entry =>
          if entry.digest != sha256 (digestInput t.peerPath t.characteristic t.opcode t.json) then
            ({ p with incomplete := p.incomplete.erase key },
              .error (protocolFail .bleReplayRejected false
                "Completed transaction identifier was reused with different content"))
          else
            ({ p with incomplete := p.incomplete.erase key },
              .ok (.replay t.request entry.result))
      | none =>
          ({ p with
              incomplete := p.incomplete.erase key
              completed := (pruneCompletedLimit o p.completed).insert (requestKey t.request)
                (entryOf sha256 now t.request []) },
            .ok (.complete t.request)) := by
  unfold completeTransaction
  simp only [htext, Bool.not_true, Bool.false_eq_true, if_false]
  rfl

/-- A value that is accepted leaves the cache in line with the log. -/
theorem cache_accept {sha256 : Bytes → Bytes} {log : List LogEntry} {clock now : Int}
    {p : EgpProtocol} (h : Cache sha256 log clock p.completed)
    (htimes : ∀ e ∈ log, e.now ≤ clock) (hlater : clock ≤ now) (o : Visits) (peer : Bytes)
    (c : EgpWritableCharacteristic) (value : Bytes) :
    let s := egpProtocolAccept sha256 o p peer c value now
    Cache sha256 (log ++ [⟨now, .accept peer c value, .accepted s.2⟩]) now s.1.completed := by
  have htimes' : ∀ e ∈ log, e.now ≤ now := fun e he => Int.le_trans (htimes e he) hlater
  -- an answer that completes nothing
  have hquiet : ∀ (q : EgpProtocol) reply, Aged now p q →
      (∀ r, reply ≠ .ok (.complete r)) →
      Cache sha256 (log ++ [⟨now, .accept peer c value, .accepted reply⟩]) now q.completed := by
    intro q reply hq hreply
    refine (h.aged hlater hq).quiet (fun _ => rfl) ?_
    unfold completion
    split
    · rename_i r heq
      cases heq
      exact absurd rfl (hreply r)
    · rfl
  intro s
  simp only [s, egpProtocolAccept]
  rcases assemble_cases o p peer c value now with ⟨-, error, heq⟩ | ⟨-, frame, -, hcases⟩
  · rw [heq]
    exact hquiet p _ (.refl now p) fun r => nofun
  · cases hcases with
    | refused q error aged eq =>
        rw [eq]
        exact hquiet q _ aged fun r => nofun
    | joined q t aged current unmarked joins eq =>
        rw [eq]
        cases mergeFrame_cases q (incompleteKey peer c) t frame now with
        | conflict error bytes code eq =>
            rw [eq]
            exact hquiet q _ aged fun r => nofun
        | gap m error bytes ended count code eq =>
            rw [eq]
            exact hquiet q _ aged fun r => nofun
        | kept m bytes open_ eq =>
            rw [eq]
            exact hquiet q _ aged fun r => nofun
        | whole m bytes ended count eq =>
            rw [eq]
            simp only
            generalize { m with touchedUs := now, endSeen := true } = whole
            by_cases htext : requestText whole.json = true
            · rw [completeTransaction_eq htext]
              cases hfound : q.completed.lookup (requestKey whole.request) with
              | some entry =>
                  simp only
                  split
                  · exact hquiet q _ aged fun r => nofun
                  · exact hquiet q _ aged fun r => nofun
              | none =>
                  exact (h.aged hlater aged).complete htimes' o rfl rfl (fun _ => rfl) hfound
            · unfold completeTransaction
              rw [Bool.not_eq_true] at htext
              simp only [htext, Bool.not_false, if_true]
              exact hquiet q _ aged fun r => nofun

/-- In every run the cache is what the log says of it. -/
theorem cache_run {sha256 : Bytes → Bytes} {log : List LogEntry} {clock : Int} {p : EgpProtocol}
    (h : Run sha256 log clock p) : Cache sha256 log clock p.completed := by
  induction h with
  | start =>
      constructor
      · intro front e back q hlog
        simp at hlog
      · intro key entry hentry
        cases hentry
  | @step log clock p h o now later event ih =>
      have htimes := (times_run h).1
      have hexpire := ih.aged later (expire_aged o p now).1
      have hsame := ih.aged later (Aged.refl now p)
      cases event with
      | accept peer c value => exact cache_accept ih htimes later o peer c value
      | cacheResultId peer c id result =>
          simp only [step, egpProtocolCacheResultId]
          split
          · exact hsame.quiet (fun _ => rfl) rfl
          · split
            · exact hexpire.quiet (fun _ => rfl) rfl
            · rename_i entry hfound
              exact hexpire.cacheResult hfound rfl fun k => rfl
      | expire => exact hexpire.quiet (fun _ => rfl) rfl
      | dropPeer peer => exact hsame.quiet (fun _ => rfl) rfl
      | dropAll => exact cache_dropAll rfl rfl

/-! ## Requests that come again -/

/-- The last element with a property. -/
theorem exists_last {α : Type} (P : α → Prop) (xs : List α) :
    (∀ x ∈ xs, ¬ P x) ∨ ∃ front x back, xs = front ++ x :: back ∧ P x ∧ ∀ y ∈ back, ¬ P y := by
  induction xs with
  | nil => exact .inl (by simp)
  | cons x xs ih =>
      rcases ih with hnone | ⟨front, y, back, hxs, hy, hback⟩
      · by_cases hx : P x
        · exact .inr ⟨[], x, xs, rfl, hx, hnone⟩
        · left
          intro y hy
          rcases List.mem_cons.mp hy with rfl | hy
          · exact hx
          · exact hnone y hy
      · exact .inr ⟨x :: front, y, back, by rw [hxs, List.cons_append], hy, hback⟩

theorem cached_now {key : Bytes} {e : LogEntry} {entry : Int × Bytes}
    (h : cached key e = some entry) : entry.1 = e.now := by
  unfold cached at h
  split at h
  · split at h
    · cases h
      rfl
    · cases h
  · cases h

/-- What may make a later completion of the key forgotten may do so for an earlier. -/
theorem MayForget.earlier {log : List LogEntry} {key : Bytes} {e x : LogEntry}
    {between back : List LogEntry} {now : Int}
    (hsorted : (e :: (between ++ x :: back)).Pairwise fun a b => a.now ≤ b.now)
    (h : MayForget log key x.now back now) (hcached : cached key x = none) :
    MayForget log key e.now (between ++ x :: back) now := by
  have htime : e.now ≤ x.now := (List.pairwise_cons.mp hsorted).1 x (by simp)
  rcases h with ⟨y, hy, hdrop⟩ | httl | ⟨others, hnodup, hlength, hkey, hothers⟩
  · exact .inl ⟨y, by simp [hy], hdrop⟩
  · refine .inr (.inl (Int.le_trans (Int.add_le_add_right ?_ _) httl))
    unfold lastUse lastCached
    rw [List.filterMap_append, List.filterMap_cons, hcached]
    cases hback : (back.filterMap (cached key)).getLast? with
    | some entry =>
        rw [List.getLast?_append, hback]
        exact Int.le_refl _
    | none =>
        rw [List.getLast?_append, hback, Option.none_or]
        cases hbetween : (between.filterMap (cached key)).getLast? with
        | none => exact htime
        | some entry =>
            obtain ⟨y, hy, hentry⟩ := List.mem_filterMap.mp (List.mem_of_getLast? hbetween)
            have hle : y.now ≤ x.now :=
              (List.pairwise_append.mp (List.pairwise_cons.mp hsorted).2).2.2 y hy x (by simp)
            show entry.1 ≤ x.now
            rw [cached_now hentry]
            exact hle
  · refine .inr (.inr ⟨others, hnodup, hlength, hkey, fun other hother => ?_⟩)
    obtain ⟨y, hy, hcompletes, hle⟩ := hothers other hother
    exact ⟨y, hy, hcompletes, Int.le_trans htime hle⟩

/-- A completion caches nothing yet. -/
theorem cached_of_completion {e : LogEntry} {q : EgpProtocolRequest}
    (h : completion e = some q) (key : Bytes) : cached key e = none := by
  unfold completion at h
  unfold cached
  split at h
  · rename_i hreply
    split
    · rename_i hreply'
      rw [hreply] at hreply'
      cases hreply'
    · rfl
  · cases h

theorem digestInput_inj {peer : Bytes} {c : EgpWritableCharacteristic} {opcode opcode' : UInt8}
    {data data' : Bytes} (h : digestInput peer c opcode data = digestInput peer c opcode' data') :
    opcode = opcode' ∧ data = data' := by
  simp only [digestInput, List.append_assoc, List.append_cancel_left_eq, List.cons_append,
    List.nil_append, List.cons.injEq] at h
  exact ⟨h.2.1, h.2.2.2.2⟩

/-- For every run and every next frame that makes a request whole whose key was
completed before: the request is completed again only if something may have made the
engine forget it; and otherwise the same request is answered with the last result,
and another is rejected. -/
theorem replayed_at_most_once (sha256 : Bytes → Bytes) (log : List LogEntry) (clock : Int)
    (p : EgpProtocol) (hrun : Run sha256 log clock p) (o : Visits) (now : Int)
    (hlater : clock ≤ now) (peer : Bytes) (c : EgpWritableCharacteristic) (value : Bytes)
    (r : EgpProtocol) (key : Bytes) (t : Incomplete)
    (hwhole : assemble o p peer c value now = .whole r key t)
    (htext : requestText t.json = true) (front back : List LogEntry) (e : LogEntry)
    (hlog : log = front ++ e :: back) (q : EgpProtocolRequest) (hq : completion e = some q)
    (hkey : q.peerPath = t.peerPath ∧ q.characteristic = t.characteristic ∧
      q.transactionId = t.transactionId)
    (hcollision : sha256 (digestInput q.peerPath q.characteristic q.opcode q.json) =
        sha256 (digestInput t.peerPath t.characteristic t.opcode t.json) →
      digestInput q.peerPath q.characteristic q.opcode q.json =
        digestInput t.peerPath t.characteristic t.opcode t.json) :
    let reply := (egpProtocolAccept sha256 o p peer c value now).2
    (reply = .ok (.complete t.request) → MayForget log (requestKey q) e.now back now) ∧
    ((∀ e' ∈ back, ¬ CompletesKey (requestKey q) e') →
      ¬ MayForget log (requestKey q) e.now back now →
      (t.opcode = q.opcode ∧ t.json = q.json →
        reply = .ok (.replay t.request (lastResult (requestKey q) back))) ∧
      (¬ (t.opcode = q.opcode ∧ t.json = q.json) →
        ∃ error, reply = .error error ∧ error.code = .bleReplayRejected)) := by
  have hsame : requestKey t.request = requestKey q := by
    simp only [requestKey, Incomplete.request, hkey]
  have hcache := (cache_run hrun).aged hlater (aged_of_whole hwhole)
  have haccept : egpProtocolAccept sha256 o p peer c value now =
      completeTransaction sha256 o r key t now := by
    unfold egpProtocolAccept
    rw [hwhole]
  rw [haccept, completeTransaction_eq htext, hsame]
  refine ⟨fun hcomplete => ?_, fun hlast hkept => ?_⟩
  · -- the cache holds nothing under the key, so it forgot the last completion
    have hnone : r.completed.lookup (requestKey q) = none := by
      cases hfound : r.completed.lookup (requestKey q) with
      | none => rfl
      | some entry =>
          rw [hfound] at hcomplete
          simp only at hcomplete
          split at hcomplete
          · cases hcomplete
          · cases hcomplete
    have hforget : ∀ front' e' back' q', log = front' ++ e' :: back' → completion e' = some q' →
        requestKey q' = requestKey q → (∀ x ∈ back', ¬ CompletesKey (requestKey q) x) →
        MayForget log (requestKey q) e'.now back' now := by
      intro front' e' back' q' hlog' hq' hkey' hlast'
      rw [← hkey'] at hlast' hnone ⊢
      rcases hcache.last front' e' back' q' hlog' hq' hlast' with hsome | ⟨-, hforget⟩
      · rw [hnone] at hsome
        cases hsome
      · exact hforget
    rcases exists_last (CompletesKey (requestKey q)) back with hlast |
      ⟨between, x, back', hback, ⟨q', hq', hkey'⟩, hlast⟩
    · exact hforget front e back q hlog hq rfl hlast
    · have hlater' := hforget (front ++ e :: between) x back' q'
        (by rw [hlog, hback, List.append_assoc, List.cons_append]) hq' hkey' hlast
      have hsorted := (times_run hrun).2
      rw [hlog] at hsorted
      rw [hback] at hsorted ⊢
      exact hlater'.earlier (List.pairwise_append.mp hsorted).2.1 (cached_of_completion hq' _)
  · rcases hcache.last front e back q hlog hq hlast with hsome | ⟨-, hforget⟩
    · rw [hsome]
      refine ⟨fun ⟨hopcode, hjson⟩ => ?_, fun hdifferent => ?_⟩
      · have hdigest : (entryOf sha256 e.now q back).digest =
            sha256 (digestInput t.peerPath t.characteristic t.opcode t.json) := by
          simp only [entryOf, hkey, hopcode, hjson]
        simp only [hdigest, bne_self_eq_false, Bool.false_eq_true, if_false]
        rfl
      · have hdigest : (entryOf sha256 e.now q back).digest ≠
            sha256 (digestInput t.peerPath t.characteristic t.opcode t.json) := by
          intro hequal
          have hinput := hcollision hequal
          rw [hkey.1, hkey.2.1] at hinput
          obtain ⟨hopcode, hjson⟩ := digestInput_inj hinput
          exact hdifferent ⟨hopcode.symm, hjson.symm⟩
        simp only
        rw [if_pos (by simpa using hdigest)]
        exact ⟨_, rfl, rfl⟩
    · exact absurd hforget hkept

/-! ### A request that is repeated -/

def sampleId : TransactionId := ⟨1 :: List.replicate 15 0, by decide⟩

/-- The request as it is completed. -/
def sampleRequest : EgpProtocolRequest :=
  ⟨samplePeer, .provisioning, sampleId, 0, 0, egpOpcodeForgetWifi, ascii "\x7b\x7d"⟩

def sampleEvents : List (Int × Event) :=
  [(1000, .accept samplePeer .provisioning (sampleFrame 3 0 "\x7b\x7d")),
    (1100, .cacheResultId samplePeer .provisioning sampleId (ascii "SUCCEEDED"))]

/-- The state behind a completed request and its result. -/
def sampleState : EgpProtocol :=
  sampleEvents.foldl (fun p e => (step sampleDigest .plain p e.1 e.2).1) egpProtocolNew

def sampleLog : List LogEntry :=
  [⟨1000, .accept samplePeer .provisioning (sampleFrame 3 0 "\x7b\x7d"),
      .accepted (.ok (.complete sampleRequest))⟩,
    ⟨1100, .cacheResultId samplePeer .provisioning sampleId (ascii "SUCCEEDED"),
      .cached (.ok ())⟩]

/-- The log of the sample is one of a run. -/
theorem sampleLog_run : Run sampleDigest sampleLog 1100 sampleState := by
  have hfirst : (step sampleDigest .plain egpProtocolNew 1000
      (.accept samplePeer .provisioning (sampleFrame 3 0 "\x7b\x7d"))).2 =
        .accepted (.ok (.complete sampleRequest)) :=
    congrArg Reply.accepted (by decide +kernel)
  have hsecond : (step sampleDigest .plain (step sampleDigest .plain egpProtocolNew 1000
      (.accept samplePeer .provisioning (sampleFrame 3 0 "\x7b\x7d"))).1 1100
      (.cacheResultId samplePeer .provisioning sampleId (ascii "SUCCEEDED"))).2 =
        .cached (.ok ()) :=
    congrArg Reply.cached (by decide +kernel)
  show Run sampleDigest ([] ++ [_] ++ [_]) 1100 _
  rw [← hfirst, ← hsecond]
  exact .step (.step .start .plain (by decide) _) .plain (by decide) _

/-- The request of a transaction that is whole. -/
def Assembly.request : Assembly → Option EgpProtocolRequest
  | .answered _ _ => none
  | .whole _ _ t => some t.request

/-- Nothing in the log of the sample may be forgotten. -/
theorem sampleLog_kept : ¬ MayForget sampleLog (requestKey sampleRequest) 1000
    [⟨1100, .cacheResultId samplePeer .provisioning sampleId (ascii "SUCCEEDED"),
      .cached (.ok ())⟩] 1200 := by
  rintro (⟨e, he, hdrop⟩ | httl | ⟨others, -, hlength, hkey, hothers⟩)
  · rw [List.mem_singleton.mp he] at hdrop
    cases hdrop
  · exact absurd httl (by decide +kernel)
  · cases others with
    | nil => exact absurd hlength (by decide)
    | cons other rest =>
        obtain ⟨e, he, ⟨q, hq, hother⟩, -⟩ := hothers other (by simp)
        simp only [sampleLog, List.mem_cons, List.not_mem_nil, or_false] at he
        rcases he with rfl | rfl
        · cases hq
          rw [hother] at hkey
          simp at hkey
        · cases hq

/-- A request that is repeated after its result was cached. -/
theorem replayed_at_most_once_sample :
    (egpProtocolAccept sampleDigest .plain sampleState samplePeer .provisioning
      (sampleFrame 3 0 "\x7b\x7d") 1200).2 =
        .ok (.replay sampleRequest (ascii "SUCCEEDED")) := by
  have hrequest : Assembly.request (assemble .plain sampleState samplePeer .provisioning
      (sampleFrame 3 0 "\x7b\x7d") 1200) = some sampleRequest := by decide +kernel
  cases hwhole : assemble .plain sampleState samplePeer .provisioning
      (sampleFrame 3 0 "\x7b\x7d") 1200 with
  | answered r reply =>
      rw [hwhole] at hrequest
      cases hrequest
  | whole r key t =>
      rw [hwhole] at hrequest
      have ht : t.request = sampleRequest := Option.some.inj hrequest
      have hpeer : t.peerPath = samplePeer := congrArg EgpProtocolRequest.peerPath ht
      have hc : t.characteristic = .provisioning :=
        congrArg EgpProtocolRequest.characteristic ht
      have hid : t.transactionId = sampleId := congrArg EgpProtocolRequest.transactionId ht
      have hopcode : t.opcode = egpOpcodeForgetWifi := congrArg EgpProtocolRequest.opcode ht
      have hjson : t.json = ascii "\x7b\x7d" := congrArg EgpProtocolRequest.json ht
      have hreplayed := (replayed_at_most_once sampleDigest sampleLog 1100 sampleState
        sampleLog_run .plain 1200 (by decide) samplePeer .provisioning
        (sampleFrame 3 0 "\x7b\x7d") r key t hwhole (by rw [hjson]; decide +kernel) [] _ _ rfl
        sampleRequest rfl ⟨hpeer.symm, hc.symm, hid.symm⟩
        (fun _ => by rw [hpeer, hc, hopcode, hjson]; rfl)).2 (by
          intro e he
          rw [List.mem_singleton.mp he]
          rintro ⟨q, hq, -⟩
          cases hq) sampleLog_kept
      have hresult : lastResult (requestKey sampleRequest)
          [⟨1100, .cacheResultId samplePeer .provisioning sampleId (ascii "SUCCEEDED"),
            .cached (.ok ())⟩] = ascii "SUCCEEDED" := by decide +kernel
      rw [hreplayed.1 ⟨hopcode, hjson⟩, ht, hresult]

end EdgeGuard.Provisioning.ProtocolReplay
