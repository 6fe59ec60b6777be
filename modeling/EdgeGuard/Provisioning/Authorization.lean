import EdgeGuard.Provisioning.Operations
import EdgeGuard.Provisioning.Security

/-!
# Authorization of a commit

The main loop opens and closes the window and lets peers claim it; a worker that
took a request watches the agent, asks for the commit, and then changes the store.
A run is any interleaving of the calls into `security.c` with the steps of one
worker at a time (`stable_idle`, `authorize_and_idle`, and the operations behind
them).

## Main results

* `commits_are_owned` — within an epoch one peer owns the window; a granted commit
  is for the peer that claimed it in that epoch; and every change of the store
  comes after two idle observations and a granted commit of its own request.
-/

namespace EdgeGuard.Provisioning.Authorization

open EdgeGuard.Base EdgeGuard.Base.CText EdgeGuard.Base.Json EdgeGuard.Base.Uri
open EdgeGuard.Base.Trace EdgeGuard.Base.Ownership
open EdgeGuard.Provisioning.Model EdgeGuard.Provisioning.Protocol
open EdgeGuard.Provisioning.Store EdgeGuard.Provisioning.Operations
open EdgeGuard.Provisioning.Security

/-! ## The agent -/

/-- The error of `status_fail`. -/
def statusFail (code : EgpErrorCode) (message : String) : EgpError :=
  egpErrorSet code true .none (ascii message)

/-- `egp_status_agent_idle` on the state that the agent reports, `none` if it is not
available; it answers with the observation. -/
def egpStatusAgentIdle (agent : Option Bytes) : Except EgpError Bytes :=
  match agent with
  | none => .error (statusFail .agentUnavailable "Agent state is unavailable or invalid")
  | some state =>
      if state != ascii "IDLE" then
        .error (statusFail .agentBusy "Agent is not at an IDLE commit boundary")
      else .ok state

/-- `stable_idle`, on the two states that it reads. -/
def stableIdle (first second : Option Bytes) : Except EgpError Unit :=
  match egpStatusAgentIdle first with
  | .error error => .error error
  | .ok a =>
      match egpStatusAgentIdle second with
      | .error error => .error error
      | .ok b =>
          if a != b || b != ascii "IDLE" then
            .error (egpErrorSet .provisioningBusy true .none
              (ascii "Agent state did not remain stable at IDLE"))
          else .ok ()

theorem agentIdle_ok {agent : Option Bytes} {state : Bytes}
    (h : egpStatusAgentIdle agent = .ok state) : agent = some (ascii "IDLE") := by
  unfold egpStatusAgentIdle at h
  split at h
  · cases h
  · split at h
    · cases h
    · rename_i state hidle
      have hstate : state = ascii "IDLE" := by simpa using hidle
      rw [hstate]

theorem stableIdle_ok {first second : Option Bytes} (h : stableIdle first second = .ok ()) :
    first = some (ascii "IDLE") ∧ second = some (ascii "IDLE") := by
  unfold stableIdle at h
  split at h
  · cases h
  · rename_i hfirst
    split at h
    · cases h
    · rename_i hsecond
      exact ⟨agentIdle_ok hfirst, agentIdle_ok hsecond⟩

/-! ## Work items -/

/-- The operation behind the answer that `authorize_and_idle` gives. -/
def answered (answer : Except Failure Unit) : Operation → Operation
  | .setWifi json env => .setWifi json { env with authorizeAndIdle := answer }
  | .setEndpoint json env => .setEndpoint json { env with authorizeAndIdle := answer }
  | .forgetWifi json env => .forgetWifi json { env with authorizeAndIdle := answer }

/-- The payload passes the parser that runs in front of `authorize_and_idle`. -/
def parses (J : JsonParser) : Operation → Bool
  | .setWifi json _ => (parseWifi J json).isOk
  | .setEndpoint json _ => (parseEndpoint J json).isOk
  | .forgetWifi json _ => (parseEmpty J json).isOk

/-- The switch of `worker`, for the opcodes that change the store. -/
def serves (request : EgpProtocolRequest) : Operation → Prop
  | .setWifi json _ => request.opcode = egpOpcodeSetWifi ∧ json = request.json
  | .setEndpoint json _ => request.opcode = egpOpcodeSetEndpoint ∧ json = request.json
  | .forgetWifi json _ => request.opcode = egpOpcodeForgetWifi ∧ json = request.json

/-- How far the worker is. -/
inductive Stage
  | starting
  | observed (first : Option Bytes)
  | stable
  /-- What is left to do to the store. -/
  | acting (acts : List Act)

structure Work where
  request : EgpProtocolRequest
  operation : Operation
  stage : Stage

inductive Event
  /-- A call by the main loop, or by a worker whose opcode leaves the store alone. -/
  | called (call : Call)
  | began (request : EgpProtocolRequest)
  | observed (agent : Option Bytes)
  /-- The call of the worker, with what `egp_bluez_peer_security` found. -/
  | authorized (call : Call)
  /-- `egp_bluez_peer_security` finds no peer to authorize. -/
  | unknownPeer
  | stored (act : Act)
  | finished

def Event.call? : Event → Option Call
  | .called call => some call
  | .authorized call => some call
  | _ => none

def Event.byWorker : Event → Bool
  | .called _ => false
  | _ => true

/-- The request of the worker, with the answer of `authorize_and_idle` known. -/
def Work.decided (J : JsonParser) (N : NetLibrary) (d : Directory) (w : Work)
    (answer : Except Failure Unit) : Work :=
  { w with stage := .acting (worker J N d (answered answer w.operation)).acts }

/-- The commit that the worker asks for. -/
def Work.commitCall (w : Work) (peer : EgpPeerSecurity) (now : Int) : Call :=
  .authorizeCommit w.request.peerPath peer w.request.windowEpoch w.request.connectionEpoch now

/-- The steps of the worker, in a window `s` and on any store. -/
inductive Works (J : JsonParser) (N : NetLibrary) (s : EgpSecurity) :
    Option Work → Event → Bool → Option Work → Prop
  | begin (request : EgpProtocolRequest) (operation : Operation)
      (served : serves request operation) (parsed : parses J operation = true) :
      Works J N s none (.began request) true (some ⟨request, operation, .starting⟩)
  | malformed (request : EgpProtocolRequest) (operation : Operation)
      (served : serves request operation) (parsed : parses J operation = false)
      (d : Directory) (answer : Except Failure Unit) :
      Works J N s none (.began request) true
        (some (Work.decided J N d ⟨request, operation, .starting⟩ answer))
  | first (w : Work) (stage : w.stage = .starting) (agent : Option Bytes) (state : Bytes)
      (idle : egpStatusAgentIdle agent = .ok state) :
      Works J N s (some w) (.observed agent) true (some { w with stage := .observed agent })
  | firstBusy (w : Work) (stage : w.stage = .starting) (agent : Option Bytes) (error : EgpError)
      (busy : egpStatusAgentIdle agent = .error error) (d : Directory) (failure : Failure) :
      Works J N s (some w) (.observed agent) false (some (w.decided J N d (.error failure)))
  | second (w : Work) (a : Option Bytes) (stage : w.stage = .observed a) (b : Option Bytes)
      (idle : stableIdle a b = .ok ()) :
      Works J N s (some w) (.observed b) true (some { w with stage := .stable })
  | secondBusy (w : Work) (a : Option Bytes) (stage : w.stage = .observed a) (b : Option Bytes)
      (error : EgpError) (busy : stableIdle a b = .error error) (d : Directory)
      (failure : Failure) :
      Works J N s (some w) (.observed b) false (some (w.decided J N d (.error failure)))
  | commit (w : Work) (stage : w.stage = .stable) (peer : EgpPeerSecurity) (now : Int)
      (granted : (perform s (w.commitCall peer now)).2 = true) (d : Directory) :
      Works J N s (some w) (.authorized (w.commitCall peer now)) true
        (some (w.decided J N d (.ok ())))
  | denied (w : Work) (stage : w.stage = .stable) (peer : EgpPeerSecurity) (now : Int)
      (granted : (perform s (w.commitCall peer now)).2 = false) (d : Directory)
      (failure : Failure) :
      Works J N s (some w) (.authorized (w.commitCall peer now)) false
        (some (w.decided J N d (.error failure)))
  | unknownPeer (w : Work) (stage : w.stage = .stable) (d : Directory) (failure : Failure) :
      Works J N s (some w) .unknownPeer false (some (w.decided J N d (.error failure)))
  | store (w : Work) (act : Act) (rest : List Act) (stage : w.stage = .acting (act :: rest)) :
      Works J N s (some w) (.stored act) true (some { w with stage := .acting rest })
  | finish (w : Work) (stage : w.stage = .acting []) :
      Works J N s (some w) .finished true none

/-! ## Runs -/

/-- Something that happened, between two states of the window. -/
structure Entry where
  event : Event
  before : EgpSecurity
  granted : Bool
  after : EgpSecurity

inductive Run (J : JsonParser) (N : NetLibrary) : List Entry → EgpSecurity → Option Work → Prop
  | start : Run J N [] egpSecurityNew none
  | call {log : List Entry} {s : EgpSecurity} {w : Option Work} (h : Run J N log s w)
      (call : Call) (bounded : call.bounded) :
      Run J N (log ++ [⟨.called call, s, (perform s call).2, (perform s call).1⟩])
        (perform s call).1 w
  | work {log : List Entry} {s : EgpSecurity} {w w' : Option Work} (h : Run J N log s w)
      {event : Event} {granted : Bool} (works : Works J N s w event granted w') :
      Run J N (log ++ [⟨event, s, granted, s⟩]) s w'

/-- How often the epoch changed. -/
def epochChanges (log : List Entry) : Nat :=
  log.countP fun x => x.after.windowEpoch != x.before.windowEpoch

/-! ## The worker -/

section Worker

variable {J : JsonParser} {N : NetLibrary}

/-- A request that is refused does not touch the store. -/
theorem worker_refused (d : Directory) (failure : Failure) (operation : Operation) :
    (worker J N d (answered (.error failure) operation)).acts = [] := by
  cases operation with
  | setWifi json env =>
      simp only [answered, worker, applyWifi]
      split <;> rfl
  | setEndpoint json env =>
      simp only [answered, worker, Operations.setEndpoint]
      split <;> rfl
  | forgetWifi json env =>
      simp only [answered, worker, Operations.forgetWifi]
      split <;> rfl

/-- Neither does one that does not parse. -/
theorem worker_malformed (d : Directory) (answer : Except Failure Unit) {operation : Operation}
    (h : parses J operation = false) : (worker J N d (answered answer operation)).acts = [] := by
  cases operation with
  | setWifi json env =>
      simp only [answered, worker, applyWifi]
      cases hjson : parseWifi J json with
      | error error => rfl
      | ok wifi =>
          rw [parses, hjson] at h
          cases h
  | setEndpoint json env =>
      simp only [answered, worker, Operations.setEndpoint]
      cases hjson : parseEndpoint J json with
      | error error => rfl
      | ok endpoint =>
          rw [parses, hjson] at h
          cases h
  | forgetWifi json env =>
      simp only [answered, worker, Operations.forgetWifi]
      cases hjson : parseEmpty J json with
      | error error => rfl
      | ok u =>
          rw [parses, hjson] at h
          cases h

/-- The steps of the worker that took the request and is done with authorizing. -/
structure Authorized (request : EgpProtocolRequest) (entries : List Entry) : Prop where
  steps : ∃ earlier b o₁ o₂ k stored peer now,
    entries = earlier ++ b :: o₁ :: o₂ :: k :: stored ∧ b.event = .began request ∧
    o₁.event = .observed (some (ascii "IDLE")) ∧ o₂.event = .observed (some (ascii "IDLE")) ∧
    k.event = .authorized (.authorizeCommit request.peerPath peer request.windowEpoch
      request.connectionEpoch now) ∧ k.granted = true ∧
    ∀ e ∈ stored, ∃ act, e.event = .stored act

/-- What the worker has done, as far as it is. -/
def Progress (entries : List Entry) : Option Work → Prop
  | none => True
  | some ⟨request, _, .starting⟩ =>
      ∃ earlier b, entries = earlier ++ [b] ∧ b.event = .began request
  | some ⟨request, _, .observed agent⟩ =>
      ∃ earlier b o, entries = earlier ++ [b, o] ∧ b.event = .began request ∧
        o.event = .observed agent
  | some ⟨request, _, .stable⟩ =>
      ∃ earlier b o₁ o₂, entries = earlier ++ [b, o₁, o₂] ∧ b.event = .began request ∧
        o₁.event = .observed (some (ascii "IDLE")) ∧ o₂.event = .observed (some (ascii "IDLE"))
  | some ⟨_, _, .acting []⟩ => True
  | some ⟨request, _, .acting (_ :: _)⟩ => Authorized request entries

theorem progress_refused {entries : List Entry} (d : Directory) (w : Work) (failure : Failure) :
    Progress entries (some (w.decided J N d (.error failure))) := by
  unfold Work.decided
  rw [worker_refused]
  trivial

/-- A step of the worker. -/
theorem progress_works {s : EgpSecurity} {w w' : Option Work} {event : Event} {granted : Bool}
    {entries : List Entry} (h : Progress entries w) (hworks : Works J N s w event granted w') :
    Progress (entries ++ [⟨event, s, granted, s⟩]) w' := by
  cases hworks with
  | begin request operation served parsed => exact ⟨entries, _, rfl, rfl⟩
  | malformed request operation served parsed d answer =>
      unfold Work.decided
      rw [worker_malformed d answer parsed]
      trivial
  | first w stage agent state idle =>
      obtain ⟨request, operation, stage'⟩ := w
      cases stage
      obtain ⟨earlier, b, rfl, hb⟩ := h
      exact ⟨earlier, b, _, List.append_assoc earlier [b] _, hb, rfl⟩
  | firstBusy w stage agent error busy d failure => exact progress_refused d w failure
  | second w a stage b idle =>
      obtain ⟨request, operation, stage'⟩ := w
      cases stage
      obtain ⟨earlier, x, o, rfl, hx, ho⟩ := h
      obtain ⟨rfl, rfl⟩ := stableIdle_ok idle
      exact ⟨earlier, x, o, _, List.append_assoc earlier [x, o] _, hx, ho, rfl⟩
  | secondBusy w a stage b error busy d failure => exact progress_refused d w failure
  | commit w stage peer now granted d =>
      obtain ⟨request, operation, stage'⟩ := w
      cases stage
      obtain ⟨earlier, b, o₁, o₂, rfl, hb, ho₁, ho₂⟩ := h
      unfold Work.decided
      cases (worker J N d (answered (.ok ()) operation)).acts with
      | nil => trivial
      | cons act rest =>
          exact ⟨earlier, b, o₁, o₂, _, [], peer, now, List.append_assoc earlier [b, o₁, o₂] _,
            hb, ho₁, ho₂, rfl, rfl, fun e he => absurd he List.not_mem_nil⟩
  | denied w stage peer now granted d failure => exact progress_refused d w failure
  | unknownPeer w stage d failure => exact progress_refused d w failure
  | store w act rest stage =>
      obtain ⟨request, operation, stage'⟩ := w
      cases stage
      obtain ⟨earlier, b, o₁, o₂, k, stored, peer, now, rfl, hb, ho₁, ho₂, hk, hgranted,
        hstored⟩ := h.steps
      cases rest with
      | nil => trivial
      | cons next rest =>
          refine ⟨earlier, b, o₁, o₂, k, stored ++ [_], peer, now,
            List.append_assoc earlier (b :: o₁ :: o₂ :: k :: stored) _, hb, ho₁, ho₂, hk, hgranted,
            ?_⟩
          intro e he
          rcases List.mem_append.mp he with he | he
          · exact hstored e he
          · exact ⟨act, by rw [List.mem_singleton.mp he]⟩
  | finish w stage => trivial

end Worker

/-! ## The window as a lease -/

/-- What an entry does to the lease of the window. -/
def Entry.effect (x : Entry) : Effect Bytes :=
  if x.after.windowEpoch ≠ x.before.windowEpoch then .renew
  else if x.after.owner ≠ x.before.owner then .claim x.after.owner
  else .keep

/-- The entry is a claim of the window by a peer. -/
structure Entry.Claims (x : Entry) (peerPath : Bytes) : Prop where
  call : ∃ peer now, x.event = .called (.authorizeSensitive peerPath peer true now)
  granted : x.granted = true
  free : x.before.owner = []
  owner : x.after.owner = peerPath

/-- What an entry is. -/
inductive Entry.Change (x : Entry) : Prop
  | kept (effect : x.effect = .keep) (epoch : x.after.windowEpoch = x.before.windowEpoch)
      (owner : x.after.owner = x.before.owner)
  | renewed (effect : x.effect = .renew)
      (epoch : x.after.windowEpoch = advanceEpoch x.before.windowEpoch)
      (owner : x.after.owner = [])
  | claimed (peerPath : Bytes) (effect : x.effect = .claim peerPath) (path : peerPath ≠ [])
      (claims : x.Claims peerPath) (epoch : x.after.windowEpoch = x.before.windowEpoch)

theorem change_of_same {x : Entry} (epoch : x.after.windowEpoch = x.before.windowEpoch)
    (owner : x.after.owner = x.before.owner) : x.Change := by
  refine .kept ?_ epoch owner
  rw [Entry.effect, if_neg (by simp [epoch]), if_neg (by simp [owner])]

/-- Each call of `security.c` changes the lease in one of the recorded ways. -/
theorem change_call (s : EgpSecurity) {call : Call} (hbounded : call.bounded) :
    Entry.Change ⟨.called call, s, (perform s call).2, (perform s call).1⟩ := by
  cases performs s call with
  | kept epoch owner => exact change_of_same epoch owner
  | renewed epoch owner =>
      refine .renewed ?_ epoch owner
      rw [Entry.effect, if_pos (epoch ▸ advanceEpoch_ne s.windowEpoch)]
  | claimed peerPath peer now eq granted path free eligible opened leaves =>
      subst eq
      have hpath : peerPath ≠ [] := isObjectPath_ne_nil path
      -- The caller has bounded the path, so the array holds all of it.
      have htake : peerPath.take (egpDbusPathCap - 1) = peerPath :=
        List.take_of_length_le (Nat.le_sub_one_of_lt hbounded)
      rw [htake] at leaves
      rw [leaves]
      refine .claimed peerPath ?_ hpath ⟨⟨peer, now, rfl⟩, granted, free, rfl⟩ rfl
      rw [Entry.effect, if_neg (by simp), if_pos (by simp only; rw [free]; exact hpath)]

/-- The owner, if there is one. -/
def holder (s : EgpSecurity) : Option Bytes := if s.owner = [] then none else some s.owner

/-- The holder is the owner of the window. -/
theorem holder_eq_some {s : EgpSecurity} {owner : Bytes} :
    holder s = some owner ↔ s.owner = owner ∧ owner ≠ [] := by
  unfold holder
  split
  · rename_i hfree
    constructor
    · intro h
      cases h
    · rintro ⟨rfl, hne⟩
      exact absurd hfree hne
  · rename_i howned
    constructor
    · intro h
      cases h
      exact ⟨rfl, howned⟩
    · rintro ⟨rfl, -⟩
      rfl

/-- The lease of a log. -/
def leaseOf (log : List Entry) : Lease Bytes := held (log.map Entry.effect)

/-- The window after the log is the lease of the log. -/
structure Tracks (log : List Entry) (s : EgpSecurity) : Prop where
  orderly : Orderly (log.map Entry.effect)
  owner : (leaseOf log).owner = holder s
  epoch : (leaseOf log).epoch < 2 ^ 64 → s.windowEpoch = (leaseOf log).epoch

/-- A recorded change keeps the lease of the log that of the state. -/
theorem tracks_snoc {log : List Entry} {x : Entry} (h : Tracks log x.before) (hx : x.Change) :
    Tracks (log ++ [x]) x.after := by
  have hmap : (log ++ [x]).map Entry.effect = log.map Entry.effect ++ [x.effect] := by simp
  have hlease : leaseOf (log ++ [x]) = (leaseOf log).act x.effect := by
    rw [leaseOf, hmap, held_snoc, leaseOf]
  cases hx with
  | kept effect epoch owner =>
      refine ⟨?_, ?_, ?_⟩
      · rw [hmap, effect]
        exact h.orderly.snoc (by simp)
      · rw [hlease, effect]
        show (leaseOf log).owner = holder x.after
        rw [h.owner, holder, holder, owner]
      · rw [hlease, effect]
        intro hlt
        rw [epoch]
        exact h.epoch hlt
  | renewed effect epoch owner =>
      refine ⟨?_, ?_, ?_⟩
      · rw [hmap, effect]
        exact h.orderly.snoc (by simp)
      · rw [hlease, effect, holder, if_pos owner]
        rfl
      · rw [hlease, effect]
        intro hlt
        have hlt' : (leaseOf log).epoch + 1 < 2 ^ 64 := hlt
        rw [epoch, h.epoch (by omega), advanceEpoch_lt hlt']
        rfl
  | claimed peerPath effect path claims epoch =>
      refine ⟨?_, ?_, ?_⟩
      · rw [hmap, effect]
        refine h.orderly.snoc ?_
        intro owner _
        show (leaseOf log).owner = none
        rw [h.owner, holder, if_pos claims.free]
      · rw [hlease, effect]
        exact (holder_eq_some.mpr ⟨claims.owner, path⟩).symm
      · rw [hlease, effect]
        intro hlt
        rw [epoch]
        exact h.epoch hlt

/-- The changes of the log count the renewals of the lease. -/
theorem epochChanges_eq (log : List Entry) : epochChanges log = (leaseOf log).epoch := by
  have hcount := held_epoch_append [] (log.map Entry.effect)
  rw [List.nil_append, held_nil] at hcount
  rw [leaseOf, hcount]
  show _ = 0 + _
  rw [Nat.zero_add, List.count, List.countP_map, epochChanges]
  congr 1
  funext x
  simp only [Function.comp, Entry.effect]
  by_cases hepoch : x.after.windowEpoch = x.before.windowEpoch
  · by_cases howner : x.after.owner = x.before.owner
    · simp [hepoch, howner]
    · simp [hepoch, howner]
  · simp [hepoch]

/-! ## What holds in a run -/

section Runs

variable {J : JsonParser} {N : NetLibrary} {log : List Entry} {s : EgpSecurity}
  {w : Option Work}

theorem change_works {w' : Option Work} {event : Event} {granted : Bool}
    (_ : Works J N s w event granted w') : Entry.Change ⟨event, s, granted, s⟩ :=
  change_of_same rfl rfl

theorem run_tracks (h : Run J N log s w) : Tracks log s := by
  induction h with
  | start => exact ⟨throughout_nil _, rfl, fun _ => rfl⟩
  | call h call bounded ih => exact tracks_snoc ih (change_call _ bounded)
  | work h works ih => exact tracks_snoc ih (change_works works)

/-- Every entry of a run changes the lease in one of the recorded ways. -/
theorem run_change (h : Run J N log s w) : ∀ x ∈ log, x.Change := by
  induction h with
  | start => simp
  | call h call bounded ih =>
      intro x hx
      rcases List.mem_append.mp hx with hx | hx
      · exact ih x hx
      · rw [List.mem_singleton.mp hx]
        exact change_call _ bounded
  | work h works ih =>
      intro x hx
      rcases List.mem_append.mp hx with hx | hx
      · exact ih x hx
      · rw [List.mem_singleton.mp hx]
        exact change_works works

/-- The steps of the worker come in the order of the source. -/
theorem run_progress (h : Run J N log s w) :
    Progress (log.filter (·.event.byWorker)) w := by
  induction h with
  | start => trivial
  | call h call bounded ih => simpa [Event.byWorker] using ih
  | work h works ih =>
      have hstep := progress_works ih works
      have hworker : ∀ {event : Event} {granted : Bool} {s : EgpSecurity} {w w' : Option Work},
          Works J N s w event granted w' → event.byWorker = true := by
        intro event granted s w w' hw
        cases hw <;> rfl
      rw [List.filter_append, List.filter_singleton, hworker works]
      exact hstep

/-- What an entry of a run is between: two runs, with the answer of its call. -/
structure Between (J : JsonParser) (N : NetLibrary) (front : List Entry) (x : Entry) : Prop where
  before : ∃ w, Run J N front x.before w
  after : ∃ w, Run J N (front ++ [x]) x.after w
  answer : ∀ call, x.event.call? = some call → x.granted = (perform x.before call).2
  store : ∀ act, x.event = .stored act →
    ∃ request, Authorized request (front.filter (·.event.byWorker))

/-- Every entry lies between two runs, with the answer of its call, and stores only what was
authorized. -/
theorem run_between (h : Run J N log s w) : Throughout (Between J N) log := by
  induction h with
  | start => exact throughout_nil _
  | call h call bounded ih =>
      refine ih.snoc ⟨⟨_, h⟩, ⟨_, .call h call bounded⟩, ?_, nofun⟩
      rintro c ⟨⟩
      rfl
  | work h works ih =>
      refine ih.snoc ⟨⟨_, h⟩, ⟨_, .work h works⟩, ?_, ?_⟩
      · intro c hcall
        cases works with
        | commit w stage peer now granted d =>
            cases hcall
            exact granted.symm
        | denied w stage peer now granted d failure =>
            cases hcall
            exact granted.symm
        | _ => cases hcall
      · intro act hstored
        have hprogress := run_progress h
        cases works with
        | store w act rest stage =>
            obtain ⟨request, operation, stage'⟩ := w
            cases stage
            exact ⟨request, hprogress⟩
        | _ => cases hstored

/-- Since an entry the epoch has not changed: it is the epoch that the entry left. -/
theorem run_epoch_since (h : Run J N log s w) : ∀ front x back, log = front ++ x :: back →
    (∀ y ∈ back, y.after.windowEpoch = y.before.windowEpoch) →
    s.windowEpoch = x.after.windowEpoch := by
  have hstep : ∀ {log : List Entry} {last : Entry},
      (∀ front x back, log = front ++ x :: back →
        (∀ y ∈ back, y.after.windowEpoch = y.before.windowEpoch) →
        last.before.windowEpoch = x.after.windowEpoch) →
      ∀ front x back, log ++ [last] = front ++ x :: back →
        (∀ y ∈ back, y.after.windowEpoch = y.before.windowEpoch) →
        last.after.windowEpoch = x.after.windowEpoch := by
    intro log last ih front x back hsplit hback
    rcases split_snoc hsplit with ⟨-, -, rfl⟩ | ⟨back, rfl, hlog⟩
    · rfl
    · rw [hback last (by simp)]
      exact ih front x back hlog fun y hy => hback y (List.mem_append_left _ hy)
  induction h with
  | start => simp
  | call h call bounded ih => exact hstep ih
  | work h works ih => exact hstep ih

/-- The claim of the peer that owns the window, with nothing that changes the epoch
since. -/
def ClaimedSince (front : List Entry) (peerPath : Bytes) (windowEpoch : Nat) : Prop :=
  ∃ earlier claim since, front = earlier ++ claim :: since ∧ claim.Claims peerPath ∧
    claim.after.windowEpoch = windowEpoch ∧
    ∀ y ∈ since, y.after.windowEpoch = y.before.windowEpoch

/-- A window that has an owner was claimed by it, and its epoch has not changed since. -/
theorem claimed_since (h : Run J N log s w) (howner : s.owner ≠ []) :
    ClaimedSince log s.owner s.windowEpoch := by
  have hholder := (run_tracks h).owner
  rw [holder_eq_some.mpr ⟨rfl, howner⟩] at hholder
  obtain ⟨front, back, hsplit, hback⟩ := claim_of_owner hholder
  obtain ⟨earlier, rest, rfl, -, hrest⟩ := List.map_eq_append_iff.mp hsplit
  obtain ⟨claim, since, rfl, hclaim, rfl⟩ := List.map_eq_cons_iff.mp hrest
  have hquiet : ∀ y ∈ since, y.after.windowEpoch = y.before.windowEpoch := by
    intro y hy
    have hkeep := hback _ (List.mem_map_of_mem hy)
    cases run_change h y (by simp [hy]) with
    | kept effect epoch owner => exact epoch
    | renewed effect epoch owner =>
        rw [effect] at hkeep
        cases hkeep
    | claimed peerPath effect path claims epoch => exact epoch
  refine ⟨earlier, claim, since, rfl, ?_, (run_epoch_since h _ _ _ rfl hquiet).symm, hquiet⟩
  cases run_change h claim (by simp) with
  | kept effect epoch owner =>
      rw [effect] at hclaim
      cases hclaim
  | renewed effect epoch owner =>
      rw [effect] at hclaim
      cases hclaim
  | claimed peerPath effect path claims epoch =>
      rw [effect] at hclaim
      cases hclaim
      exact claims

/-- The state that an entry leaves owns its window by the lease of the log up to it. -/
theorem owner_leaseOf {front back : List Entry} {x : Entry} (h : Run J N log s w)
    (hsplit : log = front ++ x :: back) (howner : x.after.owner ≠ [])
    (hbound : epochChanges log < 2 ^ 64) :
    (leaseOf (front ++ [x])).owner = some x.after.owner ∧
      (leaseOf (front ++ [x])).epoch = x.after.windowEpoch := by
  obtain ⟨w', hx⟩ := (run_between h front x back hsplit).after
  have htracks := run_tracks hx
  refine ⟨?_, (htracks.epoch ?_).symm⟩
  · rw [htracks.owner]
    exact holder_eq_some.mpr ⟨rfl, howner⟩
  · refine Nat.lt_of_le_of_lt ?_ hbound
    have hlog : log = (front ++ [x]) ++ back := by simp [hsplit]
    rw [← epochChanges_eq, hlog]
    exact (List.sublist_append_left _ back).countP_le

/-- Two moments of one epoch, the first not behind the second, have one owner. -/
theorem owner_eq_of_front {x y : Entry} {a b c d : List Entry} (h : Run J N log s w)
    (hx : log = a ++ x :: b) (hy : log = c ++ y :: d) (hfront : a ++ [x] <+: c ++ [y])
    (hbound : epochChanges log < 2 ^ 64) (hepoch : x.after.windowEpoch = y.after.windowEpoch)
    (hox : x.after.owner ≠ []) (hoy : y.after.owner ≠ []) : x.after.owner = y.after.owner := by
  obtain ⟨hownx, hepochx⟩ := owner_leaseOf h hx hox hbound
  obtain ⟨howny, hepochy⟩ := owner_leaseOf h hy hoy hbound
  obtain ⟨between, hbetween⟩ := hfront
  obtain ⟨w', hrun⟩ := (run_between h c y d hy).after
  have horderly := (run_tracks hrun).orderly
  rw [← hbetween] at horderly howny hepochy
  rw [List.map_append] at horderly
  rw [leaseOf, List.map_append] at howny hepochy
  refine owner_unique horderly ?_ hownx howny
  rw [hepochy, ← hepoch, ← hepochx]
  rfl

theorem one_owner (h : Run J N log s w) (hbound : epochChanges log < 2 ^ 64) {x y : Entry}
    (hx : x ∈ log) (hy : y ∈ log) (hepoch : x.after.windowEpoch = y.after.windowEpoch)
    (hox : x.after.owner ≠ []) (hoy : y.after.owner ≠ []) : x.after.owner = y.after.owner := by
  obtain ⟨a, b, ha⟩ := List.append_of_mem hx
  obtain ⟨c, d, hc⟩ := List.append_of_mem hy
  have hax : a ++ [x] <+: log := ⟨b, by simp [ha]⟩
  have hcy : c ++ [y] <+: log := ⟨d, by simp [hc]⟩
  rcases List.prefix_or_prefix_of_prefix hax hcy with hfront | hfront
  · exact owner_eq_of_front h ha hc hfront hbound hepoch hox hoy
  · exact (owner_eq_of_front h hc ha hfront hbound hepoch.symm hoy hox).symm

/-- A granted commit of the log. -/
structure Entry.CommitOf (x : Entry) (peerPath : Bytes) (peer : EgpPeerSecurity)
    (windowEpoch connectionEpoch : Nat) (now : Int) : Prop where
  call : x.event.call? = some (.authorizeCommit peerPath peer windowEpoch connectionEpoch now)
  granted : x.granted = true

/-- In every interleaving within the range of the counter: the peers that own the
window in one epoch are one peer; whoever is granted a commit claimed the window in
the epoch it names and nothing changed the epoch since, the window is open before its
deadline, and the connection is the one it names; and whatever a worker stores comes,
in its own work item, after two idle observations and then a granted commit for the
peer, the window and the connection of its request. -/
theorem commits_are_owned (h : Run J N log s w) (hbound : epochChanges log < 2 ^ 64 - 1) :
    (∀ x ∈ log, ∀ y ∈ log, x.after.windowEpoch = y.after.windowEpoch → x.after.owner ≠ [] →
      y.after.owner ≠ [] → x.after.owner = y.after.owner) ∧
    (∀ front x back, log = front ++ x :: back → ∀ peerPath peer windowEpoch connectionEpoch now,
      x.CommitOf peerPath peer windowEpoch connectionEpoch now →
      Commits x.before peerPath peer windowEpoch connectionEpoch now ∧
        ClaimedSince front peerPath windowEpoch) ∧
    (∀ front x back, log = front ++ x :: back → ∀ act, x.event = .stored act →
      ∃ request, Authorized request (front.filter (·.event.byWorker))) := by
  refine ⟨?_, ?_, ?_⟩
  · intro x hx y hy
    exact one_owner h (by omega) hx hy
  · intro front x back hsplit peerPath peer windowEpoch connectionEpoch now hcommit
    have hbetween := run_between h front x back hsplit
    have hgranted := (hbetween.answer _ hcommit.call).symm.trans hcommit.granted
    have hcommits := authorizeCommit_granted hgranted
    obtain ⟨w', hrun⟩ := hbetween.before
    refine ⟨hcommits, ?_⟩
    have hsince := claimed_since hrun (hcommits.owner ▸ hcommits.path)
    rw [hcommits.owner, hcommits.epoch] at hsince
    exact hsince
  · intro front x back hsplit act hact
    exact (run_between h front x back hsplit).store act hact

end Runs

def samplePeer : Bytes := ascii "/org/bluez/hci0/dev_AA"

def eligiblePeer : EgpPeerSecurity := ⟨true, true, true, true, true, 7⟩

def endpointRequest : EgpProtocolRequest :=
  ⟨samplePeer, .provisioning, ⟨7 :: List.replicate 15 0, by decide⟩, 1, 7, egpOpcodeSetEndpoint,
    ascii "\x7b\"base_url\":\"http://192.168.1.100:8000\"\x7d"⟩

def endpointOperation : Operation :=
  .setEndpoint endpointRequest.json ⟨.ok (), ⟨0, none, none⟩, false⟩

/-- A peer claims the window that was opened, and its request reaches the store. -/
theorem commits_are_owned_sample :
    ∃ log s w front x back act, Run JsonReader.referenceParser referenceLibrary log s w ∧
      epochChanges log < 2 ^ 64 - 1 ∧ log = front ++ x :: back ∧ x.event = .stored act ∧
      ∃ request, Authorized request (front.filter (·.event.byWorker)) := by
  have hidle : egpStatusAgentIdle (some (ascii "IDLE")) = .ok (ascii "IDLE") := by decide
  have hacts : (worker JsonReader.referenceParser referenceLibrary (fun _ => none)
      (answered (.ok ()) endpointOperation)).acts ≠ [] := by
    have hnonempty : (worker JsonReader.referenceParser referenceLibrary (fun _ => none)
        (answered (.ok ()) endpointOperation)).acts.isEmpty = false := by decide +kernel
    exact fun h => by simp [h] at hnonempty
  obtain ⟨act, rest, hact⟩ := List.exists_cons_of_ne_nil hacts
  have hopen := Run.call (.start (J := JsonReader.referenceParser) (N := referenceLibrary))
    (.openWindow 1000) trivial
  have hclaim := hopen.call (.authorizeSensitive samplePeer eligiblePeer true 2000)
    (by show samplePeer.length < egpDbusPathCap; decide)
  have hbegin := hclaim.work (.begin endpointRequest endpointOperation ⟨rfl, rfl⟩
    (by decide +kernel))
  have hfirst := hbegin.work (.first _ rfl _ _ hidle)
  have hsecond := hfirst.work (.second _ _ rfl (some (ascii "IDLE")) (by decide))
  have hcommit := hsecond.work (.commit _ rfl eligiblePeer 3000 (by decide +kernel) fun _ => none)
  have hstore := hcommit.work (.store _ act rest (by
    show Stage.acting _ = Stage.acting _
    exact congrArg Stage.acting hact))
  have hbound : ∀ log : List Entry, log.length = 7 → epochChanges log < 2 ^ 64 - 1 := by
    intro log hlength
    have hle : epochChanges log ≤ log.length := List.countP_le_length
    omega
  exact ⟨_, _, _, _, _, [], act, hstore, hbound _ rfl, rfl, rfl,
    (commits_are_owned hstore (hbound _ rfl)).2.2 _ _ [] rfl act rfl⟩

end EdgeGuard.Provisioning.Authorization
