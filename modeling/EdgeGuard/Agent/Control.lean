import EdgeGuard.Agent.Identity
import EdgeGuard.Base.RingBuffer

/-!
# The control socket

`control.c` between the thread that serves the control socket and the agent's
main thread, which waits in `ota_control_idle_wait`.  The threads share the
flags of `OtaControl`, the ring of decisions and the wake-up pipe.  A step is
one critical section of a thread, or one access to the pipe or to the clock;
the signal handler may run between any two steps.

## Main results

* `cacheDecision_cases` — what a decision does to the shared state.
-/

namespace EdgeGuard.Agent.Control

open EdgeGuard.Base.CText EdgeGuard.Base.RingBuffer EdgeGuard.Agent.Model
  EdgeGuard.Agent.Identity

/-! ## The shared state -/

def controlCacheSize : Nat := 16
def controlCacheTtlUs : Int := 10 * 60 * 1000000

structure CachedRequest where
  requestId : Bytes
  accepted : Bool
  expiresUs : Int
  deriving DecidableEq, Repr

structure OtaControl where
  /-- The bytes in the pipe. -/
  wake : Bytes
  signalStopping : Bool
  stopping : Bool
  idleEligible : Bool
  pending : Bool
  cache : Buffer CachedRequest controlCacheSize

/-- The block `ota_control_open` allocates. -/
def otaControlOpen : OtaControl where
  wake := []
  signalStopping := false
  stopping := false
  idleEligible := false
  pending := false
  cache := ⟨Vector.replicate _ ⟨[], false, 0⟩, ⟨0, by decide⟩⟩

/-! ## Decisions -/

def CachedRequest.answers (now : Int) (requestId : Bytes) (entry : CachedRequest) : Bool :=
  !entry.requestId.isEmpty && now ≤ entry.expiresUs && entry.requestId == requestId

/-- An answer, and whether it was decided now. -/
structure Decision where
  accepted : Bool
  fresh : Bool
  deriving DecidableEq, Repr

/-- The critical section of `cache_decision`. -/
def cacheDecision (control : OtaControl) (now : Int) (requestId : Bytes) :
    OtaControl × Decision :=
  match control.cache.slots.toList.find? (·.answers now requestId) with
  | some entry => (control, ⟨entry.accepted, false⟩)
  | none =>
      let accepted := control.idleEligible && !control.pending && !control.stopping &&
        !control.signalStopping
      ({ control with
          pending := if accepted then true else control.pending
          idleEligible := if accepted then false else control.idleEligible
          cache := push control.cache
            ⟨requestId.take (otaUuidCap - 1), accepted, now + controlCacheTtlUs⟩ },
        ⟨accepted, true⟩)

/-- A decision is repeated from the ring, or made on the flags and put into it. -/
theorem cacheDecision_cases (control : OtaControl) (now : Int) (requestId : Bytes) :
    (∃ entry, control.cache.slots.toList.find? (·.answers now requestId) = some entry ∧
      cacheDecision control now requestId = (control, ⟨entry.accepted, false⟩)) ∨
    (control.cache.slots.toList.find? (·.answers now requestId) = none ∧
      ((control.idleEligible = true ∧ control.pending = false ∧
          cacheDecision control now requestId =
            ({ control with
                pending := true
                idleEligible := false
                cache := push control.cache
                  ⟨requestId.take (otaUuidCap - 1), true, now + controlCacheTtlUs⟩ },
              ⟨true, true⟩)) ∨
        cacheDecision control now requestId =
          ({ control with
              cache := push control.cache
                ⟨requestId.take (otaUuidCap - 1), false, now + controlCacheTtlUs⟩ },
            ⟨false, true⟩))) := by
  cases hfound : control.cache.slots.toList.find? (·.answers now requestId) with
  | some entry => exact .inl ⟨entry, rfl, by rw [cacheDecision, hfound]⟩
  | none =>
      refine .inr ⟨rfl, ?_⟩
      unfold cacheDecision
      rw [hfound]
      by_cases haccepted : (control.idleEligible && !control.pending && !control.stopping &&
          !control.signalStopping) = true
      · left
        simp only [haccepted, if_true]
        simp only [Bool.and_eq_true, Bool.not_eq_true'] at haccepted
        exact ⟨haccepted.1.1.1, haccepted.1.1.2, trivial⟩
      · right
        rw [Bool.not_eq_true] at haccepted
        simp only [haccepted, Bool.false_eq_true, if_false]

/-! ## The threads -/

/-- Where the main thread stands: outside a wait, in `ota_control_idle_wait` in
front of the named part, or in `ota_control_close`. -/
inductive Main
  | outside
  | drainFirst
  | enter
  | polling
  | drainLast
  | leave
  | closing
  deriving DecidableEq, Repr

def Main.waits : Main → Bool
  | .outside | .closing => false
  | .drainFirst | .enter | .polling | .drainLast | .leave => true

/-- Where the serving thread stands: between requests, in `cache_decision` with
the time it read, or in front of the `write` that follows an acceptance. -/
inductive Server
  | serving
  | deciding (requestId : Bytes) (now : Int)
  | waking
  deriving DecidableEq, Repr

structure System where
  control : OtaControl
  main : Main
  server : Server
  /-- The agent's own `stopping`. -/
  agentStopping : Bool
  /-- The last reading of the monotonic clock. -/
  clock : Int

def System.opened (clock : Int) : System where
  control := otaControlOpen
  main := .outside
  server := .serving
  agentStopping := false
  clock := clock

/-- What the threads let others see. -/
inductive Event
  /-- A wait was called. -/
  | began
  /-- A wait was refused for its arguments. -/
  | refused
  /-- A wait returned `TRUE`. -/
  | ended (checkRequested : Bool)
  /-- A wait returned its poll error. -/
  | failed
  | closed
  | decided (requestId : Bytes) (now : Int) (decision : Decision)
  deriving DecidableEq, Repr

/-- What the main thread does; the decisions are the serving thread's. -/
def Event.ofMain : Event → Bool
  | .began | .refused | .ended _ | .failed | .closed => true
  | .decided .. => false

/-- A newly decided `ACCEPTED`. -/
def Event.accepts : Event → Bool
  | .decided _ _ decision => decision == ⟨true, true⟩
  | _ => false

/-- The entry that a new decision leaves in the cache. -/
def Event.inserted : Event → Option CachedRequest
  | .decided requestId now ⟨accepted, true⟩ => some ⟨requestId, accepted, now + controlCacheTtlUs⟩
  | _ => none

theorem Event.not_accepts_of_main {e : Event} (h : e.ofMain = true) : e.accepts = false := by
  cases e with
  | decided => cases h
  | began | refused | ended | failed | closed => rfl

/-- The ways `poll` returns. -/
inductive PollReturn
  | readable
  | timeout
  | interrupted
  | failed
  deriving DecidableEq, Repr

/-- A `write` to the pipe, which does not block and whose result is ignored. -/
def OtaControl.written (control : OtaControl) (event : UInt8) (full : Bool) : OtaControl :=
  if full then control else { control with wake := control.wake ++ [event] }

/-- The first critical section of a wait. -/
def entered (control : OtaControl) (agentStopping : Bool) : OtaControl :=
  { control with
    idleEligible := !control.stopping && !control.signalStopping && !agentStopping }

/-- The last critical section of a wait. -/
def left (control : OtaControl) : OtaControl :=
  { control with idleEligible := false, pending := false }

inductive Step : System → List Event → System → Prop
  -- the main thread
  | refuse {s : System} {timeoutSec : Nat} (outside : s.main = .outside)
      (invalid : int32Max / 1000 < timeoutSec) : Step s [.refused] s
  | begin {s : System} {timeoutSec : Nat} (outside : s.main = .outside)
      (valid : timeoutSec ≤ int32Max / 1000) :
      Step s [.began] { s with main := .drainFirst }
  | readFirst {s : System} (here : s.main = .drainFirst) (some : s.control.wake ≠ []) :
      Step s [] { s with control := { s.control with wake := s.control.wake.drop 64 } }
  | drainedFirst {s : System} (here : s.main = .drainFirst) (none : s.control.wake = []) :
      Step s [] { s with main := .enter }
  | enter {s : System} (here : s.main = .enter) :
      Step s [] { s with
        control := entered s.control s.agentStopping
        main := if s.control.pending then .drainLast else .polling }
  | poll {s : System} (here : s.main = .polling) (ready : PollReturn)
      (readable : ready = .readable → s.control.wake ≠ []) (works : ready ≠ .failed) :
      Step s [] { s with main := .drainLast }
  | pollFails {s : System} (here : s.main = .polling) :
      Step s [.failed] { s with main := .outside }
  | readLast {s : System} (here : s.main = .drainLast) (some : s.control.wake ≠ []) :
      Step s [] { s with control := { s.control with wake := s.control.wake.drop 64 } }
  | drainedLast {s : System} (here : s.main = .drainLast) (none : s.control.wake = []) :
      Step s [] { s with main := .leave }
  | leave {s : System} (here : s.main = .leave) :
      Step s [.ended s.control.pending] { s with control := left s.control, main := .outside }
  | close {s : System} (outside : s.main = .outside) :
      Step s [.closed] { s with
        control := { s.control with stopping := true, idleEligible := false }
        main := .closing }
  -- the serving thread
  | arrive {s : System} {requestId : Bytes} {now : Int} (serving : s.server = .serving)
      (parsed : otaUuidValid requestId false = true) (monotonic : s.clock ≤ now) :
      Step s [] { s with server := .deciding requestId now, clock := now }
  | decide {s : System} {requestId : Bytes} {now : Int}
      (deciding : s.server = .deciding requestId now) :
      Step s [.decided requestId now (cacheDecision s.control now requestId).2] { s with
        control := (cacheDecision s.control now requestId).1
        server :=
          if (cacheDecision s.control now requestId).2 = ⟨true, true⟩ then .waking else .serving }
  | wake {s : System} (full : Bool) (waking : s.server = .waking) :
      Step s [] { s with control := s.control.written 0x43 full, server := .serving }
  -- the signal handler
  | stop {s : System} : Step s [] { s with agentStopping := true }
  | signal {s : System} : Step s [] { s with control := { s.control with signalStopping := true } }
  | signalWake {s : System} (full : Bool) :
      Step s [] { s with control := s.control.written 0x53 full }

/-- A run from the opened socket, and what was seen of it. -/
inductive Run : List Event → System → Prop
  | opened {clock : Int} : Run [] (.opened clock)
  | next {log out : List Event} {s s' : System} : Run log s → Step s out s' → Run (log ++ out) s'

end EdgeGuard.Agent.Control
