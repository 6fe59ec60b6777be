import EdgeGuard.Agent.Control
import EdgeGuard.Base.JsonSize
import EdgeGuard.Base.Stream

/-!
# The conversation on the control socket

`handle_client` of `control.c`: one frame with a request, one frame with the answer.
What `cache_decision` answers is an argument; `EdgeGuard.Agent.Control` has the
critical section itself.

## Main results

* `handleClient_cases` — what a conversation comes to.
-/

namespace EdgeGuard.Agent.ControlSocket

open EdgeGuard.Base.CText EdgeGuard.Base.Utf8 EdgeGuard.Base.Json EdgeGuard.Base.JsonObject
open EdgeGuard.Base.Framing EdgeGuard.Base.Stream
open EdgeGuard.Agent.Model EdgeGuard.Agent.Identity

def controlMaxJson : Nat := 1024

/-- `parse_request`: what it has stored as the identifier, and whether it takes the
request. -/
def parseRequest (J : JsonParser) (data : Bytes) : Bytes × Bool :=
  if data.isEmpty || controlMaxJson < data.length || data.contains 0 || !valid data then
    ([], false)
  else
    match J.load data with
    | some (.obj object) =>
        if object.duplicate then ([], false)
        else
          match stringMember object (ascii "request_id") otaUuidCap with
          | none => ([], false)
          | some requestId =>
              (requestId, otaUuidValid requestId false && object.size == 3 &&
                integerMember object (ascii "version") == some 1 &&
                stringMember object (ascii "command") 32 == some (ascii "CHECK_UPDATE_NOW"))
    | _ => ([], false)

def responseMembers (requestId status error : Bytes) : List (Bytes × Value) :=
  [(ascii "version", .int 1), (ascii "request_id", .str requestId), (ascii "status", .str status),
    (ascii "error", .str error)]

/-- The text of `send_response`, which `g_snprintf` puts into 256 bytes. -/
def responseText (requestId status error : Bytes) : Bytes :=
  let id := if otaUuidValid requestId false then requestId
    else ascii "00000000-0000-0000-0000-000000000000"
  (generate (.obj (members (responseMembers id status error)))).take 255

/-- The answer to a request that was decided. -/
def decisionText (requestId : Bytes) (accepted : Bool) : Bytes :=
  responseText requestId (if accepted then ascii "ACCEPTED" else ascii "REJECTED")
    (if accepted then ascii "NONE" else ascii "AGENT_BUSY")

/-- What the calls of `handle_client` come to. -/
structure Calls where
  /-- The calls of `setsockopt` and `getsockopt` succeed. -/
  ready : Bool
  uid : Nat
  reads : List Turn
  /-- A byte behind the request is there in time. -/
  extra : Bool
  writes : List Turn

/-- The request that `cache_decision` was asked about, and what was sent. -/
structure Handled where
  decided : Option Bytes
  sent : Bytes

/-- `handle_client`. -/
def handleClient (J : JsonParser) (decision : Bytes → Bool) (calls : Calls) (incoming : Bytes) :
    Handled :=
  if !calls.ready || calls.uid != 0 then ⟨none, []⟩
  else
    match readFrame calls.reads controlMaxJson incoming with
    | none => ⟨none, []⟩
    | some request =>
        if calls.extra && !request.rest.isEmpty then ⟨none, []⟩
        else
          match parseRequest J request.data with
          | (requestId, true) =>
              ⟨some requestId,
                (writeFrame calls.writes (decisionText requestId (decision requestId))).sent⟩
          | (requestId, false) =>
              if otaUuidValid requestId false then
                ⟨none, (writeFrame calls.writes (responseText requestId (ascii "REJECTED")
                  (ascii "OTA_CONTROL_REJECTED"))).sent⟩
              else ⟨none, []⟩

/-- What a conversation comes to: nothing is sent, a request is turned down unseen, or
one is decided. -/
inductive Handles (J : JsonParser) (decision : Bytes → Bool) (calls : Calls) (incoming : Bytes)
    (h : Handled) : Prop
  | silent (eq : h = ⟨none, []⟩)
  | refused (request : Got) (requestId : Bytes)
      (read : readFrame calls.reads controlMaxJson incoming = some request)
      (parsed : parseRequest J request.data = (requestId, false))
      (eq : h = ⟨none, (writeFrame calls.writes (responseText requestId (ascii "REJECTED")
        (ascii "OTA_CONTROL_REJECTED"))).sent⟩)
  | decided (request : Got) (requestId : Bytes)
      (read : readFrame calls.reads controlMaxJson incoming = some request)
      (parsed : parseRequest J request.data = (requestId, true))
      (eq : h = ⟨some requestId,
        (writeFrame calls.writes (decisionText requestId (decision requestId))).sent⟩)

/-- What one client can get: no answer, a refusal, or the decision on its request. -/
theorem handleClient_cases (J : JsonParser) (decision : Bytes → Bool) (calls : Calls)
    (incoming : Bytes) :
    Handles J decision calls incoming (handleClient J decision calls incoming) := by
  unfold handleClient
  split
  · exact .silent rfl
  · split
    · exact .silent rfl
    · rename_i request hread
      split
      · exact .silent rfl
      · split
        · rename_i requestId hparsed
          exact .decided request requestId hread hparsed rfl
        · rename_i requestId hparsed
          split
          · exact .refused request requestId hread hparsed rfl
          · exact .silent rfl

end EdgeGuard.Agent.ControlSocket
