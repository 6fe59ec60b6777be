import EdgeGuard.Agent.CheckRequests
import EdgeGuard.Agent.ControlSocket
import EdgeGuard.Provisioning.RequestIdentity
import EdgeGuard.Provisioning.Status

/-!
# Asking the agent for a check

`egp_status_check_update_now` of `status.c`, against `handle_client` of the agent: the
two sides of the control socket, with every way in which calls may move few bytes, be
interrupted or fail.

## Main results

* `exchange_sound` — what the daemon may conclude from its answer.
* `exchange_delivers` — what it answers when nothing fails.
* `accepted_check` — a check that was accepted is one that the agent makes.
-/

namespace EdgeGuard.Provisioning.UpdateCheck

open EdgeGuard.Base EdgeGuard.Base.CText EdgeGuard.Base.Utf8 EdgeGuard.Base.Json
open EdgeGuard.Base.JsonObject
open EdgeGuard.Base.JsonSize EdgeGuard.Base.Framing EdgeGuard.Base.Stream
open EdgeGuard.Agent.Model EdgeGuard.Agent.Identity EdgeGuard.Agent.ControlSocket
open EdgeGuard.Provisioning.Model EdgeGuard.Provisioning.Protocol
open EdgeGuard.Provisioning.Authorization (statusFail)
open EdgeGuard.Provisioning.AgentStatus EdgeGuard.Provisioning.Status
open EdgeGuard.Provisioning.RequestIdentity

/-! ## The daemon's side -/

def requestMembers (requestId : Bytes) : List (Bytes × Value) :=
  [(ascii "version", .int 1), (ascii "request_id", .str requestId),
    (ascii "command", .str (ascii "CHECK_UPDATE_NOW"))]

def requestText (requestId : Bytes) : Bytes := generate (.obj (members (requestMembers requestId)))

/-- What the calls of `egp_status_check_update_now` come to. -/
structure ClientCalls where
  /-- The socket is there, and it is root's alone. -/
  safe : Bool
  opened : Bool
  /-- The connection is made, and the timeouts are set. -/
  connected : Bool
  writes : List Turn
  reads : List Turn
  /-- A byte behind the answer is there in time. -/
  trailing : Bool

/-- What `egp_status_check_update_now` makes of the text of an answer. -/
def judgeResponse (J : JsonParser) (requestId response : Bytes) : Except EgpError Unit :=
  let invalid : Except EgpError Unit :=
    .error (statusFail .otaControlRejected "Agent control response was invalid")
  match parseObject J response with
  | none => invalid
  | some object =>
      if object.size == 4 && integerMember object (ascii "version") == some 1 then
        match stringMember object (ascii "request_id") 37, stringMember object (ascii "status") 16,
          stringMember object (ascii "error") 64 with
        | some id, some status, some error =>
            if id != requestId then invalid
            else if status == ascii "ACCEPTED" && error == ascii "NONE" then .ok ()
            else if error == ascii "AGENT_BUSY" then
              .error (statusFail .agentBusy "Agent rejected the check while busy")
            else .error (statusFail .otaControlRejected "Agent rejected the check request")
        | _, _, _ => invalid
      else invalid

/-- `egp_status_check_update_now`: what is sent, and the answer.  The agent answers to
what it was sent. -/
def egpStatusCheckUpdateNow (J : JsonParser) (sha256 : Bytes → Digest) (daemonSessionId : Bytes)
    (request : EgpProtocolRequest) (calls : ClientCalls) (agent : Bytes → Bytes) :
    Bytes × Except EgpError Unit :=
  if !calls.safe then
    ([], .error (statusFail .agentUnavailable "Agent control socket is unavailable or unsafe"))
  else if !calls.opened then
    ([], .error (statusFail .agentUnavailable "Agent control socket could not be opened"))
  else if !calls.connected then
    ([], .error (statusFail .agentUnavailable "Agent control socket connection failed"))
  else
    match egpProtocolScopedRequestId sha256 daemonSessionId request with
    | .error error => ([], .error error)
    | .ok requestId =>
        let unavailable : Except EgpError Unit :=
          .error (statusFail .agentUnavailable "Agent control response was unavailable")
        if 1024 < (requestText requestId).length then ([], unavailable)
        else
          let put := writeFrame calls.writes (requestText requestId)
          if !put.done then (put.sent, unavailable)
          else
            match readFrame calls.reads 1024 (agent put.sent) with
            | none => (put.sent, unavailable)
            | some response =>
                if calls.trailing && !response.rest.isEmpty then (put.sent, unavailable)
                else (put.sent, judgeResponse J requestId response.data)

/-! ## Both sides -/

structure Exchange where
  /-- The request that the agent decided, if any. -/
  decided : Option Bytes
  answer : Except EgpError Unit

/-- A call of `egp_status_check_update_now` that the agent serves. -/
def exchange (J : JsonParser) (sha256 : Bytes → Digest) (daemonSessionId : Bytes)
    (request : EgpProtocolRequest) (client : ClientCalls) (server : Calls)
    (decision : Bytes → Bool) : Exchange :=
  let called := egpStatusCheckUpdateNow J sha256 daemonSessionId request client
    fun sent => (handleClient J decision server sent).sent
  ⟨(handleClient J decision server called.1).decided, called.2⟩

/-! ## The texts -/

theorem valueFits_otaUuid {value : Bytes} {v4 : Bool} (h : otaUuidValid value v4 = true) :
    ValueFits (.str value) 38 := valueFits_uuid (uuidStringIsValid_of_uuid h)

theorem membersFit_request {requestId : Bytes} (h : otaUuidValid requestId false = true) :
    MembersFit (requestMembers requestId) 101 :=
  (membersFit_cons (by decide) valueFits_one <|
    membersFit_cons (by decide) (valueFits_otaUuid h) <|
      membersFit_cons (by decide) (@valueFits_simple (ascii "CHECK_UPDATE_NOW") 16 (by decide)
        (by decide)) membersFit_nil).mono (by decide)

theorem inRange_requestMembers (requestId : Bytes) :
    InRangeMembers (members (requestMembers requestId)) := by
  have hone : (1 : Int) ≤ gint64Max := by decide
  simp [requestMembers, InRangeMembers, InRange, hone]

/-- The text of a request is short, and the agent reads the identifier back. -/
theorem requestText_spec (J : JsonParser) {requestId : Bytes}
    (h : otaUuidValid requestId false = true) :
    1 ≤ (requestText requestId).length ∧ (requestText requestId).length ≤ 102 ∧
      parseRequest J (requestText requestId) = (requestId, true) := by
  have hfit := membersFit_request h
  obtain ⟨hvalid, hlength⟩ := hfit.text (List.cons_ne_nil _ _)
  have hlength : (requestText requestId).length ≤ 102 := hlength
  have hpos : requestText requestId ≠ [] := generate_object_ne_nil _
  have hnul := not_mem_nul_of_valid hvalid
  have hwritable := hfit.writableMembers
    (show [ascii "version", ascii "request_id", ascii "command"].Nodup by decide)
  have hload : J.load (requestText requestId) = some (.obj (members (requestMembers requestId))) :=
    J.load_generate _ hwritable (inRange_requestMembers requestId)
  have hid : stringMember (members (requestMembers requestId)) (ascii "request_id") otaUuidCap =
      some requestId := by
    apply stringMember_of_find _ _ rfl
    rw [length_of_uuid h]
    decide
  have hcommand : stringMember (members (requestMembers requestId)) (ascii "command") 32 =
      some (ascii "CHECK_UPDATE_NOW") := rfl
  refine ⟨List.length_pos_iff.mpr hpos, hlength, ?_⟩
  unfold parseRequest
  rw [if_neg, hload]
  · simp only [duplicate_of_writableMembers _ hwritable, hid, hcommand, h]
    rfl
  · simp only [Bool.or_eq_true, List.isEmpty_iff, decide_eq_true_eq, List.contains_iff_mem,
      Bool.not_eq_true', not_or, Nat.not_lt]
    refine ⟨⟨⟨hpos, Nat.le_trans hlength (by decide)⟩, hnul⟩, ?_⟩
    rw [show valid (requestText requestId) = true from hvalid]
    exact nofun

/-- The ends of an answer. -/
inductive Verdict
  | accepted
  | busy
  | rejected

def Verdict.status : Verdict → Bytes
  | .accepted => ascii "ACCEPTED"
  | .busy | .rejected => ascii "REJECTED"

def Verdict.error : Verdict → Bytes
  | .accepted => ascii "NONE"
  | .busy => ascii "AGENT_BUSY"
  | .rejected => ascii "OTA_CONTROL_REJECTED"

def Verdict.judgement : Verdict → Except EgpError Unit
  | .accepted => .ok ()
  | .busy => .error (statusFail .agentBusy "Agent rejected the check while busy")
  | .rejected => .error (statusFail .otaControlRejected "Agent rejected the check request")

theorem verdict_fits (v : Verdict) :
    ValueFits (.str v.status) 10 ∧ ValueFits (.str v.error) 22 := by
  have hstatus : v.status.all isSimple = true ∧ v.status.length ≤ 8 := by cases v <;> decide
  have herror : v.error.all isSimple = true ∧ v.error.length ≤ 20 := by cases v <;> decide
  exact ⟨valueFits_simple hstatus.1 hstatus.2, valueFits_simple herror.1 herror.2⟩

theorem inRange_responseMembers (requestId status error : Bytes) :
    InRangeMembers (members (responseMembers requestId status error)) := by
  have hone : (1 : Int) ≤ gint64Max := by decide
  simp [responseMembers, InRangeMembers, InRange, hone]

/-- The text of an answer is short, and the daemon judges it by the verdict if it is for its
own request. -/
theorem responseText_spec (J : JsonParser) {requestId : Bytes}
    (h : otaUuidValid requestId false = true) (v : Verdict) :
    1 ≤ (responseText requestId v.status v.error).length ∧
      (responseText requestId v.status v.error).length ≤ 255 ∧
      judgeResponse J requestId (responseText requestId v.status v.error) = v.judgement := by
  have hfit : MembersFit (responseMembers requestId v.status v.error) 115 :=
    (membersFit_cons (by decide) valueFits_one <|
      membersFit_cons (by decide) (valueFits_otaUuid h) <|
        membersFit_cons (by decide) (verdict_fits v).1 <|
          membersFit_cons (by decide) (verdict_fits v).2 membersFit_nil).mono (by decide)
  have hlength := (hfit.text (List.cons_ne_nil _ _)).2
  have hwritable := hfit.writableMembers
    (show [ascii "version", ascii "request_id", ascii "status", ascii "error"].Nodup by decide)
  -- the text is not cut
  have htext : responseText requestId v.status v.error =
      generate (.obj (members (responseMembers requestId v.status v.error))) := by
    unfold responseText
    simp only [h, if_true]
    exact List.take_of_length_le (by omega)
  have hload : J.load (responseText requestId v.status v.error) =
      some (.obj (members (responseMembers requestId v.status v.error))) := by
    rw [htext]
    exact J.load_generate _ hwritable (inRange_responseMembers _ _ _)
  have hparse : parseObject J (responseText requestId v.status v.error) =
      some (members (responseMembers requestId v.status v.error)) := by
    simp [parseObject, hload, duplicate_of_writableMembers _ hwritable]
  have hid : stringMember (members (responseMembers requestId v.status v.error))
      (ascii "request_id") 37 = some requestId := by
    apply stringMember_of_find _ _ rfl
    rw [length_of_uuid h]
    decide
  have hstatus : stringMember (members (responseMembers requestId v.status v.error))
      (ascii "status") 16 = some v.status :=
    stringMember_of_find _ _ rfl (by cases v <;> decide)
  have herror : stringMember (members (responseMembers requestId v.status v.error))
      (ascii "error") 64 = some v.error :=
    stringMember_of_find _ _ rfl (by cases v <;> decide)
  have hversion : integerMember (members (responseMembers requestId v.status v.error))
      (ascii "version") = some 1 := rfl
  have hsize : (members (responseMembers requestId v.status v.error)).size = 4 := rfl
  refine ⟨?_, ?_, ?_⟩
  · rw [htext]
    exact List.length_pos_iff.mpr (generate_object_ne_nil _)
  · rw [htext]
    omega
  · unfold judgeResponse
    simp only [hparse, hid, hstatus, herror, hversion, hsize, beq_self_eq_true, Bool.and_self,
      if_true, bne_self_eq_false, Bool.false_eq_true, if_false]
    cases v <;> rfl

/-! ## The course of an exchange -/

/-- What the agent says of its decision. -/
def Verdict.of (accepted : Bool) : Verdict := if accepted then .accepted else .busy

theorem decisionText_eq (requestId : Bytes) (accepted : Bool) :
    decisionText requestId accepted =
      responseText requestId (Verdict.of accepted).status (Verdict.of accepted).error := by
  cases accepted <;> rfl

theorem readFrame_nil (turns : List Turn) (limit : Nat) : readFrame turns limit [] = none := by
  cases h : readFrame turns limit [] with
  | none => rfl
  | some g =>
      unfold readFrame at h
      cases hheader : readExact turns 4 [] with
      | none =>
          rw [hheader] at h
          cases h
      | some header =>
          obtain ⟨hsplit, hfour⟩ := readExact_some hheader
          have hlength := congrArg List.length hsplit
          rw [List.length_append, hfour, List.length_nil] at hlength
          omega

/-- The agent decides the request of the daemon, or does nothing. -/
theorem handled_request (J : JsonParser) (decision : Bytes → Bool) (server : Calls)
    {requestId incoming unsent : Bytes} (hid : otaUuidValid requestId false = true)
    (hincoming : field (requestText requestId) = incoming ++ unsent) :
    handleClient J decision server incoming = ⟨none, []⟩ ∨
      handleClient J decision server incoming = ⟨some requestId,
        (writeFrame server.writes (decisionText requestId (decision requestId))).sent⟩ := by
  obtain ⟨-, hlength, hparse⟩ := requestText_spec J hid
  have hdata : ∀ request, readFrame server.reads controlMaxJson incoming = some request →
      parseRequest J request.data = (requestId, true) := by
    intro request hread
    have hall := readFrame_of_prefix hincoming (Nat.lt_of_le_of_lt hlength (by decide)) hread
    rw [hall.1, hparse]
  cases handleClient_cases J decision server incoming with
  | silent eq => exact .inl eq
  | refused request id read parsed eq =>
      rw [hdata request read] at parsed
      cases parsed
  | decided request id read parsed eq =>
      rw [hdata request read] at parsed
      cases parsed
      exact .inr eq

/-- The answer to a decision, if it is read at all. -/
theorem judged_response (J : JsonParser) {requestId incoming unsent : Bytes} {accepted : Bool}
    (hid : otaUuidValid requestId false = true) {turns : List Turn} {response : Got}
    (hincoming : field (decisionText requestId accepted) = incoming ++ unsent)
    (hread : readFrame turns 1024 incoming = some response) :
    response.rest = [] ∧
      judgeResponse J requestId response.data = (Verdict.of accepted).judgement := by
  obtain ⟨-, hlength, hjudge⟩ := responseText_spec J hid (Verdict.of accepted)
  rw [decisionText_eq] at hincoming
  have hall := readFrame_of_prefix hincoming (Nat.lt_of_le_of_lt hlength (by decide)) hread
  rw [hall.1]
  exact ⟨hall.2.1, hjudge⟩

/-- The ends of an exchange: no decision, one whose answer is lost, or one that is
answered. -/
inductive Ends (sha256 : Bytes → Digest) (daemonSessionId : Bytes) (request : EgpProtocolRequest)
    (decision : Bytes → Bool) (e : Exchange) : Prop
  | nothing (error : EgpError) (decided : e.decided = none) (answer : e.answer = .error error)
      (other : error.code ≠ .agentBusy)
  | lost (requestId : Bytes) (error : EgpError)
      (identified : egpProtocolScopedRequestId sha256 daemonSessionId request = .ok requestId)
      (decided : e.decided = some requestId) (answer : e.answer = .error error)
      (other : error.code ≠ .agentBusy)
  | answered (requestId : Bytes)
      (identified : egpProtocolScopedRequestId sha256 daemonSessionId request = .ok requestId)
      (decided : e.decided = some requestId)
      (answer : e.answer = (Verdict.of (decision requestId)).judgement)

theorem handleClient_nil (J : JsonParser) (decision : Bytes → Bool) (server : Calls) :
    handleClient J decision server [] = ⟨none, []⟩ := by
  unfold handleClient
  rw [readFrame_nil]
  simp

theorem scoped_uuid {sha256 : Bytes → Digest} {daemonSessionId : Bytes}
    {request : EgpProtocolRequest} {requestId : Bytes}
    (h : egpProtocolScopedRequestId sha256 daemonSessionId request = .ok requestId) :
    otaUuidValid requestId false = true := by
  obtain ⟨id, rfl⟩ := scopedRequestId_ok h
  exact format_uuid id

theorem scoped_error {sha256 : Bytes → Digest} {daemonSessionId : Bytes}
    {request : EgpProtocolRequest} {error : EgpError}
    (h : egpProtocolScopedRequestId sha256 daemonSessionId request = .error error) :
    error.code ≠ .agentBusy := by
  unfold egpProtocolScopedRequestId at h
  split at h
  · cases h
  · cases h
    exact nofun

/-- The ways an exchange ends, with what the agent decided. -/
theorem exchange_cases (J : JsonParser) (sha256 : Bytes → Digest) (daemonSessionId : Bytes)
    (request : EgpProtocolRequest) (client : ClientCalls) (server : Calls)
    (decision : Bytes → Bool) :
    Ends sha256 daemonSessionId request decision
      (exchange J sha256 daemonSessionId request client server decision) := by
  have hnothing : ∀ error : EgpError, error.code ≠ .agentBusy →
      Ends sha256 daemonSessionId request decision
        ⟨(handleClient J decision server []).decided, .error error⟩ := by
    intro error hother
    rw [handleClient_nil]
    exact .nothing error rfl rfl hother
  unfold exchange egpStatusCheckUpdateNow
  simp only
  split
  · exact hnothing _ nofun
  split
  · exact hnothing _ nofun
  split
  · exact hnothing _ nofun
  split
  · rename_i error herror
    exact hnothing _ (scoped_error herror)
  · rename_i requestId hscoped
    have hid := scoped_uuid hscoped
    split
    · exact hnothing _ nofun
    · obtain ⟨unsent, hsent, -⟩ := writeFrame_prefix client.writes (requestText requestId)
      have hlost : ∀ error : EgpError, error.code ≠ .agentBusy →
          Ends sha256 daemonSessionId request decision
            ⟨(handleClient J decision server
              (writeFrame client.writes (requestText requestId)).sent).decided, .error error⟩ := by
        intro error hother
        rcases handled_request J decision server hid hsent with heq | heq
        · rw [heq]
          exact .nothing error rfl rfl hother
        · rw [heq]
          exact .lost requestId error hscoped rfl rfl hother
      split
      · exact hlost _ nofun
      · split
        · exact hlost _ nofun
        · rename_i response hread
          split
          · exact hlost _ nofun
          · rcases handled_request J decision server hid hsent with heq | heq
            · rw [heq, readFrame_nil] at hread
              cases hread
            · rw [heq] at hread ⊢
              obtain ⟨unsent', hsent', -⟩ :=
                writeFrame_prefix server.writes (decisionText requestId (decision requestId))
              exact .answered requestId hscoped rfl (judged_response J hid hsent' hread).2

/-- No call fails, and there are enough of them for the longest frame. -/
structure Unbroken (client : ClientCalls) (server : Calls) : Prop where
  safe : client.safe = true
  opened : client.opened = true
  connected : client.connected = true
  ready : server.ready = true
  root : server.uid = 0
  request : 4 + controlMaxJson ≤ moves client.writes
  received : 4 + controlMaxJson ≤ moves server.reads
  response : 4 + controlMaxJson ≤ moves server.writes
  read : 4 + controlMaxJson ≤ moves client.reads

theorem writeFrame_whole {turns : List Turn} {data : Bytes}
    (h : 4 + data.length ≤ moves turns) :
    (writeFrame turns data).done = true ∧ (writeFrame turns data).sent = field data := by
  obtain ⟨unsent, hsplit, hdone⟩ := writeFrame_prefix turns data
  have hall := writeFrame_enough h
  refine ⟨hall, ?_⟩
  rw [hsplit, hdone.mp hall, List.append_nil]

theorem readFrame_whole {turns : List Turn} {data : Bytes} (hpos : 1 ≤ data.length)
    (hlimit : data.length ≤ controlMaxJson) (h : 4 + controlMaxJson ≤ moves turns) :
    ∃ g, readFrame turns controlMaxJson (field data) = some g ∧ g.data = data ∧ g.rest = [] := by
  have hlength : data.length < 256 ^ 4 := Nat.lt_of_le_of_lt hlimit (by decide)
  obtain ⟨g, hg⟩ := Option.isSome_iff_exists.mp
    (@readFrame_enough turns _ _ (by omega) hpos hlimit hlength)
  have hall := readFrame_of_prefix (List.append_nil _).symm hlength hg
  exact ⟨g, hg, hall.1, hall.2.1⟩

/-- A client that is not broken off is answered. -/
theorem handled_unbroken (J : JsonParser) (decision : Bytes → Bool) {client : ClientCalls}
    {server : Calls} (h : Unbroken client server) {requestId : Bytes}
    (hid : otaUuidValid requestId false = true) :
    handleClient J decision server (field (requestText requestId)) =
      ⟨some requestId, field (decisionText requestId (decision requestId))⟩ := by
  obtain ⟨hpos, hlength, hparse⟩ := requestText_spec J hid
  obtain ⟨request, hread, hdata, hrest⟩ :=
    readFrame_whole hpos (Nat.le_trans hlength (by decide)) h.received
  have hshort := (responseText_spec J hid (Verdict.of (decision requestId))).2.1
  rw [← decisionText_eq] at hshort
  have hresponse := h.response
  have hmax : controlMaxJson = 1024 := rfl
  have hsent := (@writeFrame_whole server.writes
    (decisionText requestId (decision requestId)) (by omega)).2
  unfold handleClient
  rw [if_neg (by simp [h.ready, h.root]), hread]
  simp only [hrest, hdata, hparse, hsent, List.isEmpty_nil, Bool.not_true, Bool.and_false,
    Bool.false_eq_true, if_false]

/-- When nothing fails, the agent decides the request, and the daemon says what it
decided. -/
theorem exchange_unbroken (J : JsonParser) {sha256 : Bytes → Digest} {daemonSessionId : Bytes}
    {request : EgpProtocolRequest} {client : ClientCalls} {server : Calls} (decision : Bytes → Bool)
    (h : Unbroken client server) {requestId : Bytes}
    (hscoped : egpProtocolScopedRequestId sha256 daemonSessionId request = .ok requestId) :
    exchange J sha256 daemonSessionId request client server decision =
      ⟨some requestId, (Verdict.of (decision requestId)).judgement⟩ := by
  have hid := scoped_uuid hscoped
  have hserver := handled_unbroken J decision h hid
  obtain ⟨hpos, hlength, -⟩ := requestText_spec J hid
  obtain ⟨hpos', hlength', hjudge⟩ := responseText_spec J hid (Verdict.of (decision requestId))
  have hmax : controlMaxJson = 1024 := rfl
  have hrequest := h.request
  obtain ⟨hdone, hsent⟩ := @writeFrame_whole client.writes
    (requestText requestId) (by omega)
  obtain ⟨response, hread, hdata, hrest⟩ :=
    readFrame_whole hpos' (Nat.le_trans hlength' (by decide)) h.read
  rw [decisionText_eq] at hserver
  rw [hmax] at hread
  unfold exchange egpStatusCheckUpdateNow
  simp only [h.safe, h.opened, h.connected, hscoped, Bool.not_true, Bool.false_eq_true, if_false]
  rw [if_neg (by omega)]
  simp only [hdone, hsent, hserver, hread, hrest, hdata, hjudge, List.isEmpty_nil, Bool.not_true,
    Bool.and_false, Bool.false_eq_true, if_false]

/-- Whatever happens to the calls on the control socket: the agent decides no other request
than that of the daemon; what the daemon takes for an acceptance, or for a busy agent, was
decided so; and when no call fails, it is told what was decided. -/
theorem check_exchange (J : JsonParser) (sha256 : Bytes → Digest) (daemonSessionId : Bytes)
    (request : EgpProtocolRequest) (client : ClientCalls) (server : Calls)
    (decision : Bytes → Bool) :
    let e := exchange J sha256 daemonSessionId request client server decision
    let identified := egpProtocolScopedRequestId sha256 daemonSessionId request
    (∀ requestId, e.decided = some requestId → identified = .ok requestId) ∧
    (e.answer = .ok () →
      ∃ requestId, identified = .ok requestId ∧ e.decided = some requestId ∧
        decision requestId = true) ∧
    (∀ error, e.answer = .error error → error.code = .agentBusy →
      ∃ requestId, identified = .ok requestId ∧ e.decided = some requestId ∧
        decision requestId = false) ∧
    (Unbroken client server → ∀ requestId, identified = .ok requestId →
      e.decided = some requestId ∧
        e.answer = if decision requestId then .ok ()
          else .error (statusFail .agentBusy "Agent rejected the check while busy")) := by
  intro e identified
  refine ⟨?_, ?_, ?_, ?_⟩
  · intro requestId hdecided
    cases exchange_cases J sha256 daemonSessionId request client server decision with
    | nothing error decided answer other =>
        rw [show e.decided = none from decided] at hdecided
        cases hdecided
    | lost requestId' error identified decided answer other =>
        rw [show e.decided = some requestId' from decided] at hdecided
        cases hdecided
        exact identified
    | answered requestId' identified decided answer =>
        rw [show e.decided = some requestId' from decided] at hdecided
        cases hdecided
        exact identified
  · intro hok
    cases exchange_cases J sha256 daemonSessionId request client server decision with
    | nothing error decided answer other =>
        rw [show e.answer = .error error from answer] at hok
        cases hok
    | lost requestId error identified decided answer other =>
        rw [show e.answer = .error error from answer] at hok
        cases hok
    | answered requestId identified decided answer =>
        refine ⟨requestId, identified, decided, ?_⟩
        rw [show e.answer = _ from answer] at hok
        cases hdecision : decision requestId with
        | true => rfl
        | false =>
            rw [hdecision] at hok
            cases hok
  · intro error herror hbusy
    cases exchange_cases J sha256 daemonSessionId request client server decision with
    | nothing error' decided answer other =>
        rw [show e.answer = .error error' from answer] at herror
        cases herror
        exact absurd hbusy other
    | lost requestId error' identified decided answer other =>
        rw [show e.answer = .error error' from answer] at herror
        cases herror
        exact absurd hbusy other
    | answered requestId identified decided answer =>
        refine ⟨requestId, identified, decided, ?_⟩
        rw [show e.answer = _ from answer] at herror
        cases hdecision : decision requestId with
        | false => rfl
        | true =>
            rw [hdecision] at herror
            cases herror
  · intro hunbroken requestId hscoped
    have heq := exchange_unbroken J decision hunbroken hscoped
    simp only [e, heq]
    refine ⟨trivial, ?_⟩
    cases decision requestId <;> rfl

/-! ### An exchange in small pieces -/

def sampleTurns : List Turn := .interrupted :: List.replicate (4 + controlMaxJson) (.moved 6)

def sampleClient : ClientCalls := ⟨true, true, true, sampleTurns, sampleTurns, false⟩

def sampleServer : Calls := ⟨true, 0, sampleTurns, false, sampleTurns⟩

/-- Not SHA-256, but a function to digests. -/
def sampleSha256 (_ : Bytes) : Digest := ⟨List.replicate 32 0x11, by decide⟩

def sampleSession : Bytes := ascii "22222222-3333-4333-8333-444444444444"

theorem unbroken_sample : Unbroken sampleClient sampleServer :=
  ⟨rfl, rfl, rfl, rfl, rfl, by decide +kernel, by decide +kernel, by decide +kernel,
    by decide +kernel⟩

theorem check_exchange_busy :
    (exchange JsonReader.referenceParser sampleSha256 sampleSession sampleRequest sampleClient
      sampleServer fun _ => false).answer =
        .error (statusFail .agentBusy "Agent rejected the check while busy") :=
  ((check_exchange JsonReader.referenceParser sampleSha256 sampleSession sampleRequest sampleClient
    sampleServer fun _ => false).2.2.2 unbroken_sample _ rfl).2

/-! ## The check -/

section Checks

open EdgeGuard.Agent.Control EdgeGuard.Base.RingBuffer
open EdgeGuard.Agent.CheckRequests hiding sampleRequest

variable {log : List Event} {s : System} {requestId : Bytes} {now : Int}

/-- The cache holds nothing but decisions of the log. -/
def Genuine (log : List Event) (s : System) : Prop :=
  ∀ (p : Nat) entry, s.control.cache.slots[p]? = some entry → entry.requestId ≠ [] →
    entry ∈ inserted log

theorem Genuine.silent {s' : System} {out : List Event} (h : Genuine log s)
    (hcache : s'.control.cache = s.control.cache) : Genuine (log ++ out) s' := by
  intro p entry hp hne
  rw [hcache] at hp
  rw [inserted, List.filterMap_append]
  exact List.mem_append_left _ (h p entry hp hne)

/-- A new decision is written to the cache. -/
theorem Genuine.push {control : OtaControl} {server : Server} {accepted : Bool}
    (h : Genuine log s) (hparsed : otaUuidValid requestId false = true)
    (hcache : control.cache = push s.control.cache
      ⟨requestId.take (otaUuidCap - 1), accepted, now + controlCacheTtlUs⟩) :
    Genuine (log ++ [.decided requestId now ⟨accepted, true⟩])
      { s with control := control, server := server } := by
  have htake : requestId.take (otaUuidCap - 1) = requestId := by
    apply List.take_of_length_le
    rw [length_of_uuid hparsed]
    decide
  rw [htake] at hcache
  intro p entry hp hne
  rw [show ({ s with control := control, server := server } : System).control.cache = _ from hcache]
    at hp
  rw [inserted, List.filterMap_append]
  by_cases hnext : p = s.control.cache.next.val
  · subst hnext
    rw [RingBuffer.push, Vector.getElem?_set_self] at hp
    cases hp
    exact List.mem_append_right _ (by simp [Event.inserted])
  · rw [RingBuffer.push, Vector.getElem?_set_ne s.control.cache.next.isLt (Ne.symm hnext)] at hp
    exact List.mem_append_left _ (h p entry hp hne)

/-- Every step keeps the decisions of the cache genuine. -/
theorem genuine_step {s' : System} {out : List Event} (h : Genuine log s) (hcached : Cached log s)
    (step : Step s out s') : Genuine (log ++ out) s' := by
  cases step with
  | @decide requestId now deciding =>
      obtain ⟨-, hparsed⟩ := hcached.deciding _ _ deciding
      rcases cacheDecision_cases s.control now requestId with
        ⟨entry, -, hreplay⟩ | ⟨-, ⟨-, -, haccept⟩ | hreject⟩
      · rw [hreplay]
        exact h.silent rfl
      · rw [haccept]
        exact h.push hparsed rfl
      · rw [hreject]
        exact h.push hparsed rfl
  | wake full waking => exact h.silent (written_flags s.control 0x43 full).2.2
  | signalWake full => exact h.silent (written_flags s.control 0x53 full).2.2
  | refuse | begin | readFirst | drainedFirst | enter | poll | pollFails | readLast | drainedLast
  | leave | close | arrive | stop | signal => exact h.silent rfl

/-- In every run the cache holds nothing but decisions of the log. -/
theorem genuine_run (run : Run log s) : Genuine log s := by
  induction run with
  | opened =>
      intro p entry hp hne
      have hentry : entry.requestId = [] := by
        have hp' := List.mem_of_getElem? ((Vector.getElem?_toList ..).symm ▸ hp)
        simp [System.opened, otaControlOpen] at hp'
        rw [hp'.2]
      exact absurd hentry hne
  | next run step ih => exact genuine_step ih (cached_run run).1 step

/-- What was accepted, now or when the request came before, stands in the log. -/
theorem accepted_event (run : Run log s) (hdeciding : s.server = .deciding requestId now)
    (haccepted : (cacheDecision s.control now requestId).2.accepted = true) :
    ∃ (i : Nat) (decidedAt : Int),
      (log ++ [.decided requestId now (cacheDecision s.control now requestId).2])[i]? =
        some (.decided requestId decidedAt ⟨true, true⟩) ∧
      now ≤ decidedAt + controlCacheTtlUs := by
  rcases cacheDecision_cases s.control now requestId with
    ⟨entry, hfound, hreplay⟩ | ⟨-, ⟨-, -, haccept⟩ | hreject⟩
  · rw [hreplay] at haccepted ⊢
    obtain ⟨⟨p, hp⟩, hanswers⟩ := found_iff hfound
    obtain ⟨hne, hlive, hsame⟩ := answers_iff.mp hanswers
    obtain ⟨event, hmem, hinserted⟩ := List.mem_filterMap.mp (genuine_run run p entry hp hne)
    obtain ⟨i, hi⟩ := List.mem_iff_getElem?.mp hmem
    cases event with
    | decided id decidedAt decision =>
        obtain ⟨accepted, fresh⟩ := decision
        cases fresh with
        | false => cases hinserted
        | true =>
            cases hinserted
            obtain rfl : accepted = true := haccepted
            obtain rfl : id = requestId := hsame
            exact ⟨i, decidedAt, getElem?_snoc hi, hlive⟩
    | began | refused | ended | failed | closed => cases hinserted
  · rw [haccept]
    refine ⟨log.length, now, List.getElem?_concat_length, ?_⟩
    have hpos : 0 ≤ controlCacheTtlUs := by decide
    omega
  · rw [hreject] at haccepted
    cases haccepted

/-- An acceptance is consumed by the end of a wait, or it is pending in the wait that is
under way. -/
theorem accepted_pending (run : Run log s) (hpoll : Event.failed ∉ log) {i : Nat}
    (hi : Accepted log i) :
    (∃ j, Consumes log i j) ∨ (s.main.waits = true ∧ s.control.pending = true) := by
  have h := inv_run run hpoll
  by_cases hwaits : s.main.waits = true
  · rcases h.paired.consumed i hi with hconsumed | hopen
    · exact .inl hconsumed
    · obtain ⟨b, hb⟩ := h.waiting hwaits
      have hne := accepted_ne hi hb.during.began rfl
      have hbehind : b < i := by
        by_contra hfront
        exact hopen.not_inside (by omega) hb.during.lt hb.during.began rfl
      exact .inr ⟨hwaits, hb.pending.mpr ⟨i, hbehind, hi⟩⟩
  · exact .inl ((h.outside (by simpa using hwaits)).2.2 i hi)

/-- When the daemon is told that its check was accepted, the agent has accepted the request
within the last ten minutes, and from then on, in every state that it reaches, the check
has been asked for at the end of one of its waits, or is pending in the one under way. -/
theorem accepted_check (J : JsonParser) (sha256 : Bytes → Digest) (daemonSessionId : Bytes)
    (request : EgpProtocolRequest) (client : ClientCalls) (server : Calls) (run : Run log s)
    (hdeciding : s.server = .deciding requestId now)
    (hanswer : exchange J sha256 daemonSessionId request client server
      (fun id => (cacheDecision s.control now id).2.accepted) = ⟨some requestId, .ok ()⟩) :
    let decided := log ++ [.decided requestId now (cacheDecision s.control now requestId).2]
    ∃ (i : Nat) (decidedAt : Int),
      decided[i]? = some (.decided requestId decidedAt ⟨true, true⟩) ∧
      now ≤ decidedAt + controlCacheTtlUs ∧
      ∀ later s', Run (decided ++ later) s' → Event.failed ∉ decided ++ later →
        (∃ j, Consumes (decided ++ later) i j) ∨
          (s'.main.waits = true ∧ s'.control.pending = true) := by
  intro decided
  have haccepted : (cacheDecision s.control now requestId).2.accepted = true := by
    cases exchange_cases J sha256 daemonSessionId request client server
      (fun id => (cacheDecision s.control now id).2.accepted) with
    | nothing error none answer other =>
        rw [hanswer] at none
        cases none
    | lost id error identified some answer other =>
        rw [hanswer] at answer
        cases answer
    | answered id identified some answer =>
        rw [hanswer] at some answer
        cases some
        cases hdecision : (cacheDecision s.control now requestId).2.accepted with
        | true => rfl
        | false =>
            rw [hdecision] at answer
            cases answer
  obtain ⟨i, decidedAt, hi, hlive⟩ := accepted_event run hdeciding haccepted
  refine ⟨i, decidedAt, hi, hlive, fun later s' run' hpoll => ?_⟩
  apply accepted_pending run' hpoll
  refine ⟨.decided requestId decidedAt ⟨true, true⟩, ?_, by simp [Event.accepts]⟩
  rw [List.getElem?_append_left (List.getElem?_eq_some_iff.mp hi).1]
  exact hi

def sampleId : Bytes := ascii "11111111-1111-1111-1111-111111111111"

/-- A request that comes while the agent waits. -/
theorem accepted_check_waiting :
    ∃ (log : List Event) (s : System), Run log s ∧ s.server = .deciding sampleId 5 ∧
      ∃ (i : Nat) (decidedAt : Int),
        (log ++ [.decided sampleId 5 (cacheDecision s.control 5 sampleId).2])[i]? =
          some (.decided sampleId decidedAt ⟨true, true⟩) := by
  have hbegan := Run.next (@Run.opened 0) (@Step.begin _ 30 rfl (by decide))
  have hentered := Run.silent (Run.silent hbegan (.drainedFirst rfl rfl)) (.enter rfl)
  have harrived := Run.silent hentered
    (@Step.arrive _ sampleId 5 rfl (by decide +kernel) (by decide))
  obtain ⟨i, decidedAt, hi, -⟩ := accepted_check JsonReader.referenceParser sampleSha256
    sampleSession sampleRequest sampleClient sampleServer harrived rfl
    (exchange_unbroken JsonReader.referenceParser _ unbroken_sample rfl)
  exact ⟨_, _, harrived, rfl, i, decidedAt, hi⟩

end Checks

end EdgeGuard.Provisioning.UpdateCheck
