import EdgeGuard.Agent.ContentRange
import EdgeGuard.Agent.DownloadTransfer

/-!
# The gate of a response

The callbacks of a transfer, called in any order by a server that sends anything:
interim responses, repeated and oversized fields, trailers that look like status
lines, bodies cut at any byte.

## Main results

* `gate_step` — what one call does, and the invariant it keeps.
* `response_gate` — what holds at every call up to the first that fails.
-/

namespace EdgeGuard.Agent.ResponseGate

open EdgeGuard.Base EdgeGuard.Base.CText
open EdgeGuard.Agent.Model EdgeGuard.Agent.Download EdgeGuard.Agent.ContentRange
open EdgeGuard.Agent.DownloadSafety EdgeGuard.Agent.DownloadTransfer

/-! ## Calls -/

def sizeMax : Nat := 2 ^ 64 - 1

/-- A call of `headers` or `body`: the two factors of the size, and the bytes behind
the pointer. -/
inductive Call
  | header (size count : Nat) (memory : Bytes) (io : HeaderIo)
  | body (size count : Nat) (memory : Bytes) (answers : List WriteAnswer)
  deriving DecidableEq, Repr

/-- The test of both callbacks on the product of the sizes. -/
def overflows (size count : Nat) : Bool := size != 0 && sizeMax / size < count

/-- A call with its sizes; the failure of a call is its error exit. -/
def answer (t : Transfer) : Call → Called
  | .header size count memory io =>
      if overflows size count then ⟨t, [], false⟩ else headers t (memory.take (size * count)) io
  | .body size count memory answers =>
      if overflows size count then ⟨t, [], false⟩
      else body t (memory.take (size * count)) answers

/-- The transfer after a call that does not fail. -/
def next (t : Transfer) (c : Call) : Option Transfer :=
  if (answer t c).ok then some (answer t c).transfer else none

/-- The calls up to the first that fails, each with the transfer it finds. -/
def calls (t : Transfer) (cs : List Call) : List (Transfer × Call) := Trace.visits next t cs

def actsOf (log : List (Transfer × Call)) : List Act :=
  log.flatMap fun e => (answer e.1 e.2).acts

/-! ## Acceptance -/

def interim (t : Transfer) : Bool := 100 ≤ t.status && t.status < 200 && t.status != 101

/-- The call ends the header block of a final response. -/
def Final (t : Transfer) : Call → Prop
  | .header size count memory _ =>
      overflows size count = false ∧ t.headersDone = false ∧
        Blank t (memory.take (size * count)) ∧ interim t = false
  | .body _ _ _ _ => False

/-- The bytes that may follow a response with a body. -/
def limitOf (partialSize expected : Nat) : OtaDownloadAction → Nat
  | .append => expected - partialSize
  | .writeZero => expected
  | _ => 0

/-- The call accepts a response with a body. -/
structure Accepts (t : Transfer) (c : Call) (action : OtaDownloadAction) : Prop where
  final : Final t c
  response : otaDownloadResponse t.partialSize t.expected t.status
    (if t.rangeSeen then some t.range else none) = .ok action
  carries : action = .append ∨ action = .writeZero
  length : t.lengthSeen = true → t.length = limitOf t.partialSize t.expected action

/-- The file, up to where the body of an accepted response goes. -/
def startOf (data : Bytes) : OtaDownloadAction → Bytes
  | .append => data
  | _ => []

/-- What holds at a call after the calls of `log`, for a partial file of bytes `data`
on the disk `d`. -/
structure Gate (d : Disk) (data : Bytes) (expected : Nat) (log : List (Transfer × Call))
    (t : Transfer) (c : Call) : Prop where
  /-- Nothing is written or truncated before a 200 or 206 is accepted. -/
  closed : (answer t c).acts ≠ [] → ∃ e ∈ log ++ [(t, c)], ∃ action,
    Accepts e.1 e.2 action ∧ (e.1.status = 200 ∨ e.1.status = 206)
  /-- A 206 is accepted for the requested tail only. -/
  requested : t.status = 206 → ∀ action, Accepts t c action →
    action = .append ∧ 0 < data.length ∧ data.length < expected ∧ t.rangeSeen = true ∧
      ∃ x y z, t.range = rangeText x y z ∧ Denotes x data.length ∧ Denotes y (expected - 1) ∧
        Denotes z expected
  /-- After a 206 the file begins with the bytes it held. -/
  kept : (∃ e ∈ log ++ [(t, c)], e.1.status = 206 ∧ ∃ action, Accepts e.1 e.2 action) →
    Trace.Keeps perform (fun e => ∃ tail, e.part = some ⟨true, data ++ tail⟩)
      (d.run (actsOf log)) (answer t c).acts
  /-- The file never grows past the expected size. -/
  bounded : Trace.Keeps perform (fun e => e.partData.length ≤ expected) (d.run (actsOf log))
    (answer t c).acts
  received : t.received ≤ (answer t c).transfer.received ∧
    (answer t c).transfer.received ≤ (answer t c).transfer.limit
  /-- The accepted action and limit stand. -/
  settled : ∀ e ∈ log ++ [(t, c)], ∀ action, Accepts e.1 e.2 action →
    (answer t c).transfer.action = action ∧
      (answer t c).transfer.limit = limitOf data.length expected action
  /-- Interim blocks, trailers and further status lines change neither. -/
  unchanged : ¬ Final t c → (answer t c).transfer.action = t.action ∧
    (answer t c).transfer.limit = t.limit
  headerRoom : t.headerBytes ≤ 65536
  bodyRoom : t.received ≤ t.limit

/-! ## The invariant -/

/-- How far the transfer is, with `file` in the partial file. -/
inductive Stage (data : Bytes) (expected : Nat) (log : List (Transfer × Call)) (t : Transfer)
    (file : Bytes) : Prop
  | closed (unopened : t.headersDone = true → t.action ≠ .append ∧ t.action ≠ .writeZero)
      (received : t.received = 0) (limit : t.limit = 0) (held : file = data)
      (none : ∀ e ∈ log, ∀ action, ¬ Accepts e.1 e.2 action)
  | opened (action : OtaDownloadAction) (accepted : ∃ e ∈ log, Accepts e.1 e.2 action)
      (only : ∀ e ∈ log, ∀ other, Accepts e.1 e.2 other → other = action)
      (done : t.headersDone = true) (running : t.action = action)
      (limit : t.limit = limitOf data.length expected action) (tail : Bytes)
      (held : file = startOf data action ++ tail) (position : t.position = file.length)
      (received : t.received = tail.length) (room : tail.length ≤ t.limit)

structure Holds (d : Disk) (data : Bytes) (expected : Nat) (log : List (Transfer × Call))
    (t : Transfer) : Prop where
  total : t.expected = expected
  size : t.partialSize = data.length
  headerRoom : t.headerBytes ≤ 65536
  stage : ∃ file, (d.run (actsOf log)).part = some ⟨true, file⟩ ∧ Stage data expected log t file

variable {d : Disk} {data : Bytes} {expected : Nat} {log : List (Transfer × Call)}
  {t : Transfer} {c : Call} {action : OtaDownloadAction}

theorem Final.pending (h : Final t c) : t.headersDone = false := by
  cases c with
  | header size count memory io => exact h.2.1
  | body size count memory answers => exact h.elim

/-- A body is accepted behind 200 from the start, behind 206 at the place asked for. -/
theorem Accepts.status (h : Accepts t c action) :
    (action = .writeZero ∧ t.status = 200) ∨ (action = .append ∧ t.status = 206) := by
  rcases response_ok h.response with hzero | happend | ⟨hother, _⟩
  · exact .inl hzero
  · exact .inr happend
  · rcases h.carries with rfl | rfl
    · rcases hother with ha | ha
      · cases ha
      · cases ha
    · rcases hother with ha | ha
      · cases ha
      · cases ha

theorem Accepts.unique {other : OtaDownloadAction} (h : Accepts t c action)
    (hother : Accepts t c other) : other = action := by
  have heq := h.response.symm.trans hother.response
  exact (Except.ok.inj heq).symm

/-- `ota_download_response` takes a 206 for the tail that was asked for. -/
theorem response_append {partialSize status : Nat} {range : Option Bytes}
    (h : otaDownloadResponse partialSize expected status range = .ok .append) :
    0 < partialSize ∧ partialSize < expected ∧ ∃ text, range = some text ∧
      ∃ x y z, text = rangeText x y z ∧ Denotes x partialSize ∧ Denotes y (expected - 1) ∧
        Denotes z expected := by
  have htail : partialSize ≠ 0 ∧ partialSize < expected ∧
      range.any (exactRange · partialSize expected) = true := by
    unfold otaDownloadResponse at h
    grind
  obtain ⟨hzero, hlt, hany⟩ := htail
  obtain ⟨text, hrange, hexact⟩ := (Option.any_eq_true _ _).mp hany
  exact ⟨Nat.pos_of_ne_zero hzero, hlt, text, hrange, (exactRange_iff hlt).mp hexact⟩

/-- Behind 206 the range of the response is the one that was requested. -/
theorem Accepts.requested (h : Accepts t c action) (hstatus : t.status = 206) :
    action = .append ∧ 0 < t.partialSize ∧ t.partialSize < t.expected ∧ t.rangeSeen = true ∧
      ∃ x y z, t.range = rangeText x y z ∧ Denotes x t.partialSize ∧
        Denotes y (t.expected - 1) ∧ Denotes z t.expected := by
  have happend : action = .append := by
    rcases h.status with ⟨_, hs⟩ | ⟨ha, _⟩
    · omega
    · exact ha
  have hresponse := h.response
  rw [happend] at hresponse
  obtain ⟨hpos, hlt, text, htext, hrange⟩ := response_append hresponse
  by_cases hseen : t.rangeSeen = true
  · rw [if_pos hseen] at htext
    cases htext
    exact ⟨happend, hpos, hlt, hseen, hrange⟩
  · rw [if_neg hseen] at htext
    cases htext

theorem startOf_length_add_limitOf (haction : action = .append ∨ action = .writeZero)
    (hle : data.length ≤ expected) :
    (startOf data action).length + limitOf data.length expected action = expected := by
  rcases haction with rfl | rfl
  · show data.length + (expected - data.length) = expected
    omega
  · show 0 + expected = expected
    omega

theorem Holds.bodyRoom (h : Holds d data expected log t) : t.received ≤ t.limit := by
  obtain ⟨file, _, hstage⟩ := h.stage
  cases hstage with
  | closed _ received => omega
  | opened _ _ _ _ _ _ tail _ _ received room => omega

/-- While the headers are not done nothing is accepted. -/
theorem Holds.unaccepted (h : Holds d data expected log t) (hdone : t.headersDone = false) :
    (d.run (actsOf log)).part = some ⟨true, data⟩ ∧ t.received = 0 ∧ t.limit = 0 ∧
      ∀ e ∈ log, ∀ action, ¬ Accepts e.1 e.2 action := by
  obtain ⟨file, hpart, hstage⟩ := h.stage
  cases hstage with
  | closed _ received limit held none =>
      rw [held] at hpart
      exact ⟨hpart, received, limit, none⟩
  | opened _ _ _ done => 
      rw [hdone] at done
      cases done

/-- After an acceptance the transfer runs with its action and limit. -/
theorem Holds.accepted (h : Holds d data expected log t) {e : Transfer × Call} (he : e ∈ log)
    (haccepts : Accepts e.1 e.2 action) :
    t.headersDone = true ∧ t.action = action ∧
      t.limit = limitOf data.length expected action ∧
      ∃ tail, (d.run (actsOf log)).part = some ⟨true, startOf data action ++ tail⟩ := by
  obtain ⟨file, hpart, hstage⟩ := h.stage
  cases hstage with
  | closed _ _ _ _ none => exact absurd haccepts (none e he action)
  | opened other _ only done running limit tail held =>
      have hother := only e he action haccepts
      rw [held] at hpart
      exact ⟨done, running.trans hother.symm, hother ▸ limit, tail, hother ▸ hpart⟩

/-- The part never grows beyond the size. -/
theorem Holds.fileBound (h : Holds d data expected log t) (hle : data.length ≤ expected) :
    (d.run (actsOf log)).partData.length ≤ expected := by
  obtain ⟨file, hpart, hstage⟩ := h.stage
  have hdata : (d.run (actsOf log)).partData = file := by simp [Disk.partData, hpart]
  rw [hdata]
  cases hstage with
  | closed _ _ _ held =>
      rw [held]
      exact hle
  | opened action accepted _ _ _ limit tail held _ _ room =>
      obtain ⟨e, _, haccepts⟩ := accepted
      have htotal := startOf_length_add_limitOf haccepts.carries hle
      rw [held, List.length_append]
      omega

theorem actsOf_snoc (log : List (Transfer × Call)) (t : Transfer) (c : Call) :
    actsOf (log ++ [(t, c)]) = actsOf log ++ (answer t c).acts := by
  simp [actsOf]

/-! ## Calls that leave the files alone -/

/-- A call that neither acts nor accepts. -/
theorem Holds.gate_of_idle (h : Holds d data expected log t) (hle : data.length ≤ expected)
    (hacts : (answer t c).acts = []) (hrefuses : ∀ action, ¬ Accepts t c action)
    (hreceived : t.received ≤ (answer t c).transfer.received ∧
      (answer t c).transfer.received ≤ (answer t c).transfer.limit)
    (hsame : ¬ Final t c → (answer t c).transfer.action = t.action ∧
      (answer t c).transfer.limit = t.limit) : Gate d data expected log t c := by
  have hlog : ∀ e ∈ log ++ [(t, c)], ∀ action, Accepts e.1 e.2 action → e ∈ log := by
    intro e he action haccepts
    rcases List.mem_append.mp he with he | he
    · exact he
    · rw [List.mem_singleton.mp he] at haccepts
      exact absurd haccepts (hrefuses action)
  refine ⟨fun hne => absurd hacts hne, fun _ action ha => absurd ha (hrefuses action), ?_, ?_,
    hreceived, ?_, hsame, h.headerRoom, h.bodyRoom⟩
  · rintro ⟨e, he, hstatus, action, haccepts⟩
    obtain ⟨_, _, _, tail, hpart⟩ := h.accepted (hlog e he action haccepts) haccepts
    rw [(haccepts.requested hstatus).1] at hpart
    rw [hacts]
    exact Trace.keeps_nil ⟨tail, hpart⟩
  · rw [hacts]
    exact Trace.keeps_nil (h.fileBound hle)
  · intro e he action haccepts
    obtain ⟨hdone, haction, hlimit, _⟩ := h.accepted (hlog e he action haccepts) haccepts
    have hfinal : ¬ Final t c := by
      intro hfinal
      rw [hfinal.pending] at hdone
      cases hdone
    exact ⟨(hsame hfinal).1.trans haction, (hsame hfinal).2.trans hlimit⟩

/-- The stage does not see the calls that accept nothing. -/
theorem Stage.snoc {s : Transfer} {file : Bytes} (h : Stage data expected log t file)
    (hrefuses : ∀ action, ¬ Accepts t c action) (hs : SameStage t s) :
    Stage data expected (log ++ [(t, c)]) s file := by
  cases h with
  | closed unopened received limit held none =>
      refine .closed ?_ (hs.received.trans received) (hs.limit.trans limit) held ?_
      · rw [hs.headersDone, hs.action]
        exact unopened
      · intro e he action haccepts
        rcases List.mem_append.mp he with he | he
        · exact none e he action haccepts
        · rw [List.mem_singleton.mp he] at haccepts
          exact hrefuses action haccepts
  | opened action accepted only done running limit tail held position received room =>
      refine .opened action ?_ ?_ (hs.headersDone.trans done) (hs.action.trans running)
        (hs.limit.trans limit) tail held (hs.position.trans position)
        (hs.received.trans received) (hs.limit ▸ room)
      · obtain ⟨e, he, haccepts⟩ := accepted
        exact ⟨e, List.mem_append_left _ he, haccepts⟩
      · intro e he other haccepts
        rcases List.mem_append.mp he with he | he
        · exact only e he other haccepts
        · rw [List.mem_singleton.mp he] at haccepts
          exact absurd haccepts (hrefuses other)

/-- What a call must establish. -/
def Passes (d : Disk) (data : Bytes) (expected : Nat) (log : List (Transfer × Call))
    (t : Transfer) (c : Call) : Prop :=
  Gate d data expected log t c ∧
    ((answer t c).ok = true → Holds d data expected (log ++ [(t, c)]) (answer t c).transfer)

/-- A call that refuses and does nothing keeps the gate. -/
theorem Holds.passes_of_same (h : Holds d data expected log t) (hle : data.length ≤ expected)
    (hacts : (answer t c).acts = []) (hrefuses : ∀ action, ¬ Accepts t c action)
    (hs : SameStage t (answer t c).transfer)
    (hroom : (answer t c).transfer.headerBytes ≤ 65536) : Passes d data expected log t c := by
  have hbody := h.bodyRoom
  refine ⟨h.gate_of_idle hle hacts hrefuses ?_ fun _ => ⟨hs.action, hs.limit⟩, fun _ => ?_⟩
  · rw [hs.received, hs.limit]
    exact ⟨Nat.le_refl _, hbody⟩
  · obtain ⟨file, hpart, hstage⟩ := h.stage
    refine ⟨hs.expected.trans h.total, hs.partialSize.trans h.size, hroom, file, ?_,
      hstage.snoc hrefuses hs⟩
    rw [actsOf_snoc, hacts, List.append_nil]
    exact hpart

/-! ## Header lines -/

theorem resetFile_headerBytes (fault : Option (ResetStep × Errno)) (t : Transfer) :
    (resetFile fault t).transfer.headerBytes = t.headerBytes := by
  unfold resetFile
  split
  · rfl
  · split
    · rfl
    · rfl
    · rfl

theorem acceptBody_headerBytes (io : HeaderIo) (t : Transfer) :
    (acceptBody io t).transfer.headerBytes = t.headerBytes := by
  unfold acceptBody
  split
  · rfl
  · split
    · exact resetFile_headerBytes io.reset t
    · split
      · rfl
      · rfl

theorem headersEnd_headerBytes (io : HeaderIo) (t : Transfer) :
    (headersEnd io t).transfer.headerBytes = t.headerBytes := by
  unfold headersEnd
  split
  · rfl
  · split
    · rfl
    · exact acceptBody_headerBytes io _
    · exact acceptBody_headerBytes io _
    · rfl

/-- The counter of header bytes stays below its bound. -/
theorem headers_headerBytes (t : Transfer) (line : Bytes) (io : HeaderIo)
    (h : t.headerBytes ≤ 65536) : (headers t line io).transfer.headerBytes ≤ 65536 := by
  unfold headers
  split
  · exact h
  · rename_i hread
    have hcount : t.headerBytes + line.length ≤ 65536 := by
      simp only [Bool.or_eq_true, decide_eq_true_eq, not_or, Nat.not_lt] at hread
      omega
    simp only
    split
    · unfold statusLine
      split
      · exact hcount
      · split
        · exact hcount
        · exact hcount
    · split
      · exact hcount
      · split
        · rw [headersEnd_headerBytes]
          exact hcount
        · split
          · exact hcount
          · unfold headerField
            split
            · split
              · exact hcount
              · exact hcount
            · split
              · split
                · exact hcount
                · exact hcount
              · split
                · split
                  · exact hcount
                  · exact hcount
                · exact hcount

/-- The blank line ends the headers. -/
theorem headers_blank {line : Bytes} (io : HeaderIo) (hdone : t.headersDone = false)
    (hblank : Blank t line) : headers t line io = headersEnd io (counted t line) := by
  obtain ⟨hroom, hzero, hempty⟩ := hblank
  have hread : ¬ (decide (65536 - t.headerBytes < line.length) || line.contains 0) = true := by
    simp only [hzero, Bool.or_false, decide_eq_true_eq]
    omega
  unfold headers
  rw [if_neg hread]
  simp only [hempty]
  rw [if_neg (by decide), if_neg (by simp [hdone])]
  rfl

theorem answer_header (t : Transfer) {size count : Nat} (hover : overflows size count = false)
    (memory : Bytes) (io : HeaderIo) :
    answer t (.header size count memory io) = headers t (memory.take (size * count)) io := by
  show (if overflows size count = true then _ else _) = _
  rw [if_neg (by simp [hover])]

theorem answer_header_overflow (t : Transfer) {size count : Nat}
    (hover : overflows size count = true) (memory : Bytes) (io : HeaderIo) :
    answer t (.header size count memory io) = ⟨t, [], false⟩ := by
  show (if overflows size count = true then _ else _) = _
  rw [if_pos hover]

theorem headersEnd_interim (io : HeaderIo) (h : interim t = true) :
    headersEnd io t = t.goesOn := by
  unfold interim at h
  unfold headersEnd
  rw [if_pos h]

/-- A header call that does not end a final block changes no part of the stage. -/
theorem answer_not_final {size count : Nat} {memory : Bytes} {io : HeaderIo}
    (hfinal : ¬ Final t (.header size count memory io)) :
    (answer t (.header size count memory io)).acts = [] ∧
      SameStage t (answer t (.header size count memory io)).transfer := by
  by_cases hover : overflows size count = true
  · rw [answer_header_overflow t hover]
    exact ⟨rfl, .refl t⟩
  · have hfits : overflows size count = false := by simpa using hover
    rw [answer_header t hfits]
    rcases headers_cases t (memory.take (size * count)) io with hsame | ⟨hdone, hblank, heq⟩
    · exact hsame
    · have hinterim : interim (counted t (memory.take (size * count))) = true := by
        by_contra hnot
        exact hfinal ⟨hfits, hdone, hblank, eq_false_of_ne_true hnot⟩
      rw [heq, headersEnd_interim io hinterim]
      exact ⟨rfl, sameStage_counted t _⟩

/-! ## The end of a header block -/

/-- The transfer that `headersEnd` gives to `acceptBody`. -/
def accepting (t : Transfer) (action : OtaDownloadAction) : Transfer :=
  { t with action, headersDone := true, limit := limitOf t.partialSize t.expected action }

/-- The end of a final block, by the answer of `ota_download_response`. -/
theorem headersEnd_final (io : HeaderIo) (h : interim t = false) :
    (∃ error, otaDownloadResponse t.partialSize t.expected t.status
        (if t.rangeSeen then some t.range else none) = .error error ∧
      headersEnd io t = ⟨{ t with action := .reject, error }, [], false⟩) ∨
    ∃ action, otaDownloadResponse t.partialSize t.expected t.status
        (if t.rangeSeen then some t.range else none) = .ok action ∧
      ((action = .append ∨ action = .writeZero) ∧
          headersEnd io t = acceptBody io (accepting t action) ∨
        (action ≠ .append ∧ action ≠ .writeZero) ∧
          headersEnd io t = Transfer.goesOn { t with action, headersDone := true }) := by
  have hfinal : ¬ (100 ≤ t.status && t.status < 200 && t.status != 101) = true :=
    ne_true_of_eq_false h
  unfold headersEnd
  rw [if_neg hfinal]
  cases hresponse : otaDownloadResponse t.partialSize t.expected t.status
      (if t.rangeSeen then some t.range else none) with
  | error error => exact .inl ⟨error, rfl, rfl⟩
  | ok action =>
      right
      refine ⟨action, rfl, ?_⟩
      cases action with
      | append => exact .inl ⟨.inl rfl, rfl⟩
      | writeZero => exact .inl ⟨.inr rfl, rfl⟩
      | reject => exact .inr ⟨⟨by decide, by decide⟩, rfl⟩
      | restart => exact .inr ⟨⟨by decide, by decide⟩, rfl⟩
      | verify => exact .inr ⟨⟨by decide, by decide⟩, rfl⟩

/-- What `acceptBody` does once the length is the right one. -/
structure Opens (t : Transfer) (data : Bytes) (action : OtaDownloadAction) (r : Called) : Prop where
  acts : r.acts = [] ∨ action = .writeZero ∧ r.acts = [.truncate]
  running : r.transfer.action = t.action
  limit : r.transfer.limit = t.limit
  received : r.transfer.received = t.received
  done : r.transfer.headersDone = t.headersDone
  total : r.transfer.expected = t.expected
  size : r.transfer.partialSize = t.partialSize
  position : r.ok = true → r.transfer.position = (startOf data action).length ∧
    (action = .writeZero → r.acts = [.truncate])

/-- A body that is accepted opens the gate. -/
theorem opens_acceptBody (io : HeaderIo) (hrunning : t.action = action)
    (hcarries : action = .append ∨ action = .writeZero) (hsize : t.partialSize = data.length)
    (hlength : ¬ (t.lengthSeen && t.length != t.limit) = true) :
    Opens t data action (acceptBody io t) := by
  unfold acceptBody
  rw [if_neg hlength]
  rcases hcarries with rfl | rfl
  · rw [if_neg (by simp [hrunning])]
    cases io.seek with
    | none =>
        exact ⟨.inl rfl, rfl, rfl, rfl, rfl, rfl, rfl, fun _ => ⟨hsize, fun h => by cases h⟩⟩
    | some errno => exact ⟨.inl rfl, rfl, rfl, rfl, rfl, rfl, rfl, fun h => by cases h⟩
  · rw [if_pos (by simp [hrunning])]
    unfold resetFile
    cases io.reset with
    | none => exact ⟨.inr ⟨rfl, rfl⟩, rfl, rfl, rfl, rfl, rfl, rfl, fun _ => ⟨rfl, fun _ => rfl⟩⟩
    | some fault =>
        obtain ⟨step, errno⟩ := fault
        cases step with
        | truncate => exact ⟨.inl rfl, rfl, rfl, rfl, rfl, rfl, rfl, fun h => by cases h⟩
        | seek => exact ⟨.inr ⟨rfl, rfl⟩, rfl, rfl, rfl, rfl, rfl, rfl, fun h => by cases h⟩
        | sync => exact ⟨.inr ⟨rfl, rfl⟩, rfl, rfl, rfl, rfl, rfl, rfl, fun h => by cases h⟩

/-- A call that accepts a response. -/
theorem Holds.passes_of_opens (h : Holds d data expected log t) (hle : data.length ≤ expected)
    (haccepts : Accepts t c action) (hopens : Opens (accepting t action) data action (answer t c))
    (hroom : (answer t c).transfer.headerBytes ≤ 65536) : Passes d data expected log t c := by
  obtain ⟨hpart, hreceived, _, hnone⟩ := h.unaccepted haccepts.final.pending
  have hrunning : (answer t c).transfer.action = action := hopens.running
  have hlimit : (answer t c).transfer.limit = limitOf data.length expected action := by
    rw [hopens.limit, ← h.size, ← h.total]
    rfl
  have hzero : (answer t c).transfer.received = 0 := hopens.received.trans hreceived
  have honly : ∀ e ∈ log ++ [(t, c)], ∀ other, Accepts e.1 e.2 other → e = (t, c) ∧
      other = action := by
    intro e he other hother
    rcases List.mem_append.mp he with he | he
    · exact absurd hother (hnone e he other)
    · have heq := List.mem_singleton.mp he
      rw [heq] at hother
      exact ⟨heq, haccepts.unique hother⟩
  have htruncated : (perform (d.run (actsOf log)) .truncate).part = some ⟨true, []⟩ := by
    simp [perform, hpart]
  have hself : (t, c) ∈ log ++ [(t, c)] := by simp
  refine ⟨⟨?_, ?_, ?_, ?_, ?_, ?_, ?_, h.headerRoom, h.bodyRoom⟩, fun hok => ?_⟩
  · intro _
    refine ⟨(t, c), hself, action, haccepts, ?_⟩
    rcases haccepts.status with ⟨_, hstatus⟩ | ⟨_, hstatus⟩
    · exact .inl hstatus
    · exact .inr hstatus
  · intro hstatus other hother
    have hrequested := hother.requested hstatus
    rw [h.size, h.total] at hrequested
    exact hrequested
  · rintro ⟨e, he, hstatus, other, hother⟩
    obtain ⟨rfl, _⟩ := honly e he other hother
    have happend := (haccepts.requested hstatus).1
    rcases hopens.acts with hacts | ⟨hwrite, _⟩
    · rw [hacts]
      exact Trace.keeps_nil ⟨[], by rw [List.append_nil]; exact hpart⟩
    · rw [happend] at hwrite
      cases hwrite
  · have hfirst := h.fileBound hle
    rcases hopens.acts with hacts | ⟨_, hacts⟩
    · rw [hacts]
      exact Trace.keeps_nil hfirst
    · rw [hacts]
      refine Trace.keeps_cons hfirst (Trace.keeps_nil ?_)
      simp [Disk.partData, htruncated]
  · rw [hzero, hreceived]
    exact ⟨Nat.le_refl 0, Nat.zero_le _⟩
  · intro e he other hother
    rw [(honly e he other hother).2]
    exact ⟨hrunning, hlimit⟩
  · intro hfinal
    exact absurd haccepts.final hfinal
  · obtain ⟨hposition, hacts⟩ := hopens.position hok
    refine ⟨hopens.total.trans h.total, hopens.size.trans h.size, hroom, startOf data action,
      ?_, ?_⟩
    · rw [actsOf_snoc, run_append]
      rcases haccepts.carries with rfl | rfl
      · rcases hopens.acts with hacts | ⟨hwrite, _⟩
        · rw [hacts]
          exact hpart
        · cases hwrite
      · rw [hacts rfl]
        exact htruncated
    · exact .opened action ⟨(t, c), hself, haccepts⟩
        (fun e he other hother => (honly e he other hother).2) hopens.done hrunning hlimit []
        (List.append_nil _).symm hposition hzero (Nat.zero_le _)

/-- The end of a final block. -/
theorem Holds.passes_final {size count : Nat} {memory : Bytes} {io : HeaderIo}
    (h : Holds d data expected log t) (hle : data.length ≤ expected)
    (hfinal : Final t (.header size count memory io)) :
    Passes d data expected log t (.header size count memory io) := by
  obtain ⟨hfits, hdone, hblank, hinterim⟩ := hfinal
  obtain ⟨hpart, hreceived, hlimit, hnone⟩ := h.unaccepted hdone
  have hroom := headers_headerBytes t (memory.take (size * count)) io h.headerRoom
  have hanswer := answer_header t hfits memory io
  have hend := headers_blank io hdone hblank
  rw [← hanswer] at hroom
  rw [hend] at hanswer
  have hnotFinal : ∀ {P : Prop}, ¬ Final t (.header size count memory io) → P :=
    fun hnot => absurd ⟨hfits, hdone, hblank, hinterim⟩ hnot
  rcases headersEnd_final (t := counted t (memory.take (size * count))) io hinterim with
    ⟨error, hresponse, hcalled⟩ | ⟨action, hresponse, ⟨hcarries, hcalled⟩ | ⟨hother, hcalled⟩⟩
  · rw [hcalled] at hanswer
    refine ⟨h.gate_of_idle hle (by rw [hanswer]) ?_ ?_ hnotFinal, fun hok => ?_⟩
    · intro action haccepts
      cases hresponse.symm.trans haccepts.response
    · rw [hanswer]
      exact ⟨Nat.le_refl _, h.bodyRoom⟩
    · rw [hanswer] at hok
      cases hok
  · by_cases hlength : t.lengthSeen = true → t.length = limitOf t.partialSize t.expected action
    · have haccepts : Accepts t (.header size count memory io) action :=
        ⟨⟨hfits, hdone, hblank, hinterim⟩, hresponse, hcarries, hlength⟩
      have hopens := opens_acceptBody
        (t := accepting (counted t (memory.take (size * count))) action) io rfl hcarries
        (show t.partialSize = data.length from h.size) (by simpa [accepting, counted] using hlength)
      rw [hanswer, hcalled] at hroom
      refine h.passes_of_opens hle haccepts ?_ (by rw [hanswer, hcalled]; exact hroom)
      rw [hanswer, hcalled]
      exact ⟨hopens.acts, hopens.running, hopens.limit, hopens.received, hopens.done, hopens.total,
        hopens.size, hopens.position⟩
    · have hfails : acceptBody io (accepting (counted t (memory.take (size * count))) action) =
          (accepting (counted t (memory.take (size * count))) action).fails .downloadSizeMismatch
            (ascii "Content-Length differs from expected response size") := by
        unfold acceptBody
        rw [if_pos (by simpa [accepting, counted] using hlength)]
      rw [hcalled, hfails] at hanswer
      refine ⟨h.gate_of_idle hle (by rw [hanswer]; rfl) ?_ ?_ hnotFinal, fun hok => ?_⟩
      · intro other haccepts
        have hsame : action = other := Except.ok.inj (hresponse.symm.trans haccepts.response)
        rw [← hsame] at haccepts
        exact hlength haccepts.length
      · rw [hanswer]
        refine ⟨Nat.le_refl _, ?_⟩
        show t.received ≤ _
        rw [hreceived]
        exact Nat.zero_le _
      · rw [hanswer] at hok
        cases hok
  · rw [hcalled] at hanswer
    have hrefuses : ∀ other, ¬ Accepts t (.header size count memory io) other := by
      intro other haccepts
      have hsame : action = other := Except.ok.inj (hresponse.symm.trans haccepts.response)
      rcases haccepts.carries with ha | ha
      · exact hother.1 (hsame.trans ha)
      · exact hother.2 (hsame.trans ha)
    refine ⟨h.gate_of_idle hle (by rw [hanswer]; rfl) hrefuses ?_ hnotFinal, fun _ => ?_⟩
    · rw [hanswer]
      exact ⟨Nat.le_refl _, h.bodyRoom⟩
    · refine ⟨?_, ?_, hroom, data, ?_, ?_⟩
      · rw [hanswer]
        exact h.total
      · rw [hanswer]
        exact h.size
      · rw [actsOf_snoc, hanswer]
        show (d.run (actsOf log ++ [])).part = _
        rw [List.append_nil]
        exact hpart
      · rw [hanswer]
        refine .closed (fun _ => hother) hreceived hlimit rfl ?_
        intro e he other haccepts
        rcases List.mem_append.mp he with he | he
        · exact hnone e he other haccepts
        · rw [List.mem_singleton.mp he] at haccepts
          exact hrefuses other haccepts

/-! ## Bodies -/

theorem answer_body (t : Transfer) {size count : Nat} (hover : overflows size count = false)
    (memory : Bytes) (answers : List WriteAnswer) :
    answer t (.body size count memory answers) =
      body t (memory.take (size * count)) answers := by
  show (if overflows size count = true then _ else _) = _
  rw [if_neg (by simp [hover])]

/-- The three ways of a body: refused, too long, or written. -/
theorem body_cases (t : Transfer) (bytes : Bytes) (answers : List WriteAnswer) :
    ((body t bytes answers).acts = [] ∧ SameStage t (body t bytes answers).transfer ∧
        (body t bytes answers).transfer.headerBytes = t.headerBytes) ∨
      (t.headersDone = true ∧ (t.action = .append ∨ t.action = .writeZero) ∧
        bytes.length ≤ t.limit - t.received ∧
        body t bytes answers = writeAll t answers bytes) := by
  unfold body
  split
  · exact .inl ⟨rfl, .refl t, rfl⟩
  · rename_i hopen
    split
    · exact .inl ⟨rfl, ⟨rfl, rfl, rfl, rfl, rfl, rfl, rfl, fun _ => rfl⟩, rfl⟩
    · rename_i hfits
      right
      simp only [Bool.or_eq_true, Bool.and_eq_true, Bool.not_eq_true', bne_iff_ne, not_or,
        not_and, Bool.not_eq_false, ne_eq, not_not] at hopen
      refine ⟨hopen.1, ?_, by omega, rfl⟩
      by_cases haction : t.action = .append
      · exact .inl haction
      · exact .inr (hopen.2 haction)

/-- A body that is written. -/
theorem Holds.passes_writes {bytes : Bytes} {answers : List WriteAnswer}
    (h : Holds d data expected log t) (hle : data.length ≤ expected)
    (hfinal : ¬ Final t c) (hdone : t.headersDone = true)
    (haction : t.action = .append ∨ t.action = .writeZero)
    (hfits : bytes.length ≤ t.limit - t.received)
    (hanswer : answer t c = writeAll t answers bytes) : Passes d data expected log t c := by
  obtain ⟨file, hpart, hstage⟩ := h.stage
  have hbody := h.bodyRoom
  have hrefuses : ∀ action, ¬ Accepts t c action := fun action ha => hfinal ha.final
  have hlog : ∀ e ∈ log ++ [(t, c)], ∀ action, Accepts e.1 e.2 action → e ∈ log := by
    intro e he action haccepts
    rcases List.mem_append.mp he with he | he
    · exact he
    · rw [List.mem_singleton.mp he] at haccepts
      exact absurd haccepts (hrefuses action)
  cases hstage with
  | closed unopened =>
      rcases haction with ha | ha
      · exact absurd ha (unopened hdone).1
      · exact absurd ha (unopened hdone).2
  | opened action accepted only done running limit tail held position received room =>
      obtain ⟨first, hfirst, haccepts⟩ := accepted
      have htotal := startOf_length_add_limitOf haccepts.carries hle
      obtain ⟨hkeeps, ⟨n, error, hn, htransfer⟩, hend⟩ :=
        writeAll_appends answers bytes hpart position
      have hwritten : ∀ e ∈ log ++ [(t, c)], ∀ other, Accepts e.1 e.2 other →
          other = action := fun e he other hother => only e (hlog e he other hother) other hother
      have hsame : (answer t c).transfer.action = t.action ∧
          (answer t c).transfer.limit = t.limit := by
        rw [hanswer, htransfer]
        exact ⟨rfl, rfl⟩
      refine ⟨⟨?_, fun _ other ha => absurd ha (hrefuses other), ?_, ?_, ?_, ?_, fun _ => hsame,
        h.headerRoom, hbody⟩, fun hok => ?_⟩
      · intro _
        refine ⟨first, List.mem_append_left _ hfirst, action, haccepts, ?_⟩
        rcases haccepts.status with ⟨_, hstatus⟩ | ⟨_, hstatus⟩
        · exact .inl hstatus
        · exact .inr hstatus
      · rintro ⟨e, he, hstatus, other, hother⟩
        have happend : action = .append :=
          (hwritten e he other hother).symm.trans (hother.requested hstatus).1
        rw [hanswer]
        refine hkeeps.mono ?_
        rintro x ⟨cut, _, hx⟩
        refine ⟨tail ++ cut, ?_⟩
        rw [hx, held, happend, List.append_assoc]
        rfl
      · rw [hanswer]
        refine hkeeps.mono ?_
        rintro x ⟨cut, hcut, hx⟩
        have hcutLength := hcut.length_le
        have hdata : x.partData = file ++ cut := by simp [Disk.partData, hx]
        rw [hdata, held, List.length_append, List.length_append]
        omega
      · rw [hanswer, htransfer]
        show t.received ≤ t.received + n ∧ t.received + n ≤ t.limit
        omega
      · intro e he other hother
        rw [hwritten e he other hother]
        exact ⟨hsame.1.trans running, hsame.2.trans limit⟩
      · rw [hanswer] at hok
        obtain ⟨hwhole, hlast⟩ := hend hok
        rw [hanswer, hlast]
        refine ⟨h.total, h.size, h.headerRoom, file ++ bytes, ?_, ?_⟩
        · rw [actsOf_snoc, hanswer, run_append]
          exact hwhole
        · refine .opened action ⟨first, List.mem_append_left _ hfirst, haccepts⟩ hwritten done
            running limit (tail ++ bytes) ?_ ?_ ?_ ?_
          · rw [held, List.append_assoc]
          · show t.position + bytes.length = _
            rw [position, List.length_append]
          · show t.received + bytes.length = _
            rw [received, List.length_append]
          · show (tail ++ bytes).length ≤ t.limit
            rw [List.length_append]
            omega

/-! ## Every call -/

/-- One call passes the gate, or is refused without an act. -/
theorem gate_step (h : Holds d data expected log t) (hle : data.length ≤ expected) (c : Call) :
    Passes d data expected log t c := by
  cases c with
  | header size count memory io =>
      by_cases hfinal : Final t (.header size count memory io)
      · exact h.passes_final hle hfinal
      · obtain ⟨hacts, hsame⟩ := answer_not_final hfinal
        refine h.passes_of_same hle hacts (fun action ha => hfinal ha.final) hsame ?_
        by_cases hover : overflows size count = true
        · rw [answer_header_overflow t hover]
          exact h.headerRoom
        · rw [answer_header t (eq_false_of_ne_true hover)]
          exact headers_headerBytes t _ io h.headerRoom
  | body size count memory answers =>
      have hfinal : ¬ Final t (.body size count memory answers) := fun hfinal => hfinal
      by_cases hover : overflows size count = true
      · have hanswer : answer t (.body size count memory answers) = ⟨t, [], false⟩ := by
          show (if overflows size count = true then _ else _) = _
          rw [if_pos hover]
        refine h.passes_of_same hle (by rw [hanswer]) (fun action ha => hfinal ha.final) ?_ ?_
        · rw [hanswer]
          exact .refl t
        · rw [hanswer]
          exact h.headerRoom
      · have hanswer := answer_body t (eq_false_of_ne_true hover) memory answers
        rcases body_cases t (memory.take (size * count)) answers with
          ⟨hacts, hsame, hroom⟩ | ⟨hdone, haction, hfits, hbody⟩
        · rw [← hanswer] at hacts hsame hroom
          exact h.passes_of_same hle hacts (fun action ha => hfinal ha.final) hsame
            (hroom ▸ h.headerRoom)
        · exact h.passes_writes hle hfinal hdone haction hfits (hanswer.trans hbody)

theorem holds_fresh (position : Nat) (hpart : d.part = some ⟨true, data⟩) :
    Holds d data expected [] (.fresh position data.length expected) := by
  refine ⟨rfl, rfl, Nat.zero_le _, data, hpart, ?_⟩
  exact .closed (fun h => by cases h) rfl rfl rfl (by simp)

/-- Whatever a server makes of a request: every call up to the first that fails finds
and leaves what `Gate` says. -/
theorem response_gate (position : Nat) {expected : Nat} {d : Disk} {data : Bytes}
    (hpart : d.part = some ⟨true, data⟩) (hle : data.length ≤ expected) (cs : List Call) :
    Trace.Throughout (fun log e => Gate d data expected log e.1 e.2)
      (calls (.fresh position data.length expected) cs) := by
  have hstep : ∀ log t c, Holds d data expected log t → Gate d data expected log t c ∧
      ∀ s, next t c = some s → Holds d data expected (log ++ [(t, c)]) s := by
    intro log t c h
    obtain ⟨hgate, hnext⟩ := gate_step h hle c
    refine ⟨hgate, fun s hs => ?_⟩
    unfold next at hs
    by_cases hok : (answer t c).ok = true
    · rw [if_pos hok] at hs
      cases hs
      exact hnext hok
    · rw [if_neg hok] at hs
      cases hs
  exact Trace.throughout_visits hstep (holds_fresh position hpart) cs

/-- The calls of a resumed transfer that delivers the last two bytes. -/
def resumedCalls : List Call :=
  [ascii "HTTP/1.1 100 Continue", [], ascii "HTTP/1.1 206 Partial Content",
    ascii "Content-Range: bytes 1-2/3", []].map
      (fun line => .header 1 (line.length + 2) (line ++ [0x0d, 0x0a]) ⟨none, none⟩) ++
  [.body 1 2 (ascii "BC") [.wrote 1, .wrote 1]]

theorem response_gate_resumed :
    Trace.Throughout
        (fun log e => Gate ⟨some ⟨true, ascii "A"⟩, none⟩ (ascii "A") 3 log e.1 e.2)
        (calls (.fresh 0 1 3) resumedCalls) ∧
      ((Disk.mk (some ⟨true, ascii "A"⟩) none).run
        (actsOf (calls (.fresh 0 1 3) resumedCalls))).part = some ⟨true, ascii "ABC"⟩ :=
  ⟨response_gate 0 rfl (by decide) resumedCalls, by decide +kernel⟩

end EdgeGuard.Agent.ResponseGate
