import EdgeGuard.Agent.DownloadSafety

/-!
# Transfers from an honest server

With a server that delivers the bytes of one bundle, the partial file is a prefix
of that bundle at every moment of a transfer: it is truncated, or it grows at its
end by what the server sent for that place.

## Main results

* `callbacks_fits` — the invariant of one transfer, callback by callback.
* `requests_passes` — what the request loop leaves.
-/

namespace EdgeGuard.Agent.DownloadTransfer

open EdgeGuard.Base EdgeGuard.Base.CText
open EdgeGuard.Agent.Model EdgeGuard.Agent.Release EdgeGuard.Agent.Download
open EdgeGuard.Agent.DownloadSafety

/-! ## Honest servers -/

/-- What a callback carries of the body. -/
def payload : Callback → Bytes
  | .header _ _ => []
  | .body data _ => data

/-- The server sends the bundle `B`: the body of a 200 is a prefix of it, the body
of a 206 a prefix of what follows the requested offset.  `sent` is what came
before. -/
def Honest (B sent : Bytes) (t : Transfer) : List Callback → Prop
  | [] => True
  | c :: rest =>
      (t.headersDone = true →
        (t.status = 200 → sent ++ payload c <+: B) ∧
          (t.status = 206 → sent ++ payload c <+: B.drop t.partialSize)) ∧
      ((callback t c).ok = true → Honest B (sent ++ payload c) (callback t c).transfer rest)

instance Honest.decidable (B sent : Bytes) (t : Transfer) :
    (cs : List Callback) → Decidable (Honest B sent t cs)
  | [] => .isTrue trivial
  | c :: rest =>
      have := Honest.decidable B (sent ++ payload c) (callback t c).transfer rest
      inferInstanceAs (Decidable (_ ∧ _))

/-! ## Writing at the end of the partial file -/

theorem writeAt_end (data bytes : Bytes) : writeAt data data.length bytes = data ++ bytes := by
  simp [writeAt]

/-- The partial file is a prefix of the bundle. -/
def Growing (B : Bytes) (d : Disk) : Prop := ∃ data, d.part = some ⟨true, data⟩ ∧ data <+: B

variable {B sent data : Bytes} {t : Transfer} {d : Disk}

theorem keeps_truncate (hpart : d.part = some ⟨true, data⟩) (hheld : data <+: B) :
    Trace.Keeps perform (Growing B) d [.truncate] ∧
      (d.run [.truncate]).part = some ⟨true, []⟩ := by
  have hempty : (perform d .truncate).part = some ⟨true, []⟩ := by simp [perform, hpart]
  exact ⟨Trace.keeps_cons ⟨data, hpart, hheld⟩ (Trace.keeps_nil ⟨[], hempty, List.nil_prefix⟩),
    hempty⟩

theorem part_write (hpart : d.part = some ⟨true, data⟩) (hposition : t.position = data.length)
    (bytes : Bytes) :
    (perform d (.write t.position bytes)).part = some ⟨true, data ++ bytes⟩ := by
  simp [perform, hpart, hposition, writeAt_end]

/-- However the data is cut into writes, and wherever they end, a part of it stands
behind what the file held. -/
theorem writeAll_appends (answers : List WriteAnswer) (bytes : Bytes)
    (hpart : d.part = some ⟨true, data⟩) (hposition : t.position = data.length) :
    Trace.Keeps perform (fun e => ∃ cut, cut <+: bytes ∧ e.part = some ⟨true, data ++ cut⟩) d
        (writeAll t answers bytes).acts ∧
      (∃ n error, n ≤ bytes.length ∧ (writeAll t answers bytes).transfer =
        { t with position := t.position + n, received := t.received + n, error }) ∧
      ((writeAll t answers bytes).ok = true →
        (d.run (writeAll t answers bytes).acts).part = some ⟨true, data ++ bytes⟩ ∧
          (writeAll t answers bytes).transfer =
            { t with
              position := t.position + bytes.length
              received := t.received + bytes.length }) := by
  have hheld : ∀ whole : Bytes, ∃ cut, cut <+: whole ∧ d.part = some ⟨true, data ++ cut⟩ :=
    fun whole => ⟨[], List.nil_prefix, by rw [List.append_nil]; exact hpart⟩
  have hwrite := part_write hpart hposition
  induction answers generalizing d t data bytes with
  | nil =>
      cases bytes with
      | nil =>
          refine ⟨Trace.keeps_nil (hheld []), ⟨0, t.error, Nat.le_refl 0, rfl⟩, fun _ => ⟨?_, rfl⟩⟩
          rw [List.append_nil]
          exact hpart
      | cons b bytes =>
          exact ⟨Trace.keeps_cons (hheld _)
              (Trace.keeps_nil ⟨b :: bytes, List.prefix_rfl, hwrite _⟩),
            ⟨(b :: bytes).length, t.error, Nat.le_refl _, rfl⟩, fun _ => ⟨hwrite _, rfl⟩⟩
  | cons answer answers ih =>
      cases bytes with
      | nil =>
          refine ⟨Trace.keeps_nil (hheld []), ⟨0, t.error, Nat.le_refl 0, rfl⟩, fun _ => ⟨?_, rfl⟩⟩
          rw [List.append_nil]
          exact hpart
      | cons b bytes =>
          have hfailed : ∀ errno, ∃ n error, n ≤ (b :: bytes).length ∧
              diskError t (ascii "Write partial file") errno =
                { t with position := t.position + n, received := t.received + n, error } :=
            fun errno => ⟨0, _, Nat.zero_le _, rfl⟩
          cases answer with
          | failed errno =>
              exact ⟨Trace.keeps_nil (hheld _), hfailed errno, fun h => by cases h⟩
          | wrote count =>
              unfold writeAll
              split
              · exact ⟨Trace.keeps_nil (hheld _), hfailed ioErrno, fun h => by cases h⟩
              · have hcut : (b :: bytes).take count ++ (b :: bytes).drop count = b :: bytes :=
                  List.take_append_drop count _
                have hlength := congrArg List.length hcut
                rw [List.length_append] at hlength
                have hnext := hwrite ((b :: bytes).take count)
                have hposition' : t.position + ((b :: bytes).take count).length =
                    (data ++ (b :: bytes).take count).length := by
                  rw [hposition, List.length_append]
                have hrest := ih
                  (t := { t with
                    position := t.position + ((b :: bytes).take count).length
                    received := t.received + ((b :: bytes).take count).length })
                  ((b :: bytes).drop count) hnext hposition'
                  (fun whole => ⟨[], List.nil_prefix, by rw [List.append_nil]; exact hnext⟩)
                  (part_write hnext hposition')
                obtain ⟨hkeeps, ⟨n, error, hn, htransfer⟩, hend⟩ := hrest
                refine ⟨Trace.keeps_cons (hheld _) (hkeeps.mono ?_), ?_, fun hok => ?_⟩
                · rintro e ⟨cut, hprefix, he⟩
                  refine ⟨(b :: bytes).take count ++ cut, ?_, by rw [he, List.append_assoc]⟩
                  have hlonger :=
                    (List.prefix_append_right_inj ((b :: bytes).take count)).mpr hprefix
                  rwa [hcut] at hlonger
                · refine ⟨((b :: bytes).take count).length + n, error, by omega, ?_⟩
                  simp only [htransfer]
                  rw [Nat.add_assoc, Nat.add_assoc]
                · obtain ⟨hwhole, htransfer⟩ := hend hok
                  refine ⟨?_, ?_⟩
                  · rw [run_cons, hwhole, List.append_assoc, hcut]
                  · simp only [htransfer]
                    rw [Nat.add_assoc, Nat.add_assoc, hlength]

/-- The file holds a prefix of what is to be written. -/
theorem keeps_writeAll (answers : List WriteAnswer) {bytes : Bytes}
    (hpart : d.part = some ⟨true, data⟩) (hposition : t.position = data.length)
    (hnext : data ++ bytes <+: B) :
    Trace.Keeps perform (Growing B) d (writeAll t answers bytes).acts ∧
      ((writeAll t answers bytes).ok = true →
        (d.run (writeAll t answers bytes).acts).part = some ⟨true, data ++ bytes⟩ ∧
          (writeAll t answers bytes).transfer =
            { t with
              position := t.position + bytes.length
              received := t.received + bytes.length }) := by
  obtain ⟨hkeeps, _, hend⟩ := writeAll_appends answers bytes hpart hposition
  refine ⟨hkeeps.mono ?_, hend⟩
  rintro e ⟨cut, hcut, he⟩
  exact ⟨data ++ cut, he, ((List.prefix_append_right_inj data).mpr hcut).trans hnext⟩

/-! ## The invariant of a transfer -/

/-- How far a transfer is, with `sent` delivered by the server and `data` in the
partial file. -/
inductive Stage (B : Bytes) (t : Transfer) (sent data : Bytes) : Prop
  | early (done : t.headersDone = false) (none : sent = [])
      (held : data = B.take t.partialSize) (received : t.received = 0)
  | zero (done : t.headersDone = true) (action : t.action = .writeZero) (status : t.status = 200)
      (held : data = sent) (position : t.position = data.length)
      (received : t.received = data.length) (limit : t.limit = B.length)
  | append (done : t.headersDone = true) (action : t.action = .append) (status : t.status = 206)
      (held : data = B.take t.partialSize ++ sent) (position : t.position = data.length)
      (received : t.received = sent.length) (limit : t.limit = B.length - t.partialSize)
  | refused (done : t.headersDone = true) (action : t.action = .restart ∨ t.action = .verify)
      (status : t.status = 416) (none : sent = []) (held : data = B.take t.partialSize)
      (whole : t.action = .verify → t.partialSize = B.length)

structure Fits (B : Bytes) (t : Transfer) (sent data : Bytes) : Prop where
  expected : t.expected = B.length
  size : t.partialSize ≤ B.length
  held : data <+: B
  stage : Stage B t sent data

/-- The transfers agree in all that the invariant looks at. -/
structure SameStage (t s : Transfer) : Prop where
  expected : s.expected = t.expected
  partialSize : s.partialSize = t.partialSize
  headersDone : s.headersDone = t.headersDone
  action : s.action = t.action
  position : s.position = t.position
  received : s.received = t.received
  limit : s.limit = t.limit
  status : t.headersDone = true → s.status = t.status

theorem SameStage.refl (t : Transfer) : SameStage t t :=
  ⟨rfl, rfl, rfl, rfl, rfl, rfl, rfl, fun _ => rfl⟩

/-- What fits a transfer fits every transfer in the same stage. -/
theorem Fits.of_same {s : Transfer} (h : Fits B t sent data) (hs : SameStage t s) :
    Fits B s sent data := by
  refine ⟨hs.expected.trans h.expected, hs.partialSize ▸ h.size, h.held, ?_⟩
  cases h.stage with
  | early done none held received =>
      exact .early (hs.headersDone.trans done) none (hs.partialSize ▸ held)
        (hs.received.trans received)
  | zero done action status held position received limit =>
      exact .zero (hs.headersDone.trans done) (hs.action.trans action)
        ((hs.status done).trans status) held (hs.position.trans position)
        (hs.received.trans received) (hs.limit.trans limit)
  | append done action status held position received limit =>
      refine .append (hs.headersDone.trans done) (hs.action.trans action)
        ((hs.status done).trans status) (hs.partialSize ▸ held) (hs.position.trans position)
        (hs.received.trans received) ?_
      rw [hs.limit, hs.partialSize, limit]
  | refused done action status none held whole =>
      refine .refused (hs.headersDone.trans done) (hs.action ▸ action)
        ((hs.status done).trans status) none (hs.partialSize ▸ held) ?_
      rw [hs.action, hs.partialSize]
      exact whole

/-- A complete partial file is the bundle. -/
theorem Fits.eq_of_length (h : Fits B t sent data) (hlength : data.length = B.length) :
    data = B := h.held.eq_of_length hlength

/-- An accepted response is one of four. -/
theorem response_ok {partialSize expected status : Nat} {range : Option Bytes}
    {action : OtaDownloadAction}
    (h : otaDownloadResponse partialSize expected status range = .ok action) :
    (action = .writeZero ∧ status = 200) ∨ (action = .append ∧ status = 206) ∨
      ((action = .restart ∨ action = .verify) ∧ status = 416 ∧
        (action = .verify → partialSize = expected)) := by
  unfold otaDownloadResponse at h
  grind

/-- The line is empty, and one that `headers` reads. -/
def Blank (t : Transfer) (line : Bytes) : Prop :=
  line.length ≤ 65536 - t.headerBytes ∧ line.contains 0 = false ∧ line.rdropWhile isSpace = []

/-- The transfer with a line counted. -/
def counted (t : Transfer) (line : Bytes) : Transfer :=
  { t with headerBytes := t.headerBytes + line.length }

theorem sameStage_counted (t : Transfer) (line : Bytes) : SameStage t (counted t line) :=
  ⟨rfl, rfl, rfl, rfl, rfl, rfl, rfl, fun _ => rfl⟩

/-- A header line that does not end the headers leaves the stage alone. -/
theorem headers_cases (t : Transfer) (line : Bytes) (io : HeaderIo) :
    ((headers t line io).acts = [] ∧ SameStage t (headers t line io).transfer) ∨
      (t.headersDone = false ∧ Blank t line ∧
        headers t line io = headersEnd io (counted t line)) := by
  have hfails : ∀ (s : Transfer) code message, SameStage t s →
      (s.fails code message).acts = [] ∧ SameStage t (s.fails code message).transfer :=
    fun s code message h => ⟨rfl, h.expected, h.partialSize, h.headersDone, h.action, h.position,
      h.received, h.limit, h.status⟩
  unfold headers
  split
  · exact .inl (hfails t _ _ (.refl t))
  · rename_i hread
    have hcount := sameStage_counted t line
    simp only
    split
    · left
      unfold statusLine
      split
      · exact hfails _ _ _ hcount
      · rename_i hdone
        split
        · exact hfails _ _ _ hcount
        · exact ⟨rfl, rfl, rfl, rfl, rfl, rfl, rfl, rfl, fun h => absurd h hdone⟩
    · split
      · exact .inl ⟨rfl, hcount⟩
      · rename_i hdone
        split
        · rename_i hempty
          simp only [Bool.or_eq_true, decide_eq_true_eq, not_or, Nat.not_lt,
            Bool.not_eq_true] at hread
          exact .inr ⟨by simpa using hdone,
            ⟨hread.1, hread.2, List.isEmpty_iff.mp hempty⟩, rfl⟩
        · left
          split
          · exact hfails _ _ _ hcount
          · unfold headerField
            split
            · split
              · exact hfails _ _ _ hcount
              · exact ⟨rfl, rfl, rfl, rfl, rfl, rfl, rfl, rfl, fun _ => rfl⟩
            · split
              · split
                · exact ⟨rfl, rfl, rfl, rfl, rfl, rfl, rfl, rfl, fun _ => rfl⟩
                · exact hfails _ _ _ hcount
              · split
                · split
                  · exact hfails _ _ _ hcount
                  · exact ⟨rfl, rfl, rfl, rfl, rfl, rfl, rfl, rfl, fun _ => rfl⟩
                · exact ⟨rfl, hcount⟩

/-- What a step of the transfer must establish. -/
def Carries (B : Bytes) (d : Disk) (sent : Bytes) (r : Called) : Prop :=
  Trace.Keeps perform (Growing B) d r.acts ∧
    (r.ok = true → ∃ data, (d.run r.acts).part = some ⟨true, data⟩ ∧
      Fits B r.transfer sent data)

/-- A part that is reset is a prefix of the bundle, the empty one. -/
theorem resetFile_carries (fault : Option (ResetStep × Errno))
    (hpart : d.part = some ⟨true, data⟩) (hheld : data <+: B)
    (hfits : Fits B { t with position := 0 } [] []) :
    Carries B d [] (resetFile fault t) := by
  have htruncate := keeps_truncate hpart hheld
  unfold resetFile
  split
  · exact ⟨htruncate.1, fun _ => ⟨[], htruncate.2, hfits⟩⟩
  · split
    · exact ⟨Trace.keeps_nil ⟨data, hpart, hheld⟩, fun h => nomatch h⟩
    · exact ⟨htruncate.1, fun h => nomatch h⟩
    · exact ⟨htruncate.1, fun h => nomatch h⟩

/-- A body that is accepted leaves the part a prefix of the bundle. -/
theorem acceptBody_carries (io : HeaderIo) (hpart : d.part = some ⟨true, data⟩)
    (hheld : data <+: B)
    (hzero : t.action = .writeZero → Fits B { t with position := 0 } [] [])
    (happend : t.action ≠ .writeZero → Fits B { t with position := t.partialSize } [] data) :
    Carries B d [] (acceptBody io t) := by
  have hnothing : Trace.Keeps perform (Growing B) d [] :=
    Trace.keeps_nil ⟨data, hpart, hheld⟩
  unfold acceptBody
  split
  · exact ⟨hnothing, fun hok => nomatch hok⟩
  · by_cases haction : t.action = .writeZero
    · rw [if_pos (by simp [haction])]
      exact resetFile_carries io.reset hpart hheld (hzero haction)
    · rw [if_neg (by simpa using haction)]
      split
      · exact ⟨hnothing, fun hok => nomatch hok⟩
      · exact ⟨hnothing, fun _ => ⟨data, hpart, happend haction⟩⟩

/-- The end of the headers: the file is truncated for a 200 and kept for a 206. -/
theorem headersEnd_carries (io : HeaderIo) (hpart : d.part = some ⟨true, data⟩)
    (hdone : t.headersDone = false) (h : Fits B t sent data) :
    Carries B d sent (headersEnd io t) := by
  have hnothing : Trace.Keeps perform (Growing B) d [] :=
    Trace.keeps_nil ⟨data, hpart, h.held⟩
  have hearly : sent = [] ∧ data = B.take t.partialSize ∧ t.received = 0 := by
    cases h.stage with
    | early _ none held received => exact ⟨none, held, received⟩
    | zero done => rw [hdone] at done; cases done
    | append done => rw [hdone] at done; cases done
    | refused done => rw [hdone] at done; cases done
  obtain ⟨rfl, hdata, hreceived⟩ := hearly
  have hlength : data.length = t.partialSize := by
    rw [hdata, List.length_take, Nat.min_eq_left h.size]
  unfold headersEnd
  split
  · exact ⟨hnothing, fun _ => ⟨data, hpart, h⟩⟩
  · split
    · exact ⟨hnothing, fun hok => nomatch hok⟩
    · rename_i hresponse
      have hstatus : t.status = 206 := by
        rcases response_ok hresponse with ⟨ha, _⟩ | ⟨_, hs⟩ | ⟨ha | ha, _⟩
        · cases ha
        · exact hs
        · cases ha
        · cases ha
      refine acceptBody_carries io hpart h.held (fun ha => nomatch ha) fun _ => ?_
      refine ⟨h.expected, h.size, h.held, ?_⟩
      refine .append rfl rfl hstatus (by simpa using hdata) hlength.symm hreceived ?_
      show t.expected - t.partialSize = B.length - t.partialSize
      rw [h.expected]
    · rename_i hresponse
      have hstatus : t.status = 200 := by
        rcases response_ok hresponse with ⟨_, hs⟩ | ⟨ha, _⟩ | ⟨ha | ha, _⟩
        · exact hs
        · cases ha
        · cases ha
        · cases ha
      refine acceptBody_carries io hpart h.held (fun _ => ?_) fun ha => absurd rfl ha
      refine ⟨h.expected, h.size, List.nil_prefix, ?_⟩
      exact .zero rfl rfl hstatus rfl rfl hreceived h.expected
    · rename_i action hne₁ hne₂ hresponse
      refine ⟨hnothing, fun _ => ⟨data, hpart, h.expected, h.size, h.held, ?_⟩⟩
      rcases response_ok hresponse with ⟨ha, _⟩ | ⟨ha, _⟩ | ⟨ha, hs, hverify⟩
      · exact absurd ha hne₂
      · exact absurd ha hne₁
      · exact .refused rfl ha hs rfl hdata fun hv => (hverify hv).trans h.expected

/-- One callback of an honest response keeps the part a prefix of the bundle. -/
theorem callback_carries (c : Callback) (hpart : d.part = some ⟨true, data⟩)
    (h : Fits B t sent data)
    (hhonest : t.headersDone = true →
      (t.status = 200 → sent ++ payload c <+: B) ∧
        (t.status = 206 → sent ++ payload c <+: B.drop t.partialSize)) :
    Carries B d (sent ++ payload c) (callback t c) := by
  have hnothing : Trace.Keeps perform (Growing B) d [] :=
    Trace.keeps_nil ⟨data, hpart, h.held⟩
  cases c with
  | header line io =>
      show Carries B d (sent ++ []) (headers t line io)
      rw [List.append_nil]
      rcases headers_cases t line io with ⟨hacts, hsame⟩ | ⟨hdone, _, heq⟩
      · refine ⟨by rw [hacts]; exact hnothing, fun _ => ⟨data, ?_, h.of_same hsame⟩⟩
        rw [hacts]
        exact hpart
      · rw [heq]
        exact headersEnd_carries io hpart hdone (h.of_same (sameStage_counted t line))
  | body bytes answers =>
      show Carries B d (sent ++ bytes) (body t bytes answers)
      unfold body
      split
      · -- nothing is accepted here but nothing
        refine ⟨hnothing, fun hempty => ⟨data, hpart, ?_⟩⟩
        have hnil : bytes = [] := by simpa using hempty
        rw [hnil, List.append_nil]
        exact h
      · rename_i hopen
        split
        · exact ⟨hnothing, fun hok => nomatch hok⟩
        · have hstage : (t.headersDone = true ∧ t.position = data.length) ∧
              data ++ bytes <+: B ∧
              (∀ s, s = { t with
                  position := t.position + bytes.length
                  received := t.received + bytes.length } →
                Stage B s (sent ++ bytes) (data ++ bytes)) := by
            cases h.stage with
            | early done => simp [done] at hopen
            | zero done action status held position received limit =>
                refine ⟨⟨done, position⟩, ?_, ?_⟩
                · rw [held]
                  exact (hhonest done).1 status
                · rintro s rfl
                  exact .zero done action status (by rw [held]) (by simp [position])
                    (by simp [received]) limit
            | append done action status held position received limit =>
                refine ⟨⟨done, position⟩, ?_, ?_⟩
                · have hdelivered := (hhonest done).2 status
                  obtain ⟨rest, hrest⟩ := hdelivered
                  refine ⟨rest, ?_⟩
                  have hbytes : sent ++ (bytes ++ rest) = B.drop t.partialSize := by
                    rw [← List.append_assoc]
                    exact hrest
                  rw [held, List.append_assoc, List.append_assoc, hbytes,
                    List.take_append_drop]
                · rintro s rfl
                  exact .append done action status (by rw [held, List.append_assoc])
                    (by simp [position]) (by simp [received]) limit
            | refused done action =>
                rcases action with ha | ha
                · simp [done, ha] at hopen
                · simp [done, ha] at hopen
          obtain ⟨⟨_, hposition⟩, hnext, hafter⟩ := hstage
          obtain ⟨hkeeps, hwritten⟩ := keeps_writeAll answers hpart hposition hnext
          refine ⟨hkeeps, fun hok => ⟨data ++ bytes, (hwritten hok).1, ?_⟩⟩
          have htransfer := (hwritten hok).2
          refine ⟨?_, ?_, hnext, hafter _ htransfer⟩
          · rw [htransfer]
            exact h.expected
          · rw [htransfer]
            exact h.size

/-- The invariant of one transfer.  A callback that fails without an error has
refused a body, and the stage is that before it. -/
theorem callbacks_fits (cs : List Callback) (hpart : d.part = some ⟨true, data⟩)
    (h : Fits B t sent data) (hhonest : Honest B sent t cs) :
    Trace.Keeps perform (Growing B) d (callbacks t cs).acts ∧
      ((callbacks t cs).transfer.error.code = .none →
        ∃ sent' data', (d.run (callbacks t cs).acts).part = some ⟨true, data'⟩ ∧
          Fits B (callbacks t cs).transfer sent' data' ∧
          ((callbacks t cs).ok = true → sent' = sent ++ cs.flatMap payload)) := by
  induction cs generalizing t d sent data with
  | nil =>
      exact ⟨Trace.keeps_nil ⟨data, hpart, h.held⟩,
        fun _ => ⟨sent, data, hpart, h, fun _ => by simp⟩⟩
  | cons c cs ih =>
      obtain ⟨hkeeps, hgoes⟩ := callback_carries c hpart h hhonest.1
      unfold callbacks
      simp only
      by_cases hok : (callback t c).ok = true
      · rw [if_pos hok]
        obtain ⟨data', hpart', hfits'⟩ := hgoes hok
        have hrest := ih hpart' hfits' (hhonest.2 hok)
        refine ⟨hkeeps.append hrest.1, fun hnone => ?_⟩
        obtain ⟨sent', data', hpart', hfits', hsent⟩ := hrest.2 hnone
        refine ⟨sent', data', ?_, hfits', fun hend => ?_⟩
        · rw [run_append]
          exact hpart'
        · rw [hsent hend, List.flatMap_cons, List.append_assoc]
      · rw [if_neg hok]
        refine ⟨hkeeps, fun hnone => ?_⟩
        rcases (callback_spec t c).2 (by simpa using hok) with herror | hrefused
        · exact absurd hnone herror
        · rw [hrefused]
          exact ⟨sent, data, hpart, h, fun hend => by cases hend⟩

/-! ## The request loop -/

theorem fits_fresh (hsize : data.length ≤ B.length) (hheld : data <+: B) :
    Fits B (.fresh 0 data.length B.length) [] data := by
  refine ⟨rfl, hsize, hheld, .early rfl rfl ?_ rfl⟩
  exact List.prefix_iff_eq_take.mp hheld

/-- What a pass of the loop leaves: a prefix of the bundle, the whole bundle when
it is complete, and nothing at all when the loop goes around. -/
structure Passes (B : Bytes) (d : Disk) (r : Attempted) : Prop where
  keeps : Trace.Keeps perform (Growing B) d r.acts
  complete : r.verdict = .complete →
    (d.run r.acts).part = some ⟨true, B⟩ ∧ r.transfer.expected = B.length ∧
      r.transfer.error.code = .none
  again : r.verdict = .again →
    (d.run r.acts).part = some ⟨true, []⟩ ∧ r.transfer = .fresh 0 0 B.length

/-- After an answer 416. -/
theorem restart_passes (last : Bool) (reserve : Nat) (io : AttemptIo)
    (hpart : d.part = some ⟨true, data⟩) (h : Fits B t sent data)
    (herror : t.error.code = .none) (hdone : t.headersDone = true) :
    Passes B d (restart last reserve io t) := by
  have hnothing : Trace.Keeps perform (Growing B) d [] :=
    Trace.keeps_nil ⟨data, hpart, h.held⟩
  have htruncate := keeps_truncate hpart h.held
  have hwhole : t.action = .verify → data = B := by
    intro haction
    cases h.stage with
    | early done => rw [hdone] at done; cases done
    | zero done action => rw [haction] at action; cases action
    | append done action => rw [haction] at action; cases action
    | refused done action status none held whole =>
        rw [held, whole haction, List.take_length]
  unfold restart
  by_cases haction : t.action = .verify
  · rw [if_pos (by simp [haction])]
    refine ⟨hnothing, fun _ => ⟨?_, h.expected, herror⟩, fun hv => nomatch hv⟩
    rw [← hwhole haction]
    exact hpart
  · rw [if_neg (by simpa using haction)]
    simp only
    unfold resetFile
    split
    · -- the file is truncated
      simp only [Bool.not_true, Bool.false_eq_true, if_false]
      split
      · exact ⟨htruncate.1, (nomatch ·), (nomatch ·)⟩
      · refine ⟨htruncate.1, fun hv => ?_, fun hv => ⟨htruncate.2, ?_⟩⟩
        · split at hv
          · cases hv
          · cases hv
        · have hspace := (spaceAvailable_spec io.space reserve (.fresh 0 0 t.expected)).2
          split at hv
          · rename_i hok
            rw [← h.expected]
            exact hspace hok
          · cases hv
    · split
      · exact ⟨hnothing, (nomatch ·), (nomatch ·)⟩
      · exact ⟨htruncate.1, (nomatch ·), (nomatch ·)⟩
      · exact ⟨htruncate.1, (nomatch ·), (nomatch ·)⟩

/-- A transfer that received all it was to receive has left the bundle. -/
theorem Fits.whole (h : Fits B t sent data) (hdone : t.headersDone = true)
    (hstatus : t.status ≠ 416) (hreceived : t.received = t.limit) : data = B := by
  apply h.eq_of_length
  have hsize := h.size
  cases h.stage with
  | early done => rw [hdone] at done; cases done
  | zero done action status held position received limit => omega
  | append done action status held position received limit =>
      rw [held, List.length_append, List.length_take]
      omega
  | refused done action status => exact absurd status hstatus

/-- The end of a transfer keeps the part a prefix of the bundle. -/
theorem performed_passes (last : Bool) (reserve : Nat) (io : AttemptIo) (result : Nat)
    (hgrowing : Growing B d)
    (h : t.error.code = .none →
      ∃ sent data, d.part = some ⟨true, data⟩ ∧ Fits B t sent data) :
    Passes B d (performed last reserve io result t) := by
  have hnothing : Trace.Keeps perform (Growing B) d [] := Trace.keeps_nil hgrowing
  unfold performed
  by_cases herror : t.error.code = .none
  · obtain ⟨sent, data, hpart, hfits⟩ := h herror
    rw [if_neg (by simp [herror])]
    by_cases h416 : t.headersDone = true ∧ t.status = 416
    · rw [if_pos (by simp [h416.1, h416.2])]
      exact restart_passes last reserve io hpart hfits herror h416.1
    · rw [if_neg (by simpa using h416)]
      split
      · exact ⟨hnothing, (nomatch ·), (nomatch ·)⟩
      · split
        · exact ⟨hnothing, (nomatch ·), (nomatch ·)⟩
        · rename_i hended
          simp only [Bool.or_eq_true, Bool.not_eq_true', bne_iff_ne, ne_eq, not_or,
            Bool.not_eq_false, Decidable.not_not] at hended
          refine ⟨hnothing, fun _ => ⟨?_, hfits.expected, herror⟩, fun hv => nomatch hv⟩
          have hstatus : t.status ≠ 416 := fun hs => h416 ⟨hended.1, hs⟩
          rw [← hfits.whole hended.1 hstatus hended.2]
          exact hpart
  · rw [if_pos (by simpa using herror)]
    exact ⟨hnothing, (nomatch ·), (nomatch ·)⟩

theorem Passes.after {acts : List Act} {r : Attempted}
    (hkeeps : Trace.Keeps perform (Growing B) d acts) (h : Passes B (d.run acts) r) :
    Passes B d { r with acts := acts ++ r.acts } := by
  refine ⟨hkeeps.append h.keeps, fun hv => ?_, fun hv => ?_⟩
  · simp only [run_append]
    exact h.complete hv
  · simp only [run_append]
    exact h.again hv

/-- An attempt of an honest server keeps the part a prefix of the bundle. -/
theorem attempt_passes (config : OtaConfig) (m : OtaManifest) (last : Bool) (io : AttemptIo)
    (hpart : d.part = some ⟨true, data⟩) (h : Fits B t [] data)
    (hhonest : Honest B [] t io.response.callbacks) :
    Passes B d (attempt config m last io t) := by
  unfold attempt
  split
  · exact ⟨Trace.keeps_nil ⟨data, hpart, h.held⟩, (nomatch ·), (nomatch ·)⟩
  · obtain ⟨hkeeps, hfits⟩ := callbacks_fits io.response.callbacks hpart h hhonest
    refine (performed_passes last config.reserveBytes io _ hkeeps.last fun hnone => ?_).after hkeeps
    obtain ⟨sent, data, hend, hheld, -⟩ := hfits hnone
    exact ⟨sent, data, hend, hheld⟩

/-- The two requests of a call keep the part a prefix of the bundle. -/
theorem requests_passes (config : OtaConfig) (m : OtaManifest) (first second : AttemptIo)
    (hpart : d.part = some ⟨true, data⟩) (h : Fits B t [] data)
    (hfirst : Honest B [] t first.response.callbacks)
    (hsecond : Honest B [] (.fresh 0 0 B.length) second.response.callbacks) :
    Passes B d (requests config m first second t) := by
  have hpass := attempt_passes config m false first hpart h hfirst
  unfold requests
  simp only
  split
  · rename_i hagain
    obtain ⟨hempty, hfresh⟩ := hpass.again hagain
    have hfits : Fits B (attempt config m false first t).transfer [] [] := by
      rw [hfresh]
      exact fits_fresh (Nat.zero_le _) List.nil_prefix
    rw [← hfresh] at hsecond
    exact (attempt_passes config m true second hempty hfits hsecond).after hpass.keeps
  · exact hpass

end EdgeGuard.Agent.DownloadTransfer
