import EdgeGuard.Agent.Download

/-!
# What a download leaves behind

The bundle file changes in one place only, the rename at the end of
`ota_download_bundle`, and every way there leads through `verify`.

## Main results

* `bundle_verified_or_unchanged` — a successful download leaves the bytes of
  the manifest, a failed one the old bundle.
-/

namespace EdgeGuard.Agent.DownloadSafety

open EdgeGuard.Base EdgeGuard.Base.CText
open EdgeGuard.Agent.Model EdgeGuard.Agent.Release EdgeGuard.Agent.Download

/-! ## Acts that leave the bundle alone -/

@[simp] theorem run_nil (d : Disk) : d.run [] = d := rfl

@[simp] theorem run_append (d : Disk) (xs ys : List Act) :
    d.run (xs ++ ys) = (d.run xs).run ys := Trace.run_append perform d xs ys

@[simp] theorem run_cons (d : Disk) (a : Act) (acts : List Act) :
    d.run (a :: acts) = (perform d a).run acts := rfl

/-- Only the rename of the publication changes the bundle. -/
theorem bundle_of_unpublished {acts : List Act} (h : Act.publish ∉ acts) (d : Disk) :
    (d.run acts).bundle = d.bundle := by
  induction acts generalizing d with
  | nil => rfl
  | cons a acts ih =>
      rw [run_cons, ih fun hmem => h (by simp [hmem])]
      cases a with
      | publish => exact absurd (by simp) h
      | create => rfl
      | truncate => rfl
      | write offset bytes => rfl
      | discard => rfl

/-- The act changes nothing but the content of the partial file. -/
def InPlace : Act → Prop
  | .truncate => True
  | .write _ _ => True
  | _ => False

theorem unpublished_of_inPlace {acts : List Act} (h : ∀ a ∈ acts, InPlace a) :
    Act.publish ∉ acts := fun hmem => h _ hmem

/-- What every callback keeps: it changes only the content of the partial file,
the transfer stays one of the same size and offset, and it does not complain of a
wrong hash, nor of anything when it goes on. -/
structure Steady (t : Transfer) (r : Called) : Prop where
  inPlace : ∀ a ∈ r.acts, InPlace a
  expected : r.transfer.expected = t.expected
  partialSize : r.transfer.partialSize = t.partialSize
  hash : r.transfer.error.code = .downloadHashMismatch → t.error.code = .downloadHashMismatch
  quiet : r.ok = true → r.transfer.error = t.error

/-- A step that names an error whenever it fails. -/
structure Reported (t : Transfer) (r : Called) : Prop extends Steady t r where
  failed : r.ok = false → r.transfer.error.code ≠ .none

theorem reported_goesOn (t : Transfer) : Reported t t.goesOn :=
  ⟨⟨by simp [Transfer.goesOn], rfl, rfl, id, fun _ => rfl⟩, (nomatch ·)⟩

theorem reported_fails (t : Transfer) {code : OtaErrorCode} (message : Bytes)
    (h : code ≠ .downloadHashMismatch ∧ code ≠ .none) : Reported t (t.fails code message) :=
  ⟨⟨by simp [Transfer.fails], rfl, rfl, fun hcode => absurd hcode h.1, (nomatch ·)⟩,
    fun _ => h.2⟩

theorem diskError_code (t : Transfer) (action : Bytes) (errno : Errno) :
    (diskError t action errno).error.code ≠ .downloadHashMismatch ∧
      (diskError t action errno).error.code ≠ .none := by
  unfold diskError
  cases errno.noSpace with
  | true => exact ⟨(nomatch ·), (nomatch ·)⟩
  | false => exact ⟨(nomatch ·), (nomatch ·)⟩

/-- A failed file operation, with what was done before it. -/
theorem reported_diskError (t : Transfer) (action : Bytes) (errno : Errno) {acts : List Act}
    (h : ∀ a ∈ acts, InPlace a) : Reported t ⟨diskError t action errno, acts, false⟩ :=
  ⟨⟨h, rfl, rfl, fun hcode => absurd hcode (diskError_code t action errno).1, (nomatch ·)⟩,
    fun _ => (diskError_code t action errno).2⟩

theorem reported_resetFile (fault : Option (ResetStep × Errno)) (t : Transfer) :
    Reported t (resetFile fault t) := by
  unfold resetFile
  split
  · exact ⟨⟨by simp [InPlace], rfl, rfl, id, fun _ => rfl⟩, (nomatch ·)⟩
  · rename_i step errno
    have hcode := diskError_code t (ascii "Reset partial file") errno
    split
    · exact reported_diskError t _ _ (by simp)
    · exact reported_diskError t _ _ (by simp [InPlace])
    · exact ⟨⟨by simp [InPlace], rfl, rfl, fun h => absurd h hcode.1, (nomatch ·)⟩,
        fun _ => hcode.2⟩

theorem reported_acceptBody (io : HeaderIo) (t : Transfer) : Reported t (acceptBody io t) := by
  unfold acceptBody
  split
  · exact reported_fails t _ (by decide)
  · split
    · exact reported_resetFile _ t
    · split
      · exact reported_diskError t _ _ (by simp)
      · exact ⟨⟨by simp [Transfer.goesOn], rfl, rfl, id, fun _ => rfl⟩, (nomatch ·)⟩

/-- A step that begins by changing other fields of the transfer. -/
theorem Reported.of_eq {t s : Transfer} {r : Called} (h : Reported s r)
    (hexpected : s.expected = t.expected) (hpart : s.partialSize = t.partialSize)
    (herror : s.error = t.error) : Reported t r :=
  ⟨⟨h.inPlace, h.expected.trans hexpected, h.partialSize.trans hpart,
    fun hcode => herror ▸ h.hash hcode, fun hok => (h.quiet hok).trans herror⟩, h.failed⟩

theorem response_code {partialSize expected status : Nat} {range : Option Bytes}
    {error : OtaError} (h : otaDownloadResponse partialSize expected status range = .error error) :
    error.code ≠ .downloadHashMismatch ∧ error.code ≠ .none := by
  have hcases : error = rangeMismatch ∨
      error = otaErrorSet .downloadHttp (ascii "Bundle HTTP " ++ decimal status) := by
    unfold otaDownloadResponse at h
    grind
  rcases hcases with rfl | rfl
  · exact ⟨(nomatch ·), (nomatch ·)⟩
  · exact ⟨(nomatch ·), (nomatch ·)⟩

/-- Every way out of the header callback reports its error. -/
theorem reported_headers (t : Transfer) (data : Bytes) (io : HeaderIo) :
    Reported t (headers t data io) := by
  unfold headers
  split
  · exact reported_fails t _ (by decide)
  · refine Reported.of_eq (s := { t with headerBytes := t.headerBytes + data.length })
      ?_ rfl rfl rfl
    generalize { t with headerBytes := t.headerBytes + data.length } = t
    simp only
    split
    · unfold statusLine
      split
      · exact reported_fails t _ (by decide)
      · split
        · exact reported_fails t _ (by decide)
        · exact (reported_goesOn _).of_eq rfl rfl rfl
    · split
      · exact reported_goesOn t
      · split
        · unfold headersEnd
          split
          · exact reported_goesOn t
          · split
            · rename_i error hresponse
              have hcode := response_code hresponse
              exact ⟨⟨by simp, rfl, rfl, fun h => absurd h hcode.1, (nomatch ·)⟩,
                fun _ => hcode.2⟩
            · exact (reported_acceptBody io _).of_eq rfl rfl rfl
            · exact (reported_acceptBody io _).of_eq rfl rfl rfl
            · exact (reported_goesOn _).of_eq rfl rfl rfl
        · split
          · exact reported_fails t _ (by decide)
          · unfold headerField
            split
            · split
              · exact reported_fails t _ (by decide)
              · exact (reported_goesOn _).of_eq rfl rfl rfl
            · split
              · split
                · exact (reported_goesOn _).of_eq rfl rfl rfl
                · exact reported_fails t _ (by decide)
              · split
                · split
                  · exact reported_fails t _ (by decide)
                  · exact (reported_goesOn _).of_eq rfl rfl rfl
                · exact reported_goesOn t

/-- Every way out of a write reports its error. -/
theorem reported_writeAll (t : Transfer) (answers : List WriteAnswer) (data : Bytes) :
    Reported t (writeAll t answers data) := by
  induction answers generalizing t data with
  | nil =>
      cases data with
      | nil => exact reported_goesOn t
      | cons b data =>
          exact ⟨⟨by simp [writeAll, InPlace], rfl, rfl, id, fun _ => rfl⟩, (nomatch ·)⟩
  | cons answer answers ih =>
      cases data with
      | nil => exact reported_goesOn t
      | cons b data =>
          cases answer with
          | failed errno => exact reported_diskError t _ _ (by simp)
          | wrote count =>
              unfold writeAll
              split
              · exact reported_diskError t _ _ (by simp)
              · have hrest := ih
                  { t with
                    position := t.position + ((b :: data).take count).length
                    received := t.received + ((b :: data).take count).length }
                  ((b :: data).drop count)
                exact ⟨⟨by simpa [InPlace] using hrest.inPlace, hrest.expected,
                  hrest.partialSize, hrest.hash, hrest.quiet⟩, hrest.failed⟩

/-- A callback names an error when it fails, or it has refused a body and done
nothing. -/
theorem callback_spec (t : Transfer) (c : Callback) :
    Steady t (callback t c) ∧
      ((callback t c).ok = false →
        (callback t c).transfer.error.code ≠ .none ∨ callback t c = ⟨t, [], false⟩) := by
  cases c with
  | header data io =>
      have h := reported_headers t data io
      exact ⟨h.toSteady, fun hfailed => .inl (h.failed hfailed)⟩
  | body data answers =>
      show Steady t (body t data answers) ∧ ((body t data answers).ok = false →
        (body t data answers).transfer.error.code ≠ .none ∨
          body t data answers = ⟨t, [], false⟩)
      have hreported : ∀ r, Reported t r → Steady t r ∧ (r.ok = false →
          r.transfer.error.code ≠ .none ∨ r = ⟨t, [], false⟩) :=
        fun r h => ⟨h.toSteady, fun hfailed => .inl (h.failed hfailed)⟩
      unfold body
      split
      · exact ⟨⟨by simp, rfl, rfl, id, fun _ => rfl⟩,
          fun hempty => .inr (by simpa using hempty)⟩
      · split
        · exact hreported _ (reported_fails t _ (by decide))
        · exact hreported _ (reported_writeAll t answers data)

/-- Any sequence of callbacks leaves the bundle and the expected size. -/
theorem steady_callbacks (t : Transfer) (cs : List Callback) : Steady t (callbacks t cs) := by
  induction cs generalizing t with
  | nil => exact (reported_goesOn t).toSteady
  | cons c cs ih =>
      have hfirst := (callback_spec t c).1
      unfold callbacks
      simp only
      split
      · have hrest := ih (callback t c).transfer
        refine ⟨?_, hrest.expected.trans hfirst.expected,
          hrest.partialSize.trans hfirst.partialSize, hfirst.hash ∘ hrest.hash,
          fun hok => (hrest.quiet hok).trans (hfirst.quiet ‹_›)⟩
        intro a ha
        rcases List.mem_append.mp ha with ha | ha
        · exact hfirst.inPlace a ha
        · exact hrest.inPlace a ha
      · exact hfirst

/-- The check of the space changes nothing when it passes. -/
theorem spaceAvailable_spec (answer : SpaceAnswer) (reserve : Nat) (t : Transfer) :
    Reported t (spaceAvailable answer reserve t) ∧
      ((spaceAvailable answer reserve t).ok = true →
        (spaceAvailable answer reserve t).transfer = t) := by
  unfold spaceAvailable
  split
  · exact ⟨reported_diskError t _ _ (by simp), (nomatch ·)⟩
  · rename_i unit available
    simp only
    generalize (if unit != 0 && uint64Max / unit < available then uint64Max
      else available * unit) = bytes
    split
    · exact ⟨reported_fails t _ (by decide), (nomatch ·)⟩
    · exact ⟨reported_goesOn t, fun _ => rfl⟩

/-! ## The request loop -/

/-- What a pass of the loop keeps. -/
structure SteadyPass (t : Transfer) (r : Attempted) : Prop where
  inPlace : ∀ a ∈ r.acts, InPlace a
  expected : r.transfer.expected = t.expected
  hash : r.transfer.error.code = .downloadHashMismatch → t.error.code = .downloadHashMismatch

/-- What curl reports at the end leaves the bundle and the expected size. -/
private theorem performed_steady (last : Bool) (reserve : Nat) (io : AttemptIo) (result : Nat)
    (t : Transfer) : SteadyPass t (performed last reserve io result t) := by
  unfold performed
  split
  · exact ⟨by simp, rfl, id⟩
  · split
    · have hreset := reported_resetFile io.reset t
      unfold restart
      split
      · exact ⟨by simp, rfl, id⟩
      · simp only
        split
        · exact ⟨hreset.inPlace, hreset.expected, hreset.hash⟩
        · split
          · exact ⟨hreset.inPlace, hreset.expected, fun h => nomatch h⟩
          · have hspace := (spaceAvailable_spec io.space reserve
              (.fresh (resetFile io.reset t).transfer.position 0 t.expected)).1
            exact ⟨hreset.inPlace, hspace.expected, fun h => nomatch hspace.hash h⟩
    · split
      · exact ⟨by simp, rfl, fun h => nomatch h⟩
      · split
        · exact ⟨by simp, rfl, fun h => nomatch h⟩
        · exact ⟨by simp, rfl, id⟩

/-- A whole attempt leaves the bundle and the expected size. -/
private theorem attempt_steady (config : OtaConfig) (m : OtaManifest) (last : Bool)
    (io : AttemptIo) (t : Transfer) : SteadyPass t (attempt config m last io t) := by
  unfold attempt
  split
  · rename_i error hopen
    refine ⟨by simp, rfl, fun h => ?_⟩
    have herror : error = otaErrorSet .downloadHttp
        (ascii "Cannot initialize bounded HTTP request") := by
      unfold otaHttpOpen at hopen
      split at hopen
      · cases hopen
      · exact (Except.error.inj hopen).symm
    rw [herror] at h
    cases h
  · have hcalled := steady_callbacks t io.response.callbacks
    have hperformed := performed_steady last config.reserveBytes io
      (if (callbacks t io.response.callbacks).ok then io.response.result else curlWriteError)
      (callbacks t io.response.callbacks).transfer
    refine ⟨?_, hperformed.expected.trans hcalled.expected, hcalled.hash ∘ hperformed.hash⟩
    intro a ha
    rcases List.mem_append.mp ha with ha | ha
    · exact hcalled.inPlace a ha
    · exact hperformed.inPlace a ha

/-- Both requests of a call leave the bundle and the expected size. -/
theorem requests_steady (config : OtaConfig) (m : OtaManifest) (first second : AttemptIo)
    (t : Transfer) : SteadyPass t (requests config m first second t) := by
  have hfirst := attempt_steady config m false first t
  have hsecond := attempt_steady config m true second (attempt config m false first t).transfer
  unfold requests
  simp only
  split
  · refine ⟨?_, hsecond.expected.trans hfirst.expected, hfirst.hash ∘ hsecond.hash⟩
    intro a ha
    rcases List.mem_append.mp ha with ha | ha
    · exact hfirst.inPlace a ha
    · exact hsecond.inPlace a ha
  · exact hfirst

/-! ## The end of a download -/

/-- The content is the bundle of the manifest. -/
def Verified (sha256 : Bytes → Bytes) (m : OtaManifest) (data : Bytes) : Prop :=
  data.length = m.size ∧ sha256 data = m.sha256

/-- What `verify` does: nothing but throw a wrong file away, and it passes only the
bytes that hash right. -/
theorem verify_spec (sha256 : Bytes → Bytes) (io : VerifyIo) (hash data : Bytes)
    (t : Transfer) :
    (∀ a ∈ (verify sha256 io hash data t).acts, InPlace a) ∧
      ((verify sha256 io hash data t).ok = true →
        data.length = t.expected ∧ sha256 data = hash) ∧
      (sha256 data = hash → Steady t (verify sha256 io hash data t)) := by
  unfold verify
  split
  · exact ⟨by simp, by simp, fun _ => (reported_diskError t _ _ (by simp)).toSteady⟩
  · split
    · exact ⟨by simp [Transfer.fails], by simp [Transfer.fails],
        fun _ => (reported_fails t _ (by decide)).toSteady⟩
    · rename_i hlength
      split
      · exact ⟨by simp, by simp, fun _ => (reported_diskError t _ _ (by simp)).toSteady⟩
      · exact ⟨by simp, by simp, fun _ => (reported_diskError t _ _ (by simp)).toSteady⟩
      · split
        · rename_i hhash
          have hwrong : sha256 data ≠ hash := by simpa using hhash
          have hreset := reported_resetFile io.reset t
          simp only
          split
          · exact ⟨hreset.inPlace, by simp [Transfer.fails], fun h => absurd h hwrong⟩
          · rename_i hfailed
            exact ⟨hreset.inPlace, fun hok => absurd hok hfailed, fun h => absurd h hwrong⟩
        · rename_i hhash
          exact ⟨by simp [Transfer.goesOn],
            fun _ => ⟨by simpa using hlength, by simpa using hhash⟩,
            fun _ => (reported_goesOn t).toSteady⟩

theorem giveUp_eq (flush : Option Errno) (retryable : Bool) (t : Transfer) (acts : List Act) :
    (giveUp flush retryable t acts).acts = acts ∧
      ∃ failure, (giveUp flush retryable t acts).result = .error failure := by
  unfold giveUp
  split
  · split
    · exact ⟨rfl, _, rfl⟩
    · exact ⟨rfl, _, rfl⟩
  · exact ⟨rfl, _, rfl⟩

/-- The acts and the result of a download on `d`, as far as the bundle goes: it is
published once its bytes are verified, or it stays. -/
def Settles (sha256 : Bytes → Bytes) (m : OtaManifest) (io : DownloadIo) (d : Disk)
    (r : DownloadReply) : Prop :=
  (r.result = .ok () →
    ∃ file, (d.run r.acts).bundle = some file ∧ Verified sha256 m file.data) ∧
  (∀ failure, r.result = .error failure →
    (d.run r.acts).bundle = d.bundle ∨
      (Act.publish ∈ r.acts ∧ (∃ errno, io.publish = some (.directorySync, errno)) ∧
        ∃ file, (d.run r.acts).bundle = some file ∧ Verified sha256 m file.data))

/-- What is given up before the publication leaves the bundle. -/
private theorem settles_giveUp {sha256 : Bytes → Bytes} {m : OtaManifest} {io : DownloadIo}
    {d : Disk} (flush : Option Errno) (retryable : Bool) (t : Transfer) {acts : List Act}
    (h : Act.publish ∉ acts) : Settles sha256 m io d (giveUp flush retryable t acts) := by
  obtain ⟨hacts, failure, hresult⟩ := giveUp_eq flush retryable t acts
  constructor
  · intro hok
    rw [hresult] at hok
    cases hok
  · intro _ _
    left
    rw [hacts]
    exact bundle_of_unpublished h d

/-- What is done before a download that settles does not change how it ends. -/
private theorem settles_after {sha256 : Bytes → Bytes} {m : OtaManifest} {io : DownloadIo}
    {d : Disk} {acts : List Act} {r : DownloadReply} (h : Act.publish ∉ acts)
    (hr : Settles sha256 m io (d.run acts) r) :
    Settles sha256 m io d { r with acts := acts ++ r.acts } := by
  have hbundle := bundle_of_unpublished h d
  constructor
  · intro hok
    rw [run_append]
    exact hr.1 hok
  · intro failure herror
    rw [run_append]
    rcases hr.2 failure herror with hsame | ⟨hmem, hfault, hfile⟩
    · exact .inl (hsame.trans hbundle)
    · exact .inr ⟨List.mem_append_right _ hmem, hfault, hfile⟩

/-- The bundle is replaced by a part whose size and digest were compared, or it is left. -/
private theorem settles_complete {sha256 : Bytes → Bytes} {m : OtaManifest} {io : DownloadIo}
    {d : Disk} {t : Transfer} {file : File} (hpart : d.part = some file)
    (hexpected : t.expected = m.size) :
    Settles sha256 m io d (complete sha256 m io d.partData t) := by
  obtain ⟨hverify, hverified, -⟩ := verify_spec sha256 io.verify m.sha256 d.partData t
  have hdata : d.partData = file.data := by simp [Disk.partData, hpart]
  have hbundle : (d.run [.publish]).bundle = some file := by simpa [perform] using hpart
  unfold complete
  simp only
  split
  · exact settles_giveUp _ _ _ (unpublished_of_inPlace hverify)
  · rename_i hok
    have hfile : Verified sha256 m file.data := by
      have h := hverified (by simpa using hok)
      rw [hdata, hexpected] at h
      exact h
    unfold publish
    split
    · exact ⟨fun _ => ⟨file, hbundle, hfile⟩, fun failure herror => by cases herror⟩
    · exact settles_giveUp _ _ _ (by simp)
    · rename_i step errno _ hfault
      simp only [Bool.false_eq_true, if_false]
      by_cases hstep : step = .directorySync
      · subst hstep
        obtain ⟨hacts, failure, hresult⟩ := giveUp_eq io.flush false
          (diskError (verify sha256 io.verify m.sha256 d.partData t).transfer
            (ascii "Durably publish verified bundle") errno) [.publish]
        constructor
        · intro hok
          rw [if_pos (by rfl), hresult] at hok
          cases hok
        · intro _ _
          rw [if_pos (by rfl), hacts]
          exact .inr ⟨by simp, ⟨errno, hfault⟩, file, hbundle, hfile⟩
      · rw [if_neg (by simpa using hstep)]
        exact settles_giveUp _ _ _ (by simp)

/-- The acts of a transfer do not remove the partial file. -/
theorem part_of_inPlace {acts : List Act} (h : ∀ a ∈ acts, InPlace a) {d : Disk} {file : File}
    (hpart : d.part = some file) :
    ∃ data, (d.run acts).part = some { file with data } := by
  induction acts generalizing d file with
  | nil => exact ⟨file.data, hpart⟩
  | cons a acts ih =>
      have hrest : ∀ b ∈ acts, InPlace b := fun b hb => h b (by simp [hb])
      have hfirst : ∃ data, (perform d a).part = some { file with data } := by
        have ha := h a (by simp)
        cases a with
        | truncate => exact ⟨[], by simp [perform, hpart]⟩
        | write offset bytes =>
            exact ⟨writeAt file.data offset bytes, by simp [perform, hpart]⟩
        | create => exact ha.elim
        | discard => exact ha.elim
        | publish => exact ha.elim
      obtain ⟨data, hdata⟩ := hfirst
      obtain ⟨data', hdata'⟩ := ih hrest hdata
      exact ⟨data', hdata'⟩

theorem startTransfer_inPlace (fault : Option (ResetStep × Errno)) (size expected : Nat) :
    (∀ a ∈ (startTransfer fault size expected).acts, InPlace a) ∧
      (startTransfer fault size expected).transfer.expected = expected := by
  have hreset := reported_resetFile fault (.fresh 0 size expected)
  unfold startTransfer
  simp only
  split
  · split
    · exact ⟨hreset.inPlace, hreset.expected⟩
    · exact ⟨hreset.inPlace, hreset.expected⟩
  · exact ⟨by simp [Transfer.goesOn], rfl⟩

private theorem settles_completed {sha256 : Bytes → Bytes} {m : OtaManifest} {io : DownloadIo}
    {d : Disk} {file : File} (hpart : d.part = some file) {acts : List Act}
    (hacts : ∀ a ∈ acts, InPlace a) {t : Transfer} (hexpected : t.expected = m.size) :
    Settles sha256 m io d
      { complete sha256 m io (d.run acts).partData t with
        acts := acts ++ (complete sha256 m io (d.run acts).partData t).acts } := by
  obtain ⟨data, hdata⟩ := part_of_inPlace hacts hpart
  exact settles_after (unpublished_of_inPlace hacts) (settles_complete hdata hexpected)

/-- The transfer publishes a verified part, or leaves the bundle. -/
private theorem settles_transferBundle {sha256 : Bytes → Bytes} (config : OtaConfig)
    {m : OtaManifest} {io : DownloadIo} {d : Disk} {file : File} (hpart : d.part = some file) :
    Settles sha256 m io d (transferBundle sha256 config m io d) := by
  obtain ⟨hstart, hexpected⟩ := startTransfer_inPlace io.reset d.partData.length m.size
  unfold transferBundle
  simp only
  generalize startTransfer io.reset d.partData.length m.size = r at hstart hexpected ⊢
  have hspace := (spaceAvailable_spec io.space config.reserveBytes r.transfer).1
  generalize spaceAvailable io.space config.reserveBytes r.transfer = s at hspace ⊢
  have hrequests := requests_steady config m io.first io.second s.transfer
  generalize requests config m io.first io.second s.transfer = q at hrequests ⊢
  have hacts : ∀ a ∈ r.acts ++ q.acts, InPlace a := by
    intro a ha
    rcases List.mem_append.mp ha with ha | ha
    · exact hstart a ha
    · exact hrequests.inPlace a ha
  have hwhole : q.transfer.expected = m.size :=
    hrequests.expected.trans (hspace.expected.trans hexpected)
  split
  · exact settles_giveUp _ _ _ (unpublished_of_inPlace hstart)
  · split
    · exact settles_completed hpart hstart hexpected
    · split
      · exact settles_giveUp _ _ _ (unpublished_of_inPlace hstart)
      · split
        · exact settles_completed hpart hacts hwhole
        · exact settles_giveUp _ _ _ (unpublished_of_inPlace hacts)
        · exact settles_giveUp _ _ _ (unpublished_of_inPlace hacts)

/-- The download behind its checks publishes a verified part, or leaves the bundle. -/
private theorem settles_downloadPart {sha256 : Bytes → Bytes} (config : OtaConfig)
    {m : OtaManifest} {io : DownloadIo} {d : Disk} :
    Settles sha256 m io d (downloadPart sha256 config m io d) := by
  have hcreated : Act.publish ∉ (if d.part.isNone then [Act.create] else []) := by
    split
    · simp
    · simp
  have hopened : ∃ file, (d.run (if d.part.isNone then [Act.create] else [])).part =
      some file := by
    cases hpart : d.part with
    | none => exact ⟨⟨true, []⟩, rfl⟩
    | some file => exact ⟨file, hpart⟩
  unfold downloadPart
  simp only
  generalize (if d.part.isNone then [Act.create] else []) = created at hcreated hopened ⊢
  obtain ⟨file, hfile⟩ := hopened
  split
  · exact settles_giveUp _ _ _ (by simp)
  · exact settles_giveUp _ _ _ hcreated
  · split
    · exact settles_giveUp _ _ _ hcreated
    · split
      · exact settles_giveUp _ _ _ hcreated
      · exact settles_after hcreated (settles_transferBundle config hfile)

/-- A bundle that validates is there and has the digest of the manifest. -/
theorem valid_of_validateBundlePath {sha256 : Bytes → Bytes}
    {fault : Option (BundleStep × Errno)} {m : OtaManifest} {bundle : Option File}
    (h : validateBundlePath sha256 fault m bundle = .valid) :
    ∃ file, bundle = some file ∧ Verified sha256 m file.data := by
  unfold validateBundlePath at h
  split at h
  · cases h
  · cases h
  · rename_i file _
    split at h
    · cases h
    · split at h
      · cases h
      · rename_i hsize
        split at h
        · cases h
        · split at h
          · rename_i hhash
            exact ⟨file, rfl, by simpa using hsize, by simpa using hhash⟩
          · cases h

/-- A discard publishes nothing. -/
theorem discard_unpublished (config : OtaConfig) (fault : Option (DiscardStep × Errno))
    (part : Option File) : Act.publish ∉ (otaDownloadDiscardPartial config fault part).1 := by
  unfold otaDownloadDiscardPartial
  split
  · simp
  · split
    · simp
    · simp
    · split
      · simp
      · split
        · simp
        · simp only
          split
          · simp
          · simp

/-- For any manifest, any contents of the two files, any callbacks and transport
results and any failing file operation: success means that the bundle holds the
bytes of the manifest, and a failure leaves it as it was, unless the rename was
done and only the sync of the directory failed. -/
theorem bundle_verified_or_unchanged (sha256 : Bytes → Bytes) (config : OtaConfig)
    (m : OtaManifest) (io : DownloadIo) (d : Disk) :
    let r := otaDownloadBundle sha256 config m io d
    (r.result = .ok () → ∃ file, (d.run r.acts).bundle = some file ∧
      file.data.length = m.size ∧ sha256 file.data = m.sha256) ∧
    (∀ failure, r.result = .error failure →
      (d.run r.acts).bundle = d.bundle ∨
        (Act.publish ∈ r.acts ∧ (∃ errno, io.publish = some (.directorySync, errno)) ∧
          ∃ file, (d.run r.acts).bundle = some file ∧
            file.data.length = m.size ∧ sha256 file.data = m.sha256)) := by
  show Settles sha256 m io d (otaDownloadBundle sha256 config m io d)
  have hrefused : ∀ failure, Settles sha256 m io d ⟨[], .error failure⟩ := by
    intro failure
    constructor
    · intro hok
      cases hok
    · exact fun _ _ => .inl rfl
  unfold otaDownloadBundle
  split
  · exact hrefused _
  · split
    · exact hrefused _
    · split
      · rename_i hvalid
        obtain ⟨file, hbundle, hverified⟩ := valid_of_validateBundlePath hvalid
        have hkept := bundle_of_unpublished (discard_unpublished config io.discard d.part) d
        exact ⟨fun _ => ⟨file, hkept.trans hbundle, hverified⟩, fun _ _ => .inl hkept⟩
      · exact settles_downloadPart config
      · split
        · exact settles_downloadPart config
        · exact hrefused _

end EdgeGuard.Agent.DownloadSafety
