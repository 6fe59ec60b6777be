import EdgeGuard.Agent.DownloadTransfer

/-!
# Downloads that are resumed

The partial file over any sequence of calls of `ota_download_bundle`, each of which
the transport or the death of the process may interrupt anywhere.

## Main results

* `resume_keeps_received` — the partial file stays a prefix of the bundle until it
  becomes the bundle, and a call whose transfer completes succeeds.
-/

namespace EdgeGuard.Agent.DownloadResume

open EdgeGuard.Base EdgeGuard.Base.CText
open EdgeGuard.Agent.Model EdgeGuard.Agent.Release EdgeGuard.Agent.Download
open EdgeGuard.Agent.DownloadSafety EdgeGuard.Agent.DownloadTransfer

variable {B sent data : Bytes} {t : Transfer} {d : Disk}

/-! ## The end of a call -/

/-- The bundle has been published: the partial file has become the bundle. -/
def Published (B : Bytes) (d : Disk) : Prop := d.part = none ∧ d.bundle = some ⟨true, B⟩

/-- The download goes on, beside the bundle it began with, or it is done. -/
def Held (B : Bytes) (bundle : Option File) (d : Disk) : Prop :=
  Growing B d ∧ d.bundle = bundle ∨ Published B d

/-- What a call leaves: at every moment a prefix of the bundle or the bundle, and
no complaint of a wrong hash. -/
structure Continues (Inv : Disk → Prop) (d : Disk) (r : DownloadReply) : Prop where
  keeps : Trace.Keeps perform Inv d r.acts
  hash : ∀ retryable error, r.result = .error (retryable, error) →
    error.code ≠ .downloadHashMismatch

/-- Giving up adds no act to those that kept the invariant, and reports no mismatch. -/
theorem giveUp_continues {Inv : Disk → Prop} (flush : Option Errno) (retryable : Bool)
    {acts : List Act} (hkeeps : Trace.Keeps perform Inv d acts)
    (hcode : t.error.code ≠ .downloadHashMismatch) :
    Continues Inv d (giveUp flush retryable t acts) := by
  unfold giveUp
  split
  · rename_i errno
    split
    · refine ⟨hkeeps, fun _ error herror => ?_⟩
      cases herror
      exact (diskError_code t _ errno).1
    · refine ⟨hkeeps, fun _ error herror => ?_⟩
      cases herror
      exact hcode
  · refine ⟨hkeeps, fun _ error herror => ?_⟩
    cases herror
    exact hcode

theorem Continues.after {Inv : Disk → Prop} {acts : List Act} {r : DownloadReply}
    (hkeeps : Trace.Keeps perform Inv d acts) (h : Continues Inv (d.run acts) r) :
    Continues Inv d { r with acts := acts ++ r.acts } := ⟨hkeeps.append h.keeps, h.hash⟩

/-- Acts on the content alone keep the bundle that is there. -/
theorem held_of_growing {acts : List Act} (hinPlace : ∀ a ∈ acts, InPlace a)
    (hkeeps : Trace.Keeps perform (Growing B) d acts) :
    Trace.Keeps perform (Held B d.bundle) d acts := by
  intro n
  have hsome : ∀ a ∈ acts.take n, InPlace a := fun a ha => hinPlace a (List.mem_of_mem_take ha)
  exact .inl ⟨hkeeps n, bundle_of_unpublished (unpublished_of_inPlace hsome) d⟩

/-- `verify` on the bytes of the bundle throws nothing away. -/
theorem verify_right {sha256 : Bytes → Bytes} {hash : Bytes} (io : VerifyIo)
    (hhash : sha256 data = hash) :
    (verify sha256 io hash data t).acts = [] ∧
      (io.inspect = none → io.seek = none → io.read = none → data.length = t.expected →
        verify sha256 io hash data t = t.goesOn) := by
  unfold verify
  split
  · rename_i errno hinspect
    exact ⟨rfl, fun h => by rw [hinspect] at h; cases h⟩
  · split
    · rename_i hlength
      exact ⟨rfl, fun _ _ _ h => absurd h (by simpa using hlength)⟩
    · split
      · rename_i hseek
        exact ⟨rfl, fun _ h => by rw [hseek] at h; cases h⟩
      · rename_i hread
        exact ⟨rfl, fun _ _ h => by rw [hread] at h; cases h⟩
      · rw [if_neg (by simp [hhash])]
        exact ⟨rfl, fun _ _ _ _ => rfl⟩

variable {sha256 : Bytes → Bytes} {m : OtaManifest}

/-- Completing leaves the received bundle where it is, or publishes it. -/
theorem complete_continues (hsha256 : sha256 B = m.sha256) (io : DownloadIo)
    (hpart : d.part = some ⟨true, B⟩) (herror : t.error.code = .none) :
    Continues (Held B d.bundle) d (complete sha256 m io d.partData t) := by
  have hdata : d.partData = B := by simp [Disk.partData, hpart]
  have hsteady := (verify_spec sha256 io.verify m.sha256 B t).2.2 hsha256
  have hacts := (verify_right (t := t) io.verify hsha256).1
  have hcode : (verify sha256 io.verify m.sha256 B t).transfer.error.code ≠
      .downloadHashMismatch := fun h => by
    rw [hsteady.hash h] at herror
    cases herror
  have hheld : Held B d.bundle d := .inl ⟨⟨B, hpart, List.prefix_rfl⟩, rfl⟩
  have hnothing : Trace.Keeps perform (Held B d.bundle) d [] := Trace.keeps_nil hheld
  have hpublish : Trace.Keeps perform (Held B d.bundle) d [.publish] :=
    Trace.keeps_cons hheld (Trace.keeps_nil (.inr ⟨rfl, hpart⟩))
  unfold complete
  rw [hdata]
  simp only
  split
  · rw [hacts]
    exact giveUp_continues _ _ hnothing hcode
  · unfold publish
    split
    · exact ⟨hpublish, fun _ _ h => by cases h⟩
    · exact giveUp_continues _ _ hnothing (diskError_code _ _ _).1
    · simp only [Bool.false_eq_true, if_false]
      refine giveUp_continues _ _ ?_ (diskError_code _ _ _).1
      split
      · exact hpublish
      · exact hnothing

/-- The server is honest in both requests of a call. -/
def HonestIo (B : Bytes) (m : OtaManifest) (d : Disk) (io : DownloadIo) : Prop :=
  Honest B [] (.fresh 0 d.partData.length m.size) io.first.response.callbacks ∧
    Honest B [] (.fresh 0 0 m.size) io.second.response.callbacks

instance (B : Bytes) (m : OtaManifest) (d : Disk) (io : DownloadIo) :
    Decidable (HonestIo B m d io) := inferInstanceAs (Decidable (_ ∧ _))

/-- The transfer begins behind what the partial file holds. -/
theorem startTransfer_growing (fault : Option (ResetStep × Errno)) (hsize : B.length = m.size)
    (hpart : d.part = some ⟨true, data⟩) (hheld : data <+: B) :
    startTransfer fault d.partData.length m.size =
      Transfer.goesOn (.fresh 0 data.length m.size) := by
  have hdata : d.partData = data := by simp [Disk.partData, hpart]
  have hlength := hheld.length_le
  unfold startTransfer
  simp only
  rw [hdata, if_neg (by omega)]

/-- The call from there on. -/
theorem transferBundle_growing (config : OtaConfig) (io : DownloadIo) (hsize : B.length = m.size)
    (hpart : d.part = some ⟨true, data⟩) (hheld : data <+: B) :
    transferBundle sha256 config m io d =
      if data.length == m.size then
        complete sha256 m io d.partData (.fresh 0 data.length m.size)
      else
        let s := spaceAvailable io.space config.reserveBytes (.fresh 0 data.length m.size)
        if !s.ok then giveUp io.flush false s.transfer []
        else
          let q := requests config m io.first io.second s.transfer
          match q.verdict with
          | .complete =>
              let c := complete sha256 m io (d.run q.acts).partData q.transfer
              { c with acts := q.acts ++ c.acts }
          | .done retryable => giveUp io.flush retryable q.transfer q.acts
          | .again => giveUp io.flush false q.transfer q.acts := by
  unfold transferBundle
  rw [startTransfer_growing io.reset hsize hpart hheld]
  rfl

/-- The transfer keeps the received prefix until it is published. -/
theorem transferBundle_continues (config : OtaConfig) (io : DownloadIo)
    (hsize : B.length = m.size) (hsha256 : sha256 B = m.sha256) (hgrowing : Growing B d)
    (hhonest : HonestIo B m d io) :
    Continues (Held B d.bundle) d (transferBundle sha256 config m io d) := by
  obtain ⟨data, hpart, hheld⟩ := hgrowing
  have hdata : d.partData = data := by simp [Disk.partData, hpart]
  have hlength := hheld.length_le
  have hnothing : Trace.Keeps perform (Held B d.bundle) d [] :=
    Trace.keeps_nil (.inl ⟨⟨data, hpart, hheld⟩, rfl⟩)
  rw [transferBundle_growing config io hsize hpart hheld]
  by_cases hwhole : data.length = m.size
  · rw [if_pos (by simpa using hwhole)]
    have hB : data = B := hheld.eq_of_length (hwhole.trans hsize.symm)
    exact complete_continues hsha256 io (hB ▸ hpart) rfl
  · rw [if_neg (by simpa using hwhole)]
    simp only
    obtain ⟨hspace, hsame⟩ := spaceAvailable_spec io.space config.reserveBytes
      (.fresh 0 data.length m.size)
    by_cases hok : (spaceAvailable io.space config.reserveBytes
        (.fresh 0 data.length m.size)).ok = false
    · rw [if_pos (by simpa using hok)]
      exact giveUp_continues _ _ hnothing fun h => by cases hspace.hash h
    · rw [if_neg (by simpa using hok), hsame (by simpa using hok)]
      have hfits : Fits B (.fresh 0 data.length m.size) [] data := by
        rw [← hsize]
        exact fits_fresh hlength hheld
      have hsecond : Honest B [] (.fresh 0 0 B.length) io.second.response.callbacks := by
        rw [hsize]
        exact hhonest.2
      have hpasses := requests_passes config m io.first io.second hpart hfits
        (hdata ▸ hhonest.1) hsecond
      have hsteady := requests_steady config m io.first io.second (.fresh 0 data.length m.size)
      have hkeeps := held_of_growing hsteady.inPlace hpasses.keeps
      have hbundle := bundle_of_unpublished (unpublished_of_inPlace hsteady.inPlace) d
      have hcode : (requests config m io.first io.second
          (.fresh 0 data.length m.size)).transfer.error.code ≠ .downloadHashMismatch :=
        fun h => by cases hsteady.hash h
      split
      · rename_i hcomplete
        obtain ⟨hend, -, hnone⟩ := hpasses.complete hcomplete
        refine Continues.after hkeeps ?_
        rw [← hbundle]
        exact complete_continues hsha256 io hend hnone
      · exact giveUp_continues _ _ hkeeps hcode
      · exact giveUp_continues _ _ hkeeps hcode

/-- The partial file as it is opened: what is there, or an empty one. -/
theorem created_growing (hstart : d.part = none ∨ Growing B d) :
    let opened := d.run (if d.part.isNone then [Act.create] else [])
    Growing B opened ∧ opened.bundle = d.bundle ∧ opened.partData = d.partData := by
  rcases hstart with hnone | ⟨data, hpart, hheld⟩
  · simp only [hnone, Option.isNone_none, if_true, Disk.partData]
    exact ⟨⟨[], rfl, List.nil_prefix⟩, rfl, rfl⟩
  · rw [if_neg (by simp [hpart])]
    exact ⟨⟨data, hpart, hheld⟩, rfl, rfl⟩

/-- The download behind its checks keeps the received prefix, or leaves the disk as it was.
-/
theorem downloadPart_continues (config : OtaConfig) (io : DownloadIo)
    (hsize : B.length = m.size) (hsha256 : sha256 B = m.sha256)
    (hstart : d.part = none ∨ Growing B d) (hhonest : HonestIo B m d io) :
    Continues (fun e => e = d ∨ Held B d.bundle e) d (downloadPart sha256 config m io d) := by
  obtain ⟨hgrowing, hbundle, hdata⟩ := created_growing hstart
  have hnothing : Trace.Keeps perform (fun e => e = d ∨ Held B d.bundle e) d [] :=
    Trace.keeps_nil (.inl rfl)
  have hcreated : Trace.Keeps perform (fun e => e = d ∨ Held B d.bundle e) d
      (if d.part.isNone then [Act.create] else []) := by
    intro n
    by_cases hnone : d.part.isNone = true
    · rw [if_pos hnone] at hgrowing hbundle ⊢
      cases n with
      | zero => exact .inl rfl
      | succ n => exact .inr (.inl ⟨by simpa using hgrowing, by simpa using hbundle⟩)
    · rw [if_neg hnone]
      exact hnothing n
  unfold downloadPart
  simp only
  generalize (if d.part.isNone then [Act.create] else []) = created at *
  split
  · exact giveUp_continues _ _ hnothing (diskError_code _ _ _).1
  · exact giveUp_continues _ _ hcreated (diskError_code _ _ _).1
  · split
    · exact giveUp_continues _ _ hcreated fun h => nomatch h
    · split
      · exact giveUp_continues _ _ hcreated (diskError_code _ _ _).1
      · have hhonest' : HonestIo B m (d.run created) io := by
          unfold HonestIo
          rw [hdata]
          exact hhonest
        have hrest := transferBundle_continues config io hsize hsha256 hgrowing hhonest'
        rw [hbundle] at hrest
        exact Continues.after hcreated ⟨hrest.keeps.mono fun e he => .inr he, hrest.hash⟩

/-- The bundle is not the one of the manifest. -/
def Unverified (sha256 : Bytes → Bytes) (m : OtaManifest) (bundle : Option File) : Prop :=
  ∀ file, bundle = some file → ¬ Verified sha256 m file.data

/-- The bundle of the manifest is recognised, or it cannot be read. -/
theorem validateBundlePath_verified (fault : Option (BundleStep × Errno)) {file : File}
    (h : Verified sha256 m file.data) :
    validateBundlePath sha256 fault m (some file) = .valid ∨
      ∃ message, validateBundlePath sha256 fault m (some file) =
        .invalid (otaErrorSet .persistenceFailed message) := by
  unfold validateBundlePath
  split
  · exact .inr ⟨_, rfl⟩
  · rename_i heq
    cases heq
  · rename_i heq
    cases heq
    split
    · exact .inr ⟨_, rfl⟩
    · rw [if_neg (by simp [h.1])]
      split
      · exact .inr ⟨_, rfl⟩
      · rw [if_pos (by simp [h.2])]
        exact .inl rfl

/-- The bundle that `ota_download_bundle` goes on to replace. -/
theorem unverified_of_validateBundlePath {fault : Option (BundleStep × Errno)}
    {bundle : Option File}
    (h : validateBundlePath sha256 fault m bundle = .missing ∨
      ∃ error, validateBundlePath sha256 fault m bundle = .invalid error ∧
        (error.code = .downloadSizeMismatch ∨ error.code = .downloadHashMismatch)) :
    Unverified sha256 m bundle := by
  rintro file rfl hverified
  rcases validateBundlePath_verified fault hverified with hvalid | ⟨message, hunread⟩
  · rcases h with h | ⟨error, h, -⟩
    · rw [hvalid] at h
      cases h
    · rw [hvalid] at h
      cases h
  · rcases h with h | ⟨error, h, hcode⟩
    · rw [hunread] at h
      cases h
    · rw [hunread] at h
      cases h
      rcases hcode with hcode | hcode
      · cases hcode
      · cases hcode

/-- What holds between the calls: nothing is done yet, or the bundle grows beside
one that is not its equal, or it is published. -/
def Between (sha256 : Bytes → Bytes) (m : OtaManifest) (B : Bytes) (start d : Disk) : Prop :=
  d = start ∨ Growing B d ∧ Unverified sha256 m d.bundle ∨ Published B d

theorem discard_of_absent (config : OtaConfig) (fault : Option (DiscardStep × Errno)) :
    (otaDownloadDiscardPartial config fault none).1 = [] := by
  unfold otaDownloadDiscardPartial
  split
  · rfl
  · split
    · rfl
    · rfl
    · rename_i heq
      cases heq

theorem discard_code (config : OtaConfig) (fault : Option (DiscardStep × Errno))
    (part : Option File) (error : OtaError)
    (h : (otaDownloadDiscardPartial config fault part).2 = .error error) :
    error.code ≠ .downloadHashMismatch := by
  unfold otaDownloadDiscardPartial at h
  grind [otaErrorSet]

/-- A manifest that is refused does not report a mismatch. -/
theorem manifest_code {error : OtaError} (h : otaManifestValidate m = .error error) :
    error.code ≠ .downloadHashMismatch := by
  unfold otaManifestValidate at h
  split at h
  · unfold otaVersionParse at h
    split at h
    · cases h
    · cases h
      exact (nomatch ·)
  · cases h
    exact (nomatch ·)

/-- A whole call of `ota_download_bundle` keeps what the calls before it received. -/
theorem call_continues (config : OtaConfig) (io : DownloadIo) {start : Disk}
    (hsize : B.length = m.size) (hsha256 : sha256 B = m.sha256) (hstart : start.part = none)
    (hbetween : Between sha256 m B start d) (hhonest : HonestIo B m d io) :
    Continues (fun e => e = d ∨ Growing B e ∧ Unverified sha256 m e.bundle ∨ Published B e) d
      (otaDownloadBundle sha256 config m io d) := by
  have hnothing : Trace.Keeps perform
      (fun e => e = d ∨ Growing B e ∧ Unverified sha256 m e.bundle ∨ Published B e) d [] :=
    Trace.keeps_nil (.inl rfl)
  have hpart : d.part = none ∨ Growing B d ∧ Unverified sha256 m d.bundle := by
    rcases hbetween with rfl | hgrowing | hpublished
    · exact .inl hstart
    · exact .inr hgrowing
    · exact .inl hpublished.1
  have hdownload : Unverified sha256 m d.bundle → Continues
      (fun e => e = d ∨ Growing B e ∧ Unverified sha256 m e.bundle ∨ Published B e) d
      (downloadPart sha256 config m io d) := by
    intro hunverified
    have hgrowing : d.part = none ∨ Growing B d := hpart.imp id And.left
    have h := downloadPart_continues config io hsize hsha256 hgrowing hhonest
    refine ⟨h.keeps.mono fun e he => ?_, h.hash⟩
    rcases he with rfl | ⟨hg, hb⟩ | hp
    · exact .inl rfl
    · exact .inr (.inl ⟨hg, hb ▸ hunverified⟩)
    · exact .inr (.inr hp)
  unfold otaDownloadBundle
  split
  · rename_i error hmanifest
    refine ⟨hnothing, fun _ e he => ?_⟩
    cases he
    exact manifest_code hmanifest
  · split
    · rename_i error hpaths
      refine ⟨hnothing, fun _ e he => ?_⟩
      unfold downloadPaths at hpaths
      grind [otaErrorSet]
    · split
      · rename_i hvalid
        obtain ⟨file, hbundle, hverified⟩ := valid_of_validateBundlePath hvalid
        have hnone : d.part = none := by
          rcases hpart with hnone | ⟨_, hunverified⟩
          · exact hnone
          · exact absurd hverified (hunverified file hbundle)
        refine ⟨?_, fun _ e he => ?_⟩
        · simp only [hnone]
          rw [discard_of_absent]
          exact hnothing
        · apply discard_code config io.discard d.part e
          generalize otaDownloadDiscardPartial config io.discard d.part = r at he
          obtain ⟨acts, result⟩ := r
          cases result with
          | error error => cases he; rfl
          | ok => cases he
      · rename_i hmissing
        exact hdownload (unverified_of_validateBundlePath (.inl hmissing))
      · rename_i error hinvalid
        split
        · rename_i hcode
          refine hdownload (unverified_of_validateBundlePath (.inr ⟨error, hinvalid, ?_⟩))
          simpa using hcode
        · rename_i hcode
          refine ⟨hnothing, fun _ e he => ?_⟩
          cases he
          simp only [Bool.or_eq_true, beq_iff_eq, not_or] at hcode
          exact hcode.2

/-! ## Calls whose transfer completes -/

/-- A request that brings all it asks for: it is opened, every callback takes its
data, the transport ends without an error, and the body is the whole bundle or what
follows the requested offset. -/
structure Arrives (config : OtaConfig) (m : OtaManifest) (B : Bytes) (t : Transfer)
    (io : AttemptIo) : Prop where
  opened : ∃ url, otaHttpOpen io.curl config m.artifactUrl .downloadHttp = .ok url
  taken : (callbacks t io.response.callbacks).ok = true
  result : io.response.result = curlOk
  done : (callbacks t io.response.callbacks).transfer.headersDone = true
  whole :
    (callbacks t io.response.callbacks).transfer.status = 200 ∧
        io.response.callbacks.flatMap payload = B ∨
      (callbacks t io.response.callbacks).transfer.status = 206 ∧
        io.response.callbacks.flatMap payload = B.drop t.partialSize

/-- A request that is answered with 416, after which the file can be restarted. -/
structure RangeRefused (config : OtaConfig) (m : OtaManifest) (t : Transfer) (io : AttemptIo) :
    Prop where
  opened : ∃ url, otaHttpOpen io.curl config m.artifactUrl .downloadHttp = .ok url
  quiet : (callbacks t io.response.callbacks).transfer.error.code = .none
  done : (callbacks t io.response.callbacks).transfer.headersDone = true
  status : (callbacks t io.response.callbacks).transfer.status = 416
  reset : io.reset = none
  space : (spaceAvailable io.space config.reserveBytes (.fresh 0 0 m.size)).ok = true

/-- An attempt whose response carries the rest of the bundle is complete. -/
theorem attempt_arrives {config : OtaConfig} {io : AttemptIo} (last : Bool)
    (hpart : d.part = some ⟨true, data⟩) (h : Fits B t [] data)
    (hhonest : Honest B [] t io.response.callbacks) (herror : t.error.code = .none)
    (harrives : Arrives config m B t io) :
    (attempt config m last io t).verdict = .complete := by
  have hsteady := steady_callbacks t io.response.callbacks
  have hnone : (callbacks t io.response.callbacks).transfer.error.code = .none := by
    rw [hsteady.quiet harrives.taken]
    exact herror
  obtain ⟨sent, data', -, hfits, hsent⟩ :=
    (callbacks_fits io.response.callbacks hpart h hhonest).2 hnone
  have hpayload : sent = io.response.callbacks.flatMap payload := hsent harrives.taken
  have hreceived : (callbacks t io.response.callbacks).transfer.received =
      (callbacks t io.response.callbacks).transfer.limit := by
    have hsize := hsteady.partialSize
    cases hfits.stage with
    | early done => rw [harrives.done] at done; cases done
    | refused done action status =>
        rcases harrives.whole with ⟨hstatus, -⟩ | ⟨hstatus, -⟩
        · omega
        · omega
    | zero done action status held position received limit =>
        rcases harrives.whole with ⟨-, hwhole⟩ | ⟨hstatus, -⟩
        · rw [received, limit, held, hpayload, hwhole]
        · omega
    | append done action status held position received limit =>
        rcases harrives.whole with ⟨hstatus, -⟩ | ⟨-, hwhole⟩
        · omega
        · rw [received, limit, hsize, hpayload, hwhole, List.length_drop]
  have hstatus : (callbacks t io.response.callbacks).transfer.status ≠ 416 := by
    rcases harrives.whole with ⟨hstatus, -⟩ | ⟨hstatus, -⟩
    · omega
    · omega
  obtain ⟨url, hopen⟩ := harrives.opened
  unfold attempt
  rw [hopen]
  simp only [harrives.taken, if_true, harrives.result]
  unfold performed
  rw [if_neg (by simp [hnone]), if_neg (by simp [hstatus]), if_neg (by simp [curlOk]),
    if_neg (by simp [harrives.done, hreceived])]

/-- A range that is refused either is complete already or is asked for again from the start.
-/
theorem attempt_refused {config : OtaConfig} {io : AttemptIo} (hexpected : t.expected = m.size)
    (hrefused : RangeRefused config m t io) :
    (attempt config m false io t).verdict = .complete ∨
      (attempt config m false io t).verdict = .again := by
  have hsteady := steady_callbacks t io.response.callbacks
  obtain ⟨url, hopen⟩ := hrefused.opened
  unfold attempt
  rw [hopen]
  simp only
  unfold performed
  rw [if_neg (by simp [hrefused.quiet]), if_pos (by simp [hrefused.done, hrefused.status])]
  unfold restart
  split
  · exact .inl rfl
  · right
    have hspace := hrefused.space
    rw [← hexpected, ← hsteady.expected] at hspace
    simp only [resetFile, hrefused.reset, Bool.not_true, Bool.false_eq_true, if_false, hspace,
      if_true]

/-- The first request brings the bundle, or it is refused and the second does. -/
def Delivered (config : OtaConfig) (m : OtaManifest) (B : Bytes) (held : Nat)
    (first second : AttemptIo) : Prop :=
  Arrives config m B (.fresh 0 held m.size) first ∨
    RangeRefused config m (.fresh 0 held m.size) first ∧
      Arrives config m B (.fresh 0 0 m.size) second

/-- The two requests of a call deliver the bundle when one of the responses does. -/
theorem requests_delivered {config : OtaConfig} {first second : AttemptIo}
    (hsize : B.length = m.size) (hpart : d.part = some ⟨true, data⟩) (hheld : data <+: B)
    (hfirst : Honest B [] (.fresh 0 data.length m.size) first.response.callbacks)
    (hsecond : Honest B [] (.fresh 0 0 m.size) second.response.callbacks)
    (h : Delivered config m B data.length first second) :
    (requests config m first second (.fresh 0 data.length m.size)).verdict = .complete := by
  have hfits : Fits B (.fresh 0 data.length m.size) [] data := by
    rw [← hsize]
    exact fits_fresh hheld.length_le hheld
  unfold requests
  simp only
  rcases h with harrives | ⟨hrefused, harrives⟩
  · have hcomplete := attempt_arrives false hpart hfits hfirst rfl harrives
    simp only [hcomplete]
  · rcases attempt_refused rfl hrefused with hcomplete | hagain
    · simp only [hcomplete]
    · have hpass := attempt_passes config m false first hpart hfits hfirst
      obtain ⟨hempty, hfresh⟩ := hpass.again hagain
      rw [hsize] at hfresh
      have hnothing : Fits B (.fresh 0 0 m.size) [] [] := by
        rw [← hsize]
        exact fits_fresh (Nat.zero_le _) List.nil_prefix
      simp only [hagain, hfresh]
      exact attempt_arrives true hempty hnothing hsecond rfl harrives

/-- The file operations of the call succeed, and the bundle's path is not taken by
something else than a file. -/
structure Smooth (d : Disk) (io : DownloadIo) : Prop where
  bundle : io.bundle = none
  regular : ∀ file, d.bundle = some file → file.regular = true
  discard : io.discard = none
  part : io.part = none
  inspect : io.verify.inspect = none
  seek : io.verify.seek = none
  read : io.verify.read = none
  publish : io.publish = none

/-- The transfer of the call completes: the bundle or the whole partial file is
there already, or there is room for the rest and the server delivers it. -/
def Completes (sha256 : Bytes → Bytes) (config : OtaConfig) (m : OtaManifest) (B : Bytes)
    (d : Disk) (io : DownloadIo) : Prop :=
  (∃ file, d.bundle = some file ∧ Verified sha256 m file.data) ∨
    d.partData.length = m.size ∨
    (spaceAvailable io.space config.reserveBytes
        (.fresh 0 d.partData.length m.size)).ok = true ∧
      Delivered config m B d.partData.length io.first io.second

theorem complete_smooth {io : DownloadIo} (hsha256 : sha256 B = m.sha256) (hsmooth : Smooth d io)
    (hexpected : t.expected = B.length) :
    (complete sha256 m io B t).result = .ok () := by
  have hverify := (verify_right (t := t) io.verify hsha256).2 hsmooth.inspect hsmooth.seek
    hsmooth.read hexpected.symm
  unfold complete
  simp [hverify, Transfer.goesOn, publish, hsmooth.publish]

/-- The transfer succeeds when the bundle arrives and the disk does not fail. -/
theorem transferBundle_smooth {config : OtaConfig} {io : DownloadIo} (hsize : B.length = m.size)
    (hsha256 : sha256 B = m.sha256) (hgrowing : Growing B d) (hhonest : HonestIo B m d io)
    {e : Disk} (hsmooth : Smooth e io)
    (hcompletes : d.partData.length = m.size ∨
      (spaceAvailable io.space config.reserveBytes
          (.fresh 0 d.partData.length m.size)).ok = true ∧
        Delivered config m B d.partData.length io.first io.second) :
    (transferBundle sha256 config m io d).result = .ok () := by
  obtain ⟨data, hpart, hheld⟩ := hgrowing
  have hdata : d.partData = data := by simp [Disk.partData, hpart]
  unfold HonestIo at hhonest
  rw [transferBundle_growing config io hsize hpart hheld]
  rw [hdata] at hhonest hcompletes ⊢
  by_cases hwhole : data.length = m.size
  · have hB : data = B := hheld.eq_of_length (hwhole.trans hsize.symm)
    rw [if_pos (by simpa using hwhole), hB]
    exact complete_smooth hsha256 hsmooth hsize.symm
  · obtain ⟨hspace, hdelivered⟩ := hcompletes.resolve_left hwhole
    have hsame := (spaceAvailable_spec io.space config.reserveBytes
      (.fresh 0 data.length m.size)).2 hspace
    have hcomplete := requests_delivered hsize hpart hheld hhonest.1 hhonest.2 hdelivered
    have hfits : Fits B (.fresh 0 data.length m.size) [] data := by
      rw [← hsize]
      exact fits_fresh hheld.length_le hheld
    have hpass := requests_passes config m io.first io.second hpart hfits hhonest.1
      (by rw [hsize]; exact hhonest.2)
    obtain ⟨hend, hexpected, -⟩ := hpass.complete hcomplete
    rw [if_neg (by simpa using hwhole)]
    simp only [hspace, hsame, Bool.not_true, Bool.false_eq_true, if_false, hcomplete]
    have hB : (d.run (requests config m io.first io.second
        (.fresh 0 data.length m.size)).acts).partData = B := by
      simp [Disk.partData, hend]
    rw [hB]
    exact complete_smooth hsha256 hsmooth hexpected

/-- The download behind its checks succeeds when the bundle arrives and the disk does not
fail. -/
theorem downloadPart_smooth {config : OtaConfig} {io : DownloadIo} (hsize : B.length = m.size)
    (hsha256 : sha256 B = m.sha256) (hstart : d.part = none ∨ Growing B d)
    (hhonest : HonestIo B m d io) (hsmooth : Smooth d io)
    (hcompletes : d.partData.length = m.size ∨
      (spaceAvailable io.space config.reserveBytes
          (.fresh 0 d.partData.length m.size)).ok = true ∧
        Delivered config m B d.partData.length io.first io.second) :
    (downloadPart sha256 config m io d).result = .ok () := by
  obtain ⟨hgrowing, -, hdata⟩ := created_growing hstart
  have hregular : d.part.any (!·.regular) = false := by
    rcases hstart with hnone | ⟨data, hpart, -⟩
    · simp [hnone]
    · simp [hpart]
  unfold downloadPart
  simp only [hsmooth.part, hregular, Bool.false_eq_true, if_false]
  unfold HonestIo at hhonest
  rw [← hdata] at hhonest hcompletes
  exact transferBundle_smooth hsize hsha256 hgrowing hhonest hsmooth hcompletes

/-- Without a failing file operation the bundle is either that of the manifest or
one to be replaced. -/
theorem validateBundlePath_smooth (sha256 : Bytes → Bytes) (m : OtaManifest) {io : DownloadIo}
    (hsmooth : Smooth d io) :
    (∃ file, d.bundle = some file ∧ Verified sha256 m file.data ∧
        validateBundlePath sha256 io.bundle m d.bundle = .valid) ∨
      validateBundlePath sha256 io.bundle m d.bundle = .missing ∨
      ∃ error, validateBundlePath sha256 io.bundle m d.bundle = .invalid error ∧
        (error.code = .downloadSizeMismatch ∨ error.code = .downloadHashMismatch) := by
  unfold validateBundlePath
  rw [hsmooth.bundle]
  cases hbundle : d.bundle with
  | none => exact .inr (.inl rfl)
  | some file =>
      simp only [Option.any_none, hsmooth.regular file hbundle, Bool.not_true, Bool.or_self,
        Bool.false_eq_true, if_false]
      by_cases hlength : file.data.length = m.size
      · rw [if_neg (by simpa using hlength)]
        by_cases hhash : sha256 file.data = m.sha256
        · rw [if_pos (by simpa using hhash)]
          exact .inl ⟨file, rfl, ⟨hlength, hhash⟩, rfl⟩
        · rw [if_neg (by simpa using hhash)]
          exact .inr (.inr ⟨_, rfl, .inr rfl⟩)
      · rw [if_pos (by simpa using hlength)]
        exact .inr (.inr ⟨_, rfl, .inl rfl⟩)

/-- A call succeeds when the bundle arrives and the disk does not fail. -/
theorem call_smooth {config : OtaConfig} {io : DownloadIo} {start : Disk}
    (hsize : B.length = m.size) (hsha256 : sha256 B = m.sha256) (hstart : start.part = none)
    (hbetween : Between sha256 m B start d) (hhonest : HonestIo B m d io)
    (hmanifest : otaManifestValidate m = .ok ()) (hpaths : downloadPaths config = .ok ())
    (hsmooth : Smooth d io) (hcompletes : Completes sha256 config m B d io) :
    (otaDownloadBundle sha256 config m io d).result = .ok () := by
  have hpart : d.part = none ∨ Growing B d ∧ Unverified sha256 m d.bundle := by
    rcases hbetween with rfl | hgrowing | hpublished
    · exact .inl hstart
    · exact .inr hgrowing
    · exact .inl hpublished.1
  have hgrowing : d.part = none ∨ Growing B d := hpart.imp id And.left
  unfold otaDownloadBundle
  simp only [hmanifest, hpaths]
  rcases validateBundlePath_smooth sha256 m hsmooth with
    ⟨file, hbundle, hverified, hvalid⟩ | hreplaced
  · have hnone : d.part = none := by
      rcases hpart with hnone | ⟨-, hunverified⟩
      · exact hnone
      · exact absurd hverified (hunverified file hbundle)
    have hroot : config.partFile.head? = some 0x2f := by
      unfold downloadPaths at hpaths
      grind
    simp [hvalid, otaDownloadDiscardPartial, hroot, hsmooth.discard, hnone, Except.mapError]
  · have hunverified := unverified_of_validateBundlePath hreplaced
    have hrest := hcompletes.resolve_left fun ⟨file, hbundle, hverified⟩ =>
      hunverified file hbundle hverified
    have hdownload := downloadPart_smooth hsize hsha256 hgrowing hhonest hsmooth hrest
    rcases hreplaced with hmissing | ⟨error, hinvalid, hcode⟩
    · simp only [hmissing]
      exact hdownload
    · simp only [hinvalid]
      rw [if_pos (by simpa using hcode)]
      exact hdownload

/-! ## Sequences of calls -/

/-- The disks that calls reach from `start` with a server that sends `B`; every
call may end after any number of its acts. -/
inductive Resumed (sha256 : Bytes → Bytes) (config : OtaConfig) (m : OtaManifest) (B : Bytes)
    (start : Disk) : Disk → Prop
  | start : Resumed sha256 config m B start start
  | call {d : Disk} (h : Resumed sha256 config m B start d) {io : DownloadIo}
      (honest : HonestIo B m d io) (acts : Nat) :
      Resumed sha256 config m B start
        (d.run ((otaDownloadBundle sha256 config m io d).acts.take acts))

/-- What the calls of a run resume lies between the start and the bundle. -/
theorem Resumed.between {config : OtaConfig} {start : Disk} (hsize : B.length = m.size)
    (hsha256 : sha256 B = m.sha256) (hstart : start.part = none)
    (h : Resumed sha256 config m B start d) : Between sha256 m B start d := by
  induction h with
  | start => exact .inl rfl
  | call h honest acts ih =>
      rcases (call_continues config _ hsize hsha256 hstart ih honest).keeps acts with
        hsame | hgrown
      · rw [show Disk.run _ _ = _ from hsame]
        exact ih
      · exact .inr hgrown

/-- After a discard that succeeds there is no part. -/
theorem part_of_discarded {config : OtaConfig} {fault : Option (DiscardStep × Errno)}
    {acts : List Act} (h : otaDownloadDiscardPartial config fault d.part = (acts, .ok ())) :
    (d.run acts).part = none := by
  unfold otaDownloadDiscardPartial at h
  split at h
  · cases h
  · split at h
    · cases h
    · rename_i hpart
      cases h
      exact hpart
    · split at h
      · cases h
      · split at h
        · cases h
          rfl
        · cases h

/-- From the discard of the old partial file on, over any sequence of calls that
are cut short anywhere: the partial file is a prefix of the bundle, absent before the
first call has created it, or gone because it has become the bundle; no call complains
of a wrong hash; and one whose transfer completes succeeds. -/
theorem resume_keeps_received (sha256 : Bytes → Bytes) (config : OtaConfig) (m : OtaManifest)
    (B : Bytes) (hsize : B.length = m.size) (hsha256 : sha256 B = m.sha256)
    (initial : Disk) (fault : Option (DiscardStep × Errno)) (discarded : List Act)
    (hdiscarded : otaDownloadDiscardPartial config fault initial.part = (discarded, .ok ()))
    (d : Disk) (hresumed : Resumed sha256 config m B (initial.run discarded) d) :
    (d = initial.run discarded ∧ d.part = none ∨ Growing B d ∨ Published B d) ∧
    ∀ io, HonestIo B m d io →
      let r := otaDownloadBundle sha256 config m io d
      (Growing B d → ∀ acts, Growing B (d.run (r.acts.take acts)) ∨
        Published B (d.run (r.acts.take acts))) ∧
      (∀ retryable error, r.result = .error (retryable, error) →
        error.code ≠ .downloadHashMismatch) ∧
      (otaManifestValidate m = .ok () → downloadPaths config = .ok () → Smooth d io →
        Completes sha256 config m B d io → r.result = .ok ()) := by
  have hstart := part_of_discarded hdiscarded
  have hbetween := hresumed.between hsize hsha256 hstart
  refine ⟨?_, fun io hhonest => ?_⟩
  · rcases hbetween with hsame | ⟨hgrowing, -⟩ | hpublished
    · exact .inl ⟨hsame, hsame ▸ hstart⟩
    · exact .inr (.inl hgrowing)
    · exact .inr (.inr hpublished)
  · have hcall := call_continues config io hsize hsha256 hstart hbetween hhonest
    refine ⟨fun hgrowing acts => ?_, hcall.hash, fun hmanifest hpaths hsmooth hcompletes => ?_⟩
    · rcases hcall.keeps acts with hsame | ⟨hgrown, -⟩ | hpublished
      · left
        rw [show d.run _ = d from hsame]
        exact hgrowing
      · exact .inl hgrown
      · exact .inr hpublished
    · exact call_smooth hsize hsha256 hstart hbetween hhonest hmanifest hpaths hsmooth hcompletes

/-! ### A download in two calls -/

/-- SHA-256 where the sample uses it. -/
def sampleDigest (data : Bytes) : Bytes :=
  if data == ascii "abc" then
    ascii "ba7816bf8f01cfea414140de5dae2223b00361a396177a9cb410ff61f20015ad"
  else []

def sampleManifest : OtaManifest where
  schemaVersion := 1
  deviceCompatible := ascii "edgeguard-rk3588"
  version := ascii "1.2.3"
  buildId := ascii "build-7"
  artifactUrl := ascii "/update.raucb"
  sha256 := ascii "ba7816bf8f01cfea414140de5dae2223b00361a396177a9cb410ff61f20015ad"
  size := 3
  mandatory := false

def sampleConfig : OtaConfig where
  baseUrl := ascii "http://192.168.1.100:8000"
  manifestPath := ascii "/manifest.json"
  reportPath := ascii "/device/report"
  pollIntervalSec := 300
  connectTimeoutSec := 5
  requestTimeoutSec := 30
  stateDir := ascii "/userdata/ota"
  releaseFile := ascii "/etc/release.json"
  maxManifestBytes := 65536
  partFile := ascii "/userdata/ota/update.raucb.part"
  bundleFile := ascii "/userdata/ota/update.raucb"
  reserveBytes := 67108864
  raucBinary := ascii "/usr/bin/rauc"
  deviceIdFile := ascii "/userdata/ota/device-id"
  healthHook := []
  healthTimeoutSec := 30
  reportingMode := .legacy

/-- A request with the given header lines and body. -/
def sampleRequest (lines : List String) (content : String) (result : Nat) : AttemptIo where
  curl := true
  response :=
    ⟨lines.map (fun line => .header (ascii line) ⟨none, none⟩) ++ [.body (ascii content) []],
      result⟩
  reset := none
  space := .ok (4096, 1000000)

/-- A call in which no file operation fails and the first request is as given. -/
def sampleCall (first : AttemptIo) : DownloadIo where
  bundle := none
  discard := none
  part := none
  reset := none
  space := .ok (4096, 1000000)
  first := first
  second := sampleRequest [] "" 7
  verify := ⟨none, none, none, none⟩
  publish := none
  flush := none

/-- The disk after a stale partial file is discarded and a first call loses its
connection behind the first byte. -/
def sampleInterrupted : Disk :=
  let discarded : Disk := Disk.run ⟨some ⟨true, ascii "stale"⟩, none⟩ [.discard]
  let call := otaDownloadBundle sampleDigest sampleConfig sampleManifest
    (sampleCall (sampleRequest ["HTTP/1.1 200 OK", ""] "a" 56)) discarded
  discarded.run (call.acts.take 3)

def sampleTail : AttemptIo :=
  sampleRequest ["HTTP/1.1 206 Partial Content", "Content-Range: bytes 1-2/3", ""] "bc" curlOk

/-- A call that is interrupted after one byte and the one that completes it. -/
theorem resume_keeps_received_two_calls :
    sampleInterrupted.part = some ⟨true, ascii "a"⟩ ∧
      (otaDownloadBundle sampleDigest sampleConfig sampleManifest (sampleCall sampleTail)
        sampleInterrupted).result = .ok () := by
  refine ⟨by decide +kernel, ?_⟩
  have hresumed : Resumed sampleDigest sampleConfig sampleManifest (ascii "abc")
      (Disk.run ⟨some ⟨true, ascii "stale"⟩, none⟩ [.discard]) sampleInterrupted :=
    .call .start (by decide +kernel) 3
  have hdelivered : Arrives sampleConfig sampleManifest (ascii "abc") (.fresh 0 1 3) sampleTail :=
    ⟨⟨_, rfl⟩, by decide +kernel, rfl, by decide +kernel, by decide +kernel⟩
  have hlength : sampleInterrupted.partData.length = 1 := by decide +kernel
  have hcall := (resume_keeps_received sampleDigest sampleConfig sampleManifest (ascii "abc")
    (by decide +kernel) (by decide +kernel) ⟨some ⟨true, ascii "stale"⟩, none⟩ none [.discard]
    (by decide +kernel) sampleInterrupted hresumed).2 (sampleCall sampleTail) (by decide +kernel)
  refine hcall.2.2 (by decide +kernel) (by decide +kernel) ?_ ?_
  · exact ⟨rfl, (nomatch ·, ·), rfl, rfl, rfl, rfl, rfl, rfl⟩
  · refine .inr (.inr ⟨by decide +kernel, .inl ?_⟩)
    rw [hlength]
    exact hdelivered

end EdgeGuard.Agent.DownloadResume
