import EdgeGuard.Provisioning.Operations

/-!
# The live credential and the tombstone

Runs of the daemon on one store: operations, the scan at an opening and the
reconciliation behind it, each interrupted after any of its acts.

`egp_store_replace_wifi` does not look at the tombstone that a forget leaves
behind when ConnMan does not revoke the credential, so a SET_WIFI in that state
puts a live credential beside it, and from then on neither forgetting nor
reconciling gets past the conflict.  As long as no credential is written in
that state, and none whose text spells the escape that the reader refuses, the
two files exclude each other in every state of every run.

## Main results

* `keeps_worker`, `keeps_reconcile`, `keeps_cleanup` — what a step keeps,
  interrupted or not.
* `forget_never_blocked` — the exclusion and what follows from it, over runs.
-/

namespace EdgeGuard.Provisioning.StoreInvariant

open EdgeGuard.Base EdgeGuard.Base.CText EdgeGuard.Base.Json EdgeGuard.Base.Uri
open EdgeGuard.Base.DurableDirectory
open EdgeGuard.Provisioning.Model EdgeGuard.Provisioning.Store
open EdgeGuard.Provisioning.StoreRoundTrip EdgeGuard.Provisioning.StoreTransactions
open EdgeGuard.Provisioning.RuntimeStore EdgeGuard.Provisioning.Operations

/-! ## Runs -/

/-- What the daemon does to its store, one thing after another. -/
inductive Event
  | operation (op : Operation)
  /-- `egp_store_open`, with its scan for files to recover. -/
  | opening (io : ScanIo)
  | reconcile (env : ReconcileEnv)

variable (J : JsonParser) (N : NetLibrary)

def Event.acts (d : Directory) : Event → List Act
  | .operation op => (worker J N d op).acts
  | .opening io => (cleanupRecoveryFiles io d).acts
  | .reconcile env => (reconcileCanonical J env d).acts

/-- The directories reached from an empty store by events of a kind, each of
them complete or cut off by the end of the process after `n` of its acts. -/
inductive Reach (Allowed : Directory → Event → Prop) : Directory → Prop
  | empty : Reach Allowed fun _ => none
  | step {d : Directory} (event : Event) (n : Nat) : Reach Allowed d → Allowed d event →
      Reach Allowed (d.run ((event.acts J N d).take n))

variable {J N} in
/-- An event that is not interrupted. -/
theorem Reach.complete {Allowed : Directory → Event → Prop} {d : Directory}
    (h : Reach J N Allowed d) (event : Event) (hallowed : Allowed d event) :
    Reach J N Allowed (d.run (event.acts J N d)) := by
  have hstep := Reach.step event (event.acts J N d).length h hallowed
  rwa [List.take_length] at hstep

/-! ## The invariant -/

/-- The file holds a credential that the store wrote and can read. -/
def Readable (file : Option File) : Prop :=
  ∀ f, file = some f → ∃ w, Storable w ∧ spellsNul w = false ∧ f = credentialFile w

structure Sound (f : Files) : Prop where
  exclusive : f.wifi = none ∨ f.forget = none
  wifi : Readable f.wifi
  forget : Readable f.forget

theorem readable_none : Readable none := by
  intro f hf
  cases hf

theorem readable_credentialFile {w : EgpWifiConfig} (h : Storable w)
    (hplain : spellsNul w = false) : Readable (some (credentialFile w)) := by
  rintro _ ⟨⟩
  exact ⟨w, h, hplain, rfl⟩

/-- What is loaded from a readable file is what was written. -/
theorem Readable.loaded {file : Option File} (h : Readable file) {w : EgpWifiConfig}
    (hload : Loaded J file (some w)) :
    Storable w ∧ spellsNul w = false ∧ file = some (credentialFile w) := by
  cases hfile : file with
  | none => exact absurd (hload.missing.mpr hfile) (by simp)
  | some f =>
      obtain ⟨v, hstorable, hplain, rfl⟩ := h f hfile
      have heq := loadWifiPath_credentialFile J hstorable
      rw [hplain, ← hfile, hload.unfaulted] at heq
      have hw : w = v := by simpa using heq
      rw [hw]
      exact ⟨hstorable, hplain, rfl⟩

/-- A readable file is read. -/
theorem Readable.load {file : Option File} (h : Readable file) {f : File}
    (hfile : file = some f) :
    ∃ w, loadWifiPath J none file = .ok (some w) ∧ f.privateRegular = true := by
  obtain ⟨w, hstorable, hplain, rfl⟩ := h f hfile
  refine ⟨w, ?_, rfl⟩
  rw [hfile, loadWifiPath_credentialFile J hstorable, hplain]
  rfl

theorem Sound.withWifi {f : Files} (h : Sound f) (hforget : f.forget = none)
    {w : EgpWifiConfig} (hstorable : Storable w) (hplain : spellsNul w = false) :
    Sound (f.withWifi w) :=
  ⟨.inr hforget, readable_credentialFile hstorable hplain, h.forget⟩

theorem Sound.withoutWifi {f : Files} (h : Sound f) : Sound f.withoutWifi :=
  ⟨.inl rfl, readable_none, h.forget⟩

theorem Sound.forgotten {f : Files} (h : Sound f) : Sound f.forgotten :=
  ⟨.inl rfl, readable_none, h.wifi⟩

theorem Sound.withoutForget {f : Files} (h : Sound f) : Sound f.withoutForget :=
  ⟨.inr rfl, h.wifi, readable_none⟩

/-! ## Steps -/

/-- `Sound` wherever the acts are interrupted. -/
abbrev Keeps (d : Directory) (acts : List Act) : Prop :=
  Trace.Keeps perform (fun d => Sound (Files.of d)) d acts

/-- The request gets as far as the rename that puts the candidate in place. -/
structure WritesWifi (d : Directory) (json : Bytes) (env : ApplyWifiEnv)
    (candidate : EgpWifiConfig) (previous : Option EgpWifiConfig) : Prop where
  request : parseWifi J json = .ok candidate
  authorized : env.authorizeAndIdle = .ok ()
  loaded : loadWifiPath J env.replace.read (d .wifi) = .ok previous
  room : hasRoom previous = true
  reaches : writeReaches env.replace.write env.replace.temporary d .wifi = true

/-- The event does not write a credential beside a tombstone, nor one that
spells the escape. -/
def Clean (d : Directory) : Event → Prop
  | .operation (.setWifi json env) => ∀ candidate previous,
      WritesWifi J d json env candidate previous →
        d .forget = none ∧ occursIn JsonObject.nulEscape candidate.ssid = false ∧
          occursIn JsonObject.nulEscape candidate.passphrase = false
  | _ => True

/-- A restore keeps the store sound at each of its acts. -/
theorem keeps_restore {d : Directory} (h : Sound (Files.of d)) (hforget : d .forget = none)
    {previous : Option EgpWifiConfig}
    (hprevious : ∀ p, previous = some p → Storable p ∧ spellsNul p = false)
    (io : RestoreIo) : Keeps d (egpStoreRestoreWifi J io d previous).acts := by
  cases previous with
  | none => exact (absenceOutcome J io d).keeps h h.withoutWifi
  | some p =>
      obtain ⟨hstorable, hplain⟩ := hprevious p rfl
      rcases restoreOutcome J io d p with hr | ⟨current, -, -, hroom, houtcome⟩
      · exact hr.keeps h
      · refine houtcome.keeps h (h.withWifi hforget ?_ hplain)
        exact storable_restoredWifi hstorable.valid hroom

/-- What follows a failed application keeps the store sound. -/
theorem keeps_applyFailed {d : Directory} {committed : List Act} (h : Keeps d committed)
    (hforget : d.run committed .forget = none) {previous : Option EgpWifiConfig}
    (hprevious : ∀ p, previous = some p → Storable p ∧ spellsNul p = false)
    (env : ApplyWifiEnv) (disposition : EgpConnmanDisposition) (failure : Failure) :
    Keeps d (applyFailed J env d committed previous disposition failure).acts := by
  unfold applyFailed
  simp only
  split
  · have hrestored := keeps_restore J (d := d.run committed) h.last hforget hprevious env.restore
    split
    · exact h.append hrestored
    · exact h.append hrestored
  · exact h

/-- SET_WIFI keeps the store sound at each of its acts. -/
theorem keeps_applyWifi {d : Directory} (h : Sound (Files.of d)) {json : Bytes}
    {env : ApplyWifiEnv} (hclean : Clean J d (.operation (.setWifi json env))) :
    Keeps d (applyWifi J env d json).acts := by
  have hnil : Keeps d [] := Trace.keeps_nil h
  unfold applyWifi
  cases hrequest : parseWifi J json with
  | error error => exact hnil
  | ok candidate =>
      cases hauthorized : env.authorizeAndIdle with
      | error failure => exact hnil
      | ok _ =>
          simp only
          rcases replaceOutcome J env.replace d candidate with
            hr | ⟨previous, hvalid, hloaded, hroom, houtcome⟩
          · rw [hr.value]
            exact hr.keeps h
          · -- a write that stops before its rename shows nothing
            cases hreaches : writeReaches env.replace.write env.replace.temporary d .wifi with
            | false =>
                have hr := (write_refused hreaches
                  (serializeWifi (nextWifi candidate previous))).finish
                  (egpErrorSet .none false .committed (ascii "Wi-Fi configuration committed"))
                  (⟨previous, (nextWifi candidate previous).generation⟩ : ReplacedWifi)
                rw [← replace_eq J hvalid hloaded hroom] at hr
                rw [hr.value]
                exact hr.keeps h
            | true =>
                obtain ⟨hforget, hplain⟩ := hclean candidate previous
                  ⟨hrequest, hauthorized, hloaded, hroom, hreaches⟩
                have hspells : spellsNul (nextWifi candidate previous) = false := by
                  simp [spellsNul, nextWifi, hplain]
                have hsound := h.withWifi hforget (storable_nextWifi hvalid hroom) hspells
                have hkeeps := houtcome.keeps h hsound
                cases houtcome with
                | refused hr =>
                    rw [hr.value]
                    exact hkeeps
                | uncertain hu =>
                    rw [hu.value]
                    exact hkeeps
                | done value changes =>
                    rw [value]
                    simp only
                    cases env.apply with
                    | applied =>
                        simp only
                        split
                        · exact hkeeps
                        · exact hkeeps
                    | failed disposition failure =>
                        refine keeps_applyFailed J hkeeps ?_ ?_ env disposition failure
                        · exact (congrArg Files.forget changes.final).trans hforget
                        · rintro p rfl
                          obtain ⟨hstorable, hplain, -⟩ :=
                            Readable.loaded J h.wifi (load_ok J hloaded)
                          exact ⟨hstorable, hplain⟩

theorem keeps_finish {d : Directory} (h : Sound (Files.of d)) (fault : Option FinishStep) :
    Keeps d (egpStoreForgetFinish fault d).acts :=
  (forgetFinishOutcome fault d).keeps h h.withoutForget

/-- What follows the begin of a forget keeps it sound. -/
theorem keeps_forgetBegun {d : Directory} {begun : List Act} (h : Keeps d begun)
    (env : ForgetWifiEnv) (hadWifi : Bool) : Keeps d (forgetBegun env d begun hadWifi).acts := by
  unfold forgetBegun
  split
  · exact h
  · split
    · have hfinished := keeps_finish (d := d.run begun) h.last env.finish
      simp only
      split
      · exact h.append hfinished
      · exact h.append hfinished
    · exact h

/-- FORGET_WIFI keeps the store sound at each of its acts. -/
theorem keeps_forgetWifi {d : Directory} (h : Sound (Files.of d)) (json : Bytes)
    (env : ForgetWifiEnv) : Keeps d (Operations.forgetWifi J env d json).acts := by
  have hnil : Keeps d [] := Trace.keeps_nil h
  unfold Operations.forgetWifi
  split
  · exact hnil
  · split
    · exact hnil
    · have hbegun : Keeps d (egpStoreForgetBegin J env.begin d).acts := by
        cases forgetBeginOutcome J env.begin d with
        | refused hr => exact hr.keeps h
        | pending w tombstone wifi value acts =>
            rw [acts]
            exact hnil
        | absent tombstone wifi value acts =>
            rw [acts]
            exact hnil
        | live w tombstone wifi outcome commit => exact outcome.keeps h h.forgotten
      simp only
      split
      · exact hbegun
      · exact keeps_forgetBegun hbegun env _

/-- SET_ENDPOINT keeps the store sound. -/
theorem keeps_setEndpoint {d : Directory} (h : Sound (Files.of d)) (json : Bytes)
    (env : SetEndpointEnv) : Keeps d (Operations.setEndpoint J N env d json).acts := by
  have hnil : Keeps d [] := Trace.keeps_nil h
  unfold Operations.setEndpoint
  split
  · exact hnil
  · rename_i endpoint _
    split
    · exact hnil
    · have hreplaced : Keeps d (egpStoreReplaceRuntime J N env.replace d endpoint).acts := by
        rcases replaceRuntimeOutcome J N env.replace d endpoint with hr | ⟨url, previous, -, ho⟩
        · exact hr.keeps h
        · exact ho.keeps h ⟨h.exclusive, h.wifi, h.forget⟩
      simp only
      split
      · exact hreplaced
      · split
        · exact hreplaced
        · exact hreplaced

theorem keeps_worker {d : Directory} (h : Sound (Files.of d)) {op : Operation}
    (hclean : Clean J d (.operation op)) : Keeps d (worker J N d op).acts := by
  cases op with
  | setWifi json env => exact keeps_applyWifi J h hclean
  | setEndpoint json env => exact keeps_setEndpoint J N h json env
  | forgetWifi json env => exact keeps_forgetWifi J h json env

/-- The reconciliation keeps the store sound. -/
theorem keeps_reconcile {d : Directory} (h : Sound (Files.of d)) (env : ReconcileEnv) :
    Keeps d (reconcileCanonical J env d).acts := by
  have hnil : Keeps d [] := Trace.keeps_nil h
  have hfinish := keeps_finish h env.finish
  unfold reconcileCanonical
  split
  · exact hnil
  · split
    · exact hnil
    · simp only
      split
      · exact hfinish
      · exact hfinish
  · unfold reconcileLive
    split
    · exact hnil
    · split
      · exact hnil
      · exact hnil
    · split
      · exact hnil
      · exact hnil

/-- The cleanup removes temporary files only. -/
private theorem quiet_cleanupEntries (fault : Option FileName) (d : Directory)
    (listing : List FileName) : ∀ a ∈ (cleanupEntries fault d listing).1, Quiet a := by
  induction listing with
  | nil => simp [cleanupEntries]
  | cons entry rest ih =>
      have hunlink : ∀ entry : FileName, Quiet (.unlink entry) →
          ∀ a ∈ .unlink entry :: (cleanupEntries fault d rest).1, Quiet a := by
        intro entry hentry a ha
        rcases List.mem_cons.mp ha with rfl | ha
        · exact hentry
        · exact ih a ha
      cases entry with
      | wifi | runtime | forget => exact ih
      | rollback =>
          simp only [cleanupEntries]
          split
          · simp
          · exact hunlink _ quiet_unlink_rollback
      | temporary id =>
          simp only [cleanupEntries]
          split
          · simp
          · exact hunlink _ (quiet_unlink_temporary id)

/-- The scan at an opening removes only what no function reads. -/
theorem quiet_cleanupRecoveryFiles (io : ScanIo) (d : Directory) :
    ∀ a ∈ (cleanupRecoveryFiles io d).acts, Quiet a := by
  have hquiet := quiet_cleanupEntries io.fault d io.listing
  unfold cleanupRecoveryFiles
  split
  · simp [Reply.fail]
  · simp only
    split
    · exact hquiet
    · split
      · simp
      · split
        · exact hquiet
        · intro a ha
          rcases List.mem_append.mp ha with ha | ha
          · exact hquiet a ha
          · rw [List.mem_singleton.mp ha]
            exact quiet_sync

theorem keeps_cleanup {d : Directory} (h : Sound (Files.of d)) (io : ScanIo) :
    Keeps d (cleanupRecoveryFiles io d).acts :=
  (changes_of_quiet (quiet_cleanupRecoveryFiles io d) d).keeps h h

theorem keeps_event {d : Directory} (h : Sound (Files.of d)) {event : Event}
    (hclean : Clean J d event) : Keeps d (event.acts J N d) := by
  cases event with
  | operation op => exact keeps_worker J N h hclean
  | opening io => exact keeps_cleanup h io
  | reconcile env => exact keeps_reconcile J h env

/-- The invariant over runs. -/
theorem sound_of_reach {d : Directory} (h : Reach J N (Clean J) d) : Sound (Files.of d) := by
  induction h with
  | empty => exact ⟨.inl rfl, readable_none, readable_none⟩
  | step event n _ hclean ih => exact keeps_event J N ih hclean n

/-! ## Forgetting -/

/-- The calls of a forget that meet no fault. -/
def noFaults : ForgetBeginIo := ⟨none, false, none, none⟩

/-- No credential lives beside a tombstone; a pending forget is found and can be
completed, at start-up and by another request; and a forget can be begun on a
store that holds a credential. -/
structure Forgettable (d : Directory) : Prop where
  exclusive : d .wifi = none ∨ d .forget = none
  completes : ∀ file, d .forget = some file → ∃ w,
    egpStoreForgetPending J none false d = .ok (some w) ∧
      (egpStoreForgetBegin J noFaults d).value = some (some w) ∧
      (egpStoreForgetFinish none d).value = some () ∧
      Files.of (d.run (egpStoreForgetFinish none d).acts) = (Files.of d).withoutForget
  begins : ∀ file, d .wifi = some file → ∃ w,
    (egpStoreForgetBegin J noFaults d).value = some (some w) ∧
      Files.of (d.run (egpStoreForgetBegin J noFaults d).acts) = (Files.of d).forgotten

/-- A sound store is one in which a forget is not blocked. -/
theorem forgettable_of_sound {d : Directory} (h : Sound (Files.of d)) : Forgettable J d := by
  refine ⟨h.exclusive, ?_, ?_⟩
  · intro file hfile
    obtain ⟨w, hload, hprivate⟩ := Readable.load J h.forget hfile
    have hwifi : d .wifi = none := by
      rcases h.exclusive with hwifi | hforget
      · exact hwifi
      · exact absurd (hfile.symm.trans hforget) (by simp)
    have hfinish := finish_done (d := d) (by simpa [hfile] using hprivate)
    simp only [Files.of_forget] at hload
    refine ⟨w, ?_, ?_, hfinish.1, hfinish.2.final⟩
    · simp [egpStoreForgetPending, hload, hwifi]
    · simp [egpStoreForgetBegin, noFaults, hload, hwifi]
  · intro file hfile
    obtain ⟨w, hload, -⟩ := Readable.load J h.wifi hfile
    have hforget : d .forget = none := by
      rcases h.exclusive with hwifi | hforget
      · exact absurd (hfile.symm.trans hwifi) (by simp)
      · exact hforget
    have htombstone : loadWifiPath J none (d .forget) = .ok none := by
      rw [hforget]
      rfl
    simp only [Files.of_wifi] at hload
    have hbegin : egpStoreForgetBegin J noFaults d =
        ⟨[.rename .wifi .forget, .sync], forgetPrepared .committed, some (some w)⟩ := by
      simp [egpStoreForgetBegin, noFaults, htombstone, forgetLive, hload]
    rw [hbegin]
    exact ⟨w, rfl, of_rename_forget d⟩

/-! ## A run -/

/-- The request to join a network. -/
def labRequest : Bytes :=
  generate (.obj (members
    [(ascii "ssid", .str (ascii "lab")), (ascii "security", .str (ascii "psk")),
      (ascii "passphrase", .str (ascii "password")), (ascii "hidden", .bool false)]))

def labWifi : EgpWifiConfig := ⟨0, ascii "lab", ascii "psk", ascii "password", false⟩

/-- No step fails, and ConnMan connects. -/
def smoothApply : ApplyWifiEnv :=
  { authorizeAndIdle := .ok ()
    replace := ⟨0, none, none⟩
    raced := false
    apply := .applied
    restore := ⟨0, none, none, none⟩
    reconciled := true }

def connmanUnavailable : Failure :=
  ⟨egpErrorSet .connmanUnavailable true .none (ascii "ConnMan is unavailable"), by decide, rfl⟩

/-- No step fails, but ConnMan does not answer. -/
def unrevokedForget : ForgetWifiEnv :=
  { authorizeAndIdle := .ok ()
    begin := noFaults
    raced := false
    revoke := .error connmanUnavailable
    finish := none }

def joinLab : Event := .operation (.setWifi labRequest smoothApply)

def forgetLab : Event := .operation (.forgetWifi (ascii "{}") unrevokedForget)

/-- The store after a network was joined. -/
def joinedStore : Directory :=
  Directory.run (fun _ => none)
    (joinLab.acts JsonReader.referenceParser referenceLibrary fun _ => none)

/-- The store after its forget was left pending. -/
def pendingStore : Directory :=
  joinedStore.run (forgetLab.acts JsonReader.referenceParser referenceLibrary joinedStore)

/-- The store after the network was joined once more. -/
def conflictingStore : Directory :=
  pendingStore.run (joinLab.acts JsonReader.referenceParser referenceLibrary pendingStore)

theorem clean_joinLab :
    Clean JsonReader.referenceParser (fun _ => none) joinLab := by
  intro candidate previous hwrites
  have hlab : (parseWifi JsonReader.referenceParser labRequest).toOption = some labWifi := by
    decide +kernel
  rw [hwrites.request] at hlab
  rw [Option.some.inj hlab]
  exact ⟨rfl, by decide, by decide⟩

/-- In every run that writes no credential beside a tombstone and none that
spells the escape, forgetting is never blocked. -/
theorem forget_never_blocked {d : Directory} (h : Reach J N (Clean J) d) : Forgettable J d :=
  forgettable_of_sound J (sound_of_reach J N h)

theorem forget_never_blocked_pending :
    (pendingStore .forget).isSome = true ∧
      Forgettable JsonReader.referenceParser pendingStore := by
  have hjoined : Reach JsonReader.referenceParser referenceLibrary
      (Clean JsonReader.referenceParser) joinedStore := Reach.empty.complete joinLab clean_joinLab
  exact ⟨by decide +kernel, forget_never_blocked _ referenceLibrary
    (hjoined.complete forgetLab trivial)⟩

/-- A network that is joined while a forget is pending blocks every forget. -/
theorem joining_blocks_pending_forget :
    Reach JsonReader.referenceParser referenceLibrary (fun _ _ => True) conflictingStore ∧
      (conflictingStore .wifi).isSome = true ∧ (conflictingStore .forget).isSome = true ∧
      (egpStoreForgetBegin JsonReader.referenceParser noFaults conflictingStore).value.isSome =
        false := by
  have hjoined : Reach JsonReader.referenceParser referenceLibrary (fun _ _ => True)
      joinedStore := Reach.empty.complete joinLab trivial
  have hpending : Reach JsonReader.referenceParser referenceLibrary (fun _ _ => True)
      pendingStore := hjoined.complete forgetLab trivial
  exact ⟨hpending.complete joinLab trivial, by decide +kernel, by decide +kernel,
    by decide +kernel⟩

end EdgeGuard.Provisioning.StoreInvariant
