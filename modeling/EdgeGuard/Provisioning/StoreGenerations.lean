import EdgeGuard.Provisioning.CanonicalEndpoint
import EdgeGuard.Provisioning.StoreRecovery

/-!
# Generations

Both records of the store carry a generation, and a write counts on from the one
that it finds; a restored credential counts on from the greater of the live one
and its own.  A write that fails behind its rename has put its generation into
the file all the same, and a call that cannot read the file, or finds no number
left, writes nothing.  So as long as a file is not removed, what stands in it is
never below anything that stood in it before.

## Main results

* `advances_answer` — what one call does to the generation of a record.
* `highWater_history` — a record over a run of calls.
* `generations_rise` — every commit stores a new highest generation, and at the
  end of the range nothing is written.
-/

namespace EdgeGuard.Provisioning.StoreGenerations

open EdgeGuard.Base EdgeGuard.Base.CText EdgeGuard.Base.Json EdgeGuard.Base.JsonObject
open EdgeGuard.Base.Uri EdgeGuard.Base.DurableDirectory EdgeGuard.Base.Trace
open EdgeGuard.Provisioning.Model EdgeGuard.Provisioning.Store
open EdgeGuard.Provisioning.StoreRoundTrip EdgeGuard.Provisioning.StoreTransactions
open EdgeGuard.Provisioning.Endpoint EdgeGuard.Provisioning.RuntimeStore
open EdgeGuard.Provisioning.CanonicalEndpoint
open EdgeGuard.Provisioning.StoreRecovery (Op)

variable (J : JsonParser) (N : NetLibrary)

/-! ## Records -/

/-- The two files that carry a generation. -/
inductive Record
  | wifi
  | runtime
  deriving DecidableEq, Repr

def Record.name : Record → FileName
  | .wifi => .wifi
  | .runtime => .runtime

def Record.file : Record → Files → Option File
  | .wifi => Files.wifi
  | .runtime => Files.runtime

@[simp] theorem Record.file_of (record : Record) (d : Directory) :
    record.file (Files.of d) = d record.name := by
  cases record with
  | wifi => rfl
  | runtime => rfl

/-- The generation in a file as a JSON reader finds it, whatever the store makes of
the rest of the file. -/
def storedGeneration (file : Option File) : Option Int :=
  match file with
  | none => none
  | some file =>
      match J.load file.data with
      | some (.obj object) => integerMember object (ascii "generation")
      | _ => none

/-! ## Calls -/

/-- A generation that a call reports as committed. -/
structure Commit where
  record : Record
  generation : Nat
  deriving DecidableEq, Repr

def replyMap {α β : Type} (f : α → β) (r : Reply α) : Reply β :=
  ⟨r.acts, r.error, r.value.map f⟩

/-- What a call answers, and the generation that it hands back.  A removal commits
none. -/
def answer (d : Directory) : Op → Reply (Option Commit)
  | .replaceWifi io candidate =>
      replyMap (fun v => some ⟨.wifi, v.committedGeneration⟩)
        (egpStoreReplaceWifi J io d candidate)
  | .replaceRuntime io candidateUrl =>
      replyMap (fun v => some ⟨.runtime, v.committed.generation⟩)
        (egpStoreReplaceRuntime J N io d candidateUrl)
  | .restoreWifi io (some previous) =>
      replyMap (fun generation => some ⟨.wifi, generation⟩)
        (egpStoreRestoreWifi J io d (some previous))
  | .restoreWifi io none => replyMap (fun _ => none) (egpStoreRestoreWifi J io d none)
  | .forgetBegin io => replyMap (fun _ => none) (egpStoreForgetBegin J io d)
  | .forgetFinish fault => replyMap (fun _ => none) (egpStoreForgetFinish fault d)

theorem acts_answer (d : Directory) (op : Op) : (answer J N d op).acts = op.acts J N d := by
  cases op with
  | restoreWifi io previous =>
      cases previous with
      | none => rfl
      | some previous => rfl
  | replaceWifi io candidate => rfl
  | replaceRuntime io candidateUrl => rfl
  | forgetBegin io => rfl
  | forgetFinish fault => rfl

/-- The acts of calls that follow each other. -/
def history (d : Directory) : List Op → List Act
  | [] => []
  | op :: ops => op.acts J N d ++ history (d.run (op.acts J N d)) ops

def after (d : Directory) (ops : List Op) : Directory := d.run (history J N d ops)

/-- No call removes the file of the record. -/
def Kept (record : Record) (d : Directory) : List Op → Prop
  | [] => True
  | op :: ops =>
      ((d record.name).isSome → (d.run (op.acts J N d) record.name).isSome) ∧
        Kept record (d.run (op.acts J N d)) ops

/-! ## Generations in files -/

theorem storedGeneration_credentialFile {w : EgpWifiConfig} (h : StoreRoundTrip.Storable w) :
    storedGeneration J (some (credentialFile w)) = some (w.generation : Int) := by
  have hload : J.load (serializeWifi w) = some (.obj (wifiMembers w)) :=
    J.load_generate _ (writable_wifiMembers h) (inRange_wifiMembers h)
  have hgeneration : integerMember (wifiMembers w) (ascii "generation") =
      some (gint64 w.generation) := rfl
  rw [gint64_of_le h.bounded] at hgeneration
  simp only [storedGeneration, credentialFile, hload, hgeneration]

theorem storedGeneration_runtimeFile {runtime : EgpRuntimeConfig}
    (h : CanonicalEndpoint.Storable N runtime) :
    storedGeneration J (some (runtimeFile runtime)) = some (runtime.generation : Int) := by
  have hload : J.load (serializeRuntime runtime) = some (.obj (runtimeMembers runtime)) :=
    J.load_generate _ (writable_runtimeMembers h) (inRange_runtimeMembers h)
  have hgeneration : integerMember (runtimeMembers runtime) (ascii "generation") =
      some (gint64 runtime.generation) := rfl
  rw [gint64_of_le h.bounded] at hgeneration
  simp only [storedGeneration, runtimeFile, hload, hgeneration]

private theorem parseWifiData_object {data : Bytes} {w : EgpWifiConfig}
    (h : parseWifiData J data = .ok w) :
    ∃ object, J.load data = some (.obj object) ∧ wifiOfObject object = some w := by
  unfold parseWifiData at h
  split at h
  · cases h
  · rename_i object hroot
    have hload : J.load data = some (.obj object) := by
      unfold parseRoot at hroot
      split at hroot
      · cases hroot
      · split at hroot
        · rename_i hload
          split at hroot
          · cases hroot
          · rwa [Option.some.inj hroot] at hload
        · cases hroot
    split at h
    · cases h
    · split at h
      · cases h
      · rename_i wifi hobject
        split at h
        · cases h
          exact ⟨object, hload, hobject⟩
        · cases h

/-- What a load returns as the generation is what stands in the file. -/
theorem storedGeneration_of_load {fault : Option ReadStep} {file : Option File}
    {previous : Option EgpWifiConfig} (h : loadWifiPath J fault file = .ok previous) :
    storedGeneration J file = previous.map fun w => (w.generation : Int) := by
  unfold loadWifiPath at h
  split at h
  · cases h
  · rename_i hread
    cases h
    have hfile := (read_ok hread).2.1
    cases file with
    | none => rfl
    | some file => cases hfile
  · rename_i data hread
    have hfile := (read_ok hread).2.1
    cases hparse : parseWifiData J data with
    | error cause =>
        rw [hparse] at h
        cases h
    | ok w =>
        rw [hparse] at h
        cases h
        obtain ⟨object, hload, hobject⟩ := parseWifiData_object J hparse
        cases file with
        | none => cases hfile
        | some file =>
            cases hfile
            simp only [storedGeneration, hload, Option.map_some]
            exact (wifiOfObject_some hobject).1

theorem storedGeneration_of_loadRuntime {fault : Option ReadStep} {file : Option File}
    {previous : Option EgpRuntimeConfig} (h : loadRuntimePath J N fault file = .ok previous) :
    storedGeneration J file = previous.map fun runtime => (runtime.generation : Int) := by
  unfold loadRuntimePath at h
  split at h
  · cases h
  · rename_i hread
    cases h
    have hfile := (read_ok hread).2.1
    cases file with
    | none => rfl
    | some file => cases hfile
  · rename_i data hread
    have hfile := (read_ok hread).2.1
    cases hparse : egpRuntimeParseJson J N data with
    | error cause =>
        rw [hparse] at h
        cases h
    | ok runtime =>
        rw [hparse] at h
        cases h
        obtain ⟨object, hload, hobject⟩ := runtimeParse_object hparse
        cases file with
        | none => cases hfile
        | some file =>
            cases hfile
            simp only [storedGeneration, hload, Option.map_some]
            exact (runtimeOfObject_some hobject).1

/-! ## One call -/

/-- The file holds the generation, which is in range and above the one in the file
before it. -/
structure Succeeds (before now : Option File) (generation : Nat) : Prop where
  positive : 1 ≤ generation
  bounded : generation ≤ egpJsonUintMax
  stored : storedGeneration J now = some (generation : Int)
  above : ∀ v, storedGeneration J before = some v → v < generation

/-- What a call does to the file of a record: it shows nothing but the file before
and the file behind it, the latter is the former, none, or a new generation, and a
reported commit is such a generation. -/
structure Advances (record : Record) (d : Directory) (r : Reply (Option Commit)) : Prop where
  between : ∀ n, d.run (r.acts.take n) record.name = d record.name ∨
    d.run (r.acts.take n) record.name = d.run r.acts record.name
  next : d.run r.acts record.name = d record.name ∨ d.run r.acts record.name = none ∨
    ∃ generation, Succeeds J (d record.name) (d.run r.acts record.name) generation
  commits : ∀ generation, r.value = some (some ⟨record, generation⟩) →
    Succeeds J (d record.name) (d.run r.acts record.name) generation

variable {record : Record} {d : Directory}

/-- At each act the record is the old one or the new one. -/
theorem between_of_changes {g : Files} {acts : List Act} (h : Changes d g acts) (n : Nat) :
    d.run (acts.take n) record.name = d record.name ∨
      d.run (acts.take n) record.name = d.run acts record.name := by
  have hfinal := congrArg record.file h.final
  rcases h.between n with hn | hn
  · left
    simpa using congrArg record.file hn
  · right
    have hfile := congrArg record.file hn
    rw [← hfinal] at hfile
    simpa using hfile

private theorem advances_of_refused {r : Reply (Option Commit)} (h : Refused d r) :
    Advances J record d r where
  between := between_of_changes h.changes
  next := .inl (by simpa using congrArg record.file h.changes.final)
  commits := by
    intro generation hvalue
    rw [h.value] at hvalue
    cases hvalue

theorem refused_replyMap {α β : Type} {r : Reply α} (h : Refused d r) (f : α → β) :
    Refused d (replyMap f r) :=
  ⟨by simp [replyMap, h.value], h.code, h.change, h.changes⟩

/-- A transaction that leads to the files `g`. -/
private theorem advances_of_outcome {α : Type} {g : Files} {v : α} {r : Reply α}
    (h : Outcome d g v r) (f : α → Option Commit)
    (hnext : record.file g = d record.name ∨ record.file g = none ∨
      ∃ generation, Succeeds J (d record.name) (record.file g) generation)
    (hcommits : ∀ generation, f v = some ⟨record, generation⟩ →
      Succeeds J (d record.name) (record.file g) generation) :
    Advances J record d (replyMap f r) := by
  have hfile : ∀ {acts : List Act}, Changes d g acts → record.file g = d.run acts record.name := by
    intro acts hchanges
    rw [← Record.file_of record (d.run acts), hchanges.final]
  cases h with
  | refused h => exact advances_of_refused J (refused_replyMap h f)
  | uncertain h =>
      refine ⟨between_of_changes h.changes, ?_, ?_⟩
      · rwa [hfile h.changes] at hnext
      · intro generation hvalue
        simp [replyMap, h.value] at hvalue
  | done value changes =>
      refine ⟨between_of_changes changes, ?_, ?_⟩
      · rwa [hfile changes] at hnext
      · intro generation hvalue
        rw [hfile changes] at hcommits
        apply hcommits
        simpa [replyMap, value] using hvalue

/-- A written credential whose generation is above the one it replaces. -/
private theorem advances_wifi {α : Type} {w : EgpWifiConfig} {v : α} {r : Reply α}
    (h : Outcome d ((Files.of d).withWifi w) v r) {f : α → Option Commit}
    (hf : f v = some ⟨.wifi, w.generation⟩) (hstorable : StoreRoundTrip.Storable w)
    (habove : ∀ u, storedGeneration J (d .wifi) = some u → u < w.generation) :
    Advances J record d (replyMap f r) := by
  cases record with
  | wifi =>
      have hsucceeds : Succeeds J (d .wifi) (some (credentialFile w)) w.generation :=
        ⟨hstorable.positive, hstorable.bounded, storedGeneration_credentialFile J hstorable,
          habove⟩
      refine advances_of_outcome J h f (.inr (.inr ⟨_, hsucceeds⟩)) ?_
      intro generation hcommit
      rw [hf] at hcommit
      cases hcommit
      exact hsucceeds
  | runtime =>
      refine advances_of_outcome J h f (.inl rfl) ?_
      intro generation hcommit
      rw [hf] at hcommit
      cases hcommit

/-- A replacement of the network leaves its record or takes it to a new generation. -/
theorem advances_replaceWifi (io : ReplaceIo) (candidate : EgpWifiConfig) :
    Advances J record d (answer J N d (.replaceWifi io candidate)) := by
  rcases replaceOutcome J io d candidate with hr | ⟨previous, hvalid, hload, hroom, houtcome⟩
  · exact advances_of_refused J (refused_replyMap hr _)
  · refine advances_wifi J houtcome rfl (storable_nextWifi hvalid hroom) ?_
    intro u hu
    rw [storedGeneration_of_load J hload] at hu
    cases previous with
    | none => cases hu
    | some previous =>
        cases hu
        simp only [nextWifi, Option.elim_some]
        omega

/-- A restore of the network does the same, or removes the record. -/
theorem advances_restoreWifi (io : RestoreIo) (previous : Option EgpWifiConfig) :
    Advances J record d (answer J N d (.restoreWifi io previous)) := by
  cases previous with
  | some previous =>
      rcases restoreOutcome J io d previous with hr | ⟨current, hvalid, hload, hroom, houtcome⟩
      · exact advances_of_refused J (refused_replyMap hr _)
      · refine advances_wifi J houtcome rfl (storable_restoredWifi hvalid hroom) ?_
        intro u hu
        rw [storedGeneration_of_load J hload] at hu
        cases current with
        | none => cases hu
        | some current =>
            cases hu
            simp only [restoredWifi, rollbackBase, Option.elim_some]
            omega
  | none =>
      have hnone : ∀ generation : Nat, none ≠ some (Commit.mk record generation) := by simp
      cases record with
      | wifi =>
          exact advances_of_outcome J (absenceOutcome J io d) _ (.inr (.inl rfl))
            fun generation hcommit => absurd hcommit (hnone generation)
      | runtime =>
          exact advances_of_outcome J (absenceOutcome J io d) _ (.inl rfl)
            fun generation hcommit => absurd hcommit (hnone generation)

/-- A replacement of the endpoint leaves its record or takes it to a new generation. -/
theorem advances_replaceRuntime (io : ReplaceIo) (candidateUrl : Bytes) :
    Advances J record d (answer J N d (.replaceRuntime io candidateUrl)) := by
  rcases replaceRuntimeCases J N io d candidateUrl with
    hr | ⟨url, previous, hurl, hload, hroom, houtcome⟩
  · exact advances_of_refused J (refused_replyMap hr _)
  · have hstorable := storable_nextRuntime hurl hroom
    have habove : ∀ u, storedGeneration J (d .runtime) = some u →
        u < (nextRuntime url previous).generation := by
      intro u hu
      rw [storedGeneration_of_loadRuntime J N hload] at hu
      cases previous with
      | none => cases hu
      | some previous =>
          cases hu
          simp only [nextRuntime, Option.elim_some]
          omega
    cases record with
    | wifi =>
        refine advances_of_outcome J houtcome _ (.inl rfl) ?_
        intro generation hcommit
        cases hcommit
    | runtime =>
        have hsucceeds : Succeeds J (d .runtime) (some (runtimeFile (nextRuntime url previous)))
            (nextRuntime url previous).generation :=
          ⟨hstorable.positive, hstorable.bounded, storedGeneration_runtimeFile J N hstorable,
            habove⟩
        refine advances_of_outcome J houtcome _ (.inr (.inr ⟨_, hsucceeds⟩)) ?_
        intro generation hcommit
        cases hcommit
        exact hsucceeds

/-- A call without acts leaves the record. -/
private theorem advances_of_nil {α : Type} {r : Reply α} (h : r.acts = []) :
    Advances J record d (replyMap (fun _ => none) r) := by
  have hacts : (replyMap (fun _ : α => (none : Option Commit)) r).acts = [] := h
  refine ⟨fun n => .inl ?_, .inl ?_, fun generation hvalue => ?_⟩
  · rw [hacts, List.take_nil]
    rfl
  · rw [hacts]
    rfl
  · cases hr : r.value with
    | none => simp [replyMap, hr] at hvalue
    | some v => simp [replyMap, hr] at hvalue

/-- The begin of a forget leaves the record of the network or removes it. -/
theorem advances_forgetBegin (io : ForgetBeginIo) :
    Advances J record d (answer J N d (.forgetBegin io)) := by
  cases forgetBeginOutcome J io d with
  | refused hr => exact advances_of_refused J (refused_replyMap hr _)
  | pending w tombstone wifi value acts => exact advances_of_nil J acts
  | absent tombstone wifi value acts => exact advances_of_nil J acts
  | live w tombstone wifi outcome commit =>
      cases record with
      | wifi =>
          refine advances_of_outcome J outcome _ (.inr (.inl rfl)) ?_
          intro generation hcommit
          cases hcommit
      | runtime =>
          refine advances_of_outcome J outcome _ (.inl rfl) ?_
          intro generation hcommit
          cases hcommit

/-- The finish of a forget touches no record. -/
theorem advances_forgetFinish (fault : Option FinishStep) :
    Advances J record d (answer J N d (.forgetFinish fault)) := by
  cases record with
  | wifi =>
      refine advances_of_outcome J (forgetFinishOutcome fault d) _ (.inl rfl) ?_
      intro generation hcommit
      cases hcommit
  | runtime =>
      refine advances_of_outcome J (forgetFinishOutcome fault d) _ (.inl rfl) ?_
      intro generation hcommit
      cases hcommit

/-- Each call of the store leaves a record, removes it or takes it to a new generation. -/
theorem advances_answer (record : Record) (d : Directory) (op : Op) :
    Advances J record d (answer J N d op) := by
  cases op with
  | replaceWifi io candidate => exact advances_replaceWifi J N io candidate
  | replaceRuntime io candidateUrl => exact advances_replaceRuntime J N io candidateUrl
  | restoreWifi io previous => exact advances_restoreWifi J N io previous
  | forgetBegin io => exact advances_forgetBegin J N io
  | forgetFinish fault => exact advances_forgetFinish J N fault

/-! ## Runs of calls -/

/-- The generation in the file of a record. -/
def level (record : Record) (d : Directory) : Option Int := storedGeneration J (d record.name)

/-- A call that does not remove the file leaves nothing lower in it. -/
theorem Advances.highWater {r : Reply (Option Commit)} (h : Advances J record d r)
    (hkept : (d record.name).isSome → (d.run r.acts record.name).isSome) :
    HighWater perform (level J record) d r.acts := by
  refine highWater_of_ends (fun n => ?_) (fun v hv => ?_)
  · rcases h.between n with hn | hn
    · exact .inl (congrArg (storedGeneration J) hn)
    · exact .inr (congrArg (storedGeneration J) hn)
  · rcases h.next with hsame | hnone | ⟨generation, hsucceeds⟩
    · exact ⟨v, (congrArg (storedGeneration J) hsame).trans hv, Std.le_refl v⟩
    · have hfile : (d record.name).isSome := by
        cases hd : d record.name with
        | none => simp [level, hd, storedGeneration] at hv
        | some file => rfl
      rw [hnone] at hkept
      exact absurd (hkept hfile) (by simp)
    · exact ⟨generation, hsucceeds.stored, Int.le_of_lt (hsucceeds.above v hv)⟩

/-- No generation is issued twice over a history of calls. -/
theorem highWater_history (record : Record) (d : Directory) (ops : List Op)
    (hkept : Kept J N record d ops) :
    HighWater perform (level J record) d (history J N d ops) := by
  induction ops generalizing d with
  | nil => exact highWater_nil
  | cons op ops ih =>
      obtain ⟨hfirst, hrest⟩ := hkept
      have hadvances := advances_answer J N record d op
      rw [← acts_answer] at hfirst
      have hcall := hadvances.highWater J hfirst
      rw [acts_answer] at hcall
      exact hcall.append (ih _ hrest)

/-! ## The end of the range -/

/-- The largest generation, or one that no reader accepts, stands in the file. -/
def AtTop (file : Option File) : Prop :=
  ∃ v, storedGeneration J file = some v ∧ (egpJsonUintMax : Int) ≤ v

/-- The call would have to count on from the end of the range. -/
def Exhausted (d : Directory) : Op → Prop
  | .replaceWifi _ _ => AtTop J (d .wifi)
  | .replaceRuntime _ _ => AtTop J (d .runtime)
  | .restoreWifi _ (some previous) => AtTop J (d .wifi) ∨ egpJsonUintMax ≤ previous.generation
  | _ => False

/-- A load from a file at the top leaves no room behind it. -/
private theorem exhausted_load {fault : Option ReadStep} {previous : Option EgpWifiConfig}
    (htop : AtTop J (d .wifi)) (hload : loadWifiPath J fault (d .wifi) = .ok previous) :
    ∃ w, previous = some w ∧ egpJsonUintMax ≤ w.generation := by
  obtain ⟨v, hv, hmax⟩ := htop
  rw [storedGeneration_of_load J hload] at hv
  cases previous with
  | none => cases hv
  | some w =>
      cases hv
      exact ⟨w, rfl, Int.ofNat_le.mp hmax⟩

/-- Past the last generation every call is refused. -/
theorem refused_of_exhausted {op : Op} (h : Exhausted J d op) :
    Refused d (answer J N d op) := by
  cases op with
  | replaceWifi io candidate =>
      rcases replaceOutcome J io d candidate with hr | ⟨previous, -, hload, hroom, -⟩
      · exact refused_replyMap hr _
      · obtain ⟨w, rfl, hmax⟩ := exhausted_load J h hload
        have hlt : w.generation < egpJsonUintMax := by simpa [hasRoom] using hroom
        omega
  | replaceRuntime io candidateUrl =>
      rcases replaceRuntimeCases J N io d candidateUrl with
        hr | ⟨url, previous, -, hload, hroom, -⟩
      · exact refused_replyMap hr _
      · obtain ⟨v, hv, hmax⟩ := h
        rw [storedGeneration_of_loadRuntime J N hload] at hv
        cases previous with
        | none => cases hv
        | some previous =>
            cases hv
            have hlt : previous.generation < egpJsonUintMax := by
              simpa [runtimeHasRoom] using hroom
            exact absurd (Int.ofNat_le.mp hmax) (Nat.not_le.mpr hlt)
  | restoreWifi io previous =>
      cases previous with
      | none => exact absurd h id
      | some previous =>
          rcases restoreOutcome J io d previous with hr | ⟨current, -, hload, hroom, -⟩
          · exact refused_replyMap hr _
          · unfold rollbackBase at hroom
            rcases h with htop | hprevious
            · obtain ⟨w, rfl, hmax⟩ := exhausted_load J htop hload
              simp only [Option.elim_some] at hroom
              omega
            · omega
  | forgetBegin io => exact absurd h id
  | forgetFinish fault => exact absurd h id

/-- Every commit stores a generation in range and above everything that its file held
before, at any point of the calls in front of it; and a call at the end of the range is
refused and changes nothing. -/
theorem generations_rise (J : JsonParser) (N : NetLibrary) (d : Directory) (ops : List Op)
    (op : Op) :
    (∀ record generation,
      (answer J N (after J N d ops) op).value = some (some ⟨record, generation⟩) →
      Kept J N record d ops →
        1 ≤ generation ∧ generation ≤ egpJsonUintMax ∧
        storedGeneration J (((after J N d ops).run (op.acts J N (after J N d ops))) record.name) =
          some (generation : Int) ∧
        ∀ n v, storedGeneration J (d.run ((history J N d ops).take n) record.name) = some v →
          v < generation) ∧
      (Exhausted J (after J N d ops) op →
        Refused (after J N d ops) (answer J N (after J N d ops) op)) := by
  constructor
  · intro record generation hvalue hkept
    have hsucceeds := (advances_answer J N record (after J N d ops) op).commits _ hvalue
    rw [acts_answer] at hsucceeds
    refine ⟨hsucceeds.positive, hsucceeds.bounded, hsucceeds.stored, fun n v hv => ?_⟩
    obtain ⟨w, hw, hvw⟩ := highWater_history J N record d ops hkept n v hv
    exact Int.lt_of_le_of_lt hvw (hsucceeds.above w hw)
  · exact refused_of_exhausted J N

/-- A replacement that fails at its last step. -/
def lateFailure : Op :=
  .replaceWifi ⟨0, none, some ⟨.directoryFsync, false⟩⟩ StoreInvariant.labWifi

def replacement : Op := .replaceWifi ⟨1, none, none⟩ StoreInvariant.labWifi

/-- An empty store behind the failed write. -/
def failedStore : Directory :=
  after JsonReader.referenceParser referenceLibrary (fun _ => none) [lateFailure]

/-- A credential of the last generation. -/
def lastWifi : EgpWifiConfig := { StoreInvariant.labWifi with generation := egpJsonUintMax }

/-- The generation of a failed write is not used again, and nothing follows the last
one. -/
theorem generations_rise_failed_write :
    storedGeneration JsonReader.referenceParser (failedStore .wifi) = some 1 ∧
      (answer JsonReader.referenceParser referenceLibrary failedStore replacement).value =
        some (some ⟨.wifi, 2⟩) ∧
      (∀ n v, storedGeneration JsonReader.referenceParser
        (Directory.run (fun _ => none) ((history JsonReader.referenceParser referenceLibrary
          (fun _ => none) [lateFailure]).take n) .wifi) = some v → v < 2) ∧
      (answer JsonReader.referenceParser referenceLibrary (onlyWifi lastWifi)
        replacement).value = none := by
  have hcommit : (answer JsonReader.referenceParser referenceLibrary failedStore
      replacement).value = some (some ⟨.wifi, 2⟩) := by decide +kernel
  have hkept : Kept JsonReader.referenceParser referenceLibrary .wifi (fun _ => none)
      [lateFailure] := ⟨fun h => absurd h (by simp), trivial⟩
  have hrise := (generations_rise JsonReader.referenceParser referenceLibrary (fun _ => none)
    [lateFailure] replacement).1 .wifi 2 hcommit hkept
  have hlast : StoreRoundTrip.Storable lastWifi := ⟨by decide, by decide, Nat.le_refl _⟩
  have htop : Exhausted JsonReader.referenceParser
      (after JsonReader.referenceParser referenceLibrary (onlyWifi lastWifi) []) replacement := by
    refine ⟨egpJsonUintMax, ?_, Int.le_refl _⟩
    exact storedGeneration_credentialFile JsonReader.referenceParser hlast
  have hrefused := (generations_rise JsonReader.referenceParser referenceLibrary
    (onlyWifi lastWifi) [] replacement).2 htop
  exact ⟨by decide +kernel, hcommit, hrise.2.2.2, hrefused.value⟩

end EdgeGuard.Provisioning.StoreGenerations
