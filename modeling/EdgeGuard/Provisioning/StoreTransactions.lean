import EdgeGuard.Provisioning.StoreRoundTrip

/-!
# What the store's transactions do

One lemma for each function of the store, over every failing step: what it did
to the three files that carry the configuration, what it reports and what it
returns.  `.wifi.json.rollback` and the temporary files are left out of
`Files`: no function reads them, and the scan at the next opening removes them.

Every transaction changes what `Files` shows in one act at most, so a crash in
the middle of one shows the files before it or the files after it (`Changes`).

## Main results

* `writeOutcome`, `replaceOutcome`, `restoreOutcome`, `forgetBeginOutcome`,
  `forgetFinishOutcome` — the ends of the transactions.
* `Changes.keeps` — the crash rule.
* `usable_iff` — a committed credential can be loaded, replaced and forgotten
  exactly when it does not spell the escape and a generation is left.
-/

namespace EdgeGuard.Provisioning.StoreTransactions

open EdgeGuard.Base EdgeGuard.Base.CText EdgeGuard.Base.Json EdgeGuard.Base.JsonObject
open EdgeGuard.Base.DurableDirectory
open EdgeGuard.Provisioning.Model EdgeGuard.Provisioning.Store
open EdgeGuard.Provisioning.StoreRoundTrip

/-! ## The files that carry the configuration -/

@[ext] structure Files where
  wifi : Option File
  runtime : Option File
  forget : Option File

def Files.of (d : Directory) : Files := ⟨d .wifi, d .runtime, d .forget⟩

@[simp] theorem Files.of_wifi (d : Directory) : (Files.of d).wifi = d .wifi := rfl

@[simp] theorem Files.of_runtime (d : Directory) : (Files.of d).runtime = d .runtime := rfl

@[simp] theorem Files.of_forget (d : Directory) : (Files.of d).forget = d .forget := rfl

/-- The files with a new content under a name. -/
def Files.put (f : Files) (name : FileName) (file : File) : Files :=
  match name with
  | .wifi => { f with wifi := some file }
  | .runtime => { f with runtime := some file }
  | .forget => { f with forget := some file }
  | .rollback | .temporary _ => f

/-- The act changes none of the files. -/
def Quiet (a : Act) : Prop := ∀ d, Files.of (perform d a) = Files.of d

theorem quiet_sync : Quiet .sync := fun _ => rfl

theorem quiet_replace_temporary (id : Nat) (file : File) :
    Quiet (.replace (.temporary id) file) := fun d => by simp [Files.of, perform]

theorem quiet_unlink_temporary (id : Nat) : Quiet (.unlink (.temporary id)) :=
  fun d => by simp [Files.of, perform]

theorem quiet_unlink_rollback : Quiet (.unlink .rollback) :=
  fun d => by simp [Files.of, perform]

theorem of_rename_temporary {d : Directory} {id : Nat} {name : FileName} {file : File}
    (h : d (.temporary id) = some file) :
    Files.of (perform d (.rename (.temporary id) name)) = (Files.of d).put name file := by
  cases name <;> simp [Files.of, Files.put, perform, h]

theorem of_rename_rollback (d : Directory) :
    Files.of (perform d (.rename .wifi .rollback)) = { Files.of d with wifi := none } := by
  simp [Files.of, perform]

theorem of_rename_forget (d : Directory) :
    Files.of (perform d (.rename .wifi .forget)) =
      { Files.of d with wifi := none, forget := d .wifi } := by
  simp [Files.of, perform]

theorem of_unlink_forget (d : Directory) :
    Files.of (perform d (.unlink .forget)) = { Files.of d with forget := none } := by
  simp [Files.of, perform]

theorem of_run_quiet {acts : List Act} (h : ∀ a ∈ acts, Quiet a) (d : Directory) :
    Files.of (d.run acts) = Files.of d := by
  induction acts generalizing d with
  | nil => rfl
  | cons a acts ih =>
      rw [Directory.run, Trace.run_cons, ← Directory.run, ih fun b hb => h b (by simp [hb])]
      exact h a (by simp) d

/-! ## Changes seen from outside -/

/-- The acts lead to the files `g`, and show the files before or `g` wherever
they are interrupted. -/
structure Changes (d : Directory) (g : Files) (acts : List Act) : Prop where
  final : Files.of (d.run acts) = g
  between : ∀ n, Files.of (d.run (acts.take n)) = Files.of d ∨
    Files.of (d.run (acts.take n)) = g

theorem changes_of_quiet {acts : List Act} (h : ∀ a ∈ acts, Quiet a) (d : Directory) :
    Changes d (Files.of d) acts := by
  refine ⟨of_run_quiet h d, fun n => .inl ?_⟩
  exact of_run_quiet (fun a ha => h a (List.mem_of_mem_take ha)) d

theorem changes_nil (d : Directory) : Changes d (Files.of d) [] :=
  changes_of_quiet (by simp) d

/-- One visible act between quiet ones. -/
theorem changes_of_visible (before : List Act) {after : List Act} {a : Act} {d : Directory}
    {g : Files}
    (hbefore : ∀ b ∈ before, Quiet b) (hafter : ∀ b ∈ after, Quiet b)
    (ha : Files.of (perform (d.run before) a) = g) : Changes d g (before ++ a :: after) := by
  have hrun : ∀ rest, (∀ b ∈ rest, Quiet b) → Files.of (d.run (before ++ a :: rest)) = g := by
    intro rest hrest
    rw [Directory.run, Trace.run_append, Trace.run_cons, ← Directory.run, ← Directory.run,
      of_run_quiet hrest, ha]
  refine ⟨hrun after hafter, fun n => ?_⟩
  rcases Nat.lt_or_ge before.length n with hn | hn
  · right
    obtain ⟨k, rfl⟩ : ∃ k, n = before.length + (k + 1) := ⟨n - before.length - 1, by omega⟩
    rw [List.take_length_add_append, List.take_succ_cons]
    exact hrun _ fun b hb => hafter b (List.mem_of_mem_take hb)
  · left
    rw [List.take_append_of_le_length hn]
    exact of_run_quiet (fun b hb => hbefore b (List.mem_of_mem_take hb)) d

/-- A property of the files that holds before and after holds wherever the
acts are interrupted. -/
theorem Changes.keeps {P : Files → Prop} {d : Directory} {g : Files} {acts : List Act}
    (h : Changes d g acts) (hold : P (Files.of d)) (hnew : P g) :
    Trace.Keeps perform (fun d => P (Files.of d)) d acts := by
  intro n
  rcases h.between n with hn | hn
  · rw [← Directory.run, hn]
    exact hold
  · rw [← Directory.run, hn]
    exact hnew

/-- A failed call that changed nothing and says so. -/
structure Refused {α : Type} (d : Directory) (r : Reply α) : Prop where
  value : r.value = none
  code : r.error.code ≠ .none
  change : r.error.persistentChange = .none
  changes : Changes d (Files.of d) r.acts

theorem refused_fail {α : Type} {d : Directory} {error : EgpError}
    (hcode : error.code ≠ .none) (hchange : error.persistentChange = .none) :
    Refused d (Reply.fail (α := α) [] error) :=
  ⟨rfl, hcode, hchange, changes_nil d⟩

/-- A failed call that left the files `g` and does not know whether they last. -/
structure Uncertain {α : Type} (d : Directory) (g : Files) (r : Reply α) : Prop where
  value : r.value = none
  code : r.error.code ≠ .none
  change : r.error.persistentChange = .uncertain
  changes : Changes d g r.acts

/-- The three ends of a transaction that leads to the files `g`. -/
inductive Outcome {α : Type} (d : Directory) (g : Files) (v : α) (r : Reply α) : Prop
  | refused (h : Refused d r)
  | uncertain (h : Uncertain d g r)
  | done (value : r.value = some v) (changes : Changes d g r.acts)

theorem setWriteError_code_ne (renamed : Bool) (message : Bytes) :
    (setWriteError renamed message).code ≠ .none := by
  simp [setWriteError]

/-! A failed inner call is the failure of the outer one. -/

theorem finish_of_none {α : Type} {r : Reply Unit} (h : r.value = none) (error : EgpError)
    (v : α) : r.finish error v = ⟨r.acts, r.error, none⟩ := by
  simp [Reply.finish, h]

theorem finish_of_some {α : Type} {r : Reply Unit} (h : r.value = some ()) (error : EgpError)
    (v : α) : r.finish error v = ⟨r.acts, error, some v⟩ := by
  simp [Reply.finish, h]

theorem Refused.finish {α : Type} {d : Directory} {r : Reply Unit} (h : Refused d r)
    (error : EgpError) (v : α) : Refused d (r.finish error v) := by
  rw [finish_of_none h.value]
  exact ⟨rfl, h.code, h.change, h.changes⟩

theorem Uncertain.finish {α : Type} {d : Directory} {g : Files} {r : Reply Unit}
    (h : Uncertain d g r) (error : EgpError) (v : α) : Uncertain d g (r.finish error v) := by
  rw [finish_of_none h.value]
  exact ⟨rfl, h.code, h.change, h.changes⟩

theorem Outcome.finish {α : Type} {d : Directory} {g : Files} {r : Reply Unit}
    (h : Outcome d g () r) (error : EgpError) (v : α) :
    Outcome d g v (r.finish error v) := by
  cases h with
  | refused h => exact .refused (h.finish error v)
  | uncertain h => exact .uncertain (h.finish error v)
  | done value changes =>
      rw [finish_of_some value]
      exact .done rfl changes

/-- A transaction that returned something is done. -/
theorem Outcome.of_value {α : Type} {d : Directory} {g : Files} {v w : α} {r : Reply α}
    (h : Outcome d g v r) (hvalue : r.value = some w) :
    w = v ∧ Files.of (d.run r.acts) = g := by
  cases h with
  | refused h => exact absurd (h.value.symm.trans hvalue) (by simp)
  | uncertain h => exact absurd (h.value.symm.trans hvalue) (by simp)
  | done value changes => exact ⟨Option.some.inj (hvalue.symm.trans value), changes.final⟩

theorem Refused.keeps {α : Type} {P : Files → Prop} {d : Directory} {r : Reply α}
    (h : Refused d r) (hold : P (Files.of d)) :
    Trace.Keeps perform (fun d => P (Files.of d)) d r.acts :=
  h.changes.keeps hold hold

theorem Outcome.keeps {α : Type} {P : Files → Prop} {d : Directory} {g : Files} {v : α}
    {r : Reply α} (h : Outcome d g v r) (hold : P (Files.of d)) (hnew : P g) :
    Trace.Keeps perform (fun d => P (Files.of d)) d r.acts := by
  cases h with
  | refused h => exact h.keeps hold
  | uncertain h => exact h.changes.keeps hold hnew
  | done _ changes => exact changes.keeps hold hnew

/-! ## Atomic writes -/

private theorem quiet_written (id : Nat) (data : Bytes) :
    ∀ a ∈ ([.replace (.temporary id) ⟨true, []⟩,
      .replace (.temporary id) ⟨true, data⟩] : List Act), Quiet a := by
  intro a ha
  simp only [List.mem_cons, List.not_mem_nil, or_false] at ha
  rcases ha with rfl | rfl
  · exact quiet_replace_temporary id _
  · exact quiet_replace_temporary id _

private theorem quiet_cleanup (id : Nat) (leftover : Bool) :
    ∀ a ∈ (if leftover then [] else [.unlink (.temporary id)] : List Act), Quiet a := by
  intro a ha
  cases leftover with
  | true => simp at ha
  | false =>
      simp only [Bool.false_eq_true, if_false, List.mem_singleton] at ha
      rw [ha]
      exact quiet_unlink_temporary id

private theorem changes_written (d : Directory) (id : Nat) (name : FileName) (data : Bytes)
    {after : List Act} (hafter : ∀ a ∈ after, Quiet a) :
    Changes d ((Files.of d).put name ⟨true, data⟩)
      ([.replace (.temporary id) ⟨true, []⟩, .replace (.temporary id) ⟨true, data⟩] ++
        .rename (.temporary id) name :: after) := by
  have hcontent : d.run [.replace (.temporary id) ⟨true, []⟩,
      .replace (.temporary id) ⟨true, data⟩] (.temporary id) = some ⟨true, data⟩ := by
    simp [Directory.run, perform]
  refine changes_of_visible _ (quiet_written id data) hafter ?_
  rw [of_rename_temporary hcontent, of_run_quiet (quiet_written id data)]

private theorem changes_unfinished {d : Directory} {id : Nat} {before : List Act}
    (h : ∀ a ∈ before, Quiet a) (leftover : Bool) :
    Changes d (Files.of d)
      (before ++ if leftover then [] else [.unlink (.temporary id)]) := by
  refine changes_of_quiet (fun a ha => ?_) d
  rcases List.mem_append.mp ha with ha | ha
  · exact h a ha
  · exact quiet_cleanup id leftover a ha

/-- A write gets as far as its rename: no fault in front of it, a private file
or none in its place, and a temporary name that is free. -/
def writeReaches (fault : Option WriteFault) (id : Nat) (d : Directory) (name : FileName) :
    Bool :=
  fault.all (·.step == .directoryFsync) && (d name).all (·.privateRegular) &&
    (d (.temporary id)).isNone

private theorem any_not_all {file : Option File} :
    file.any (!·.privateRegular) = !file.all (·.privateRegular) := by
  cases file <;> simp

/-- Behind the inspection the name decides, and a taken name is a failed
creation. -/
private theorem atomicWriteAt_eq {fault : Option WriteFault} {id : Nat} {d : Directory}
    {name : FileName} (h : writeReaches fault id d name = true) (data : Bytes) :
    atomicWriteAt fault id d name data = writeTemporary (.temporary id) name data fault := by
  simp only [writeReaches, Bool.and_eq_true, Option.isNone_iff_eq_none] at h
  obtain ⟨⟨hfault, hname⟩, hfree⟩ := h
  have hinspect : fault.any (·.step = .inspect) = false := by
    cases fault with
    | none => rfl
    | some fault =>
        simp only [Option.all_some, beq_iff_eq] at hfault
        simp [hfault]
  simp [atomicWriteAt, hinspect, any_not_all, hname, hfree]

theorem write_done {id : Nat} {d : Directory} {name : FileName}
    (h : writeReaches none id d name = true) (data : Bytes) :
    (atomicWriteAt none id d name data).value = some () ∧
      Changes d ((Files.of d).put name ⟨true, data⟩) (atomicWriteAt none id d name data).acts := by
  rw [atomicWriteAt_eq h]
  exact ⟨rfl, changes_written d id name data (by simp [quiet_sync])⟩

/-- A failure behind the rename: the new file is there. -/
theorem write_uncertain {fault : WriteFault} {id : Nat} {d : Directory} {name : FileName}
    (h : writeReaches (some fault) id d name = true) (data : Bytes) :
    Uncertain d ((Files.of d).put name ⟨true, data⟩)
      (atomicWriteAt (some fault) id d name data) := by
  rw [atomicWriteAt_eq h]
  obtain ⟨step, leftover⟩ := fault
  have hstep : step = .directoryFsync := by
    simp only [writeReaches, Option.all_some, Bool.and_eq_true, beq_iff_eq] at h
    exact h.1.1
  rw [hstep]
  exact ⟨rfl, setWriteError_code_ne _ _, rfl, changes_written d id name data (by simp)⟩

/-- A write that does not reach its rename changes nothing. -/
theorem write_refused {fault : Option WriteFault} {id : Nat} {d : Directory}
    {name : FileName} (h : writeReaches fault id d name = false) (data : Bytes) :
    Refused d (atomicWriteAt fault id d name data) := by
  have hrefused : ∀ message, Refused d (Reply.fail (α := Unit) [] (setWriteError false message)) :=
    fun message => refused_fail (setWriteError_code_ne _ _) rfl
  have hcode := setWriteError_code_ne
  unfold atomicWriteAt
  split
  · exact hrefused _
  · split
    · exact hrefused _
    · rename_i hname
      split
      · exact hrefused _
      · rename_i hfree
        have hprivate : (d name).all (·.privateRegular) = true := by
          simpa [any_not_all] using hname
        cases fault with
        | none => simp [writeReaches, hprivate, Option.not_isSome_iff_eq_none.mp hfree] at h
        | some fault =>
            obtain ⟨step, leftover⟩ := fault
            cases step with
            | inspect | create => exact hrefused _
            | write =>
                refine ⟨rfl, hcode _ _, rfl, changes_unfinished ?_ leftover⟩
                simp [quiet_replace_temporary]
            | fileFsync | verify | close | rename =>
                exact ⟨rfl, hcode _ _, rfl,
                  changes_unfinished (quiet_written id data) leftover⟩
            | directoryFsync =>
                simp [writeReaches, hprivate, Option.not_isSome_iff_eq_none.mp hfree] at h

/-- A write has the old content or the new one as its outcome, whatever fails. -/
theorem writeOutcome (fault : Option WriteFault) (id : Nat) (d : Directory)
    (name : FileName) (data : Bytes) :
    Outcome d ((Files.of d).put name ⟨true, data⟩) ()
      (atomicWriteAt fault id d name data) := by
  cases hreaches : writeReaches fault id d name with
  | false => exact .refused (write_refused hreaches data)
  | true =>
      cases fault with
      | none =>
          obtain ⟨hvalue, hchanges⟩ := write_done hreaches data
          exact .done hvalue hchanges
      | some fault => exact .uncertain (write_uncertain hreaches data)

/-! ## Reading -/

variable (J : JsonParser)

/-- A file that cannot be read is reported with a code and no change. -/
theorem read_error {fault : Option ReadStep} {file : Option File} {error : EgpError}
    (h : readPrivateFile fault file = .error error) :
    error.code ≠ .none ∧ error.persistentChange = .none := by
  unfold readPrivateFile at h
  split at h
  · cases h
    exact ⟨by decide, rfl⟩
  · split at h
    · cases h
    · split at h
      · cases h
        exact ⟨by decide, rfl⟩
      · split at h
        · cases h
          exact ⟨by decide, rfl⟩
        · cases h

/-- A file that cannot be parsed is reported with a code and no change. -/
theorem parseWifiData_error {data : Bytes} {error : EgpError}
    (h : parseWifiData J data = .error error) :
    error.code ≠ .none ∧ error.persistentChange = .none := by
  unfold parseWifiData at h
  split at h
  · cases h
    exact ⟨by decide, rfl⟩
  · split at h
    · cases h
      exact ⟨by decide, rfl⟩
    · split at h
      · cases h
        exact ⟨by decide, rfl⟩
      · split at h
        · cases h
        · cases h
          exact ⟨by decide, rfl⟩

/-- A refused load is reported with a code and no change. -/
theorem load_error {fault : Option ReadStep} {file : Option File} {error : EgpError}
    (h : loadWifiPath J fault file = .error error) :
    error.code ≠ .none ∧ error.persistentChange = .none := by
  unfold loadWifiPath at h
  split at h
  · rename_i hread
    cases h
    exact read_error hread
  · cases h
  · rename_i data _
    cases hparse : parseWifiData J data with
    | error cause =>
        rw [hparse] at h
        cases h
        exact parseWifiData_error J hparse
    | ok wifi =>
        rw [hparse] at h
        cases h

/-- A read that succeeds met no fault that matters. -/
theorem read_ok {fault : Option ReadStep} {file : Option File} {data : Option Bytes}
    (h : readPrivateFile fault file = .ok data) :
    readPrivateFile none file = .ok data ∧ data = file.map File.data ∧
      file.all (·.privateRegular) = true := by
  unfold readPrivateFile at h ⊢
  split at h
  · cases h
  · cases file with
    | none =>
        cases h
        exact ⟨rfl, rfl, rfl⟩
    | some file =>
        simp only at h
        split at h
        · cases h
        · rename_i hmetadata
          split at h
          · cases h
          · cases h
            simp only [Bool.or_eq_true, Bool.not_eq_true', decide_eq_true_eq, not_or,
              Bool.not_eq_false] at hmetadata
            simp [hmetadata.1.2, hmetadata.2]

/-- A network that is read has its generation from the file. -/
theorem wifiOfObject_some {object : Members} {wifi : EgpWifiConfig}
    (h : wifiOfObject object = some wifi) :
    integerMember object (ascii "generation") = some (wifi.generation : Int) ∧
      1 ≤ wifi.generation := by
  unfold wifiOfObject at h
  simp only [Option.bind_eq_bind, Option.pure_def] at h
  obtain ⟨schema, -, h⟩ := Option.bind_eq_some_iff.mp h
  split at h
  · simp at h
  · obtain ⟨generation, hgeneration, h⟩ := Option.bind_eq_some_iff.mp h
    split at h
    · simp at h
    · obtain ⟨ssid, -, h⟩ := Option.bind_eq_some_iff.mp h
      obtain ⟨security, -, h⟩ := Option.bind_eq_some_iff.mp h
      obtain ⟨passphrase, -, h⟩ := Option.bind_eq_some_iff.mp h
      obtain ⟨hidden, -, h⟩ := Option.bind_eq_some_iff.mp h
      cases h
      have hpositive : (generation.toNat : Int) = generation := by omega
      simp only
      rw [hpositive]
      exact ⟨hgeneration, by omega⟩

/-- A network that is parsed is valid, its generation at least 1. -/
theorem parseWifiData_ok {data : Bytes} {wifi : EgpWifiConfig}
    (h : parseWifiData J data = .ok wifi) :
    wifiValid wifi = true ∧ 1 ≤ wifi.generation := by
  unfold parseWifiData at h
  split at h
  · cases h
  · split at h
    · cases h
    · split at h
      · cases h
      · rename_i hobject
        split at h
        · rename_i hvalid
          cases h
          exact ⟨hvalid, (wifiOfObject_some hobject).2⟩
        · cases h

/-- Any fault shows on a file that is there. -/
theorem fault_of_load_ok {fault : Option ReadStep} {file : File}
    {result : Option EgpWifiConfig} (h : loadWifiPath J fault (some file) = .ok result) :
    fault = none := by
  cases fault with
  | none => rfl
  | some step =>
      have hread : ∃ error, readPrivateFile (some step) (some file) = .error error := by
        unfold readPrivateFile
        cases step with
        | opening | metadata => simp
        | reading | closing =>
            simp only [reduceCtorEq, Option.some.injEq, if_false]
            split
            · exact ⟨_, rfl⟩
            · simp
      obtain ⟨error, hread⟩ := hread
      simp [loadWifiPath, hread] at h

/-- What a successful load says about the file and the credential in it. -/
structure Loaded (file : Option File) (result : Option EgpWifiConfig) : Prop where
  unfaulted : loadWifiPath J none file = .ok result
  missing : result = none ↔ file = none
  privateFile : file.all (·.privateRegular) = true
  valid : ∀ wifi, result = some wifi → wifiValid wifi = true ∧ 1 ≤ wifi.generation

/-- A load that succeeds says what the file holds. -/
theorem load_ok {fault : Option ReadStep} {file : Option File}
    {result : Option EgpWifiConfig} (h : loadWifiPath J fault file = .ok result) :
    Loaded J file result := by
  unfold loadWifiPath at h
  split at h
  · cases h
  · rename_i hread
    cases h
    obtain ⟨hread, hfile, hprivate⟩ := read_ok hread
    have hnone : file = none := by simpa using hfile.symm
    exact ⟨by simp [loadWifiPath, hread], by simp [hnone], hprivate, by simp⟩
  · rename_i data hread
    obtain ⟨hread, hfile, hprivate⟩ := read_ok hread
    have hsome : file ≠ none := by
      rintro rfl
      simp at hfile
    cases hparse : parseWifiData J data with
    | error cause =>
        rw [hparse] at h
        cases h
    | ok wifi =>
        rw [hparse] at h
        cases h
        refine ⟨by simp [loadWifiPath, hread, hparse, Except.map], by simp [hsome], hprivate, ?_⟩
        rintro _ ⟨⟩
        exact parseWifiData_ok J hparse

/-! ## Replacing the credential -/

/-- The files with the credential `w` in `wifi.json`. -/
def Files.withWifi (f : Files) (w : EgpWifiConfig) : Files :=
  { f with wifi := some (credentialFile w) }

/-- The generation behind the previous one is in range. -/
def hasRoom (previous : Option EgpWifiConfig) : Bool :=
  previous.all (·.generation < egpJsonUintMax)

theorem storable_nextWifi {candidate : EgpWifiConfig} {previous : Option EgpWifiConfig}
    (hvalid : wifiValid candidate = true) (hroom : hasRoom previous = true) :
    Storable (nextWifi candidate previous) := by
  cases previous with
  | none => exact ⟨hvalid, Nat.le_refl 1, by simp [nextWifi, egpJsonUintMax]⟩
  | some previous =>
      have hlt : previous.generation < egpJsonUintMax := by simpa [hasRoom] using hroom
      exact ⟨hvalid, Nat.le_add_left 1 _, hlt⟩

private theorem any_le_eq_not_hasRoom (previous : Option EgpWifiConfig) :
    previous.any (egpJsonUintMax ≤ ·.generation) = !hasRoom previous := by
  cases previous with
  | none => rfl
  | some previous =>
      rw [Bool.eq_iff_iff]
      simp [hasRoom]

/-- A replacement that passes its checks is the atomic write of the next
credential. -/
theorem replace_eq {io : ReplaceIo} {d : Directory} {candidate : EgpWifiConfig}
    {previous : Option EgpWifiConfig} (hvalid : wifiValid candidate = true)
    (hload : loadWifiPath J io.read (d .wifi) = .ok previous)
    (hroom : hasRoom previous = true) :
    egpStoreReplaceWifi J io d candidate =
      (atomicWriteAt io.write io.temporary d .wifi
        (serializeWifi (nextWifi candidate previous))).finish
        (egpErrorSet .none false .committed (ascii "Wi-Fi configuration committed"))
        ⟨previous, (nextWifi candidate previous).generation⟩ := by
  have hlength := length_serializeWifi_le (storable_nextWifi hvalid hroom)
  simp [egpStoreReplaceWifi, egpWifiValidate, hvalid, hload, any_le_eq_not_hasRoom, hroom,
    Nat.not_lt.mpr hlength]

/-- The ends of a replacement: refused by one of its checks, or an atomic write. -/
theorem replaceOutcome (io : ReplaceIo) (d : Directory) (candidate : EgpWifiConfig) :
    Refused d (egpStoreReplaceWifi J io d candidate) ∨
      ∃ previous, wifiValid candidate = true ∧
        loadWifiPath J io.read (d .wifi) = .ok previous ∧ hasRoom previous = true ∧
        Outcome d ((Files.of d).withWifi (nextWifi candidate previous))
          ⟨previous, (nextWifi candidate previous).generation⟩
          (egpStoreReplaceWifi J io d candidate) := by
  cases hvalid : wifiValid candidate with
  | false =>
      left
      simp only [egpStoreReplaceWifi, egpWifiValidate, hvalid]
      exact refused_fail (by decide) rfl
  | true =>
      cases hload : loadWifiPath J io.read (d .wifi) with
      | error error =>
          left
          simp only [egpStoreReplaceWifi, egpWifiValidate, hvalid, hload]
          exact refused_fail (load_error J hload).1 (load_error J hload).2
      | ok previous =>
          cases hroom : hasRoom previous with
          | false =>
              left
              simp only [egpStoreReplaceWifi, egpWifiValidate, hvalid, hload,
                any_le_eq_not_hasRoom, hroom]
              exact refused_fail (by decide) rfl
          | true =>
              refine .inr ⟨previous, rfl, rfl, hroom, ?_⟩
              rw [replace_eq J hvalid hload hroom]
              exact (writeOutcome io.write io.temporary d .wifi _).finish _ _

/-- What it takes for a replacement to be done. -/
structure Replaces (io : ReplaceIo) (d : Directory) (candidate : EgpWifiConfig)
    (previous : Option EgpWifiConfig) : Prop where
  valid : wifiValid candidate = true
  loaded : loadWifiPath J io.read (d .wifi) = .ok previous
  room : hasRoom previous = true
  write : io.write = none
  reaches : writeReaches none io.temporary d .wifi = true

theorem replace_done {io : ReplaceIo} {d : Directory} {candidate : EgpWifiConfig}
    {previous : Option EgpWifiConfig} (h : Replaces J io d candidate previous) :
    (egpStoreReplaceWifi J io d candidate).value =
        some ⟨previous, (nextWifi candidate previous).generation⟩ ∧
      Changes d ((Files.of d).withWifi (nextWifi candidate previous))
        (egpStoreReplaceWifi J io d candidate).acts := by
  have hdone := write_done h.reaches (serializeWifi (nextWifi candidate previous))
  rw [replace_eq J h.valid h.loaded h.room, h.write, finish_of_some hdone.1]
  exact ⟨rfl, hdone.2⟩

/-- A finished replacement leaves no temporary file of its own. -/
theorem replaced_temporary {io : ReplaceIo} {d : Directory} {candidate : EgpWifiConfig}
    {previous : Option EgpWifiConfig} (h : Replaces J io d candidate previous) (id : Nat) :
    d.run (egpStoreReplaceWifi J io d candidate).acts (.temporary id) =
      if id = io.temporary then none else d (.temporary id) := by
  have hdone := write_done h.reaches (serializeWifi (nextWifi candidate previous))
  rw [replace_eq J h.valid h.loaded h.room, h.write, finish_of_some hdone.1,
    atomicWriteAt_eq h.reaches]
  by_cases hid : id = io.temporary
  · simp [writeTemporary, Directory.run, perform, hid]
  · simp [writeTemporary, Directory.run, perform, hid, Function.update_of_ne]

/-- A replacement that returns made its change without a fault. -/
theorem replaces_of_value {io : ReplaceIo} {d : Directory} {candidate : EgpWifiConfig}
    {v : ReplacedWifi} (h : (egpStoreReplaceWifi J io d candidate).value = some v) :
    ∃ previous, Replaces J io d candidate previous ∧
      v = ⟨previous, (nextWifi candidate previous).generation⟩ := by
  rcases replaceOutcome J io d candidate with hr | ⟨previous, hvalid, hload, hroom, -⟩
  · rw [hr.value] at h
    cases h
  · rw [replace_eq J hvalid hload hroom] at h
    cases hreaches : writeReaches io.write io.temporary d .wifi with
    | false =>
        rw [finish_of_none (write_refused hreaches _).value] at h
        cases h
    | true =>
        cases hwrite : io.write with
        | some fault =>
            rw [hwrite] at h hreaches
            rw [finish_of_none (write_uncertain hreaches _).value] at h
            cases h
        | none =>
            rw [hwrite] at h hreaches
            rw [finish_of_some (write_done hreaches _).1] at h
            exact ⟨previous, ⟨hvalid, hload, hroom, hwrite, hreaches⟩,
              (Option.some.inj h).symm⟩

/-! ## Restoring the credential -/

/-- The files without a live credential. -/
def Files.withoutWifi (f : Files) : Files := { f with wifi := none }

/-- The absence is restored at least as far as the rename. -/
def absenceReaches (fault : Option AbsenceStep) (file : Option File) : Bool :=
  fault != some .inspect &&
    file.all fun file => file.privateRegular && fault != some .rename

private theorem changes_absence (d : Directory) {after : List Act}
    (hafter : ∀ a ∈ after, Quiet a) :
    Changes d (Files.of d).withoutWifi (.rename .wifi .rollback :: after) :=
  changes_of_visible [] (by simp) hafter (of_rename_rollback d)

/-- A removal that does not reach its rename changes nothing. -/
theorem absence_refused {fault : Option AbsenceStep} {d : Directory}
    (h : absenceReaches fault (d .wifi) = false) : Refused d (restoreAbsence fault d) := by
  have hcode := setWriteError_code_ne
  unfold restoreAbsence
  split
  · exact refused_fail (hcode _ _) rfl
  · rename_i hinspect
    cases hfile : d .wifi with
    | none => simp [absenceReaches, hfile, hinspect] at h
    | some file =>
        simp only
        split
        · exact refused_fail (hcode _ _) rfl
        · rename_i hprivate
          simp only [Bool.not_eq_true', Bool.not_eq_false] at hprivate
          have hfault : fault = some .rename := by
            simpa [absenceReaches, hfile, hinspect, hprivate] using h
          rw [hfault]
          exact refused_fail (hcode _ _) rfl

/-- The ends of a restored absence, once it reaches its rename. -/
theorem absence_reached {fault : Option AbsenceStep} {d : Directory}
    (h : absenceReaches fault (d .wifi) = true) :
    Uncertain d (Files.of d).withoutWifi (restoreAbsence fault d) ∨
      ((restoreAbsence fault d).value = some () ∧
        Changes d (Files.of d).withoutWifi (restoreAbsence fault d).acts) := by
  have hcode := setWriteError_code_ne
  have hquiet := quiet_unlink_rollback
  have hsync := quiet_sync
  simp only [absenceReaches, Bool.and_eq_true, bne_iff_ne] at h
  obtain ⟨hinspect, hfile⟩ := h
  unfold restoreAbsence
  simp only [hinspect, if_false]
  cases hd : d .wifi with
  | none =>
      refine .inr ⟨rfl, ?_⟩
      have habsent : (Files.of d).withoutWifi = Files.of d := by
        simp [Files.withoutWifi, Files.of, hd]
      rw [habsent]
      exact changes_nil d
  | some file =>
      rw [hd] at hfile
      simp only [Option.all_some, Bool.and_eq_true, bne_iff_ne] at hfile
      simp only [hfile.1, Bool.not_true, Bool.false_eq_true, if_false]
      cases fault with
      | none => exact .inr ⟨rfl, changes_absence d (by simp [hquiet, hsync])⟩
      | some step =>
          cases step with
          | inspect => exact absurd rfl hinspect
          | rename => exact absurd rfl hfile.2
          | fsync => exact .inl ⟨rfl, hcode _ _, rfl, changes_absence d (by simp)⟩
          | unlink => exact .inl ⟨rfl, hcode _ _, rfl, changes_absence d (by simp [hsync])⟩
          | finalFsync =>
              exact .inl ⟨rfl, hcode _ _, rfl, changes_absence d (by simp [hquiet, hsync])⟩

/-- The credential that a restoration writes. -/
def restoredWifi (current : Option EgpWifiConfig) (previous : EgpWifiConfig) :
    EgpWifiConfig :=
  { previous with generation := rollbackBase current previous + 1 }

theorem storable_restoredWifi {current : Option EgpWifiConfig} {previous : EgpWifiConfig}
    (hvalid : wifiValid previous = true)
    (hroom : rollbackBase current previous < egpJsonUintMax) :
    Storable (restoredWifi current previous) :=
  ⟨hvalid, Nat.le_add_left 1 _, hroom⟩

theorem restore_eq {io : RestoreIo} {d : Directory} {previous : EgpWifiConfig}
    {current : Option EgpWifiConfig} (hvalid : wifiValid previous = true)
    (hload : loadWifiPath J io.read (d .wifi) = .ok current)
    (hroom : rollbackBase current previous < egpJsonUintMax) :
    egpStoreRestoreWifi J io d (some previous) =
      (atomicWriteAt io.write io.temporary d .wifi
        (serializeWifi (restoredWifi current previous))).finish restoredError
        (rollbackBase current previous + 1) := by
  simp [egpStoreRestoreWifi, restorePrevious, egpWifiValidate, hvalid, hload,
    Nat.not_le.mpr hroom, restoredWifi]

/-- The ends of a restoration: refused by one of its checks, or an atomic
write of the previous credential. -/
theorem restoreOutcome (io : RestoreIo) (d : Directory) (previous : EgpWifiConfig) :
    Refused d (egpStoreRestoreWifi J io d (some previous)) ∨
      ∃ current, wifiValid previous = true ∧
        loadWifiPath J io.read (d .wifi) = .ok current ∧
        rollbackBase current previous < egpJsonUintMax ∧
        Outcome d ((Files.of d).withWifi (restoredWifi current previous))
          (rollbackBase current previous + 1)
          (egpStoreRestoreWifi J io d (some previous)) := by
  cases hvalid : wifiValid previous with
  | false =>
      left
      simp only [egpStoreRestoreWifi, restorePrevious, egpWifiValidate, hvalid]
      exact refused_fail (by decide) rfl
  | true =>
      cases hload : loadWifiPath J io.read (d .wifi) with
      | error error =>
          left
          simp only [egpStoreRestoreWifi, restorePrevious, egpWifiValidate, hvalid, hload]
          exact refused_fail (load_error J hload).1 (load_error J hload).2
      | ok current =>
          rcases Nat.lt_or_ge (rollbackBase current previous) egpJsonUintMax with hroom | hroom
          · refine .inr ⟨current, rfl, rfl, hroom, ?_⟩
            rw [restore_eq J hvalid hload hroom]
            exact (writeOutcome io.write io.temporary d .wifi _).finish _ _
          · left
            simp only [egpStoreRestoreWifi, restorePrevious, egpWifiValidate, hvalid, hload,
              hroom, if_true]
            exact refused_fail (by decide) rfl

theorem restore_absence_eq (io : RestoreIo) (d : Directory) :
    egpStoreRestoreWifi J io d none = (restoreAbsence io.absence d).finish restoredError 0 :=
  rfl

/-- The ends of a restored absence. -/
theorem absenceOutcome (io : RestoreIo) (d : Directory) :
    Outcome d (Files.of d).withoutWifi 0 (egpStoreRestoreWifi J io d none) := by
  rw [restore_absence_eq]
  cases hreaches : absenceReaches io.absence (d .wifi) with
  | false => exact .refused ((absence_refused hreaches).finish _ _)
  | true =>
      rcases absence_reached hreaches with h | ⟨hvalue, hchanges⟩
      · exact .uncertain (h.finish _ _)
      · rw [finish_of_some hvalue]
        exact .done rfl hchanges

/-! ## Forgetting the credential -/

/-- The files with the live credential turned into the tombstone. -/
def Files.forgotten (f : Files) : Files := { f with wifi := none, forget := f.wifi }

/-- The files without tombstone. -/
def Files.withoutForget (f : Files) : Files := { f with forget := none }

/-- The ends of the beginning of a forget. -/
inductive ForgetBeginOutcome (io : ForgetBeginIo) (d : Directory) (r : Reply Forgotten) : Prop
  | refused (h : Refused d r)
  /-- A tombstone is there already. -/
  | pending (w : EgpWifiConfig) (tombstone : Loaded J (d .forget) (some w))
      (wifi : d .wifi = none) (value : r.value = some (some w)) (acts : r.acts = [])
  /-- There is nothing to forget. -/
  | absent (tombstone : d .forget = none) (wifi : d .wifi = none)
      (value : r.value = some none) (acts : r.acts = [])
  | live (w : EgpWifiConfig) (tombstone : loadWifiPath J io.tombstone (d .forget) = .ok none)
      (wifi : loadWifiPath J io.live (d .wifi) = .ok (some w))
      (outcome : Outcome d (Files.of d).forgotten (some w) r)
      (commit : r.value.isSome = io.commit.isNone)

private theorem changes_forget (d : Directory) (after : List Act)
    (hafter : ∀ a ∈ after, Quiet a) :
    Changes d (Files.of d).forgotten (.rename .wifi .forget :: after) :=
  changes_of_visible [] (by simp) hafter (of_rename_forget d)

/-- Without a tombstone the begin of a forget has one of its outcomes. -/
theorem forgetLiveOutcome {io : ForgetBeginIo} {d : Directory}
    (hforget : loadWifiPath J io.tombstone (d .forget) = .ok none) :
    ForgetBeginOutcome J io d (forgetLive J io d) := by
  have hcode := setWriteError_code_ne
  unfold forgetLive
  cases hlive : loadWifiPath J io.live (d .wifi) with
  | error error =>
      exact .refused (refused_fail (load_error J hlive).1 (load_error J hlive).2)
  | ok live =>
      have hloaded := load_ok J hlive
      cases live with
      | none =>
          exact .absent ((load_ok J hforget).missing.mp rfl) (hloaded.missing.mp rfl) rfl rfl
      | some w =>
          cases hcommit : io.commit with
          | none =>
              refine .live w hforget hlive (.done rfl ?_) (by simp [hcommit])
              exact changes_forget d _ (by simp [quiet_sync])
          | some step =>
              cases step with
              | rename =>
                  exact .live w hforget hlive (.refused (refused_fail (hcode _ _) rfl))
                    (by simp [hcommit, Reply.fail])
              | fsync =>
                  exact .live w hforget hlive
                    (.uncertain ⟨rfl, hcode _ _, rfl, changes_forget d _ (by simp)⟩)
                    (by simp [hcommit, Reply.fail])

/-- The begin of a forget has one of its outcomes, with a tombstone or without. -/
theorem forgetBeginOutcome (io : ForgetBeginIo) (d : Directory) :
    ForgetBeginOutcome J io d (egpStoreForgetBegin J io d) := by
  have hcode := setWriteError_code_ne
  unfold egpStoreForgetBegin
  cases htombstone : loadWifiPath J io.tombstone (d .forget) with
  | error error =>
      exact .refused (refused_fail (load_error J htombstone).1 (load_error J htombstone).2)
  | ok pending =>
      have hloaded := load_ok J htombstone
      cases pending with
      | none => exact forgetLiveOutcome J htombstone
      | some w =>
          simp only
          split
          · exact .refused (refused_fail (hcode _ _) rfl)
          · rename_i hwifi
            simp only [Bool.or_eq_true, not_or, Option.not_isSome_iff_eq_none] at hwifi
            exact .pending w hloaded hwifi.2 rfl rfl

/-- The forget is finished at least as far as the removal of the tombstone. -/
def finishReaches (fault : Option FinishStep) (file : Option File) : Bool :=
  fault != some .inspect &&
    file.all fun file => file.privateRegular && fault != some .unlink

theorem finishReaches_of_private (fault : Option FinishStep) {file : Option File}
    (hprivate : file.all (·.privateRegular) = true)
    (hfault : ¬ (fault = some .inspect ∨ fault = some .unlink)) :
    finishReaches fault file = true := by
  simp only [not_or] at hfault
  cases file with
  | none => simpa [finishReaches] using hfault.1
  | some file =>
      have hfile : file.privateRegular = true := by simpa using hprivate
      simp [finishReaches, hfile, hfault.1, hfault.2]

private theorem changes_finish (d : Directory) {after : List Act}
    (hafter : ∀ a ∈ after, Quiet a) :
    Changes d (Files.of d).withoutForget (.unlink .forget :: after) :=
  changes_of_visible [] (by simp) hafter (of_unlink_forget d)

/-- A finish that does not reach the tombstone changes nothing. -/
theorem finish_refused {fault : Option FinishStep} {d : Directory}
    (h : finishReaches fault (d .forget) = false) :
    Refused d (egpStoreForgetFinish fault d) := by
  have hcode := setWriteError_code_ne
  unfold egpStoreForgetFinish
  split
  · exact refused_fail (hcode _ _) rfl
  · rename_i hinspect
    cases hfile : d .forget with
    | none => simp [finishReaches, hfile, hinspect] at h
    | some file =>
        simp only
        split
        · exact refused_fail (hcode _ _) rfl
        · rename_i hprivate
          simp only [Bool.not_eq_true', Bool.not_eq_false] at hprivate
          have hfault : fault = some .unlink := by
            simpa [finishReaches, hfile, hinspect, hprivate] using h
          rw [hfault]
          exact refused_fail (hcode _ _) rfl

/-- A finish that reaches the tombstone removes it, surely or perhaps. -/
theorem finish_reached {fault : Option FinishStep} {d : Directory}
    (h : finishReaches fault (d .forget) = true) :
    Uncertain d (Files.of d).withoutForget (egpStoreForgetFinish fault d) ∨
      ((egpStoreForgetFinish fault d).value = some () ∧
        Changes d (Files.of d).withoutForget (egpStoreForgetFinish fault d).acts) := by
  have hcode := setWriteError_code_ne
  have hsync := quiet_sync
  simp only [finishReaches, Bool.and_eq_true, bne_iff_ne] at h
  obtain ⟨hinspect, hfile⟩ := h
  unfold egpStoreForgetFinish
  simp only [hinspect, if_false]
  cases hd : d .forget with
  | none =>
      refine .inr ⟨rfl, ?_⟩
      have habsent : (Files.of d).withoutForget = Files.of d := by
        simp [Files.withoutForget, Files.of, hd]
      rw [habsent]
      exact changes_nil d
  | some file =>
      rw [hd] at hfile
      simp only [Option.all_some, Bool.and_eq_true, bne_iff_ne] at hfile
      simp only [hfile.1, Bool.not_true, Bool.false_eq_true, if_false]
      cases fault with
      | none => exact .inr ⟨rfl, changes_finish d (by simp [hsync])⟩
      | some step =>
          cases step with
          | inspect => exact absurd rfl hinspect
          | unlink => exact absurd rfl hfile.2
          | fsync => exact .inl ⟨rfl, hcode _ _, rfl, changes_finish d (by simp)⟩

/-- Without a fault a private tombstone is removed. -/
theorem finish_done {d : Directory} (h : (d .forget).all (·.privateRegular) = true) :
    (egpStoreForgetFinish none d).value = some () ∧
      Changes d (Files.of d).withoutForget (egpStoreForgetFinish none d).acts := by
  rcases finish_reached (finishReaches_of_private none h (by simp)) with hu | hdone
  · have hvalue := hu.value
    cases hfile : d .forget with
    | none => simp [egpStoreForgetFinish, hfile] at hvalue
    | some file =>
        have hprivate : file.privateRegular = true := by simpa [hfile] using h
        simp [egpStoreForgetFinish, hfile, hprivate] at hvalue
  · exact hdone

theorem forgetFinishOutcome (fault : Option FinishStep) (d : Directory) :
    Outcome d (Files.of d).withoutForget () (egpStoreForgetFinish fault d) := by
  cases hreaches : finishReaches fault (d .forget) with
  | false => exact .refused (finish_refused hreaches)
  | true =>
      rcases finish_reached hreaches with h | ⟨hvalue, hchanges⟩
      · exact .uncertain h
      · exact .done hvalue hchanges

/-! ## A committed credential -/

/-- The credential in `wifi.json` can be loaded, replaced by any valid one, and
forgotten, when no step fails. -/
structure Usable (d : Directory) (w : EgpWifiConfig) : Prop where
  loaded : egpStoreLoadWifi J none d = .ok (some w)
  replaced : ∀ candidate temporary, wifiValid candidate = true →
    d (.temporary temporary) = none →
      (egpStoreReplaceWifi J ⟨temporary, none, none⟩ d candidate).value =
          some ⟨some w, w.generation + 1⟩ ∧
        d.run (egpStoreReplaceWifi J ⟨temporary, none, none⟩ d candidate).acts .wifi =
          some (credentialFile { candidate with generation := w.generation + 1 })
  forgotten : d .forget = none →
    ∃ d', d.run (egpStoreForgetBegin J ⟨none, false, none, none⟩ d).acts = d' ∧
      (egpStoreForgetBegin J ⟨none, false, none, none⟩ d).value = some (some w) ∧
      (egpStoreForgetFinish none d').value = some () ∧
      Files.of (d'.run (egpStoreForgetFinish none d').acts) =
        { Files.of d with wifi := none, forget := none }

/-- A store that holds nothing but the credential. -/
def onlyWifi (w : EgpWifiConfig) : Directory :=
  Function.update (fun _ => none) .wifi (some (credentialFile w))

/-- A network that loads, with room above its generation, can be used. -/
theorem usable_of_readable {d : Directory} {w : EgpWifiConfig}
    (hload : loadWifiPath J none (d .wifi) = .ok (some w))
    (hfile : d .wifi = some (credentialFile w)) (hroom : w.generation < egpJsonUintMax) :
    Usable J d w := by
  have hroom' : hasRoom (some w) = true := by simpa [hasRoom] using hroom
  refine ⟨hload, ?_, ?_⟩
  · intro candidate temporary hvalid hfree
    have hreaches : writeReaches none temporary d .wifi = true := by
      simp [writeReaches, hfile, hfree, credentialFile]
    have hdone := @replace_done J ⟨temporary, none, none⟩ d _ _
      ⟨hvalid, hload, hroom', rfl, hreaches⟩
    exact ⟨hdone.1, congrArg Files.wifi hdone.2.final⟩
  · intro hforget
    have htombstone : loadWifiPath J none (d .forget) = .ok none := by
      rw [hforget]
      rfl
    have hbegin : egpStoreForgetBegin J ⟨none, false, none, none⟩ d =
        ⟨[.rename .wifi .forget, .sync], forgetPrepared .committed, some (some w)⟩ := by
      simp [egpStoreForgetBegin, htombstone, forgetLive, hload]
    rw [hbegin]
    refine ⟨_, rfl, rfl, ?_⟩
    have hbegun := (changes_forget d [.sync] (by simp [quiet_sync])).final
    have hstone : d.run [.rename .wifi .forget, .sync] .forget = some (credentialFile w) := by
      rw [← hfile]
      exact congrArg Files.forget hbegun
    have hfinish := finish_done (d := d.run [.rename .wifi .forget, .sync])
      (by simp [hstone, credentialFile])
    refine ⟨hfinish.1, ?_⟩
    rw [hfinish.2.final, hbegun]
    rfl

/-- A committed credential can be used exactly when it does not spell the
escape and a generation is left. -/
theorem usable_iff {w : EgpWifiConfig} (h : Storable w) :
    (∀ d : Directory, d .wifi = some (credentialFile w) → Usable J d w) ↔
      spellsNul w = false ∧ w.generation < egpJsonUintMax := by
  have hload := loadWifiPath_credentialFile J h
  constructor
  · intro husable
    have honly := husable (onlyWifi w) (by simp [onlyWifi])
    constructor
    · have hloaded : loadWifiPath J none (some (credentialFile w)) = .ok (some w) := by
        simpa [egpStoreLoadWifi, onlyWifi] using honly.loaded
      cases hbad : spellsNul w with
      | false => rfl
      | true =>
          rw [hload, hbad] at hloaded
          cases hloaded
    · have hvalue := (honly.replaced w 0 h.valid (by simp [onlyWifi])).1
      obtain ⟨previous, hreplaces, heq⟩ := replaces_of_value J hvalue
      have hprevious : previous = some w := congrArg ReplacedWifi.previous heq.symm
      have hroom := hreplaces.room
      rw [hprevious] at hroom
      simpa [hasRoom] using hroom
  · rintro ⟨hplain, hroom⟩ d hfile
    refine usable_of_readable J ?_ hfile hroom
    rw [hfile, hload, hplain]
    rfl

/-- A valid credential survives writing and reading exactly when neither its
SSID nor its passphrase contains the text `\u0000`; a committed one can then be
loaded, replaced and forgotten, as long as its generation can be counted on. -/
theorem wifi_round_trip_iff {w : EgpWifiConfig} (hvalid : wifiValid w = true)
    (hpositive : 1 ≤ w.generation) (hmax : w.generation ≤ egpJsonUintMax) :
    (parseWifiData J (serializeWifi w) = .ok w ↔
        occursIn nulEscape w.ssid = false ∧ occursIn nulEscape w.passphrase = false) ∧
      ((∀ d : Directory, d .wifi = some (credentialFile w) → Usable J d w) ↔
        (occursIn nulEscape w.ssid = false ∧ occursIn nulEscape w.passphrase = false) ∧
          w.generation < egpJsonUintMax) := by
  have h : Storable w := ⟨hvalid, hpositive, hmax⟩
  have hplain : spellsNul w = false ↔
      occursIn nulEscape w.ssid = false ∧ occursIn nulEscape w.passphrase = false := by
    rw [spellsNul, Bool.or_eq_false_iff]
  rw [← hplain]
  refine ⟨?_, usable_iff J h⟩
  rw [parseWifiData_serializeWifi J h]
  cases spellsNul w <;> simp

/-- A credential of the first generation. -/
def firstWifi (ssid passphrase : Bytes) : EgpWifiConfig :=
  ⟨1, ssid, ascii "psk", passphrase, false⟩

/-- A network with a quote and a backslash in it. -/
theorem wifi_round_trip_iff_plain :
    parseWifiData JsonReader.referenceParser
        (serializeWifi (firstWifi (ascii "edge \"lab\"") (ascii "back\\slash"))) =
        .ok (firstWifi (ascii "edge \"lab\"") (ascii "back\\slash")) ∧
      Usable JsonReader.referenceParser
        (onlyWifi (firstWifi (ascii "edge \"lab\"") (ascii "back\\slash")))
        (firstWifi (ascii "edge \"lab\"") (ascii "back\\slash")) := by
  have h := wifi_round_trip_iff JsonReader.referenceParser
    (w := firstWifi (ascii "edge \"lab\"") (ascii "back\\slash"))
    (by decide) (by decide) (by decide)
  exact ⟨h.1.mpr (by decide), h.2.mpr (by decide) _ (by simp [onlyWifi])⟩

/-- A network named `\u0000` is accepted, written and refused at every load. -/
theorem round_trip_fails_on_spelled_nul :
    wifiValid (firstWifi (ascii "\\u0000") (ascii "password")) = true ∧
      parseWifiData JsonReader.referenceParser
        (serializeWifi (firstWifi (ascii "\\u0000") (ascii "password"))) =
        .error canonicalWifiInvalid := by
  have h : Storable (firstWifi (ascii "\\u0000") (ascii "password")) :=
    ⟨by decide, by decide, by decide⟩
  refine ⟨h.valid, ?_⟩
  rw [parseWifiData_serializeWifi _ h]
  rfl

end EdgeGuard.Provisioning.StoreTransactions
