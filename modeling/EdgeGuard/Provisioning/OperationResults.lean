import EdgeGuard.Provisioning.StoreInvariant

/-!
# What a published result says about the store

Every operation publishes a `persistent_change` next to its error code.  A
result that claims no change must have left the three files as they were, one
that claims a rollback must have put the previous credential back, and one that
claims a commit must have put the requested change in place.

Two paths break the first promise, both by handing out the error of a second
store call as if the first one had not happened: a SET_WIFI whose rollback
fails before its rename, and a FORGET_WIFI whose tombstone cannot be removed.

## Main results

* `restore_stops`, `restore_goes_on` — when the rollback of a just written
  credential fails before its rename.
* `result_truthful_iff` — a result is truthful exactly when the operation is on
  neither of the two paths.
-/

namespace EdgeGuard.Provisioning.OperationResults

open EdgeGuard.Base EdgeGuard.Base.CText EdgeGuard.Base.Json EdgeGuard.Base.Uri
open EdgeGuard.Provisioning.Model EdgeGuard.Provisioning.Store
open EdgeGuard.Provisioning.StoreRoundTrip EdgeGuard.Provisioning.StoreTransactions
open EdgeGuard.Provisioning.Endpoint EdgeGuard.Provisioning.RuntimeStore
open EdgeGuard.Provisioning.Operations EdgeGuard.Provisioning.StoreInvariant

variable (J : JsonParser) (N : NetLibrary)

/-! ## Truthful results -/

/-- The requested change is in place. -/
def InPlace (g : Files) : Operation → Prop
  | .setWifi json _ => ∃ candidate generation, parseWifi J json = .ok candidate ∧
      g.wifi = some (credentialFile { candidate with generation })
  | .setEndpoint json _ => ∃ endpoint url generation, parseEndpoint J json = .ok endpoint ∧
      egpEndpointCanonicalize N endpoint = .ok url ∧
      g.runtime = some ⟨true, serializeRuntime ⟨generation, url⟩⟩
  | .forgetWifi _ _ => g.wifi = none

/-- The requested change is in place and nothing is left to do: a forget has
removed its tombstone. -/
def Complete (g : Files) : Operation → Prop
  | .forgetWifi _ _ => g.wifi = none ∧ g.forget = none
  | op => InPlace J N g op

/-- The credential of the files `f`, or its absence, is in place in `g`. -/
def Restored (f g : Files) : Prop :=
  ∃ previous, loadWifiPath J none f.wifi = .ok previous ∧
    match previous with
    | none => g.wifi = none
    | some p => ∃ generation, g.wifi = some (credentialFile { p with generation })

/-- What `done` publishes is true of the files it left. -/
structure TruthfulDone (d : Directory) (op : Operation) (done : Done) : Prop where
  none : done.result.persistentChange = .none → Files.of (d.run done.acts) = Files.of d
  rolledBack : done.result.persistentChange = .rolledBack →
    Restored J (Files.of d) (Files.of (d.run done.acts))
  committed : done.result.persistentChange = .committed →
    InPlace J N (Files.of (d.run done.acts)) op
  succeeded : done.status = .succeeded → Complete J N (Files.of (d.run done.acts)) op

/-- The result of the operation is truthful. -/
def Truthful (d : Directory) (op : Operation) : Prop :=
  TruthfulDone J N d op (worker J N d op)

theorem status_of_code_ne {done : Done} (h : done.result.code ≠ .none) :
    done.status ≠ .succeeded := by
  simp [Done.status, h]

theorem truthful_of_unchanged {d : Directory} {op : Operation} {done : Done}
    (hcode : done.result.code ≠ .none) (hchange : done.result.persistentChange = .none)
    (hfiles : Files.of (d.run done.acts) = Files.of d) : TruthfulDone J N d op done :=
  ⟨fun _ => hfiles, by simp [hchange], by simp [hchange],
    fun h => absurd h (status_of_code_ne hcode)⟩

theorem truthful_of_refused {d : Directory} {op : Operation} {error : EgpError}
    (hcode : error.code ≠ .none) (hchange : error.persistentChange = .none) :
    TruthfulDone J N d op ⟨[], error⟩ :=
  truthful_of_unchanged J N hcode hchange rfl

theorem truthful_of_uncertain {d : Directory} {op : Operation} {done : Done}
    (hcode : done.result.code ≠ .none)
    (hchange : done.result.persistentChange = .uncertain) : TruthfulDone J N d op done :=
  ⟨by simp [hchange], by simp [hchange], by simp [hchange],
    fun h => absurd h (status_of_code_ne hcode)⟩

theorem truthful_of_committed {d : Directory} {op : Operation} {done : Done}
    (hchange : done.result.persistentChange = .committed)
    (hplace : InPlace J N (Files.of (d.run done.acts)) op)
    (hcomplete : done.status = .succeeded → Complete J N (Files.of (d.run done.acts)) op) :
    TruthfulDone J N d op done :=
  ⟨by simp [hchange], by simp [hchange], fun _ => hplace, hcomplete⟩

theorem truthful_of_rolledBack {d : Directory} {op : Operation} {done : Done}
    (hcode : done.result.code ≠ .none)
    (hchange : done.result.persistentChange = .rolledBack)
    (hrestored : Restored J (Files.of d) (Files.of (d.run done.acts))) :
    TruthfulDone J N d op done :=
  ⟨by simp [hchange], fun _ => hrestored, by simp [hchange],
    fun h => absurd h (status_of_code_ne hcode)⟩

/-- A store call that failed hands out its own, truthful error. -/
theorem truthful_of_failed_call {α : Type} {d : Directory} {g : Files} {v : α}
    {r : Reply α} (h : Outcome d g v r) (hvalue : r.value = none) {op : Operation} :
    TruthfulDone J N d op ⟨r.acts, r.error⟩ := by
  cases h with
  | refused h => exact truthful_of_unchanged J N h.code h.change h.changes.final
  | uncertain h => exact truthful_of_uncertain J N h.code h.change
  | done value _ =>
      rw [hvalue] at value
      cases value

/-! ## SET_ENDPOINT -/

/-- The result of SET_ENDPOINT is true of the files. -/
theorem truthful_setEndpoint (d : Directory) (json : Bytes) (env : SetEndpointEnv) :
    TruthfulDone J N d (.setEndpoint json env) (Operations.setEndpoint J N env d json) := by
  unfold Operations.setEndpoint
  cases hparse : parseEndpoint J json with
  | error error =>
      exact truthful_of_refused J N (parseEndpoint_error J hparse).1
        (parseEndpoint_error J hparse).2
  | ok endpoint =>
      cases env.authorizeAndIdle with
      | error failure => exact truthful_of_refused J N failure.failed failure.unchanged
      | ok _ =>
          simp only
          rcases replaceRuntimeOutcome J N env.replace d endpoint with
            hr | ⟨url, previous, hurl, ho⟩
          · rw [hr.value]
            exact truthful_of_unchanged J N hr.code hr.change hr.changes.final
          · cases hvalue : (egpStoreReplaceRuntime J N env.replace d endpoint).value with
            | none => exact truthful_of_failed_call J N ho hvalue
            | some v =>
                have hfinal := (ho.of_value hvalue).2
                have hplace : InPlace J N (Files.of (d.run
                    (egpStoreReplaceRuntime J N env.replace d endpoint).acts))
                      (.setEndpoint json env) :=
                  ⟨endpoint, url, _, hparse, hurl, by rw [hfinal]; rfl⟩
                simp only
                split
                · exact truthful_of_committed J N rfl hplace fun _ => hplace
                · exact truthful_of_committed J N rfl hplace fun _ => hplace

/-! ## FORGET_WIFI -/

/-- The forget of a live credential that is revoked and whose tombstone then
stays: its inspection or its removal fails. -/
structure ForgetMisreports (d : Directory) (json : Bytes) (env : ForgetWifiEnv) : Prop where
  request : parseEmpty J json = .ok ()
  authorized : env.authorizeAndIdle = .ok ()
  noTombstone : loadWifiPath J env.begin.tombstone (d .forget) = .ok none
  live : ∃ w, loadWifiPath J env.begin.live (d .wifi) = .ok (some w)
  commit : env.begin.commit = none
  revoked : env.revoke = .ok ()
  finish : env.finish = some .inspect ∨ env.finish = some .unlink

/-- The begun forget leaves no live credential, and a tombstone if it had one. -/
theorem truthful_forgetBegun {d : Directory} {json : Bytes} {env : ForgetWifiEnv}
    {begun : List Act} {hadWifi : Bool} (hwifi : d.run begun .wifi = none)
    (hnone : hadWifi = false → d.run begun .forget = none ∧ Files.of (d.run begun) = Files.of d)
    (hfinish : hadWifi = true → env.revoke = .ok () →
      Files.of (d.run begun) ≠ Files.of d → finishReaches env.finish (d.run begun .forget) = true) :
    TruthfulDone J N d (.forgetWifi json env) (forgetBegun env d begun hadWifi) := by
  unfold forgetBegun
  cases hrevoke : env.revoke with
  | error failure =>
      cases hadWifi with
      | true =>
          exact truthful_of_committed J N rfl hwifi
            fun h => absurd h (status_of_code_ne failure.failed)
      | false =>
          exact truthful_of_unchanged J N failure.failed failure.unchanged (hnone rfl).2
  | ok _ =>
      have hresult : (forgetResult env.raced).persistentChange = .committed := by
        unfold forgetResult
        split <;> rfl
      cases hadWifi with
      | false =>
          exact truthful_of_committed J N hresult hwifi fun _ => ⟨hwifi, (hnone rfl).1⟩
      | true =>
          simp only [if_true]
          have happend : ∀ acts, d.run (begun ++ acts) = (d.run begun).run acts :=
            fun acts => Trace.run_append _ _ _ _
          have houtcome := forgetFinishOutcome env.finish (d.run begun)
          cases houtcome with
          | refused h =>
              rw [h.value]
              refine truthful_of_unchanged J N h.code h.change ?_
              -- the error says that nothing changed, so nothing may have before
              by_cases hsame : Files.of (d.run begun) = Files.of d
              · simp only [happend, h.changes.final, hsame]
              · have hreaches := hfinish rfl hrevoke hsame
                rcases finish_reached hreaches with hu | ⟨hvalue, -⟩
                · exact absurd (h.change.symm.trans hu.change) (by simp)
                · exact absurd (h.value.symm.trans hvalue) (by simp)
          | uncertain h =>
              rw [h.value]
              exact truthful_of_uncertain J N h.code h.change
          | done value changes =>
              rw [value]
              have hfinal : Files.of (d.run (begun ++
                  (egpStoreForgetFinish env.finish (d.run begun)).acts)) =
                    (Files.of (d.run begun)).withoutForget := by
                rw [happend]
                exact changes.final
              have hgone : (Files.of (d.run (begun ++
                  (egpStoreForgetFinish env.finish (d.run begun)).acts))).wifi = none := by
                rw [hfinal]
                exact hwifi
              refine truthful_of_committed J N hresult hgone fun _ => ⟨hgone, ?_⟩
              rw [hfinal]
              rfl

/-- The result of FORGET_WIFI is true of the files, but for the reported kind. -/
theorem truthful_forgetWifi {d : Directory} {json : Bytes} {env : ForgetWifiEnv}
    (h : ¬ ForgetMisreports J d json env) :
    TruthfulDone J N d (.forgetWifi json env) (Operations.forgetWifi J env d json) := by
  unfold Operations.forgetWifi
  cases hparse : parseEmpty J json with
  | error error =>
      exact truthful_of_refused J N (parseEmpty_error J hparse).1 (parseEmpty_error J hparse).2
  | ok _ =>
      cases hauthorized : env.authorizeAndIdle with
      | error failure => exact truthful_of_refused J N failure.failed failure.unchanged
      | ok _ =>
          simp only
          cases forgetBeginOutcome J env.begin d with
          | refused hr =>
              rw [hr.value]
              exact truthful_of_unchanged J N hr.code hr.change hr.changes.final
          | pending w tombstone wifi value acts =>
              rw [value, acts]
              refine truthful_forgetBegun J N wifi (by simp) ?_
              intro _ _ hchanged
              exact absurd rfl hchanged
          | absent tombstone wifi value acts =>
              rw [value, acts]
              exact truthful_forgetBegun J N wifi (fun _ => ⟨tombstone, rfl⟩) (by simp)
          | live w tombstone wifi outcome commit =>
              cases hvalue : (egpStoreForgetBegin J env.begin d).value with
              | none => exact truthful_of_failed_call J N outcome hvalue
              | some forgotten =>
                  obtain ⟨hforgotten, hfinal⟩ := outcome.of_value hvalue
                  rw [hforgotten]
                  refine truthful_forgetBegun J N ?_ (by simp) ?_
                  · exact congrArg Files.wifi hfinal
                  · intro _ hrevoked _
                    have hstone : d.run (egpStoreForgetBegin J env.begin d).acts .forget =
                        d .wifi := congrArg Files.forget hfinal
                    rw [hstone]
                    have hcommit : env.begin.commit = none := by
                      simpa [hvalue] using commit.symm
                    have hprivate := (load_ok J wifi).privateFile
                    have hfinish : ¬ (env.finish = some .inspect ∨ env.finish = some .unlink) :=
                      fun hfault => h ⟨hparse, hauthorized, tombstone, ⟨w, wifi⟩, hcommit,
                        hrevoked, hfault⟩
                    exact finishReaches_of_private _ hprivate hfinish

/-- Of the reported kind the result of FORGET_WIFI is not true. -/
theorem not_truthful_forgetWifi {d : Directory} {json : Bytes} {env : ForgetWifiEnv}
    (h : ForgetMisreports J d json env) :
    ¬ TruthfulDone J N d (.forgetWifi json env) (Operations.forgetWifi J env d json) := by
  intro htruthful
  obtain ⟨w, hlive⟩ := h.live
  have hbegin : egpStoreForgetBegin J env.begin d =
      ⟨[.rename .wifi .forget, .sync], forgetPrepared .committed, some (some w)⟩ := by
    simp [egpStoreForgetBegin, h.noTombstone, forgetLive, hlive, h.commit]
  have hfinal : Files.of (d.run [.rename .wifi .forget, .sync]) = (Files.of d).forgotten :=
    of_rename_forget d
  have hwifi : d .wifi ≠ none := fun hnone => by
    have := (load_ok J hlive).missing.mpr hnone
    cases this
  have hstops : finishReaches env.finish
      (d.run [.rename .wifi .forget, .sync] .forget) = false := by
    have hstone : d.run [.rename .wifi .forget, .sync] .forget = d .wifi :=
      congrArg Files.forget hfinal
    rw [hstone]
    obtain ⟨file, hfile⟩ := Option.ne_none_iff_exists'.mp hwifi
    rcases h.finish with hfault | hfault
    · simp [finishReaches, hfault]
    · simp [finishReaches, hfault, hfile]
  have hrefused := finish_refused hstops
  have hdone : Operations.forgetWifi J env d json =
      ⟨[.rename .wifi .forget, .sync] ++
        (egpStoreForgetFinish env.finish (d.run [.rename .wifi .forget, .sync])).acts,
        (egpStoreForgetFinish env.finish (d.run [.rename .wifi .forget, .sync])).error⟩ := by
    simp [Operations.forgetWifi, h.request, h.authorized, hbegin, forgetBegun, h.revoked,
      hrefused.value]
  rw [hdone] at htruthful
  have hsame := htruthful.none hrefused.change
  have happend : ∀ acts, d.run ([.rename .wifi .forget, .sync] ++ acts) =
      (d.run [.rename .wifi .forget, .sync]).run acts := fun acts => Trace.run_append _ _ _ _
  rw [happend, hrefused.changes.final, hfinal] at hsame
  exact hwifi (congrArg Files.wifi hsame).symm

/-! ## SET_WIFI -/

/-- The rollback of a just written credential fails before its rename: it
cannot move the file away, or cannot read it back, or is out of generations, or
cannot write. -/
def restoreStops (io : RestoreIo) (nameFree : Bool) (candidate : EgpWifiConfig) :
    Option EgpWifiConfig → Bool
  | none => io.absence == some .inspect || io.absence == some .rename
  | some previous =>
      io.read.isSome || spellsNul candidate || egpJsonUintMax ≤ previous.generation + 1 ||
        !io.write.all (·.step == .directoryFsync) || !nameFree

/-- A SET_WIFI whose candidate is stored, refused by ConnMan in a way that
allows the rollback, and not rolled back. -/
structure SetWifiMisreports (d : Directory) (json : Bytes) (env : ApplyWifiEnv)
    (candidate : EgpWifiConfig) (previous : Option EgpWifiConfig) : Prop where
  request : parseWifi J json = .ok candidate
  authorized : env.authorizeAndIdle = .ok ()
  replaces : Replaces J env.replace d candidate previous
  refused : ∃ failure, env.apply = .failed .rollbackAllowed failure
  stops : restoreStops env.restore
    (env.restore.temporary == env.replace.temporary ||
      (d (.temporary env.restore.temporary)).isNone) candidate previous = true

/-- The store behind a replacement. -/
abbrev replacedStore (io : ReplaceIo) (d : Directory) (candidate : EgpWifiConfig) : Directory :=
  d.run (egpStoreReplaceWifi J io d candidate).acts

variable {J} in
/-- The store that a rollback finds: the candidate is in `wifi.json`. -/
theorem replaced_wifi {io : ReplaceIo} {d : Directory} {candidate : EgpWifiConfig}
    {previous : Option EgpWifiConfig} (h : Replaces J io d candidate previous) :
    replacedStore J io d candidate .wifi =
      some (credentialFile (nextWifi candidate previous)) :=
  congrArg Files.wifi (replace_done J h).2.final

/-- The write of the rollback reaches its rename. -/
theorem writeReaches_replaced {io : ReplaceIo} {d : Directory} {candidate : EgpWifiConfig}
    {previous : Option EgpWifiConfig} (h : Replaces J io d candidate previous)
    (fault : Option WriteFault) (id : Nat) :
    writeReaches fault id (replacedStore J io d candidate) .wifi =
      (fault.all (·.step == .directoryFsync) &&
        (id == io.temporary || (d (.temporary id)).isNone)) := by
  have htemporary : replacedStore J io d candidate (.temporary id) =
      if id = io.temporary then none else d (.temporary id) := replaced_temporary J h id
  rw [writeReaches, replaced_wifi h, htemporary]
  by_cases hid : id = io.temporary
  · simp [hid, credentialFile]
  · have hbeq : (id == io.temporary) = false := by simpa using hid
    simp [hid, hbeq, credentialFile]

theorem rollbackBase_next (candidate p : EgpWifiConfig) :
    rollbackBase (some (nextWifi candidate (some p))) p = p.generation + 1 := by
  simp [rollbackBase, nextWifi]

/-- A restore that stops before its rename changes nothing. -/
theorem restore_stops {env : ApplyWifiEnv} {d : Directory} {candidate : EgpWifiConfig}
    {previous : Option EgpWifiConfig} (h : Replaces J env.replace d candidate previous)
    (hstops : restoreStops env.restore
      (env.restore.temporary == env.replace.temporary ||
        (d (.temporary env.restore.temporary)).isNone) candidate previous = true) :
    Refused (replacedStore J env.replace d candidate)
      (egpStoreRestoreWifi J env.restore (replacedStore J env.replace d candidate)
        previous) := by
  have hwifi := replaced_wifi h
  have hreaches := writeReaches_replaced J h env.restore.write env.restore.temporary
  generalize replacedStore J env.replace d candidate = d' at hwifi hreaches ⊢
  cases previous with
  | none =>
      rw [restore_absence_eq]
      refine (absence_refused ?_).finish _ _
      simp only [restoreStops, Bool.or_eq_true, beq_iff_eq] at hstops
      rcases hstops with hfault | hfault
      · simp [absenceReaches, hfault]
      · simp [absenceReaches, hfault, hwifi]
  | some p =>
      rcases restoreOutcome J env.restore d' p with hr | ⟨current, hvalid, hload, hroom, -⟩
      · exact hr
      · -- the checks passed, so it was the write that stopped
        have hstorable := storable_nextWifi h.valid h.room
        have hread : env.restore.read = none := fault_of_load_ok J (hwifi ▸ hload)
        have hcurrent := hload
        rw [hread, hwifi, loadWifiPath_credentialFile J hstorable] at hcurrent
        have hplain : spellsNul candidate = false := by
          cases hspells : spellsNul candidate with
          | false => rfl
          | true =>
              have hnext : spellsNul (nextWifi candidate (some p)) = true := hspells
              rw [hnext] at hcurrent
              cases hcurrent
        have hnext : spellsNul (nextWifi candidate (some p)) = false := hplain
        rw [hnext] at hcurrent
        have hcurrent' : current = some (nextWifi candidate (some p)) := by
          simpa using hcurrent.symm
        have hbase : ¬ egpJsonUintMax ≤ p.generation + 1 := by
          rw [hcurrent', rollbackBase_next] at hroom
          exact Nat.not_le.mpr hroom
        have hstop : writeReaches env.restore.write env.restore.temporary d' .wifi = false := by
          simp only [restoreStops, hread, hplain, hbase, Option.isSome_none, Bool.false_or,
            decide_false, Bool.or_eq_true, Bool.not_eq_true'] at hstops
          rw [hreaches, Bool.and_eq_false_iff]
          exact hstops
        rw [restore_eq J hvalid hload hroom]
        exact (write_refused hstop _).finish _ _

/-- A restore that reaches its rename brings the credential before back, surely or perhaps.
-/
theorem restore_goes_on {env : ApplyWifiEnv} {d : Directory} {candidate : EgpWifiConfig}
    {previous : Option EgpWifiConfig} (h : Replaces J env.replace d candidate previous)
    (hgoes : restoreStops env.restore
      (env.restore.temporary == env.replace.temporary ||
        (d (.temporary env.restore.temporary)).isNone) candidate previous = false) :
    ∃ g v, Restored J (Files.of d) g ∧
      (Uncertain (replacedStore J env.replace d candidate) g
          (egpStoreRestoreWifi J env.restore (replacedStore J env.replace d candidate)
            previous) ∨
        ((egpStoreRestoreWifi J env.restore (replacedStore J env.replace d candidate)
            previous).value = some v ∧
          Changes (replacedStore J env.replace d candidate) g
            (egpStoreRestoreWifi J env.restore (replacedStore J env.replace d candidate)
              previous).acts)) := by
  have hwifi := replaced_wifi h
  have hreaches := writeReaches_replaced J h env.restore.write env.restore.temporary
  have hloaded := load_ok J h.loaded
  generalize replacedStore J env.replace d candidate = d' at hwifi hreaches ⊢
  cases previous with
  | none =>
      refine ⟨(Files.of d').withoutWifi, 0, ⟨none, hloaded.unfaulted, rfl⟩, ?_⟩
      simp only [restoreStops, Bool.or_eq_false_iff, beq_eq_false_iff_ne] at hgoes
      have habsence : absenceReaches env.restore.absence (d' .wifi) = true := by
        simp [absenceReaches, hwifi, hgoes.1, hgoes.2, credentialFile]
      rw [restore_absence_eq]
      rcases absence_reached habsence with hu | ⟨hvalue, hchanges⟩
      · exact .inl (hu.finish _ _)
      · rw [finish_of_some hvalue]
        exact .inr ⟨rfl, hchanges⟩
  | some p =>
      simp only [restoreStops, Bool.or_eq_false_iff, decide_eq_false_iff_not,
        Bool.not_eq_false'] at hgoes
      obtain ⟨⟨⟨⟨hread, hplain⟩, hbase⟩, hwrite⟩, hfree⟩ := hgoes
      have hread : env.restore.read = none := by simpa using hread
      have hnext : spellsNul (nextWifi candidate (some p)) = false := hplain
      have hload : loadWifiPath J env.restore.read (d' .wifi) =
          .ok (some (nextWifi candidate (some p))) := by
        rw [hread, hwifi, loadWifiPath_credentialFile J (storable_nextWifi h.valid h.room), hnext]
        rfl
      have hroom : rollbackBase (some (nextWifi candidate (some p))) p < egpJsonUintMax := by
        rw [rollbackBase_next]
        omega
      have hreaches : writeReaches env.restore.write env.restore.temporary d' .wifi = true := by
        rw [hreaches, hwrite, hfree]
        rfl
      refine ⟨(Files.of d').withWifi (restoredWifi (some (nextWifi candidate (some p))) p),
        rollbackBase (some (nextWifi candidate (some p))) p + 1,
        ⟨some p, hloaded.unfaulted, _, rfl⟩, ?_⟩
      rw [restore_eq J (hloaded.valid p rfl).1 hload hroom]
      cases hfault : env.restore.write with
      | none =>
          rw [hfault] at hreaches
          obtain ⟨hvalue, hchanges⟩ := write_done hreaches
            (serializeWifi (restoredWifi (some (nextWifi candidate (some p))) p))
          rw [finish_of_some hvalue]
          exact .inr ⟨rfl, hchanges⟩
      | some fault =>
          rw [hfault] at hreaches
          exact .inl ((write_uncertain hreaches _).finish _ _)

/-- The result behind a failed application is true of the files, but for the reported kind.
-/
theorem truthful_applyFailed {d : Directory} {json : Bytes} {env : ApplyWifiEnv}
    {candidate : EgpWifiConfig} {previous : Option EgpWifiConfig}
    (hrequest : parseWifi J json = .ok candidate)
    (hreplaces : Replaces J env.replace d candidate previous)
    {disposition : EgpConnmanDisposition} {failure : Failure}
    (hgoes : disposition = .rollbackAllowed → restoreStops env.restore
      (env.restore.temporary == env.replace.temporary ||
        (d (.temporary env.restore.temporary)).isNone) candidate previous = false) :
    TruthfulDone J N d (.setWifi json env)
      (applyFailed J env d (egpStoreReplaceWifi J env.replace d candidate).acts previous
        disposition failure) := by
  unfold applyFailed
  by_cases hdisposition : disposition = .rollbackAllowed
  · simp only [hdisposition, if_true]
    obtain ⟨g, v, hrestored, hu | ⟨hvalue, hchanges⟩⟩ :=
      restore_goes_on J hreplaces (hgoes hdisposition)
    · rw [hu.value]
      exact truthful_of_uncertain J N hu.code hu.change
    · rw [hvalue]
      simp only
      cases env.reconciled with
      | false => exact truthful_of_uncertain J N failure.failed rfl
      | true =>
          refine truthful_of_rolledBack J N failure.failed rfl ?_
          have happend : d.run ((egpStoreReplaceWifi J env.replace d candidate).acts ++
              (egpStoreRestoreWifi J env.restore (replacedStore J env.replace d candidate)
                previous).acts) =
              (replacedStore J env.replace d candidate).run
                (egpStoreRestoreWifi J env.restore (replacedStore J env.replace d candidate)
                  previous).acts := Trace.run_append _ _ _ _
          rw [happend, hchanges.final]
          exact hrestored
  · simp only [hdisposition, if_false]
    refine truthful_of_committed J N rfl ?_ fun h => absurd h (status_of_code_ne failure.failed)
    exact ⟨candidate, _, hrequest, replaced_wifi hreplaces⟩

/-- The result of SET_WIFI is true of the files, but for the reported kind. -/
theorem truthful_setWifi {d : Directory} {json : Bytes} {env : ApplyWifiEnv}
    (h : ∀ candidate previous, ¬ SetWifiMisreports J d json env candidate previous) :
    TruthfulDone J N d (.setWifi json env) (applyWifi J env d json) := by
  unfold applyWifi
  cases hrequest : parseWifi J json with
  | error error =>
      exact truthful_of_refused J N (parseWifi_error J hrequest).1 (parseWifi_error J hrequest).2
  | ok candidate =>
      cases hauthorized : env.authorizeAndIdle with
      | error failure => exact truthful_of_refused J N failure.failed failure.unchanged
      | ok _ =>
          simp only
          cases hvalue : (egpStoreReplaceWifi J env.replace d candidate).value with
          | none =>
              rcases replaceOutcome J env.replace d candidate with hr | ⟨previous, -, -, -, ho⟩
              · exact truthful_of_unchanged J N hr.code hr.change hr.changes.final
              · exact truthful_of_failed_call J N ho hvalue
          | some v =>
              obtain ⟨previous, hreplaces, rfl⟩ := replaces_of_value J hvalue
              have hplace : InPlace J N (Files.of (replacedStore J env.replace d candidate))
                  (.setWifi json env) := ⟨candidate, _, hrequest, replaced_wifi hreplaces⟩
              simp only
              cases happly : env.apply with
              | applied =>
                  simp only
                  split
                  · exact truthful_of_committed J N rfl hplace fun _ => hplace
                  · exact truthful_of_committed J N rfl hplace fun _ => hplace
              | failed disposition failure =>
                  refine truthful_applyFailed J N hrequest hreplaces fun hdisposition => ?_
                  rw [hdisposition] at happly
                  rw [← Bool.not_eq_true]
                  intro hstops
                  exact h candidate previous
                    ⟨hrequest, hauthorized, hreplaces, ⟨failure, happly⟩, hstops⟩

/-- A replacement is a change: the new generation is not in the old file. -/
theorem replaced_ne {io : ReplaceIo} {d : Directory} {candidate : EgpWifiConfig}
    {previous : Option EgpWifiConfig} (h : Replaces J io d candidate previous) :
    Files.of (replacedStore J io d candidate) ≠ Files.of d := by
  intro hsame
  have hwifi : d .wifi = some (credentialFile (nextWifi candidate previous)) :=
    (congrArg Files.wifi hsame).symm.trans (replaced_wifi h)
  have hload := (load_ok J h.loaded).unfaulted
  rw [hwifi, loadWifiPath_credentialFile J (storable_nextWifi h.valid h.room)] at hload
  cases hspells : spellsNul (nextWifi candidate previous) with
  | true =>
      rw [hspells] at hload
      cases hload
  | false =>
      rw [hspells] at hload
      have hprevious : previous = some (nextWifi candidate previous) := by
        simpa using hload.symm
      have hgeneration := congrArg (fun p => p.elim 0 EgpWifiConfig.generation) hprevious
      cases previous with
      | none => cases hprevious
      | some p => simp [nextWifi] at hgeneration

/-- Of the reported kind the result of SET_WIFI is not true. -/
theorem not_truthful_setWifi {d : Directory} {json : Bytes} {env : ApplyWifiEnv}
    {candidate : EgpWifiConfig} {previous : Option EgpWifiConfig}
    (h : SetWifiMisreports J d json env candidate previous) :
    ¬ TruthfulDone J N d (.setWifi json env) (applyWifi J env d json) := by
  intro htruthful
  obtain ⟨failure, happly⟩ := h.refused
  have hrefused := restore_stops J h.replaces h.stops
  have hdone : applyWifi J env d json =
      ⟨(egpStoreReplaceWifi J env.replace d candidate).acts ++
        (egpStoreRestoreWifi J env.restore (replacedStore J env.replace d candidate)
          previous).acts,
        (egpStoreRestoreWifi J env.restore (replacedStore J env.replace d candidate)
          previous).error⟩ := by
    simp [applyWifi, h.request, h.authorized, (replace_done J h.replaces).1, happly,
      applyFailed, hrefused.value]
  rw [hdone] at htruthful
  have hsame := htruthful.none hrefused.change
  have happend : d.run ((egpStoreReplaceWifi J env.replace d candidate).acts ++
      (egpStoreRestoreWifi J env.restore (replacedStore J env.replace d candidate)
        previous).acts) =
      (replacedStore J env.replace d candidate).run
        (egpStoreRestoreWifi J env.restore (replacedStore J env.replace d candidate)
          previous).acts := Trace.run_append _ _ _ _
  rw [happend, hrefused.changes.final] at hsame
  exact replaced_ne J h.replaces hsame

/-! ## All operations -/

/-- The operation is on one of the two paths that report no change after one. -/
def Misreports (d : Directory) : Operation → Prop
  | .setWifi json env => ∃ candidate previous, SetWifiMisreports J d json env candidate previous
  | .setEndpoint _ _ => False
  | .forgetWifi json env => ForgetMisreports J d json env

/-- The published result is truthful exactly when neither a rollback nor the
removal of a tombstone fails behind a change that has already happened. -/
theorem result_truthful_iff (d : Directory) (op : Operation) :
    Truthful J N d op ↔ ¬ Misreports J d op := by
  cases op with
  | setWifi json env =>
      constructor
      · rintro htruthful ⟨candidate, previous, h⟩
        exact not_truthful_setWifi J N h htruthful
      · intro h
        exact truthful_setWifi J N fun candidate previous hm => h ⟨candidate, previous, hm⟩
  | setEndpoint json env => exact ⟨fun _ h => h, fun _ => truthful_setEndpoint J N d json env⟩
  | forgetWifi json env =>
      constructor
      · intro htruthful h
        exact not_truthful_forgetWifi J N h htruthful
      · intro h
        exact truthful_forgetWifi J N h

/-- The first network of a device is refused by ConnMan, and `wifi.json` cannot
be moved away again. -/
def stuckRollback : Operation :=
  .setWifi labRequest
    { smoothApply with
      apply := .failed .rollbackAllowed
        ⟨egpErrorSet .wifiAuthFailed true .none (ascii "ConnMan rejected the Wi-Fi credential"),
          by decide, rfl⟩
      restore := ⟨0, none, none, some .rename⟩ }

/-- A forget is revoked, and its tombstone cannot be removed. -/
def stuckTombstone : Operation :=
  .forgetWifi (ascii "{}") { unrevokedForget with revoke := .ok (), finish := some .unlink }

/-- Both operations report no change, with `wifi.json` written by the first and
gone after the second. -/
theorem result_untruthful_behind_change :
    ¬ Truthful JsonReader.referenceParser referenceLibrary (fun _ => none) stuckRollback ∧
      ¬ Truthful JsonReader.referenceParser referenceLibrary joinedStore stuckTombstone := by
  constructor
  · intro h
    have hsame := congrArg (fun f : Files => f.wifi.isSome) (h.none (by decide +kernel))
    exact absurd hsame (by decide +kernel)
  · intro h
    have hsame := congrArg (fun f : Files => f.wifi.isSome) (h.none (by decide +kernel))
    exact absurd hsame (by decide +kernel)

end EdgeGuard.Provisioning.OperationResults
