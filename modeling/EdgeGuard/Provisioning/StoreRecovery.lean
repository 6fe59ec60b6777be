import EdgeGuard.Provisioning.StoreInvariant

/-!
# The store after a crash

The five operations of the store over every interruption: the process stops
after any act of an operation or of the scan at an opening, and the power goes
at any time.  A power loss keeps what the directory held at its last `fsync`,
and as many of the later changes as happened to be written, in their order.

An operation that begins while nothing is pending on the disk can be found
either done or not done, whatever happens to it.  `egp_store_forget_begin` does
not see to that by itself: it takes a tombstone that it finds for one that is
there to stay, and when the process stopped between the rename and the `fsync`
of an earlier call, a power loss brings back the credential that the second
call reported as forgotten.

## Main results

* `Event.keeps` — what a step of the store leaves of a property of its files.
* `Run.live` — where a live credential comes from.
* `store_recovers` — the recovery of every operation that begins settled.
* `pending_forget_is_lost` — the run that loses a forget.
-/

namespace EdgeGuard.Provisioning.StoreRecovery

open EdgeGuard.Base EdgeGuard.Base.CText EdgeGuard.Base.Json EdgeGuard.Base.Uri
open EdgeGuard.Base.DurableDirectory
open EdgeGuard.Provisioning.Model EdgeGuard.Provisioning.Store
open EdgeGuard.Provisioning.StoreRoundTrip EdgeGuard.Provisioning.StoreTransactions
open EdgeGuard.Provisioning.RuntimeStore EdgeGuard.Provisioning.StoreInvariant

variable (J : JsonParser) (N : NetLibrary)

/-! ## Operations -/

/-- A call into the store, with the step of it that fails. -/
inductive Op
  | replaceWifi (io : ReplaceIo) (candidate : EgpWifiConfig)
  | replaceRuntime (io : ReplaceIo) (candidateUrl : Bytes)
  | restoreWifi (io : RestoreIo) (previous : Option EgpWifiConfig)
  | forgetBegin (io : ForgetBeginIo)
  | forgetFinish (fault : Option FinishStep)

def Op.acts (d : Directory) : Op → List Act
  | .replaceWifi io candidate => (egpStoreReplaceWifi J io d candidate).acts
  | .replaceRuntime io candidateUrl => (egpStoreReplaceRuntime J N io d candidateUrl).acts
  | .restoreWifi io previous => (egpStoreRestoreWifi J io d previous).acts
  | .forgetBegin io => (egpStoreForgetBegin J io d).acts
  | .forgetFinish fault => (egpStoreForgetFinish fault d).acts

/-- The credential that an operation of SET_WIFI is called with, under whatever
generation; `egp_store_restore_wifi` is its rollback. -/
def Op.Carries (w : EgpWifiConfig) : Op → Prop
  | .replaceWifi _ candidate => w = { candidate with generation := w.generation }
  | .restoreWifi _ (some previous) => w = { previous with generation := w.generation }
  | _ => False

/-- The file is one that the operation may write. -/
def Op.Wrote (file : File) (op : Op) : Prop :=
  ∃ w, op.Carries w ∧ Storable w ∧ file = credentialFile w

/-- What an operation can do to the files: one change at most, and a live credential
behind it was there before or is stored by it. -/
structure Op.Turns (d : Directory) (op : Op) (g : Files) : Prop where
  changes : Changes d g (op.acts J N d)
  live : ∀ file, g.wifi = some file → d .wifi = some file ∨ op.Wrote file

private theorem turns_same {d : Directory} {op : Op}
    (h : Changes d (Files.of d) (op.acts J N d)) : op.Turns J N d (Files.of d) :=
  ⟨h, fun _ hfile => .inl hfile⟩

/-- A transaction was refused or led to its files. -/
private theorem changes_of_outcome {α : Type} {d : Directory} {g : Files} {v : α}
    {r : Reply α} (h : Outcome d g v r) : Changes d (Files.of d) r.acts ∨ Changes d g r.acts := by
  cases h with
  | refused h => exact .inl h.changes
  | uncertain h => exact .inr h.changes
  | done _ changes => exact .inr changes

private theorem turns_of_outcome {α : Type} {d : Directory} {op : Op} {g : Files} {v : α}
    {r : Reply α} (hacts : op.acts J N d = r.acts) (h : Outcome d g v r)
    (hlive : ∀ file, g.wifi = some file → d .wifi = some file ∨ op.Wrote file) :
    ∃ g, op.Turns J N d g := by
  rcases changes_of_outcome h with hchanges | hchanges
  · exact ⟨_, turns_same J N (hacts ▸ hchanges)⟩
  · exact ⟨g, hacts ▸ hchanges, hlive⟩

private theorem wrote_withWifi {d : Directory} {op : Op} {w : EgpWifiConfig}
    (hcarries : op.Carries w) (hstorable : Storable w) (file : File)
    (hfile : ((Files.of d).withWifi w).wifi = some file) :
    d .wifi = some file ∨ op.Wrote file :=
  .inr ⟨w, hcarries, hstorable, (Option.some.inj hfile).symm⟩

/-- Each call of the store makes one change at most. -/
theorem Op.turns (d : Directory) (op : Op) : ∃ g, op.Turns J N d g := by
  cases op with
  | replaceWifi io candidate =>
      rcases replaceOutcome J io d candidate with hr | ⟨previous, hvalid, -, hroom, houtcome⟩
      · exact ⟨_, turns_same J N hr.changes⟩
      · apply turns_of_outcome J N rfl houtcome
        apply wrote_withWifi _ (storable_nextWifi hvalid hroom)
        show nextWifi candidate previous = _
        rfl
  | replaceRuntime io candidateUrl =>
      rcases replaceRuntimeOutcome J N io d candidateUrl with hr | ⟨url, previous, -, houtcome⟩
      · exact ⟨_, turns_same J N hr.changes⟩
      · exact turns_of_outcome J N rfl houtcome fun file hfile => .inl hfile
  | restoreWifi io previous =>
      cases previous with
      | none =>
          apply turns_of_outcome J N rfl (absenceOutcome J io d)
          intro file hfile
          simp [Files.withoutWifi] at hfile
      | some previous =>
          rcases restoreOutcome J io d previous with hr | ⟨current, hvalid, -, hroom, houtcome⟩
          · exact ⟨_, turns_same J N hr.changes⟩
          · apply turns_of_outcome J N rfl houtcome
            apply wrote_withWifi _ (storable_restoredWifi hvalid hroom)
            show restoredWifi current previous = _
            rfl
  | forgetBegin io =>
      have hnil : (egpStoreForgetBegin J io d).acts = [] →
          ∃ g, (Op.forgetBegin io).Turns J N d g := by
        intro hacts
        refine ⟨_, turns_same J N ?_⟩
        show Changes d _ (egpStoreForgetBegin J io d).acts
        rw [hacts]
        exact changes_nil d
      cases forgetBeginOutcome J io d with
      | refused hr => exact ⟨_, turns_same J N hr.changes⟩
      | pending w tombstone wifi value acts => exact hnil acts
      | absent tombstone wifi value acts => exact hnil acts
      | live w tombstone wifi outcome commit =>
          apply turns_of_outcome J N rfl outcome
          intro file hfile
          simp [Files.forgotten] at hfile
  | forgetFinish fault =>
      exact turns_of_outcome J N rfl (forgetFinishOutcome fault d) fun file hfile => .inl hfile

/-! ## Runs -/

/-- The store directory under whatever daemon has it open: what it held when the power
was lost last, and the acts on it since. -/
structure Machine where
  base : Directory
  acts : List Act
  isOpen : Bool

/-- The directory as it stands. -/
def Machine.seen (m : Machine) : Directory := m.base.run m.acts

/-- The property holds of the files as they stand and of what a power loss may leave
of them. -/
def Machine.Holds (m : Machine) (P : Files → Prop) : Prop :=
  Lasting (fun d => P (Files.of d)) m.base m.acts

theorem Machine.Holds.mono {m : Machine} {P Q : Files → Prop} (h : m.Holds P)
    (hpq : ∀ f, P f → Q f) : m.Holds Q := Lasting.mono h fun d => hpq (Files.of d)

theorem Machine.Holds.now {m : Machine} {P : Files → Prop} (h : m.Holds P) :
    P (Files.of m.seen) := Lasting.now h

/-- Temporary files of any contents, as unfinished writes leave them.  What is renamed
was synced before, so no other file is ever torn. -/
def tear (torn : List (Nat × File)) : List Act :=
  torn.map fun t => .replace (.temporary t.1) t.2

inductive Event
  | call (op : Op)
  /-- The process stops behind `n` acts of the operation. -/
  | cut (op : Op) (n : Nat) (torn : List (Nat × File))
  /-- `egp_store_open` from its scan on; refused earlier, it touches nothing. -/
  | opening (io : ScanIo)
  | cutOpening (io : ScanIo) (n : Nat)
  /-- The power goes, and the first `kept` acts are found on the disk. -/
  | powerLoss (kept : Nat) (torn : List (Nat × File))
  /-- `egp_store_close`, or the end of the process between two calls. -/
  | closed

def Event.op : Event → Option Op
  | .call op | .cut op _ _ => some op
  | _ => none

/-- The acts of an operation that are performed when the event stops. -/
def Event.performed (d : Directory) : Event → List Act
  | .call op => op.acts J N d
  | .cut op n _ => (op.acts J N d).take n
  | _ => []

/-- The scan lists every file of the directory: `readdir` fails on a bad descriptor only. -/
def Complete (d : Directory) (listing : List FileName) : Prop :=
  ∀ name, (d name).isSome → name ∈ listing

/-- Operations need an open store, an opening a closed one, and what was synced is not
lost. -/
def Possible (m : Machine) : Event → Prop
  | .call _ | .cut _ _ _ => m.isOpen = true
  | .opening io | .cutOpening io _ => m.isOpen = false ∧ Complete m.seen io.listing
  | .powerLoss kept _ => .sync ∉ m.acts.drop kept
  | .closed => True

def next (m : Machine) : Event → Machine
  | .call op => { m with acts := m.acts ++ op.acts J N m.seen }
  | .cut op n torn =>
      ⟨m.base, m.acts ++ ((op.acts J N m.seen).take n ++ tear torn), false⟩
  | .opening io =>
      let scan := cleanupRecoveryFiles io m.seen
      ⟨m.base, m.acts ++ scan.acts, scan.value.isSome⟩
  | .cutOpening io n =>
      ⟨m.base, m.acts ++ (cleanupRecoveryFiles io m.seen).acts.take n, false⟩
  | .powerLoss kept torn => ⟨(m.base.run (m.acts.take kept)).run (tear torn), [], false⟩
  | .closed => { m with isOpen := false }

/-- One step of a run. -/
structure Entry where
  before : Machine
  event : Event

def Entry.after (e : Entry) : Machine := next J N e.before e.event

/-- The step is an opening that succeeds. -/
def Entry.Opens (e : Entry) : Prop :=
  ∃ io, e.event = .opening io ∧ (cleanupRecoveryFiles io e.before.seen).value = some ()

/-- The step is a call of `egp_store_forget_begin` that returns TRUE. -/
def Entry.Forgets (e : Entry) : Prop :=
  ∃ io, e.event = .call (.forgetBegin io) ∧
    (egpStoreForgetBegin J io e.before.seen).value.isSome = true

/-- The step puts the file in the place of `wifi.json`: it was not there before, and
is behind one of the acts that the step performed. -/
def Entry.Places (file : File) (e : Entry) : Prop :=
  e.before.seen .wifi ≠ some file ∧
    ∃ n, e.before.seen.run ((e.event.performed J N e.before.seen).take n) .wifi = some file

/-- The step is one of a SET_WIFI that stores the credential. -/
def Entry.Stores (w : EgpWifiConfig) (e : Entry) : Prop :=
  (∃ op, e.event.op = some op ∧ op.Carries w) ∧ e.Places J N (credentialFile w)

inductive Run : Machine → List Entry → Machine → Prop
  | nil (m : Machine) : Run m [] m
  | cons {m m' : Machine} {log : List Entry} (event : Event) :
      Possible m event → Run (next J N m event) log m' → Run m (⟨m, event⟩ :: log) m'

variable {J N}

theorem Run.split {m m' : Machine} {front back : List Entry} (h : Run J N m (front ++ back) m') :
    ∃ mid, Run J N m front mid ∧ Run J N mid back m' := by
  induction front generalizing m with
  | nil => exact ⟨m, .nil m, h⟩
  | cons e front ih =>
      cases h with
      | cons event hpossible hrest =>
          obtain ⟨mid, hfront, hback⟩ := ih hrest
          exact ⟨mid, .cons event hpossible hfront, hback⟩

/-- The parts of a run in front of one of its steps and behind it. -/
theorem Run.around {m m' : Machine} {front back : List Entry} {x : Entry}
    (h : Run J N m (front ++ x :: back) m') :
    Run J N m front x.before ∧ Possible x.before x.event ∧ Run J N (x.after J N) back m' := by
  obtain ⟨mid, hfront, hback⟩ := h.split
  cases hback with
  | cons event hpossible hrest => exact ⟨hfront, hpossible, hrest⟩

theorem Run.snoc {m m' : Machine} {log : List Entry} (h : Run J N m log m') (event : Event)
    (hpossible : Possible m' event) :
    Run J N m (log ++ [⟨m', event⟩]) (next J N m' event) := by
  induction h with
  | nil m => exact .cons event hpossible (.nil _)
  | cons first hfirst _ ih => exact .cons first hfirst (ih hpossible)

/-! ## What a step leaves -/

private theorem quiet_tear (torn : List (Nat × File)) : ∀ a ∈ tear torn, Quiet a := by
  intro a ha
  obtain ⟨t, -, rfl⟩ := List.mem_map.mp ha
  exact quiet_replace_temporary t.1 t.2

/-- Acts that no file shows. -/
private theorem keeps_quiet {P : Files → Prop} {d : Directory} {acts : List Act}
    (hacts : ∀ a ∈ acts, Quiet a) (h : P (Files.of d)) :
    Trace.Keeps perform (fun d => P (Files.of d)) d acts :=
  (changes_of_quiet hacts d).keeps h h

/-- The acts that an event performs lead to the files of its operation or leave those
before it. -/
theorem Event.between (event : Event) (d : Directory) (n : Nat) :
    Files.of (d.run ((event.performed J N d).take n)) = Files.of d ∨
      ∃ op g, event.op = some op ∧ op.Turns J N d g ∧
        Files.of (d.run ((event.performed J N d).take n)) = g := by
  have hop : ∀ op k, event.op = some op → Files.of (d.run ((op.acts J N d).take k)) = Files.of d ∨
      ∃ op' g, event.op = some op' ∧ op'.Turns J N d g ∧
        Files.of (d.run ((op.acts J N d).take k)) = g := by
    intro op k hevent
    obtain ⟨g, hturns⟩ := op.turns J N d
    rcases hturns.changes.between k with hold | hnew
    · exact .inl hold
    · exact .inr ⟨op, g, hevent, hturns, hnew⟩
  cases event with
  | call op => exact hop op n rfl
  | cut op k torn =>
      rw [Event.performed, List.take_take]
      exact hop op _ rfl
  | opening io => exact .inl (congrArg _ (congrArg _ List.take_nil))
  | cutOpening io k => exact .inl (congrArg _ (congrArg _ List.take_nil))
  | powerLoss kept torn => exact .inl (congrArg _ (congrArg _ List.take_nil))
  | closed => exact .inl (congrArg _ (congrArg _ List.take_nil))

/-- A property of the files that holds of everything a power loss may leave holds so
behind every step whose performed acts keep it. -/
theorem Event.keeps {P : Files → Prop} {m : Machine} {event : Event}
    (hpossible : Possible m event) (h : m.Holds P)
    (hperformed : Trace.Keeps perform (fun d => P (Files.of d)) m.seen
      (event.performed J N m.seen)) : (next J N m event).Holds P := by
  have hnow : P (Files.of m.seen) := h.now
  cases event with
  | call op => exact Lasting.append h hperformed
  | cut op n torn =>
      exact Lasting.append h (hperformed.append (keeps_quiet (quiet_tear torn) hperformed.last))
  | opening io =>
      exact Lasting.append h (keeps_quiet (quiet_cleanupRecoveryFiles io m.seen) hnow)
  | cutOpening io n =>
      apply Lasting.append h
      apply keeps_quiet _ hnow
      intro a ha
      exact quiet_cleanupRecoveryFiles io m.seen a (List.mem_of_mem_take ha)
  | powerLoss kept torn =>
      apply lasting_nil
      show P (Files.of ((m.base.run (m.acts.take kept)).run (tear torn)))
      rw [of_run_quiet (quiet_tear torn)]
      exact h _ ⟨m.acts.take kept, m.acts.drop kept, (List.take_append_drop kept m.acts).symm,
        hpossible, rfl⟩
  | closed => exact h

/-- Between two operations nothing changes. -/
theorem Run.keeps {P : Files → Prop} {m m' : Machine} {log : List Entry} (h : Run J N m log m')
    (hlog : ∀ e ∈ log, e.event.op = none) (hm : m.Holds P) :
    m'.Holds P := by
  induction h with
  | nil => exact hm
  | cons event hpossible _ ih =>
      apply ih
      · intro e he
        exact hlog e (List.mem_cons_of_mem _ he)
      · apply Event.keeps hpossible hm
        intro n
        rcases Event.between event _ n with hsame | ⟨op, g, hop, -⟩
        · rw [← Directory.run, hsame]
          exact hm.now
        · rw [hlog _ List.mem_cons_self] at hop
          cases hop

/-! ## Openings -/

/-- The names that the scan removes. -/
def disposable : FileName → Bool
  | .rollback | .temporary _ => true
  | .wifi | .runtime | .forget => false

/-- A cleanup that succeeds removed what it may remove. -/
theorem cleanupEntries_of_ok {fault : Option FileName} {d : Directory} {listing : List FileName}
    (h : (cleanupEntries fault d listing).2 = true) :
    (cleanupEntries fault d listing).1 = (listing.filter disposable).map .unlink := by
  induction listing with
  | nil => rfl
  | cons entry rest ih =>
      cases entry with
      | wifi | runtime | forget => exact ih h
      | rollback | temporary id =>
          simp only [cleanupEntries] at h ⊢
          split at h
          · cases h
          · rename_i hkept
            rw [if_neg hkept]
            simp only [List.filter_cons, disposable, if_true, List.map_cons]
            exact congrArg _ (ih h)

/-- A scan that succeeds has removed every file that is not part of the store. -/
theorem scan_clears {io : ScanIo} {d : Directory} (hcomplete : Complete d io.listing)
    (h : (cleanupRecoveryFiles io d).value = some ()) (name : FileName)
    (hname : disposable name = true) :
    d.run (cleanupRecoveryFiles io d).acts name = none := by
  have hcleared : d.run (cleanupEntries io.fault d io.listing).1 name = none ∨
      (cleanupEntries io.fault d io.listing).2 = false := by
    cases hok : (cleanupEntries io.fault d io.listing).2 with
    | false => exact .inr rfl
    | true =>
        left
        rw [cleanupEntries_of_ok hok, Directory.run, run_unlinks]
        split
        · rfl
        · rename_i hlisted
          rw [← Option.not_isSome_iff_eq_none]
          intro hsome
          exact hlisted (List.mem_filter.mpr ⟨hcomplete name hsome, hname⟩)
  unfold cleanupRecoveryFiles at h ⊢
  split at h
  · cases h
  rename_i hstarted
  rw [if_neg hstarted]
  simp only at h ⊢
  rcases hcleared with hcleared | hfailed
  · split at h
    · cases h
    · rename_i hok
      rw [if_neg hok]
      split at h
      · rename_i hnone
        rw [if_pos hnone]
        rwa [List.isEmpty_iff.mp hnone] at hcleared
      · rename_i hsome
        rw [if_neg hsome]
        split at h
        · cases h
        · rename_i hsynced
          rw [if_neg hsynced]
          show d.run ((cleanupEntries io.fault d io.listing).1 ++ [.sync]) name = none
          rw [Directory.run, Trace.run_append]
          exact hcleared
  · rw [hfailed] at h
    cases h

/-! ## Forgetting -/

/-- A live credential is one of those. -/
def Live (P : File → Prop) (f : Files) : Prop := ∀ file, f.wifi = some file → P file

variable (J N) in
/-- The step is one of a SET_WIFI that writes the file. -/
def Entry.Wrote (file : File) (e : Entry) : Prop :=
  (∃ op, e.event.op = some op ∧ op.Wrote file) ∧ e.Places J N file

/-- What an event makes of a live credential. -/
theorem Entry.live (e : Entry) (n : Nat) : Live
    (fun file => e.before.seen .wifi = some file ∨ e.Wrote J N file)
    (Files.of (e.before.seen.run ((e.event.performed J N e.before.seen).take n))) := by
  intro file hfile
  by_cases hbefore : e.before.seen .wifi = some file
  · exact .inl hbefore
  right
  rcases Event.between e.event e.before.seen n with hsame | ⟨op, g, hop, hturns, hg⟩
  · rw [hsame] at hfile
    exact absurd hfile hbefore
  · have hplaces : e.Places J N file := ⟨hbefore, n, hfile⟩
    rw [hg] at hfile
    rcases hturns.live file hfile with hold | hwrote
    · exact absurd hold hbefore
    · exact ⟨⟨op, hop, hwrote⟩, hplaces⟩

/-- A live credential was live at the beginning of a run or is stored in it. -/
theorem Run.live {P : File → Prop} {m m' : Machine} {log : List Entry} (h : Run J N m log m')
    (hm : m.Holds (Live P)) :
    m'.Holds (Live fun file => P file ∨ ∃ e ∈ log, e.Wrote J N file) := by
  induction h generalizing P with
  | nil => exact hm.mono fun f hf file hfile => .inl (hf file hfile)
  | @cons m m' log event hpossible _ ih =>
      have hfirst : (next J N m event).Holds
          (Live fun file => P file ∨ Entry.Wrote J N file ⟨m, event⟩) := by
        apply Event.keeps hpossible (hm.mono fun f hf file hfile => .inl (hf file hfile))
        intro n file hfile
        rcases Entry.live (J := J) (N := N) ⟨m, event⟩ n file hfile with hold | hwrote
        · exact .inl (hm.now file hold)
        · exact .inr hwrote
      apply (ih hfirst).mono
      intro f hf file hfile
      rcases hf file hfile with (hP | hwrote) | ⟨e, he, hwrote⟩
      · exact .inl hP
      · exact .inr ⟨_, List.mem_cons_self, hwrote⟩
      · exact .inr ⟨e, List.mem_cons_of_mem _ he, hwrote⟩

/-- A beginning that returns TRUE leaves no live credential, on the disk either if it
renames one, and to look at if there is none. -/
theorem forgetBegin_true {io : ForgetBeginIo} {d : Directory}
    (h : (egpStoreForgetBegin J io d).value.isSome = true) :
    ((egpStoreForgetBegin J io d).acts = [] ∧ d .wifi = none) ∨
      (egpStoreForgetBegin J io d).acts = [.rename .wifi .forget] ++ [.sync] := by
  cases forgetBeginOutcome J io d with
  | refused hr =>
      rw [hr.value] at h
      cases h
  | pending w tombstone wifi value acts => exact .inl ⟨acts, wifi⟩
  | absent tombstone wifi value acts => exact .inl ⟨acts, wifi⟩
  | live w tombstone wifi outcome commit =>
      right
      rw [commit, Option.isNone_iff_eq_none] at h
      simp [egpStoreForgetBegin, tombstone, forgetLive, wifi, h]

/-- Nothing that is pending on the disk touches the files that carry the configuration. -/
def Settled (m : Machine) : Prop := m.Holds (· = Files.of m.seen)

/-- The credential is gone for good. -/
theorem Entry.Forgets.gone {x : Entry} (h : x.Forgets J) (hsettled : Settled x.before) :
    (x.after J N).Holds (Live fun _ => False) := by
  obtain ⟨io, hevent, hvalue⟩ := h
  rw [Entry.after, hevent]
  show Lasting _ x.before.base (x.before.acts ++ (egpStoreForgetBegin J io x.before.seen).acts)
  rcases forgetBegin_true hvalue with ⟨hacts, hwifi⟩ | hacts
  · rw [hacts, List.append_nil]
    intro d hd file hfile
    rw [hsettled d hd, Files.of_wifi, hwifi] at hfile
    cases hfile
  · rw [hacts, ← List.append_assoc]
    intro d hd file hfile
    rw [hd.of_sync, Trace.run_append] at hfile
    simp [perform] at hfile

/-- What is loaded from a file that a step wrote is what it stored. -/
theorem Entry.Wrote.stores {file : File} {e : Entry} (h : e.Wrote J N file)
    {fault : Option ReadStep} {w : EgpWifiConfig}
    (hload : loadWifiPath J fault (some file) = .ok (some w)) : e.Stores J N w := by
  obtain ⟨⟨op, hop, v, hcarries, hstorable, rfl⟩, hplaces⟩ := h
  have heq := loadWifiPath_credentialFile J hstorable
  rw [(load_ok J hload).unfaulted] at heq
  split at heq
  · cases heq
  · cases heq
    exact ⟨⟨op, hop, hcarries⟩, hplaces⟩

/-! ## Recovery -/

variable (J N) in
/-- What is promised of a step `x` that performs `op`, wherever it stops and whatever
follows it: the next opening that succeeds finds the operation done or not done and
nothing else in the directory, and what was forgotten is not live until it is stored
again. -/
structure Recovers (x : Entry) (op : Op) (rest : List Entry) : Prop where
  reopened : ∀ mid y back, rest = mid ++ y :: back → (∀ e ∈ mid, e.event.op = none) → y.Opens →
    (Files.of (y.after J N).seen = Files.of x.before.seen ∨
      Files.of (y.after J N).seen = Files.of (x.before.seen.run (op.acts J N x.before.seen))) ∧
    ∀ name, disposable name = true → (y.after J N).seen name = none
  forgotten : x.Forgets J → ∀ mid y back, rest = mid ++ y :: back → ∀ fault w,
    egpStoreLoadWifi J fault (y.after J N).seen = .ok (some w) → ∃ e ∈ mid ++ [y], e.Stores J N w

/-- Behind an interrupted operation the disk holds the files before it or those after it. -/
theorem Entry.within {x : Entry} {op : Op} (hpossible : Possible x.before x.event)
    (hop : x.event.op = some op) (hsettled : Settled x.before) :
    (x.after J N).Holds fun f => f = Files.of x.before.seen ∨
      f = Files.of (x.before.seen.run (op.acts J N x.before.seen)) := by
  apply Event.keeps hpossible (hsettled.mono fun f hf => .inl hf)
  intro n
  rcases Event.between x.event x.before.seen n with hsame | ⟨op', g, hop', hturns, hg⟩
  · exact .inl hsame
  · rw [hop] at hop'
    cases hop'
    exact .inr (hg.trans hturns.changes.final.symm)

/-! ## A store with one credential -/

/-- The credential of a first SET_WIFI. -/
def labStored : EgpWifiConfig := nextWifi labWifi none

/-- The open store behind it, all of it on the disk. -/
def labStore : Machine := ⟨onlyWifi labStored, [], true⟩

theorem settled_labStore : Settled labStore := lasting_nil rfl

/-- A scan that meets no fault. -/
def cleanScan (listing : List FileName) : ScanIo := ⟨false, listing, none, false⟩

/-- The rename of a forget that was not synced. -/
def renamedStore (isOpen : Bool) : Machine :=
  ⟨onlyWifi labStored, [.rename .wifi .forget], isOpen⟩

private theorem forgetBegin_labStore :
    (egpStoreForgetBegin JsonReader.referenceParser noFaults labStore.seen).acts =
        [.rename .wifi .forget, .sync] ∧
      (egpStoreForgetBegin JsonReader.referenceParser noFaults labStore.seen).value.isSome =
        true := by
  decide +kernel

private theorem forgetBegin_renamedStore (isOpen : Bool) :
    (egpStoreForgetBegin JsonReader.referenceParser noFaults (renamedStore isOpen).seen).acts =
        [] ∧
      (egpStoreForgetBegin JsonReader.referenceParser noFaults
        (renamedStore isOpen).seen).value.isSome = true := by
  cases isOpen <;> decide +kernel

private theorem complete_forget {d : Directory}
    (hd : d = labStore.seen.run [.rename .wifi .forget]) :
    Complete d [.forget] := by
  rw [hd]
  intro name hname
  cases name <;> simp_all [labStore, Machine.seen, Directory.run, onlyWifi, perform]

private theorem complete_wifi : Complete labStore.seen [.wifi] := by
  intro name hname
  cases name <;> simp_all [labStore, Machine.seen, Directory.run, onlyWifi]

/-- Every operation that begins settled recovers, in every run. -/
theorem store_recovers {m m' : Machine} {front rest : List Entry} {x : Entry} {op : Op}
    (h : Run J N m (front ++ x :: rest) m') (hop : x.event.op = some op)
    (hsettled : Settled x.before) : Recovers J N x op rest := by
  obtain ⟨-, hpossible, hrest⟩ := h.around
  refine ⟨?_, ?_⟩
  · rintro mid y back rfl hmid ⟨io, hevent, hvalue⟩
    obtain ⟨hrun, hopening, -⟩ := hrest.around
    have hwithin := hrun.keeps hmid (Entry.within hpossible hop hsettled)
    have hopened : (y.after J N).Holds _ := Event.keeps hopening hwithin (by
      rw [hevent]
      exact Trace.keeps_nil hwithin.now)
    refine ⟨hopened.now, fun name hname => ?_⟩
    rw [hevent] at hopening
    rw [Entry.after, hevent]
    show y.before.base.run (y.before.acts ++ _) name = none
    rw [Directory.run, Trace.run_append]
    exact scan_clears hopening.2 hvalue name hname
  · rintro hforgets mid y back rfl fault w hload
    obtain ⟨hrun, hy, -⟩ := hrest.around
    have hlive := ((hrun.snoc y.event hy).live (hforgets.gone hsettled)).now
    obtain ⟨file, hfile⟩ : ∃ file, (y.after J N).seen .wifi = some file := by
      rw [← Option.ne_none_iff_exists']
      intro hnone
      cases (load_ok J hload).missing.mpr hnone
    rw [egpStoreLoadWifi, hfile] at hload
    rcases hlive file hfile with hfalse | ⟨e, he, hwrote⟩
    · exact absurd hfalse id
    · exact ⟨e, he, hwrote.stores hload⟩

/-- A forget, a power loss and the next opening. -/
theorem store_recovers_forget :
    let x : Entry := ⟨labStore, .call (.forgetBegin noFaults)⟩
    let lost := x.after JsonReader.referenceParser referenceLibrary
    let opened := next JsonReader.referenceParser referenceLibrary lost (.powerLoss 2 [])
    x.Forgets JsonReader.referenceParser ∧
      Recovers JsonReader.referenceParser referenceLibrary x (.forgetBegin noFaults)
        [⟨lost, .powerLoss 2 []⟩, ⟨opened, .opening (cleanScan [.forget])⟩] := by
  intro x lost opened
  have hlost : lost = ⟨onlyWifi labStored, [.rename .wifi .forget, .sync], true⟩ := by
    show Machine.mk _ ([] ++ _) _ = _
    rw [List.nil_append]
    exact congrArg (Machine.mk _ · true) forgetBegin_labStore.1
  have hopened : opened =
      ⟨labStore.seen.run [.rename .wifi .forget], [], false⟩ := by
    show next _ _ lost _ = _
    rw [hlost]
    rfl
  have hrun : Run JsonReader.referenceParser referenceLibrary labStore
      ([] ++ x :: [⟨lost, .powerLoss 2 []⟩, ⟨opened, .opening (cleanScan [.forget])⟩])
      (next JsonReader.referenceParser referenceLibrary opened
        (.opening (cleanScan [.forget]))) := by
    refine .cons _ rfl (.cons _ ?_ (.cons _ ?_ (.nil _)))
    · show DirAct.sync ∉ lost.acts.drop 2
      rw [hlost]
      simp
    · show opened.isOpen = false ∧ Complete opened.seen _
      rw [hopened]
      exact ⟨rfl, complete_forget rfl⟩
  exact ⟨⟨noFaults, rfl, forgetBegin_labStore.2⟩, store_recovers hrun rfl settled_labStore⟩

/-- The process stops between the rename of a forget and its `fsync`, the next process
begins the forget again and is told that it is done, and the power goes. -/
theorem pending_forget_is_lost :
    let x : Entry := ⟨renamedStore true, .call (.forgetBegin noFaults)⟩
    let front : List Entry := [⟨labStore, .cut (.forgetBegin noFaults) 1 []⟩,
      ⟨renamedStore false, .opening (cleanScan [.forget])⟩]
    let rest : List Entry := [⟨renamedStore true, .powerLoss 0 []⟩,
      ⟨⟨onlyWifi labStored, [], false⟩, .opening (cleanScan [.wifi])⟩]
    Run JsonReader.referenceParser referenceLibrary labStore (front ++ x :: rest) labStore ∧
      x.Forgets JsonReader.referenceParser ∧
      (egpStoreLoadWifi JsonReader.referenceParser none labStore.seen).toOption =
        some (some labStored) ∧
      ¬ Recovers JsonReader.referenceParser referenceLibrary x (.forgetBegin noFaults) rest := by
  intro x front rest
  have hcut : next JsonReader.referenceParser referenceLibrary labStore
      (.cut (.forgetBegin noFaults) 1 []) = renamedStore false := by
    show Machine.mk _ ([] ++ ((egpStoreForgetBegin _ _ _).acts.take 1 ++ [])) _ = _
    rw [forgetBegin_labStore.1]
    rfl
  have hopening : next JsonReader.referenceParser referenceLibrary (renamedStore false)
      (.opening (cleanScan [.forget])) = renamedStore true := rfl
  have hcall : next JsonReader.referenceParser referenceLibrary (renamedStore true)
      (.call (.forgetBegin noFaults)) = renamedStore true := by
    show Machine.mk _ (_ ++ (egpStoreForgetBegin _ _ _).acts) _ = _
    rw [(forgetBegin_renamedStore true).1]
    rfl
  have hload : (egpStoreLoadWifi JsonReader.referenceParser none labStore.seen).toOption =
      some (some labStored) := by decide +kernel
  have hforgets : x.Forgets JsonReader.referenceParser :=
    ⟨noFaults, rfl, (forgetBegin_renamedStore true).2⟩
  refine ⟨?_, hforgets, hload, ?_⟩
  · refine .cons _ rfl ?_
    rw [hcut]
    refine .cons _ ⟨rfl, complete_forget rfl⟩ ?_
    rw [hopening]
    refine .cons _ rfl ?_
    rw [hcall]
    have hunsynced : DirAct.sync ∉ (renamedStore true).acts.drop 0 := by decide
    exact .cons _ hunsynced (.cons _ ⟨rfl, complete_wifi⟩ (.nil _))
  · intro h
    obtain ⟨e, he, ⟨op, hop, -⟩, -⟩ := h.forgotten hforgets [⟨renamedStore true, .powerLoss 0 []⟩]
      ⟨⟨onlyWifi labStored, [], false⟩, .opening (cleanScan [.wifi])⟩ [] rfl none labStored (by
        cases hresult : egpStoreLoadWifi JsonReader.referenceParser none labStore.seen with
        | error error =>
            rw [hresult] at hload
            cases hload
        | ok result =>
            rw [hresult] at hload
            cases hload
            exact hresult)
    simp only [List.cons_append, List.nil_append, List.mem_cons, List.not_mem_nil, or_false] at he
    rcases he with rfl | rfl
    · cases hop
    · cases hop

end EdgeGuard.Provisioning.StoreRecovery
