import EdgeGuard.Agent.Persistence
import EdgeGuard.Base.Trace

/-!
# The identity of the device

`ota_identity_load_or_create` over the life of a device: calls that succeed, fail or die
on the way, and power cuts.  The lock file keeps two calls apart, so a call is a list of
acts on the identity file.

A call that finds the file answers with its content, whether or not the entry has
reached the disk.

## Main results

* `identity_stable` — two answers agree, unless a power cut between them took away a file
  that no call had made durable.
-/

namespace EdgeGuard.Agent.DeviceIdentity

open EdgeGuard.Base.CText EdgeGuard.Base.DurableFile EdgeGuard.Base.Trace
open EdgeGuard.Agent.Model EdgeGuard.Agent.Identity EdgeGuard.Agent.Persistence

/-! ## Loading and creating -/

/-- The content of a file without the newline at its end. -/
def uuidText (data : Bytes) : Bytes :=
  if data.length == 37 && data[36]? == some 0x0a then data.take 36 else data

/-- `uuid_from_file`; `none` is a missing file. -/
def uuidFromFile (path : Bytes) (v4 : Bool) (fault : Option OtaError) (file : Option Bytes) :
    Except OtaError (Option Bytes) :=
  match otaFileRead path 37 fault file with
  | .error error => .error error
  | .ok none => .ok none
  | .ok (some data) =>
      if (uuidText data).length == 36 && !(uuidText data).contains 0 &&
          otaUuidValid (uuidText data) v4 then .ok (some (uuidText data))
      else .error (otaErrorSet .identityInvalid (ascii "Invalid UUID in " ++ path))

/-- `ota_uuid_kernel`. -/
def otaUuidKernel (fault : Option OtaError) (file : Option Bytes) : Except OtaError Bytes :=
  match uuidFromFile (ascii "/proc/sys/kernel/random/uuid") true fault file with
  | .ok (some uuid) => .ok uuid
  | _ => .error (otaErrorSet .identityInvalid
      (ascii "Kernel UUIDv4 source unavailable or invalid"))

/-- What a call of `ota_identity_load_or_create` meets. -/
structure Call where
  /-- The lock file is a regular file, and the lock is taken. -/
  locked : Bool
  readFault : Option OtaError
  /-- What the source answers. -/
  source : Except OtaError Bytes
  writeFault : Option IoFault

/-- `ota_identity_load_or_create`: its acts on the file, and its answer. -/
def otaIdentityLoadOrCreate (path : Bytes) (call : Call) (file : Option Bytes) :
    List (FileAct Bytes) × Except OtaError Bytes :=
  if !call.locked then
    ([], .error (otaErrorSet .persistenceFailed (ascii "Cannot lock device identity")))
  else
    match uuidFromFile path true call.readFault file with
    | .error error => ([], .error error)
    | .ok (some value) => ([], .ok value)
    | .ok none =>
        match call.source with
        | .error error => ([], .error error)
        | .ok value =>
            if otaUuidValid value true then
              let written := otaAtomicWrite (value ++ [0x0a]) call.writeFault
              (written.1, written.2.map fun _ => value)
            else
              ([], .error (otaErrorSet .identityInvalid
                (ascii "UUID source did not return canonical UUIDv4")))

/-- The file holds the identity. -/
def Spells (path : Bytes) (file : Option Bytes) (id : Bytes) : Prop :=
  uuidFromFile path true none file = .ok (some id)

theorem Spells.file {path id : Bytes} {file : Option Bytes} (h : Spells path file id) :
    ∃ text, file = some text := by
  cases file with
  | none => cases h
  | some text => exact ⟨text, rfl⟩

theorem Spells.unique {path id id' : Bytes} {file : Option Bytes} (h : Spells path file id)
    (h' : Spells path file id') : id = id' := by
  unfold Spells at h h'
  rw [h] at h'
  cases h'
  rfl

/-- No byte of a UUID is a NUL. -/
theorem nul_not_mem_of_uuid {value : Bytes} {v4 : Bool} (h : otaUuidValid value v4 = true) :
    value.contains 0 = false := by
  simp only [otaUuidValid, Bool.and_eq_true] at h
  rw [Bool.eq_false_iff, ne_eq, List.contains_iff_mem]
  intro hmem
  obtain ⟨i, hi⟩ := List.mem_iff_getElem?.mp hmem
  have hall := List.all_eq_true.mp h.1.2 (0, i) (List.mem_zipIdx_iff_getElem?.mpr hi)
  revert hall
  simp only [uuidByte]
  split <;> decide

/-- A read without a fault finds the same, or fails. -/
theorem uuidFromFile_fault {path : Bytes} {v4 : Bool} {fault : Option OtaError}
    {file : Option Bytes} {found : Option Bytes}
    (h : uuidFromFile path v4 fault file = .ok found) :
    uuidFromFile path v4 none file = .ok found := by
  cases fault with
  | none => exact h
  | some error =>
      unfold uuidFromFile at h
      cases file <;> cases h

/-- Nothing is read only where there is no file. -/
theorem uuidFromFile_none {path : Bytes} {v4 : Bool} {fault : Option OtaError}
    {file : Option Bytes} (h : uuidFromFile path v4 fault file = .ok none) : file = none := by
  have h := uuidFromFile_fault h
  cases file with
  | none => rfl
  | some data =>
      unfold uuidFromFile otaFileRead at h
      by_cases hlong : 37 < data.length
      · simp only [if_pos hlong] at h
        cases h
      · simp only [if_neg hlong] at h
        split at h
        · cases h
        · cases h

/-- What was written for an identity spells it. -/
theorem spells_written (path : Bytes) {id : Bytes} (h : otaUuidValid id true = true) :
    Spells path (some (id ++ [0x0a])) id := by
  have hlength := length_of_uuid h
  have hnul : id.contains 0 = false := nul_not_mem_of_uuid h
  have hdata : (id ++ [0x0a]).length = 37 := by simp [hlength]
  have hlast : (id ++ [0x0a])[36]? = some 0x0a := by
    rw [List.getElem?_append_right (by omega), hlength]
    rfl
  have htext : uuidText (id ++ [0x0a]) = id := by
    unfold uuidText
    rw [hdata, hlast]
    exact List.take_left' hlength
  unfold Spells uuidFromFile otaFileRead
  simp only [hdata, htext, hlength, hnul, h, Nat.lt_irrefl, if_false]
  rfl

/-- The ways a call ends: nothing is written, or a new identity is. -/
inductive Ends (path : Bytes) (file : Option Bytes)
    (result : List (FileAct Bytes) × Except OtaError Bytes) : Prop
  | failed (error : OtaError) (eq : result = ([], .error error))
  | loaded (id : Bytes) (found : Spells path file id) (eq : result = ([], .ok id))
  | unsettled (id : Bytes) (error : OtaError) (missing : file = none)
      (valid : otaUuidValid id true = true)
      (eq : result = ([.replace (id ++ [0x0a])], .error error))
  | created (id : Bytes) (missing : file = none) (valid : otaUuidValid id true = true)
      (eq : result = ([.replace (id ++ [0x0a]), .sync], .ok id))

/-- The ways a call can end, each with the acts it came to. -/
theorem otaIdentityLoadOrCreate_cases (path : Bytes) (call : Call) (file : Option Bytes) :
    Ends path file (otaIdentityLoadOrCreate path call file) := by
  unfold otaIdentityLoadOrCreate
  split
  · exact .failed _ rfl
  · split
    · exact .failed _ rfl
    · rename_i value hfound
      exact .loaded value (uuidFromFile_fault hfound) rfl
    · rename_i hmissing
      split
      · exact .failed _ rfl
      · rename_i value hsource
        split
        · rename_i hvalid
          have hfile := uuidFromFile_none hmissing
          cases hwrite : call.writeFault with
          | none => exact .created value hfile hvalid rfl
          | some fault =>
              obtain ⟨step, reason⟩ := fault
              cases step with
              | parentFsync => exact .unsettled value _ hfile hvalid rfl
              | openDirectory | inspect | create | write | fileFsync | close | rename =>
                  exact .failed _ rfl
        · exact .failed _ rfl

/-! ## The life of a device -/

/-- What can be seen of it. -/
inductive Seen
  | answered (created : Bool) (answer : Except OtaError Bytes)
  /-- A call that did not return. -/
  | died
  | cut (before after : Option Bytes)

/-- Calls and power cuts in any order, from the file that the device comes with. -/
inductive Run (path : Bytes) (file : Option Bytes) : List Seen → Medium Bytes → Prop
  | start : Run path file [] ⟨file, []⟩
  | call {log : List Seen} {m : Medium Bytes} (h : Run path file log m) (c : Call) :
      Run path file
        (log ++ [.answered (!(otaIdentityLoadOrCreate path c m.live).1.isEmpty)
          (otaIdentityLoadOrCreate path c m.live).2])
        (m.run (otaIdentityLoadOrCreate path c m.live).1)
  | die {log : List Seen} {m : Medium Bytes} (h : Run path file log m) (c : Call) (done : Nat) :
      Run path file (log ++ [.died])
        (m.run ((otaIdentityLoadOrCreate path c m.live).1.take done))
  | cut {log : List Seen} {m m' : Medium Bytes} (h : Run path file log m) (hcut : m.Cut m') :
      Run path file (log ++ [.cut m.live m'.live]) m'

/-- A power cut takes the file away, somewhere behind a position. -/
def Lost (log : List Seen) (i : Nat) : Prop :=
  ∃ k text, i < k ∧ log[k]? = some (.cut (some text) none)

/-- What the log says of the file. -/
structure Kept (path : Bytes) (log : List Seen) (m : Medium Bytes) : Prop where
  once : m.Once
  /-- The file holds the identity of every answer behind which it was not lost. -/
  answers : ∀ i created id, log[i]? = some (.answered created (.ok id)) →
    (Spells path m.live id ∧ (created = true → m.Settled)) ∨ (created = false ∧ Lost log i)

theorem Lost.snoc {log : List Seen} {i : Nat} (h : Lost log i) (x : Seen) :
    Lost (log ++ [x]) i := by
  obtain ⟨k, text, hik, hk⟩ := h
  refine ⟨k, text, hik, ?_⟩
  rw [List.getElem?_append_left (List.getElem?_eq_some_iff.mp hk).1]
  exact hk

/-- An event behind which the file is as before, whose own answer the file bears out. -/
theorem Kept.snoc {path : Bytes} {log : List Seen} {m m' : Medium Bytes} (h : Kept path log m)
    {x : Seen} (honce : m'.Once)
    (hsame : ∀ text, m.live = some text → m'.live = some text ∧ (m.Settled → m'.Settled))
    (hx : ∀ created id, x = .answered created (.ok id) →
      Spells path m'.live id ∧ (created = true → m'.Settled)) : Kept path (log ++ [x]) m' := by
  refine ⟨honce, fun i created id hi => ?_⟩
  rw [List.getElem?_append] at hi
  split at hi
  · rcases h.answers i created id hi with ⟨hspells, hsettled⟩ | ⟨hcreated, hlost⟩
    · obtain ⟨text, htext⟩ := hspells.file
      obtain ⟨hlive, hkept⟩ := hsame text htext
      left
      rw [hlive, ← htext]
      exact ⟨hspells, fun hcreated => hkept (hsettled hcreated)⟩
    · exact .inr ⟨hcreated, hlost.snoc x⟩
  · left
    rw [List.getElem?_singleton] at hi
    split at hi
    · exact hx created id (Option.some.inj hi)
    · cases hi

/-- A call keeps the file in line with the answers. -/
theorem kept_call {path : Bytes} {log : List Seen} {m : Medium Bytes} (h : Kept path log m)
    (c : Call) :
    Kept path
      (log ++ [.answered (!(otaIdentityLoadOrCreate path c m.live).1.isEmpty)
        (otaIdentityLoadOrCreate path c m.live).2])
      (m.run (otaIdentityLoadOrCreate path c m.live).1) := by
  cases otaIdentityLoadOrCreate_cases path c m.live with
  | failed error eq =>
      rw [eq]
      refine h.snoc h.once (fun text htext => ⟨htext, fun hsettled => hsettled⟩) ?_
      rintro _ _ ⟨⟩
  | loaded id found eq =>
      rw [eq]
      refine h.snoc h.once (fun text htext => ⟨htext, fun hsettled => hsettled⟩) ?_
      rintro _ _ ⟨⟩
      exact ⟨found, fun hcreated => by cases hcreated⟩
  | unsettled id error missing valid eq =>
      rw [eq]
      have honce : (m.act (.replace (id ++ [0x0a]))).Once := h.once.act fun _ _ => missing
      refine h.snoc honce (fun text htext => ?_) ?_
      · rw [missing] at htext
        cases htext
      · rintro _ _ ⟨⟩
  | created id missing valid eq =>
      rw [eq]
      refine h.snoc (Medium.settled_sync _).once (fun text htext => ?_) ?_
      · rw [missing] at htext
        cases htext
      · rintro _ _ ⟨⟩
        exact ⟨spells_written path valid, fun _ => Medium.settled_sync _⟩

/-- A call that dies has done the front of its acts. -/
theorem kept_die {path : Bytes} {log : List Seen} {m : Medium Bytes} (h : Kept path log m)
    (c : Call) (done : Nat) :
    Kept path (log ++ [.died]) (m.run ((otaIdentityLoadOrCreate path c m.live).1.take done)) := by
  have hnot : ∀ created id, Seen.died ≠ .answered created (.ok id) := nofun
  have hnothing : Kept path (log ++ [.died]) m :=
    h.snoc h.once (fun text htext => ⟨htext, fun hsettled => hsettled⟩)
      fun created id heq => absurd heq (hnot created id)
  -- the entry is there, and may not be on the disk yet
  have hreplaced : ∀ text, m.live = none → Kept path (log ++ [.died]) (m.act (.replace text)) :=
    fun text hmissing =>
      h.snoc (h.once.act fun _ _ => hmissing)
        (fun text' htext => by rw [hmissing] at htext; cases htext)
        fun created id heq => absurd heq (hnot created id)
  cases otaIdentityLoadOrCreate_cases path c m.live with
  | failed error eq =>
      rw [eq, List.take_nil]
      exact hnothing
  | loaded id found eq =>
      rw [eq, List.take_nil]
      exact hnothing
  | unsettled id error missing valid eq =>
      rw [eq]
      match done with
      | 0 => exact hnothing
      | done + 1 =>
          rw [List.take_succ_cons, List.take_nil]
          exact hreplaced _ missing
  | created id missing valid eq =>
      rw [eq]
      match done with
      | 0 => exact hnothing
      | 1 => exact hreplaced _ missing
      | done + 2 =>
          rw [List.take_succ_cons, List.take_succ_cons, List.take_nil]
          exact h.snoc (Medium.settled_sync _).once
            (fun text' htext => by rw [missing] at htext; cases htext)
            fun created id heq => absurd heq (hnot created id)

/-- A power loss keeps the file in line with the answers. -/
theorem kept_cut {path : Bytes} {log : List Seen} {m m' : Medium Bytes} (h : Kept path log m)
    (hcut : m.Cut m') : Kept path (log ++ [.cut m.live m'.live]) m' := by
  obtain ⟨hsettled, hgone | hback⟩ := h.once.cut hcut
  · refine ⟨hsettled.once, fun i created id hi => ?_⟩
    rw [List.getElem?_append] at hi
    split at hi
    · rename_i hlt
      rcases h.answers i created id hi with ⟨hspells, hcreated⟩ | ⟨hcreated, hlost⟩
      · obtain ⟨text, htext⟩ := hspells.file
        right
        constructor
        · rw [Bool.eq_false_iff]
          intro htrue
          rw [(hcreated htrue).cut hcut, htext] at hgone
          cases hgone
        · exact ⟨log.length, text, hlt, by rw [htext, hgone, List.getElem?_concat_length]⟩
      · exact .inr ⟨hcreated, hlost.snoc _⟩
    · rw [List.getElem?_singleton] at hi
      split at hi
      · cases hi
      · cases hi
  · refine h.snoc hsettled.once (fun text htext => ⟨hback.trans htext, fun _ => hsettled⟩) ?_
    rintro _ _ ⟨⟩

/-- In every run the file is what the answers were read from. -/
theorem kept_run {path : Bytes} {file : Option Bytes} {log : List Seen} {m : Medium Bytes}
    (h : Run path file log m) : Kept path log m := by
  induction h with
  | start => exact ⟨(Medium.settled_start file).once, fun i created id hi => by simp at hi⟩
  | call h c ih => exact kept_call ih c
  | die h c done ih => exact kept_die ih c done
  | cut h hcut ih => exact kept_cut ih hcut

/-- An answer agrees with those before it, unless the file was lost in between; and one
that was created is never lost. -/
def Agrees (front : List Seen) (x : Seen) : Prop :=
  ∀ created id, x = .answered created (.ok id) →
    ∀ i created' id', front[i]? = some (.answered created' (.ok id')) →
      id' = id ∨ (created' = false ∧ Lost front i)

/-- An entry that keeps the log in line agrees with the answers before it. -/
theorem Kept.agrees {path : Bytes} {log : List Seen} {x : Seen} {m : Medium Bytes}
    (h : Kept path (log ++ [x]) m) : Agrees log x := by
  rintro created id rfl i created' id' hi
  have hlast : Spells path m.live id := by
    rcases h.answers log.length created id List.getElem?_concat_length with
      ⟨hspells, -⟩ | ⟨-, k, text, hlt, hk⟩
    · exact hspells
    · -- nothing comes behind the last event
      have hbound := (List.getElem?_eq_some_iff.mp hk).1
      rw [List.length_append, List.length_singleton] at hbound
      omega
  have hbound := (List.getElem?_eq_some_iff.mp hi).1
  rcases h.answers i created' id' (by rw [List.getElem?_append_left hbound, hi]) with
    ⟨hspells, -⟩ | ⟨hcreated, k, text, hlt, hk⟩
  · exact .inl (hspells.unique hlast)
  · refine .inr ⟨hcreated, k, text, hlt, ?_⟩
    rw [List.getElem?_append] at hk
    split at hk
    · exact hk
    · rw [List.getElem?_singleton] at hk
      split at hk
      · cases hk
      · cases hk

/-- Every answer of a run agrees with those before it. -/
theorem agrees_run {path : Bytes} {file : Option Bytes} {log : List Seen} {m : Medium Bytes}
    (h : Run path file log m) : Throughout Agrees log := by
  induction h with
  | start => exact throughout_nil _
  | call h c ih => exact ih.snoc (kept_call (kept_run h) c).agrees
  | die h c done ih => exact ih.snoc (kept_die (kept_run h) c done).agrees
  | cut h hcut ih => exact ih.snoc (kept_cut (kept_run h) hcut).agrees

/-- An identifier that a file spells is a UUID. -/
theorem Spells.valid {path id : Bytes} {file : Option Bytes} (h : Spells path file id) :
    otaUuidValid id true = true := by
  unfold Spells uuidFromFile at h
  split at h
  · cases h
  · cases h
  · split at h
    · rename_i htext
      cases h
      exact (Bool.and_eq_true_iff.mp htext).2
    · cases h

/-- What a call answers is a canonical UUID of version 4. -/
theorem answer_valid {path id : Bytes} {call : Call} {file : Option Bytes}
    (h : (otaIdentityLoadOrCreate path call file).2 = .ok id) : otaUuidValid id true = true := by
  cases otaIdentityLoadOrCreate_cases path call file with
  | failed error eq =>
      rw [eq] at h
      cases h
  | loaded id' found eq =>
      rw [eq] at h
      cases h
      exact found.valid
  | unsettled id' error missing valid eq =>
      rw [eq] at h
      cases h
  | created id' missing valid eq =>
      rw [eq] at h
      cases h
      exact valid

/-- Every answer of a run is a UUID. -/
theorem valid_run {path : Bytes} {file : Option Bytes} {log : List Seen} {m : Medium Bytes}
    (h : Run path file log m) :
    ∀ created id, .answered created (.ok id) ∈ log → otaUuidValid id true = true := by
  induction h with
  | start =>
      intro created id hmem
      cases hmem
  | call h c ih =>
      intro created id hmem
      rcases List.mem_append.mp hmem with hmem | hmem
      · exact ih created id hmem
      · injection List.mem_singleton.mp hmem with _ hanswer
        exact answer_valid hanswer.symm
  | die h c done ih =>
      intro created id hmem
      rcases List.mem_append.mp hmem with hmem | hmem
      · exact ih created id hmem
      · cases List.mem_singleton.mp hmem
  | cut h hcut ih =>
      intro created id hmem
      rcases List.mem_append.mp hmem with hmem | hmem
      · exact ih created id hmem
      · cases List.mem_singleton.mp hmem

/-- A file that is there is not written. -/
theorem acts_of_file (path : Bytes) (call : Call) (text : Bytes) :
    (otaIdentityLoadOrCreate path call (some text)).1 = [] := by
  cases otaIdentityLoadOrCreate_cases path call (some text) with
  | failed error eq => rw [eq]
  | loaded id found eq => rw [eq]
  | unsettled id error missing valid eq => cases missing
  | created id missing valid eq => cases missing

theorem untouched_run {path text : Bytes} {log : List Seen} {m : Medium Bytes}
    (h : Run path (some text) log m) : m = ⟨some text, []⟩ := by
  induction h with
  | start => rfl
  | call h c ih => rw [ih, acts_of_file, Medium.run_nil]
  | die h c done ih => rw [ih, acts_of_file, List.take_nil, Medium.run_nil]
  | cut h hcut ih =>
      obtain ⟨c, hc, rfl⟩ := hcut
      rw [ih] at hc
      rw [List.mem_singleton.mp hc]

/-- Over the whole life of a device: every identity is a canonical UUID of version 4; each
agrees with those before it, unless a power cut between them took the file away, which it
never does with an identity that was answered by the call that created it; and a file that
the device comes with is never written, whatever it holds. -/
theorem identity_stable (path : Bytes) (file : Option Bytes) (log : List Seen) (m : Medium Bytes)
    (h : Run path file log m) :
    Throughout Agrees log ∧
    (∀ created id, .answered created (.ok id) ∈ log → otaUuidValid id true = true) ∧
    ∀ text, file = some text → m = ⟨some text, []⟩ := by
  refine ⟨agrees_run h, valid_run h, ?_⟩
  rintro text rfl
  exact untouched_run h

/-! ### A device that loses its identity -/

def samplePath : Bytes := ascii "/userdata/edgeguard-ota/device-id"

def firstId : Bytes := ascii "0f9d5c1a-7b3e-4d21-9a6f-1c2b3d4e5f60"

def secondId : Bytes := ascii "3a1f0e2d-4c5b-4a69-8877-665544332211"

/-- What the kernel gives. -/
def kernel (id : Bytes) : Except OtaError Bytes :=
  otaUuidKernel none (some (id ++ [0x0a]))

/-- The directory does not reach the disk, the next call reads the file all the same, and
a power cut takes it away. -/
theorem identity_stable_lost :
    ∃ log m, Run samplePath none log m ∧
      .answered false (.ok firstId) ∈ log ∧ .answered true (.ok secondId) ∈ log ∧
      Throughout Agrees log := by
  have hfailed := Run.call (@Run.start samplePath none)
    ⟨true, none, kernel firstId, some ⟨.parentFsync, ascii "Input/output error"⟩⟩
  have hread := hfailed.call ⟨true, none, kernel secondId, none⟩
  have hlost := hread.cut ⟨none, List.mem_cons_of_mem _ (List.mem_singleton_self _), rfl⟩
  have hcreated := hlost.call ⟨true, none, kernel secondId, none⟩
  refine ⟨_, _, hcreated, ?_, ?_, (identity_stable _ _ _ _ hcreated).1⟩
  · exact List.mem_append_left _ (List.mem_append_left _
      (List.mem_append_right _ (List.mem_singleton.mpr rfl)))
  · exact List.mem_append_right _ (List.mem_singleton.mpr rfl)

end EdgeGuard.Agent.DeviceIdentity
