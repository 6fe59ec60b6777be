import EdgeGuard.Base.Scan
import EdgeGuard.Base.Shell
import EdgeGuard.RkAb.Metadata

/-!
# The slot that runs

`current_slot_verified`: the suffix and the root partition that the command line of the
kernel names, the system partition of that suffix, and the device under the root
directory must be one device.

`realpath` is a function of the machine.  A refusal is named, its text for stderr is left
out.

## Main results

* `readCmdlineIdentity_iff` — what a command line identifies.
* `rootMountDevice_mounts` — the device under the root directory, from the mount table.
* `currentSlotVerified_iff` — the rule as a whole.
-/

namespace EdgeGuard.RkAb.CurrentSlot

open EdgeGuard.Base.CText EdgeGuard.Base.Scan EdgeGuard.Base.Shell
open EdgeGuard.RkAb.Metadata

/-- What the kernel and udev say; `none` is a file that cannot be read, or a path that
does not resolve. -/
structure Machine where
  cmdline : Option Bytes
  mountinfo : Option Bytes
  realpath : Bytes → Option Bytes

inductive IdentityError
  | cmdlineUnreadable
  | cmdlineTooLong
  /-- Invalid or duplicate. -/
  | suffix
  | root
  | suffixMissing
  | rootMissing
  | suffixUnknown (suffix : Bytes)
  | unresolved (path : Bytes)
  | mountinfoUnreadable
  | noRootMount
  | sysfsTarget (target : Bytes)
  | pathTooLong
  | rootMismatch (rootdev expected : Bytes)
  | mountMismatch (mountdev expected : Bytes)
  deriving DecidableEq

/-! ## The command line -/

/-- The separators of `strtok_r`. -/
def separates (b : UInt8) : Bool := b == 0x20 || b == 0x09 || b == 0x0d || b == 0x0a

/-- The vendor's spelling. -/
def suffixKey : Bytes := ascii "android_slotsufix="

def rootKey : Bytes := ascii "root=PARTUUID="

/-- `suffix` and `partuuid`. -/
structure Named where
  suffix : Option Bytes
  partuuid : Option Bytes
  deriving DecidableEq

/-- A value for a buffer of `size` bytes. -/
def valueFits (size : Nat) (value : Bytes) : Bool := !value.isEmpty && value.length < size

/-- One turn of the loop over the tokens. -/
def visitToken (named : Named) (tok : Bytes) : Except IdentityError Named :=
  if suffixKey.isPrefixOf tok then
    if named.suffix.isSome || !valueFits 16 (tok.drop suffixKey.length) then .error .suffix
    else .ok { named with suffix := some (tok.drop suffixKey.length) }
  else if rootKey.isPrefixOf tok then
    if named.partuuid.isSome || !valueFits 128 (tok.drop rootKey.length) then .error .root
    else .ok { named with partuuid := some (tok.drop rootKey.length) }
  else .ok named

/-- `read_cmdline_identity`. -/
def readCmdlineIdentity (m : Machine) : Except IdentityError (Bytes × Bytes) :=
  match m.cmdline with
  | none => .error .cmdlineUnreadable
  | some text =>
      if 8191 ≤ text.length then .error .cmdlineTooLong
      else
        match (fields separates (cString text)).foldlM visitToken ⟨none, none⟩ with
        | .error error => .error error
        | .ok ⟨none, _⟩ => .error .suffixMissing
        | .ok ⟨some _, none⟩ => .error .rootMissing
        | .ok ⟨some suffix, some partuuid⟩ => .ok (suffix, partuuid)

/-! ## The mount table -/

def resolvePath (m : Machine) (path : Bytes) : Except IdentityError Bytes :=
  match m.realpath path with
  | none => .error (.unresolved path)
  | some resolved => .ok resolved

/-- The device and the mount point of a line: `sscanf` with `%*u %*u %63s %4095s %4095s`. -/
def scanMount (line : Bytes) : Option (Bytes × Bytes) :=
  (skipUnsigned (cString line)).bind fun s =>
    (skipUnsigned s).bind fun s =>
      (scanWord 63 s).bind fun (majorMinor, s) =>
        (scanWord 4095 s).bind fun (_, s) =>
          (scanWord 4095 s).map fun (mountpoint, _) => (majorMinor, mountpoint)

/-- The device of a line that mounts the root directory. -/
def rootDevice (line : Bytes) : Option Bytes :=
  match scanMount line with
  | some (majorMinor, mountpoint) => if mountpoint = ascii "/" then some majorMinor else none
  | none => none

/-- The text behind the last slash. -/
def baseName (path : Bytes) : Option Bytes :=
  if path.contains 0x2f then some (path.rtakeWhile (· != 0x2f)) else none

/-- The device node of a block device that sysfs knows. -/
def deviceNode (m : Machine) (majorMinor : Bytes) : Except IdentityError Bytes :=
  match resolvePath m (ascii "/sys/dev/block/" ++ majorMinor) with
  | .error error => .error error
  | .ok target =>
      match baseName target with
      | none | some [] => .error (.sysfsTarget target)
      | some base =>
          if 4096 ≤ (ascii "/dev/" ++ base).length then .error .pathTooLong
          else resolvePath m (ascii "/dev/" ++ base)

/-- `root_mount_device`. -/
def rootMountDevice (m : Machine) : Except IdentityError Bytes :=
  match m.mountinfo with
  | none => .error .mountinfoUnreadable
  | some text =>
      match (fgetsLines 8192 text).findSome? rootDevice with
      | none => .error .noRootMount
      | some majorMinor => deviceNode m majorMinor

/-! ## The rule -/

def suffixSlot (suffix : Bytes) : Except IdentityError Slot :=
  if suffix = ascii "_a" then .ok .a
  else if suffix = ascii "_b" then .ok .b
  else .error (.suffixUnknown suffix)

def partuuidPath (partuuid : Bytes) : Bytes := ascii "/dev/disk/by-partuuid/" ++ partuuid

def systemPath : Slot → Bytes
  | .a => ascii "/dev/disk/by-partlabel/system_a"
  | .b => ascii "/dev/disk/by-partlabel/system_b"

/-- `current_slot_verified`. -/
def currentSlotVerified (m : Machine) : Except IdentityError Slot := do
  let (suffix, partuuid) ← readCmdlineIdentity m
  let slot ← suffixSlot suffix
  let rootdev ← resolvePath m (partuuidPath partuuid)
  let expected ← resolvePath m (systemPath slot)
  let mountdev ← rootMountDevice m
  if rootdev ≠ expected then .error (.rootMismatch rootdev expected)
  else if mountdev ≠ expected then .error (.mountMismatch mountdev expected)
  else .ok slot

/-! ## What a command line identifies -/

/-- The values of the tokens with a key. -/
def entries (key : Bytes) (tokens : List Bytes) : List Bytes :=
  (tokens.filter (key.isPrefixOf ·)).map (·.drop key.length)

theorem entries_cons (key tok : Bytes) (tokens : List Bytes) :
    entries key (tok :: tokens) =
      if key.isPrefixOf tok then tok.drop key.length :: entries key tokens
      else entries key tokens := by
  unfold entries
  rw [List.filter_cons]
  split <;> rfl

/-- What a variable that may be set once is behind some values. -/
inductive Takes (size : Nat) (before : Option Bytes) : List Bytes → Option Bytes → Prop
  | nothing : Takes size before [] before
  | one {value : Bytes} (hfree : before = none) (hfits : valueFits size value = true) :
      Takes size before [value] (some value)

/-- The first value is taken when none was taken before and it fits. -/
theorem takes_cons_iff {size : Nat} {before after : Option Bytes} {value : Bytes}
    {values : List Bytes} :
    Takes size before (value :: values) after ↔
      (before.isSome || !valueFits size value) = false ∧ Takes size (some value) values after := by
  constructor
  · intro h
    cases h with
    | one hfree hfits =>
        rw [hfree, hfits]
        exact ⟨rfl, .nothing⟩
  · rintro ⟨hguard, h⟩
    rw [Bool.or_eq_false_iff, Option.isSome_eq_false_iff, Option.isNone_iff_eq_none,
      Bool.not_eq_false'] at hguard
    cases h with
    | nothing => exact .one hguard.1 hguard.2
    | one hfree hfits => cases hfree

theorem isPrefixOf_head {key tok : Bytes} (hkey : key ≠ []) (h : key.isPrefixOf tok = true) :
    tok.head? = key.head? := by
  obtain ⟨rest, rfl⟩ := List.isPrefixOf_iff_prefix.mp h
  exact List.head?_append_of_ne_nil key hkey

/-- No token has both keys. -/
theorem keys_apart {tok : Bytes} (h : suffixKey.isPrefixOf tok = true) :
    rootKey.isPrefixOf tok = false := by
  rw [Bool.eq_false_iff]
  intro hroot
  have hhead := (isPrefixOf_head (by decide) h).symm.trans (isPrefixOf_head (by decide) hroot)
  revert hhead
  decide

/-- The two names are looked for independently of each other. -/
theorem visitTokens_iff (tokens : List Bytes) (named named' : Named) :
    tokens.foldlM visitToken named = .ok named' ↔
      Takes 16 named.suffix (entries suffixKey tokens) named'.suffix ∧
        Takes 128 named.partuuid (entries rootKey tokens) named'.partuuid := by
  induction tokens generalizing named with
  | nil =>
      rw [List.foldlM_nil]
      constructor
      · intro h
        cases h
        exact ⟨.nothing, .nothing⟩
      · rintro ⟨hsuffix, hroot⟩
        obtain ⟨suffix, partuuid⟩ := named
        obtain ⟨suffix', partuuid'⟩ := named'
        cases hsuffix
        cases hroot
        rfl
  | cons tok tokens ih =>
      rw [List.foldlM_cons, entries_cons, entries_cons, visitToken]
      by_cases hsuffix : suffixKey.isPrefixOf tok = true
      · rw [if_pos hsuffix, if_pos hsuffix, keys_apart hsuffix, if_neg Bool.false_ne_true,
          takes_cons_iff]
        split
        · rename_i hguard
          rw [hguard]
          constructor
          · nofun
          · rintro ⟨⟨hfree, -⟩, -⟩
            cases hfree
        · rename_i hguard
          rw [Bool.eq_false_iff.mpr hguard]
          exact (ih _).trans (by simp)
      · rw [if_neg hsuffix, if_neg hsuffix]
        by_cases hroot : rootKey.isPrefixOf tok = true
        · rw [if_pos hroot, if_pos hroot, takes_cons_iff]
          split
          · rename_i hguard
            rw [hguard]
            constructor
            · nofun
            · rintro ⟨-, hfree, -⟩
              cases hfree
          · rename_i hguard
            rw [Bool.eq_false_iff.mpr hguard]
            exact (ih _).trans (by simp)
        · rw [if_neg hroot, if_neg hroot]
          exact ih named

theorem takes_none_some_iff {size : Nat} {values : List Bytes} {value : Bytes} :
    Takes size none values (some value) ↔ values = [value] ∧ valueFits size value = true := by
  constructor
  · intro h
    cases h with
    | one hfree hfits => exact ⟨rfl, hfits⟩
  · rintro ⟨rfl, hfits⟩
    exact .one rfl hfits

/-- A command line with one suffix and one root partition. -/
structure Names (cmdline suffix partuuid : Bytes) : Prop where
  short : cmdline.length < 8191
  suffixOnce : entries suffixKey (fields separates (cString cmdline)) = [suffix]
  suffixFits : valueFits 16 suffix = true
  rootOnce : entries rootKey (fields separates (cString cmdline)) = [partuuid]
  partuuidFits : valueFits 128 partuuid = true

/-- The command line is read exactly when it names slot and partition once. -/
theorem readCmdlineIdentity_iff {m : Machine} {suffix partuuid : Bytes} :
    readCmdlineIdentity m = .ok (suffix, partuuid) ↔
      ∃ cmdline, m.cmdline = some cmdline ∧ Names cmdline suffix partuuid := by
  unfold readCmdlineIdentity
  cases m.cmdline with
  | none => simp
  | some text =>
      have hnames : Names text suffix partuuid ↔ ¬ 8191 ≤ text.length ∧
          (fields separates (cString text)).foldlM visitToken ⟨none, none⟩ =
            .ok ⟨some suffix, some partuuid⟩ := by
        rw [visitTokens_iff, takes_none_some_iff, takes_none_some_iff]
        constructor
        · rintro ⟨hshort, hsuffix, hfits, hroot, hrootFits⟩
          exact ⟨Nat.not_le.mpr hshort, ⟨hsuffix, hfits⟩, hroot, hrootFits⟩
        · rintro ⟨hshort, ⟨hsuffix, hfits⟩, hroot, hrootFits⟩
          exact ⟨Nat.not_le.mp hshort, hsuffix, hfits, hroot, hrootFits⟩
      simp only [Option.some.injEq, exists_eq_left', hnames]
      split
      · rename_i hlong
        simp [hlong]
      · rename_i hshort
        generalize (fields separates (cString text)).foldlM visitToken ⟨none, none⟩ = read
        rcases read with error | ⟨_ | found, _ | found'⟩ <;> simp [hshort]

/-! ## What a mount table says -/

/-- An entry of the mount table; `rest` is what is behind the mount point. -/
structure Mount where
  id : Nat
  parent : Nat
  device : Bytes
  root : Bytes
  point : Bytes
  rest : Bytes

def Mount.line (mount : Mount) : Bytes :=
  decimal mount.id ++ 0x20 :: (decimal mount.parent ++ 0x20 :: (mount.device ++
    0x20 :: (mount.root ++ 0x20 :: (mount.point ++ mount.rest))))

/-- The kernel writes white space in a path as an escape. -/
structure Mount.Fits (mount : Mount) : Prop where
  device : Field 63 mount.device
  root : Field 4095 mount.root
  point : Field 4095 mount.point
  rest : ∀ b, mount.rest.head? = some b → isspace b = true
  line : Line 8192 mount.line
  noNul : (0 : UInt8) ∉ mount.line

/-- `/proc/self/mountinfo`. -/
def mountTable (mounts : List Mount) : Bytes := ((mounts.map Mount.line).map (· ++ [0x0a])).flatten

/-- A line of the mount table is read as its mount. -/
theorem scanMount_line {mount : Mount} (h : mount.Fits) :
    scanMount (mount.line ++ [0x0a]) = some (mount.device, mount.point) := by
  have hnul : (0 : UInt8) ∉ mount.line ++ [0x0a] := by
    intro hmem
    rcases List.mem_append.mp hmem with hline | hnewline
    · exact h.noNul hline
    · simp at hnewline
  have hrest : ∀ b, (mount.rest ++ [0x0a]).head? = some b → isspace b = true := by
    intro b hb
    cases hmount : mount.rest with
    | nil =>
        rw [hmount] at hb
        cases hb
        rfl
    | cons c cs =>
        rw [hmount] at hb
        exact h.rest b (by rw [hmount]; exact hb)
  have hblank : ∀ (s : Bytes) (b : UInt8), (0x20 :: s).head? = some b → isspace b = true := by
    rintro s b ⟨⟩
    rfl
  have hline : mount.line ++ [0x0a] = decimal mount.id ++ 0x20 :: (decimal mount.parent ++
      0x20 :: (mount.device ++ 0x20 :: (mount.root ++
        0x20 :: (mount.point ++ (mount.rest ++ [0x0a]))))) := by
    simp [Mount.line]
  rw [scanMount, cString_of_noNul hnul, hline]
  simp only [(skipUnsigned_decimal _ _).1, (skipUnsigned_decimal _ _).2, Option.bind_some,
    scanWord_word h.device (hblank _), scanWord_word h.root (hblank _),
    scanWord_word h.point hrest, Option.map_some]

/-- The first entry that mounts the root directory decides. -/
theorem rootMountDevice_mounts {m : Machine} {mounts : List Mount}
    (htable : m.mountinfo = some (mountTable mounts)) (hfits : ∀ mount ∈ mounts, mount.Fits) :
    rootMountDevice m =
      match mounts.find? (·.point == ascii "/") with
      | none => .error .noRootMount
      | some mount => deviceNode m mount.device := by
  have hlines : fgetsLines 8192 (mountTable mounts) =
      (mounts.map Mount.line).map (· ++ [0x0a]) := by
    refine fgetsLines_flatten fun line hline => ?_
    obtain ⟨mount, hmount, rfl⟩ := List.mem_map.mp hline
    exact (hfits mount hmount).line
  have hfound : ((mounts.map Mount.line).map (· ++ [0x0a])).findSome? rootDevice =
      (mounts.find? (·.point == ascii "/")).map Mount.device := by
    clear hlines htable
    induction mounts with
    | nil => rfl
    | cons mount mounts ih =>
        obtain ⟨hmount, hmounts⟩ := List.forall_mem_cons.mp hfits
        rw [List.map_cons, List.map_cons, List.findSome?_cons, rootDevice, scanMount_line hmount,
          List.find?_cons]
        by_cases hpoint : mount.point = ascii "/"
        · simp [hpoint]
        · rw [beq_eq_false_iff_ne.mpr hpoint, ← ih hmounts]
          simp only [if_neg hpoint]
  rw [rootMountDevice, htable]
  simp only [hlines, hfound]
  cases mounts.find? (·.point == ascii "/") with
  | none => rfl
  | some mount => rfl

/-! ## The rule -/

def suffixOf : Slot → Bytes
  | .a => ascii "_a"
  | .b => ascii "_b"

/-- The suffixes are those of the two slots. -/
theorem suffixSlot_iff {suffix : Bytes} {slot : Slot} :
    suffixSlot suffix = .ok slot ↔ suffix = suffixOf slot := by
  unfold suffixSlot
  split
  · rename_i ha
    rw [ha]
    cases slot <;> decide
  · rename_i ha
    split
    · rename_i hb
      rw [hb]
      cases slot <;> decide
    · rename_i hb
      cases slot with
      | a => simp [suffixOf, ha]
      | b => simp [suffixOf, hb]

theorem resolvePath_iff {m : Machine} {path resolved : Bytes} :
    resolvePath m path = .ok resolved ↔ m.realpath path = some resolved := by
  unfold resolvePath
  cases m.realpath path <;> simp

/-- The block device whose number is in the mount table has a node at that path. -/
def Node (m : Machine) (majorMinor device : Bytes) : Prop :=
  ∃ target base, m.realpath (ascii "/sys/dev/block/" ++ majorMinor) = some target ∧
    baseName target = some base ∧ base ≠ [] ∧ (ascii "/dev/" ++ base).length < 4096 ∧
    m.realpath (ascii "/dev/" ++ base) = some device

/-- The device is the node that its numbers lead to. -/
theorem deviceNode_iff {m : Machine} {majorMinor device : Bytes} :
    deviceNode m majorMinor = .ok device ↔ Node m majorMinor device := by
  constructor
  · intro h
    unfold deviceNode at h
    split at h
    · cases h
    · rename_i target htarget
      split at h
      · cases h
      · cases h
      · rename_i base hne hbase
        split at h
        · cases h
        · rename_i hshort
          exact ⟨target, base, resolvePath_iff.mp htarget, hbase, hne, Nat.not_le.mp hshort,
            resolvePath_iff.mp h⟩
  · rintro ⟨target, base, htarget, hbase, hne, hshort, hdevice⟩
    unfold deviceNode
    rw [resolvePath_iff.mpr htarget]
    simp only [hbase]
    cases base with
    | nil => exact absurd rfl hne
    | cons b base =>
        simp only [if_neg (Nat.not_le.mpr hshort)]
        exact resolvePath_iff.mpr hdevice

/-- The command line names the slot, and its root partition, the system partition of the
slot and the device under the root directory are one device. -/
def Identified (m : Machine) (mounts : List Mount) (slot : Slot) : Prop :=
  ∃ cmdline partuuid device, m.cmdline = some cmdline ∧
    Names cmdline (suffixOf slot) partuuid ∧
    m.realpath (partuuidPath partuuid) = some device ∧
    m.realpath (systemPath slot) = some device ∧
    ∃ mount, mounts.find? (·.point == ascii "/") = some mount ∧ Node m mount.device device

theorem rootMountDevice_iff {m : Machine} {mounts : List Mount} {device : Bytes}
    (htable : m.mountinfo = some (mountTable mounts)) (hfits : ∀ mount ∈ mounts, mount.Fits) :
    rootMountDevice m = .ok device ↔
      ∃ mount, mounts.find? (·.point == ascii "/") = some mount ∧ Node m mount.device device := by
  rw [rootMountDevice_mounts htable hfits]
  cases mounts.find? (·.point == ascii "/") with
  | none => simp
  | some mount => simp [deviceNode_iff]

/-- The slot is verified when the command line, the partition and the mounted root agree. -/
theorem verified_iff {m : Machine} {slot : Slot} :
    currentSlotVerified m = .ok slot ↔
      ∃ partuuid device, readCmdlineIdentity m = .ok (suffixOf slot, partuuid) ∧
        m.realpath (partuuidPath partuuid) = some device ∧
        m.realpath (systemPath slot) = some device ∧ rootMountDevice m = .ok device := by
  constructor
  · intro h
    unfold currentSlotVerified at h
    simp only [bind, Except.bind] at h
    split at h
    · cases h
    · rename_i named hnamed
      obtain ⟨suffix, partuuid⟩ := named
      simp only at h
      split at h
      · cases h
      · rename_i slot' hslot
        split at h
        · cases h
        · rename_i rootdev hroot
          split at h
          · cases h
          · rename_i expected hexpected
            split at h
            · cases h
            · rename_i mountdev hmount
              split at h
              · cases h
              · rename_i hrootSame
                split at h
                · cases h
                · rename_i hmountSame
                  cases h
                  obtain rfl := Decidable.not_not.mp hrootSame
                  obtain rfl := Decidable.not_not.mp hmountSame
                  refine ⟨partuuid, mountdev, ?_, resolvePath_iff.mp hroot,
                    resolvePath_iff.mp hexpected, hmount⟩
                  rw [hnamed, suffixSlot_iff.mp hslot]
  · rintro ⟨partuuid, device, hnamed, hroot, hexpected, hmount⟩
    simp [currentSlotVerified, bind, Except.bind, hnamed, suffixSlot_iff.mpr rfl,
      resolvePath_iff.mpr hroot, resolvePath_iff.mpr hexpected, hmount]

/-- On a machine with the mount table of a kernel, a slot is verified as the current one
exactly when the four identities agree on it. -/
theorem currentSlotVerified_iff (m : Machine) (mounts : List Mount)
    (htable : m.mountinfo = some (mountTable mounts)) (hfits : ∀ mount ∈ mounts, mount.Fits)
    (slot : Slot) : currentSlotVerified m = .ok slot ↔ Identified m mounts slot := by
  rw [verified_iff]
  constructor
  · rintro ⟨partuuid, device, hnamed, hroot, hexpected, hmount⟩
    obtain ⟨cmdline, hcmdline, hnames⟩ := readCmdlineIdentity_iff.mp hnamed
    exact ⟨cmdline, partuuid, device, hcmdline, hnames, hroot, hexpected,
      (rootMountDevice_iff htable hfits).mp hmount⟩
  · rintro ⟨cmdline, partuuid, device, hcmdline, hnames, hroot, hexpected, hmount⟩
    exact ⟨partuuid, device, readCmdlineIdentity_iff.mpr ⟨cmdline, hcmdline, hnames⟩, hroot,
      hexpected, (rootMountDevice_iff htable hfits).mpr hmount⟩

/-! ### A board that runs slot B -/

def rootMount : Mount :=
  ⟨29, 1, ascii "179:6", ascii "/", ascii "/", ascii " rw - ext4 /dev/root rw"⟩

def userdataMount : Mount :=
  ⟨31, 29, ascii "179:8", ascii "/", ascii "/userdata", ascii " rw - ext4 /dev/mmcblk0p8 rw"⟩

def boardMounts : List Mount := [userdataMount, rootMount]

def boardPaths : List (Bytes × Bytes) :=
  [(ascii "/sys/dev/block/179:6", ascii "/sys/devices/platform/mmc0/block/mmcblk0/mmcblk0p6"),
   (ascii "/dev/mmcblk0p6", ascii "/dev/mmcblk0p6"),
   (ascii "/dev/disk/by-partlabel/system_a", ascii "/dev/mmcblk0p4"),
   (ascii "/dev/disk/by-partlabel/system_b", ascii "/dev/mmcblk0p6"),
   (ascii "/dev/disk/by-partuuid/614e0000-02", ascii "/dev/mmcblk0p6")]

def boardB : Machine where
  cmdline := some (ascii "console=ttyFIQ0 android_slotsufix=_b root=PARTUUID=614e0000-02 rw\n")
  mountinfo := some (mountTable boardMounts)
  realpath path := boardPaths.lookup path

/-- The mounts of the board fit the buffers. -/
theorem boardMounts_fit : ∀ mount ∈ boardMounts, mount.Fits := by
  have hword : ∀ word : Bytes, (word ≠ [] ∧ (∀ b ∈ word, isspace b = false) ∧
      word.length ≤ 63) → Field 63 word ∧ Field 4095 word := by
    rintro word ⟨hne, hsolid, hlength⟩
    exact ⟨⟨hne, hsolid, hlength⟩, ⟨hne, hsolid, by omega⟩⟩
  have hfit : ∀ mount : Mount, (∀ word ∈ [mount.device, mount.root, mount.point],
      word ≠ [] ∧ (∀ b ∈ word, isspace b = false) ∧ word.length ≤ 63) →
      mount.rest.head? = some 0x20 →
      (0x0a ∉ mount.line ∧ mount.line.length + 2 ≤ 8192 ∧ (0 : UInt8) ∉ mount.line) →
      mount.Fits := by
    rintro mount hwords hrest ⟨hnewline, hlength, hnul⟩
    simp only [List.forall_mem_cons] at hwords
    refine ⟨(hword _ hwords.1).1, (hword _ hwords.2.1).2, (hword _ hwords.2.2.1).2,
      fun b hb => ?_, ⟨hnewline, hlength⟩, hnul⟩
    cases hrest.symm.trans hb
    rfl
  intro mount hmount
  rcases List.mem_cons.mp hmount with rfl | hmount
  · exact hfit _ (by decide +kernel) rfl (by decide +kernel)
  · obtain rfl := List.mem_singleton.mp hmount
    exact hfit _ (by decide +kernel) rfl (by decide +kernel)

theorem currentSlotVerified_iff_board :
    Identified boardB boardMounts .b ∧ ¬ Identified boardB boardMounts .a := by
  have hverified : currentSlotVerified boardB = .ok .b := by decide +kernel
  constructor
  · exact (currentSlotVerified_iff boardB boardMounts rfl boardMounts_fit .b).mp hverified
  · intro h
    cases hverified.symm.trans
      ((currentSlotVerified_iff boardB boardMounts rfl boardMounts_fit .a).mpr h)

end EdgeGuard.RkAb.CurrentSlot
