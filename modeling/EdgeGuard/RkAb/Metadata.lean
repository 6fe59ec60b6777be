import EdgeGuard.Base.CText

/-!
# The A/B metadata block

`edgeguard-rk-abctl.c`: the 32 bytes of Rockchip's AvbABData in the misc
partition, its checks, the choice of the primary slot, and `mutate`, the only
path that changes the block.

The two entries of `slots` are named, and so are their indices.  The lock, the
proof of the current slot from the kernel command line and the mount table, and
the device itself are the environment of a mutation: each may fail, and a short
write may leave anything behind.  The texts for stderr and the status that is
printed are left out; a refusal is named instead.

## Main results

* `loadBe32_storeBe32`, `validate_withCrc` — a block with its checksum passes the check.
* `mutate_cases` — the ends of a mutation.
-/

namespace EdgeGuard.RkAb.Metadata

open EdgeGuard.Base.CText

def abMaxPriority : UInt8 := 15
def abMaxTries : UInt8 := 7
def abMajor : UInt8 := 1
def abMinor : UInt8 := 0

/-! ## The block -/

/-- An index of `slots`. -/
inductive Slot
  | a
  | b
  deriving DecidableEq, Repr

/-- `1 - slot`. -/
def Slot.other : Slot → Slot
  | .a => .b
  | .b => .a

/-- The slot as a byte. -/
def Slot.index : Slot → UInt8
  | .a => 0
  | .b => 1

structure SlotData where
  priority : UInt8
  triesRemaining : UInt8
  successfulBoot : UInt8
  flags : UInt8
  deriving DecidableEq, Repr

structure AbData where
  magic : Vector UInt8 4
  versionMajor : UInt8
  versionMinor : UInt8
  reserved1 : Vector UInt8 2
  slotA : SlotData
  slotB : SlotData
  lastBoot : UInt8
  reserved2 : Vector UInt8 11
  crcBe : Vector UInt8 4
  deriving DecidableEq, Repr

def AbData.slot (d : AbData) : Slot → SlotData
  | .a => d.slotA
  | .b => d.slotB

def AbData.withSlot (d : AbData) (slot : Slot) (s : SlotData) : AbData :=
  match slot with
  | .a => { d with slotA := s }
  | .b => { d with slotB := s }

def SlotData.bytes (s : SlotData) : Bytes :=
  [s.priority, s.triesRemaining, s.successfulBoot, s.flags]

/-- The bytes in front of the checksum. -/
def AbData.covered (d : AbData) : Bytes :=
  d.magic.toList ++ [d.versionMajor, d.versionMinor] ++ d.reserved1.toList ++ d.slotA.bytes ++
    d.slotB.bytes ++ [d.lastBoot] ++ d.reserved2.toList

@[simp] theorem other_other (slot : Slot) : slot.other.other = slot := by
  cases slot <;> rfl

theorem other_ne (slot : Slot) : slot.other ≠ slot := by
  cases slot <;> decide

@[simp] theorem slot_withSlot (d : AbData) (slot : Slot) (s : SlotData) :
    (d.withSlot slot s).slot slot = s := by
  cases slot <;> rfl

@[simp] theorem slot_withSlot_other (d : AbData) (slot : Slot) (s : SlotData) :
    (d.withSlot slot s).slot slot.other = d.slot slot.other := by
  cases slot <;> rfl

@[simp] theorem slot_withSlot_of_other (d : AbData) (slot : Slot) (s : SlotData) :
    (d.withSlot slot.other s).slot slot = d.slot slot := by
  cases slot <;> rfl

/-- A property of both slots. -/
theorem forall_slot {P : Slot → Prop} (slot : Slot) : (∀ s, P s) ↔ P slot ∧ P slot.other := by
  constructor
  · intro h
    exact ⟨h _, h _⟩
  · rintro ⟨h, hother⟩ s
    cases slot <;> cases s <;> assumption

/-! ## The checksum -/

/-- One bit of `crc32_ieee`. -/
def crcBit (crc : UInt32) : UInt32 :=
  (crc >>> 1) ^^^ (if crc &&& 1 ≠ 0 then 0xedb88320 else 0)

def crc32Ieee (p : Bytes) : UInt32 :=
  ~~~ (p.foldl (fun crc byte => Nat.repeat crcBit 8 (crc ^^^ byte.toUInt32)) 0xffffffff)

def loadBe32 (p : Vector UInt8 4) : UInt32 :=
  p[0].toUInt32 <<< 24 ||| p[1].toUInt32 <<< 16 ||| p[2].toUInt32 <<< 8 ||| p[3].toUInt32

def storeBe32 (v : UInt32) : Vector UInt8 4 :=
  #v[(v >>> 24).toUInt8, (v >>> 16).toUInt8, (v >>> 8).toUInt8, v.toUInt8]

/-- What is stored is loaded: every bit is in one of the four bytes. -/
theorem loadBe32_storeBe32 (v : UInt32) : loadBe32 (storeBe32 v) = v := by
  apply UInt32.toBitVec_inj.mp
  apply BitVec.eq_of_getLsbD_eq
  intro i hi
  show (((v.toBitVec >>> 24).setWidth 8).setWidth 32 <<< 24 |||
      ((v.toBitVec >>> 16).setWidth 8).setWidth 32 <<< 16 |||
      ((v.toBitVec >>> 8).setWidth 8).setWidth 32 <<< 8 |||
      (v.toBitVec.setWidth 8).setWidth 32).getLsbD i = _
  simp only [BitVec.getLsbD_or, BitVec.getLsbD_shiftLeft, BitVec.getLsbD_setWidth,
    BitVec.getLsbD_ushiftRight]
  have hbyte : i < 8 ∨ (8 ≤ i ∧ i < 16) ∨ (16 ≤ i ∧ i < 24) ∨ 24 ≤ i := by omega
  rcases hbyte with h | ⟨h, h'⟩ | ⟨h, h'⟩ | h
  · simp [h, hi, show i < 16 by omega, show i < 24 by omega]
  · simp [hi, h', show ¬ i < 8 by omega, show i < 24 by omega, show i - 8 < 8 by omega,
      show i - 8 < 32 by omega, show 8 + (i - 8) = i by omega]
  · simp [hi, h', show ¬ i < 8 by omega, show ¬ i < 16 by omega, show ¬ i - 8 < 8 by omega,
      show i - 16 < 8 by omega, show i - 16 < 32 by omega, show 16 + (i - 16) = i by omega]
  · simp [hi, show ¬ i < 8 by omega, show ¬ i < 16 by omega, show ¬ i < 24 by omega,
      show ¬ i - 8 < 8 by omega, show ¬ i - 16 < 8 by omega, show i - 24 < 8 by omega,
      show i - 24 < 32 by omega, show 24 + (i - 24) = i by omega]

/-! ## Checks -/

/-- `is_bootable`. -/
def isBootable (s : SlotData) : Bool :=
  0 < s.priority && (s.successfulBoot != 0 || 0 < s.triesRemaining)

/-- What `validate` finds wrong with a block. -/
inductive Invalid
  | magic
  | version
  | crc
  | slot (slot : Slot)
  | lastBoot
  deriving DecidableEq, Repr

def slotInvalid (s : SlotData) : Bool :=
  abMaxPriority < s.priority || abMaxTries < s.triesRemaining || 1 < s.successfulBoot

/-- The `magic` of `validate`. -/
def abMagic : Vector UInt8 4 := #v[0x00, 0x41, 0x42, 0x30]

def validate (d : AbData) : Except Invalid Unit :=
  if d.magic ≠ abMagic then .error .magic
  else if d.versionMajor ≠ abMajor ∨ d.versionMinor ≠ abMinor then .error .version
  else if loadBe32 d.crcBe ≠ crc32Ieee d.covered then .error .crc
  else if slotInvalid d.slotA then .error (.slot .a)
  else if slotInvalid d.slotB then .error (.slot .b)
  else if 1 < d.lastBoot then .error .lastBoot
  else .ok ()

/-- What a valid block is apart from its checksum. -/
structure Sensible (d : AbData) : Prop where
  magic : d.magic = abMagic
  version : d.versionMajor = abMajor ∧ d.versionMinor = abMinor
  slots : ∀ slot, slotInvalid (d.slot slot) = false
  lastBoot : d.lastBoot ≤ 1

/-- A block is valid when it is sensible and has its checksum. -/
theorem validate_iff (d : AbData) :
    validate d = .ok () ↔ Sensible d ∧ loadBe32 d.crcBe = crc32Ieee d.covered := by
  constructor
  · intro h
    unfold validate at h
    split at h
    · cases h
    · rename_i hmagic
      split at h
      · cases h
      · rename_i hversion
        split at h
        · cases h
        · rename_i hcrc
          split at h
          · cases h
          · rename_i ha
            split at h
            · cases h
            · rename_i hb
              split at h
              · cases h
              · rename_i hlast
                simp only [ne_eq, not_or, Decidable.not_not] at hmagic hversion hcrc
                refine ⟨⟨hmagic, hversion, fun slot => ?_, UInt8.not_lt.mp hlast⟩, hcrc⟩
                cases slot with
                | a => exact Bool.eq_false_iff.mpr ha
                | b => exact Bool.eq_false_iff.mpr hb
  · rintro ⟨⟨hmagic, hversion, hslots, hlast⟩, hcrc⟩
    have ha : slotInvalid d.slotA = false := hslots .a
    have hb : slotInvalid d.slotB = false := hslots .b
    simp [validate, hmagic, hversion.1, hversion.2, hcrc, ha, hb, UInt8.not_lt.mpr hlast]

/-- `primary_slot`: `none` when no slot is bootable. -/
def primarySlot (d : AbData) : Option Slot :=
  let a := isBootable d.slotA
  let b := isBootable d.slotB
  if !a && !b then none
  else if a && !b then some .a
  else if !a && b then some .b
  else if d.slotA.priority < d.slotB.priority then some .b
  else some .a

inductive NativeState
  | confirmedGood
  | pending
  | bad
  deriving DecidableEq, Repr

/-- `native_state`: `none` for a slot in none of the three states. -/
def nativeState (s : SlotData) : Option NativeState :=
  if 0 < s.priority && s.triesRemaining == 0 && s.successfulBoot == 1 && isBootable s then
    some .confirmedGood
  else if 0 < s.priority && 0 < s.triesRemaining && s.successfulBoot == 0 && isBootable s then
    some .pending
  else if s.priority == 0 && s.triesRemaining == 0 && s.successfulBoot == 0 && !isBootable s then
    some .bad
  else none

/-! ## Writing -/

/-- The block with its checksum. -/
def withCrc (d : AbData) : AbData := { d with crcBe := storeBe32 (crc32Ieee d.covered) }

theorem validate_withCrc {d : AbData} (h : Sensible d) : validate (withCrc d) = .ok () := by
  rw [validate_iff]
  refine ⟨⟨h.magic, h.version, h.slots, h.lastBoot⟩, ?_⟩
  exact loadBe32_storeBe32 _

/-- The step of `write_and_verify` that fails. -/
inductive WriteFault
  /-- `pwrite` fails and writes nothing. -/
  | write
  /-- `pwrite` is short, and leaves a block on the device. -/
  | short (left : AbData)
  | fsync
  /-- The read-back fails, or reads something else. -/
  | readBack (verify : Option AbData)

/-- `write_and_verify`: the device behind it, and its success. -/
def writeAndVerify (fault : Option WriteFault) (device d : AbData) : AbData × Bool :=
  let block := withCrc d
  let verified (verify : AbData) : Bool := validate verify = .ok () && verify == block
  match fault with
  | none => (block, verified block)
  | some .write => (device, false)
  | some (.short left) => (left, false)
  | some .fsync => (block, false)
  | some (.readBack verify) => (block, verify.any verified)

/-! ## Mutations -/

inductive Mutation
  | setPrimary
  | markBad
  | markGood
  deriving DecidableEq, Repr

/-- Why a mutation does not come to its write. -/
inductive Refusal
  | lock
  /-- `current_slot_verified`. -/
  | identity
  | unreadable
  | invalid (cause : Invalid)
  | peerNotBootable
  | notCurrent
  | unbootable
  deriving DecidableEq, Repr

/-- What the `switch` of `mutate` makes of a block. -/
inductive Change
  | refuse (why : Refusal)
  /-- The block is right as it is. -/
  | keep
  | write (d : AbData)

def setPrimary (slot : Slot) (d : AbData) : AbData :=
  let d := d.withSlot slot { d.slot slot with
    priority := abMaxPriority, triesRemaining := abMaxTries, successfulBoot := 0 }
  let peer := d.slot slot.other
  if peer.priority = abMaxPriority then
    d.withSlot slot.other { peer with priority := abMaxPriority - 1 }
  else d

def markBad (slot : Slot) (d : AbData) : AbData :=
  d.withSlot slot { d.slot slot with priority := 0, triesRemaining := 0, successfulBoot := 0 }

def markGood (slot : Slot) (d : AbData) : AbData :=
  { d.withSlot slot { d.slot slot with
      priority := abMaxPriority
      triesRemaining := 0
      successfulBoot := 1
      flags := (d.slot slot).flags &&& ~~~1 } with
    lastBoot := slot.index }

def change (op : Mutation) (slot current : Slot) (d : AbData) : Change :=
  let s := d.slot slot
  match op with
  | .setPrimary => .write (setPrimary slot d)
  | .markBad =>
      if !isBootable (d.slot slot.other) then .refuse .peerNotBootable
      else if s.priority = 0 ∧ s.triesRemaining = 0 ∧ s.successfulBoot = 0 then .keep
      else .write (markBad slot d)
  | .markGood =>
      if slot ≠ current then .refuse .notCurrent
      else if !isBootable s then .refuse .unbootable
      else .write (markGood slot d)

/-- The ends of a change. -/
inductive ChangeEnd (slot current : Slot) (d : AbData) : Mutation → Change → Prop
  | refused (op : Mutation) (why : Refusal) : ChangeEnd slot current d op (.refuse why)
  | primary : ChangeEnd slot current d .setPrimary (.write (setPrimary slot d))
  | badBefore (hpeer : isBootable (d.slot slot.other) = true)
      (hbad : (d.slot slot).priority = 0 ∧ (d.slot slot).triesRemaining = 0 ∧
        (d.slot slot).successfulBoot = 0) :
      ChangeEnd slot current d .markBad .keep
  | bad (hpeer : isBootable (d.slot slot.other) = true) :
      ChangeEnd slot current d .markBad (.write (markBad slot d))
  | good (hcurrent : slot = current) (hbootable : isBootable (d.slot slot) = true) :
      ChangeEnd slot current d .markGood (.write (markGood slot d))

/-- A change is refused, kept or written in one of the ways of `ChangeEnd`. -/
theorem change_cases (op : Mutation) (slot current : Slot) (d : AbData) :
    ChangeEnd slot current d op (change op slot current d) := by
  unfold change
  cases op with
  | setPrimary => exact .primary
  | markBad =>
      simp only
      split
      · exact .refused _ _
      · rename_i hpeer
        have hpeer : isBootable (d.slot slot.other) = true := by simpa using hpeer
        split
        · rename_i hbad
          exact .badBefore hpeer hbad
        · exact .bad hpeer
  | markGood =>
      simp only
      split
      · exact .refused _ _
      · rename_i hcurrent
        split
        · exact .refused _ _
        · rename_i hbootable
          exact .good (Decidable.not_not.mp hcurrent) (by simpa using hbootable)

/-- What a mutation meets. -/
structure Env where
  lockFails : Bool
  /-- `current_slot_verified`. -/
  current : Option Slot
  /-- The device cannot be opened or read. -/
  unreadable : Bool
  fault : Option WriteFault

inductive Result
  | success
  | refused (why : Refusal)
  /-- The write failed or could not be verified. -/
  | failed
  deriving DecidableEq, Repr

/-- `mutate`: the device behind it, and its result. -/
def mutate (op : Mutation) (slot : Slot) (env : Env) (device : AbData) : AbData × Result :=
  if env.lockFails then (device, .refused .lock)
  else
    match env.current with
    | none => (device, .refused .identity)
    | some current =>
        if env.unreadable then (device, .refused .unreadable)
        else
          match validate device with
          | .error cause => (device, .refused (.invalid cause))
          | .ok () =>
              match change op slot current device with
              | .refuse why => (device, .refused why)
              | .keep => (device, .success)
              | .write d =>
                  let (after, ok) := writeAndVerify env.fault device d
                  (after, if ok then .success else .failed)

/-- The ends of a mutation. -/
inductive MutateEnd (op : Mutation) (slot : Slot) (env : Env) (device : AbData) :
    AbData × Result → Prop
  | refused (why : Refusal) : MutateEnd op slot env device (device, .refused why)
  | kept (current : Slot) (hcurrent : env.current = some current)
      (hvalid : validate device = .ok ()) (hchange : change op slot current device = .keep) :
      MutateEnd op slot env device (device, .success)
  | written (current : Slot) (d : AbData) (hcurrent : env.current = some current)
      (hvalid : validate device = .ok ()) (hchange : change op slot current device = .write d)
      (hverified : validate (withCrc d) = .ok ()) :
      MutateEnd op slot env device (withCrc d, .success)
  /-- A write that does not count leaves the old block, the new one or a torn one. -/
  | failed (current : Slot) (d left : AbData) (hcurrent : env.current = some current)
      (hvalid : validate device = .ok ()) (hchange : change op slot current device = .write d)
      (hleft : left = device ∨ left = withCrc d ∨ env.fault = some (.short left)) :
      MutateEnd op slot env device (left, .failed)

/-- A request of the tool ends in one of the ways of `MutateEnd`. -/
theorem mutate_cases (op : Mutation) (slot : Slot) (env : Env) (device : AbData) :
    MutateEnd op slot env device (mutate op slot env device) := by
  unfold mutate
  split
  · exact .refused _
  · split
    · exact .refused _
    · rename_i current hcurrent
      split
      · exact .refused _
      · split
        · exact .refused _
        · rename_i hvalid
          split
          · exact .refused _
          · rename_i hchange
            exact .kept current hcurrent hvalid hchange
          · rename_i d hchange
            have hverified : ∀ verify : AbData,
                (decide (validate verify = .ok ()) && verify == withCrc d) = true →
                  validate (withCrc d) = .ok () := by
              intro verify h
              simp only [Bool.and_eq_true, decide_eq_true_eq, beq_iff_eq] at h
              rw [← h.2]
              exact h.1
            have hfailed : ∀ left, left = device ∨ left = withCrc d ∨
                env.fault = some (.short left) →
                  MutateEnd op slot env device (left, .failed) := by
              intro left hleft
              exact .failed current d left hcurrent hvalid hchange hleft
            unfold writeAndVerify
            cases hfault : env.fault with
            | none =>
                simp only
                split
                · rename_i hok
                  exact .written current d hcurrent hvalid hchange (hverified _ hok)
                · exact hfailed _ (.inr (.inl rfl))
            | some fault =>
                cases fault with
                | write => exact hfailed _ (.inl rfl)
                | short left => exact hfailed _ (.inr (.inr hfault))
                | fsync => exact hfailed _ (.inr (.inl rfl))
                | readBack verify =>
                    simp only
                    split
                    · rename_i hok
                      cases verify with
                      | none => cases hok
                      | some seen =>
                          exact .written current d hcurrent hvalid hchange (hverified seen hok)
                    · exact hfailed _ (.inr (.inl rfl))

end EdgeGuard.RkAb.Metadata
