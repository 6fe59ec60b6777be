import EdgeGuard.Base.DurableDirectory
import EdgeGuard.Base.JsonGuard
import EdgeGuard.Base.JsonObject
import EdgeGuard.Provisioning.Model

/-!
# The provisioning store

`store.c`: the files of the store directory, the reader with its raw-byte
checks in front of JSON-GLib, the atomic write, and the transactions on the
Wi-Fi credential.  The transactions on the runtime endpoint need the URL
canonicalisation and live in `EdgeGuard.Provisioning.RuntimeStore`.

A function that touches the disk is given the first of its steps that fails,
if one does, and answers with a `Reply`: the acts that happened on the
directory, the value of the `EgpError` out-parameter, and the returned values,
`none` when it returns FALSE.  The lock, and the preparation of the directory
in `egp_store_open`, are not modelled: they touch none of the files.

`EgpError` is cleared before every call of `parse_wifi_data`, so its test of
the code that an earlier failure left there is always true.
-/

namespace EdgeGuard.Provisioning.Store

open EdgeGuard.Base EdgeGuard.Base.CText EdgeGuard.Base.Utf8 EdgeGuard.Base.Json
open EdgeGuard.Base.JsonObject EdgeGuard.Base.DurableDirectory
open EdgeGuard.Provisioning.Model

/-! ## The directory -/

/-- The names of the store directory that the daemon uses. -/
inductive FileName
  /-- `wifi.json`. -/
  | wifi
  /-- `runtime.json`. -/
  | runtime
  /-- `.wifi.json.forget`, the tombstone. -/
  | forget
  /-- `.wifi.json.rollback`. -/
  | rollback
  /-- `.egp-tmp-…`, one name for each choice of the random part. -/
  | temporary (id : Nat)
  deriving DecidableEq, Repr

structure File where
  /-- `metadata_is_private_regular`. -/
  privateRegular : Bool
  data : Bytes
  deriving DecidableEq, Repr

abbrev Directory := FileName → Option File

abbrev Act := DirAct FileName File

/-- The directory after a list of acts. -/
def Directory.run (d : Directory) (acts : List Act) : Directory := Trace.run perform d acts

/-- What a function of the store did, and what it hands back. -/
structure Reply (α : Type) where
  acts : List Act
  error : EgpError
  value : Option α

/-- A function that returns FALSE. -/
def Reply.fail {α : Type} (acts : List Act) (error : EgpError) : Reply α := ⟨acts, error, none⟩

/-- The success of an inner call turned into that of the outer one. -/
def Reply.finish {α : Type} (r : Reply Unit) (error : EgpError) (value : α) : Reply α :=
  match r.value with
  | none => ⟨r.acts, r.error, none⟩
  | some () => ⟨r.acts, error, some value⟩

/-- `set_read_error`. -/
def setReadError (code : EgpErrorCode) (message : Bytes) : EgpError :=
  egpErrorSet code true .none message

/-- `set_write_error`. -/
def setWriteError (renamed : Bool) (message : Bytes) : EgpError :=
  egpErrorSet .persistenceWriteFailed true (if renamed then .uncertain else .none) message

/-! ## Reading -/

/-- The steps of `read_private_file` that can fail. -/
inductive ReadStep
  | opening | metadata | reading | closing
  deriving DecidableEq, Repr

/-- `read_private_file`: `none` in the result is a missing file. -/
def readPrivateFile (fault : Option ReadStep) (file : Option File) :
    Except EgpError (Option Bytes) :=
  if fault = some .opening then
    .error (setReadError .persistenceReadFailed (ascii "Persistent file could not be opened"))
  else
    match file with
    | none => .ok none
    | some file =>
        if fault = some .metadata || !file.privateRegular ||
            egpStoreMaxBytes < file.data.length then
          .error (setReadError .persistenceReadFailed
            (ascii "Persistent file metadata is unsafe or oversized"))
        else if fault = some .reading || fault = some .closing then
          .error (setReadError .persistenceReadFailed
            (ascii "Persistent file read failed or exceeded its bound"))
        else .ok (some file.data)

/-- The limits of `json_lexically_safe`. -/
def lexicalRules : JsonGuard.Rules :=
  { maxDepth := 1, arrays := false, quotedControls := false, numberMax := egpJsonUintMax,
    terminators := [0x2c, 0x7d, 0x20, 0x09, 0x0d, 0x0a] }

def jsonLexicallySafe (data : Bytes) : Bool := JsonGuard.guard lexicalRules data

def exactString (object : Members) (name : Bytes) (capacity : Nat) : Option Bytes :=
  stringMember object name capacity

def exactInteger (object : Members) (name : Bytes) : Option Int := integerMember object name

def exactBoolean (object : Members) (name : Bytes) : Option Bool := booleanMember object name

/-- The tests of `parse_root` on the raw bytes. -/
def rootBytesOk (data : Bytes) : Bool :=
  !data.isEmpty && !data.contains 0 && valid data && !occursIn nulEscape data &&
    jsonLexicallySafe data

/-- `parse_root`. -/
def parseRoot (J : JsonParser) (data : Bytes) : Option Members :=
  if !rootBytesOk data then none
  else
    match J.load data with
    | some (.obj object) => if object.duplicate then none else some object
    | _ => none

/-- The members of a credential, read with their types and capacities. -/
def wifiOfObject (object : Members) : Option EgpWifiConfig := do
  let schema ← exactInteger object (ascii "schema_version")
  if schema != egpSchemaVersion || object.size != 6 then none
  let generation ← exactInteger object (ascii "generation")
  if generation ≤ 0 then none
  let ssid ← exactString object (ascii "ssid") (egpSsidMaxBytes + 1)
  let security ← exactString object (ascii "security") 4
  let passphrase ← exactString object (ascii "passphrase") (egpPassphraseMaxBytes + 1)
  let hidden ← exactBoolean object (ascii "hidden")
  return { generation := generation.toNat, ssid, security, passphrase, hidden }

def canonicalWifiInvalid : EgpError :=
  egpErrorSet .wifiConfigInvalid true .none (ascii "Canonical Wi-Fi configuration is invalid")

def wifiSchemaUnsupported : EgpError :=
  egpErrorSet .persistenceSchemaUnsupported false .none
    (ascii "Wi-Fi store schema is unsupported")

/-- `parse_wifi_data`. -/
def parseWifiData (J : JsonParser) (data : Bytes) : Except EgpError EgpWifiConfig :=
  match parseRoot J data with
  | none => .error canonicalWifiInvalid
  | some object =>
      if (exactInteger object (ascii "schema_version")).any (· != egpSchemaVersion) then
        .error wifiSchemaUnsupported
      else
        match wifiOfObject object with
        | none => .error canonicalWifiInvalid
        | some wifi => if wifiValid wifi then .ok wifi else .error canonicalWifiInvalid

/-- `load_wifi_path`: `none` in the result is a missing file. -/
def loadWifiPath (J : JsonParser) (fault : Option ReadStep) (file : Option File) :
    Except EgpError (Option EgpWifiConfig) :=
  match readPrivateFile fault file with
  | .error error => .error error
  | .ok none => .ok none
  | .ok (some data) => (parseWifiData J data).map some

/-! ## Writing -/

/-- The conversion to `gint64` of an unsigned 64-bit number. -/
def gint64 (value : Nat) : Int := Int.bmod value (2 ^ 64)

/-- The object that `serialize_wifi` builds. -/
def wifiMembers (wifi : EgpWifiConfig) : Members :=
  members
    [(ascii "schema_version", .int egpSchemaVersion),
      (ascii "generation", .int (gint64 wifi.generation)),
      (ascii "ssid", .str wifi.ssid),
      (ascii "security", .str wifi.security),
      (ascii "passphrase", .str wifi.passphrase),
      (ascii "hidden", .bool wifi.hidden)]

/-- `serialize_wifi`. -/
def serializeWifi (wifi : EgpWifiConfig) : Bytes := generate (.obj (wifiMembers wifi))

/-- The steps of `atomic_write_at` that can fail. -/
inductive WriteStep
  | inspect | create | write | fileFsync | verify | close | rename | directoryFsync
  deriving DecidableEq, Repr

/-- The first failing step of a write. -/
structure WriteFault where
  step : WriteStep
  /-- The removal of the temporary file fails too. -/
  leftover : Bool
  deriving DecidableEq, Repr

/-- The acts and the answer of `atomic_write_at` once the destination has been
inspected, on the temporary name `temporary`. -/
def writeTemporary (temporary name : FileName) (data : Bytes) (fault : Option WriteFault) :
    Reply Unit :=
  let failed : EgpError := setWriteError false
    (ascii "Atomic persistence failed; durability may be uncertain after rename")
  let uncertain : EgpError := setWriteError true
    (ascii "Atomic persistence failed; durability may be uncertain after rename")
  let created : List Act := [.replace temporary ⟨true, []⟩]
  let written : List Act := created ++ [.replace temporary ⟨true, data⟩]
  match fault with
  | none => ⟨written ++ [.rename temporary name, .sync], .clear, some ()⟩
  | some ⟨step, leftover⟩ =>
      let cleanup : List Act := if leftover then [] else [.unlink temporary]
      match step with
      | .inspect | .create => .fail [] failed
      | .write => .fail (created ++ cleanup) failed
      | .fileFsync | .verify | .close | .rename => .fail (written ++ cleanup) failed
      | .directoryFsync => .fail (written ++ [.rename temporary name]) uncertain

/-- `atomic_write_at`; `id` stands for the last of the random names that it
tries to create exclusively. -/
def atomicWriteAt (fault : Option WriteFault) (id : Nat) (d : Directory) (name : FileName)
    (data : Bytes) : Reply Unit :=
  if fault.any (·.step = .inspect) then
    .fail [] (setWriteError false (ascii "Persistent destination could not be inspected"))
  else if (d name).any (!·.privateRegular) then
    .fail [] (setWriteError false (ascii "Existing persistent file is unsafe"))
  else if (d (.temporary id)).isSome then
    writeTemporary (.temporary id) name data (some ⟨.create, false⟩)
  else writeTemporary (.temporary id) name data fault

/-! ## Opening -/

/-- What a scan of the directory meets. -/
structure ScanIo where
  /-- `dup` or `fdopendir` fails. -/
  unstarted : Bool
  /-- The entries in the order of `readdir`. -/
  listing : List FileName
  /-- The entry whose inspection or removal fails. -/
  fault : Option FileName
  fsyncFails : Bool

/-- The loop of `cleanup_recovery_files`. -/
def cleanupEntries (fault : Option FileName) (d : Directory) :
    List FileName → List Act × Bool
  | [] => ([], true)
  | entry :: rest =>
      match entry with
      | .wifi | .runtime | .forget => cleanupEntries fault d rest
      | .rollback | .temporary _ =>
          if fault = some entry || !(d entry).any (·.privateRegular) then ([], false)
          else
            let (acts, ok) := cleanupEntries fault d rest
            (.unlink entry :: acts, ok)

/-- `cleanup_recovery_files`. -/
def cleanupRecoveryFiles (io : ScanIo) (d : Directory) : Reply Unit :=
  if io.unstarted then
    .fail [] (setWriteError false (ascii "Store recovery scan could not start"))
  else
    let (acts, ok) := cleanupEntries io.fault d io.listing
    let failed : EgpError := setWriteError false (ascii "Store recovery cleanup failed")
    if !ok then .fail acts failed
    else if acts.isEmpty then ⟨[], .clear, some ()⟩
    else if io.fsyncFails then .fail acts failed
    else ⟨acts ++ [.sync], .clear, some ()⟩

/-! ## Replacing and restoring the credential -/

/-- The failing steps of one replacement, and its temporary name. -/
structure ReplaceIo where
  temporary : Nat
  read : Option ReadStep
  write : Option WriteFault

/-- What `egp_store_replace_wifi` returns. -/
structure ReplacedWifi where
  previous : Option EgpWifiConfig
  committedGeneration : Nat

/-- `egp_store_load_wifi`. -/
def egpStoreLoadWifi (J : JsonParser) (fault : Option ReadStep) (d : Directory) :
    Except EgpError (Option EgpWifiConfig) :=
  loadWifiPath J fault (d .wifi)

/-- The candidate with the generation behind the previous one. -/
def nextWifi (candidate : EgpWifiConfig) (previous : Option EgpWifiConfig) : EgpWifiConfig :=
  { candidate with generation := previous.elim 1 (·.generation + 1) }

/-- `egp_store_replace_wifi`. -/
def egpStoreReplaceWifi (J : JsonParser) (io : ReplaceIo) (d : Directory)
    (candidate : EgpWifiConfig) : Reply ReplacedWifi :=
  match egpWifiValidate candidate with
  | .error error => .fail [] error
  | .ok () =>
      match loadWifiPath J io.read (d .wifi) with
      | .error error => .fail [] error
      | .ok previous =>
          if previous.any (egpJsonUintMax ≤ ·.generation) then
            .fail [] (egpErrorSet .persistenceSchemaUnsupported false .none
              (ascii "Wi-Fi generation cannot be incremented"))
          else
            let next := nextWifi candidate previous
            let data := serializeWifi next
            -- an oversized text would return FALSE with a cleared error
            if egpStoreMaxBytes < data.length then .fail [] .clear
            else (atomicWriteAt io.write io.temporary d .wifi data).finish
              (egpErrorSet .none false .committed (ascii "Wi-Fi configuration committed"))
              ⟨previous, next.generation⟩

/-- The steps of `restore_absence` that can fail. -/
inductive AbsenceStep
  | inspect | rename | fsync | unlink | finalFsync
  deriving DecidableEq, Repr

/-- `restore_absence`. -/
def restoreAbsence (fault : Option AbsenceStep) (d : Directory) : Reply Unit :=
  let renamed : List Act := [.rename .wifi .rollback]
  if fault = some .inspect then
    .fail [] (setWriteError false (ascii "Wi-Fi rollback destination could not be inspected"))
  else
    match d .wifi with
    | none => ⟨[], .clear, some ()⟩
    | some file =>
        if !file.privateRegular then
          .fail [] (setWriteError false (ascii "Wi-Fi rollback source is unsafe"))
        else
          match fault with
          | some .rename =>
              .fail [] (setWriteError false (ascii "Wi-Fi rollback rename failed"))
          | some .fsync =>
              .fail renamed (setWriteError true (ascii "Wi-Fi rollback durability is uncertain"))
          | some .unlink =>
              .fail (renamed ++ [.sync])
                (setWriteError true (ascii "Wi-Fi rollback cleanup is uncertain"))
          | some .finalFsync =>
              .fail (renamed ++ [.sync, .unlink .rollback])
                (setWriteError true (ascii "Wi-Fi rollback cleanup is uncertain"))
          | _ => ⟨renamed ++ [.sync, .unlink .rollback, .sync], .clear, some ()⟩

/-- The failing steps of one restoration, and its temporary name. -/
structure RestoreIo where
  temporary : Nat
  read : Option ReadStep
  write : Option WriteFault
  absence : Option AbsenceStep

def restoredError : EgpError :=
  egpErrorSet .none false .rolledBack (ascii "Previous Wi-Fi configuration restored")

/-- `MAX(current.generation, previous->generation)`. -/
def rollbackBase (current : Option EgpWifiConfig) (previous : EgpWifiConfig) : Nat :=
  max (current.elim 0 (·.generation)) previous.generation

/-- The branch of `egp_store_restore_wifi` that writes the previous credential
back under a new generation. -/
def restorePrevious (J : JsonParser) (io : RestoreIo) (d : Directory)
    (previous : EgpWifiConfig) : Reply Nat :=
  match egpWifiValidate previous with
  | .error error => .fail [] error
  | .ok () =>
      match loadWifiPath J io.read (d .wifi) with
      | .error error => .fail [] error
      | .ok current =>
          let base := rollbackBase current previous
          if egpJsonUintMax ≤ base then
            .fail [] (egpErrorSet .persistenceSchemaUnsupported false .none
              (ascii "Wi-Fi rollback generation cannot be incremented"))
          else
            (atomicWriteAt io.write io.temporary d .wifi
              (serializeWifi { previous with generation := base + 1 })).finish
              restoredError (base + 1)

/-- `egp_store_restore_wifi`; the value is the restored generation. -/
def egpStoreRestoreWifi (J : JsonParser) (io : RestoreIo) (d : Directory)
    (previous : Option EgpWifiConfig) : Reply Nat :=
  match previous with
  | none => (restoreAbsence io.absence d).finish restoredError 0
  | some previous => restorePrevious J io d previous

/-! ## Forgetting the credential -/

/-- The renaming steps of `egp_store_forget_begin`. -/
inductive ForgetStep
  | rename | fsync
  deriving DecidableEq, Repr

structure ForgetBeginIo where
  tombstone : Option ReadStep
  /-- `fstatat` of `wifi.json` fails with another error than ENOENT. -/
  inspectLive : Bool
  live : Option ReadStep
  commit : Option ForgetStep

/-- What `egp_store_forget_begin` returns: the credential to revoke, when there
is one. -/
abbrev Forgotten := Option EgpWifiConfig

def forgetPrepared (change : EgpPersistentChange) : EgpError :=
  egpErrorSet .none false change (ascii "Wi-Fi forget tombstone prepared")

/-- The part of `egp_store_forget_begin` behind a store without tombstone. -/
def forgetLive (J : JsonParser) (io : ForgetBeginIo) (d : Directory) : Reply Forgotten :=
  match loadWifiPath J io.live (d .wifi) with
  | .error error => .fail [] error
  | .ok none => ⟨[], forgetPrepared .none, some none⟩
  | .ok (some live) =>
      let renamed : List Act := [.rename .wifi .forget]
      match io.commit with
      | some .rename => .fail [] (setWriteError false (ascii "Wi-Fi forget rename failed"))
      | some .fsync =>
          .fail renamed (setWriteError true (ascii "Wi-Fi forget durability is uncertain"))
      | none => ⟨renamed ++ [.sync], forgetPrepared .committed, some (some live)⟩

/-- `egp_store_forget_begin`. -/
def egpStoreForgetBegin (J : JsonParser) (io : ForgetBeginIo) (d : Directory) :
    Reply Forgotten :=
  match loadWifiPath J io.tombstone (d .forget) with
  | .error error => .fail [] error
  | .ok (some pending) =>
      if io.inspectLive || (d .wifi).isSome then
        .fail [] (setWriteError false (ascii "Live Wi-Fi and forget tombstone conflict"))
      else ⟨[], .clear, some (some pending)⟩
  | .ok none => forgetLive J io d

/-- `egp_store_forget_pending`. -/
def egpStoreForgetPending (J : JsonParser) (fault : Option ReadStep) (inspectLive : Bool)
    (d : Directory) : Except EgpError (Option EgpWifiConfig) :=
  match loadWifiPath J fault (d .forget) with
  | .error error => .error error
  | .ok none => .ok none
  | .ok (some pending) =>
      if inspectLive || (d .wifi).isSome then
        .error (setReadError .persistenceReadFailed
          (ascii "Live Wi-Fi and forget tombstone conflict"))
      else .ok (some pending)

/-- The steps of `egp_store_forget_finish` that can fail. -/
inductive FinishStep
  | inspect | unlink | fsync
  deriving DecidableEq, Repr

/-- `egp_store_forget_finish`. -/
def egpStoreForgetFinish (fault : Option FinishStep) (d : Directory) : Reply Unit :=
  let completed : EgpError :=
    egpErrorSet .none false .committed (ascii "Wi-Fi forget completed")
  if fault = some .inspect then
    .fail [] (setWriteError false (ascii "Forget tombstone could not be inspected"))
  else
    match d .forget with
    | none => ⟨[], completed, some ()⟩
    | some file =>
        if !file.privateRegular then
          .fail [] (setWriteError false (ascii "Forget tombstone is unsafe"))
        else
          match fault with
          | some .unlink =>
              .fail [] (setWriteError false (ascii "Forget tombstone removal failed"))
          | some .fsync =>
              .fail [.unlink .forget]
                (setWriteError true (ascii "Forget completion durability is uncertain"))
          | _ => ⟨[.unlink .forget, .sync], completed, some ()⟩

end EdgeGuard.Provisioning.Store
