import EdgeGuard.Agent.Persistence
import EdgeGuard.Base.Ini
import EdgeGuard.Base.Uri

/-!
# The agent's configuration

`config.c`: the checks on the INI text, the readers of its values and the rules
between them.  The key file parser and the network library are parameters.

## Main results

* `loaded_of_otaConfigLoad` — what is known of a configuration that the loader
  accepts.
* `server_of_baseUrlValid` — a base URL that the loader accepts is a scheme, a
  host and perhaps a port.
-/

namespace EdgeGuard.Agent.Config

open EdgeGuard.Base.CText EdgeGuard.Base.Utf8 EdgeGuard.Base.Ini EdgeGuard.Base.Uri
open EdgeGuard.Agent.Model EdgeGuard.Agent.Persistence

def otaEndpointMaxBytes : Nat := 64

/-! ## The entries of the file -/

/-- `keys`: the groups and keys that a configuration may have. -/
def configKeys : List (Bytes × Bytes) :=
  [(ascii "server", ascii "base_url"), (ascii "server", ascii "manifest_path"),
    (ascii "server", ascii "report_path"), (ascii "server", ascii "poll_interval_sec"),
    (ascii "server", ascii "connect_timeout_sec"), (ascii "server", ascii "request_timeout_sec"),
    (ascii "agent", ascii "state_dir"), (ascii "agent", ascii "release_file"),
    (ascii "agent", ascii "max_manifest_bytes"), (ascii "download", ascii "part_file"),
    (ascii "download", ascii "bundle_file"), (ascii "download", ascii "reserve_bytes"),
    (ascii "rauc", ascii "binary"), (ascii "identity", ascii "device_id_file"),
    (ascii "health", ascii "hook"), (ascii "health", ascii "timeout_sec"),
    (ascii "reporting", ascii "mode")]

/-- What `unique_entries` has seen so far: the current group, and the texts in
its hash table. -/
structure Seen where
  group : Option Bytes
  entries : List Bytes

def Seen.add (seen : Seen) (group entry : Bytes) : Option Seen :=
  if seen.entries.contains entry then none else some ⟨some group, entry :: seen.entries⟩

/-- One stripped line. -/
def Seen.line (seen : Seen) (line : Bytes) : Option Seen :=
  if line.isEmpty || line.head? == some 0x23 then some seen
  else if line.head? == some 0x5b then
    match breakOn [0x5d] line.tail with
    | some (group, []) => seen.add group (ascii "group:" ++ group)
    | _ => none
  else
    match seen.group, breakOn [0x3d] line with
    | some group, some (key, _) =>
        seen.add group (ascii "key:" ++ group ++ ascii ":" ++ strstrip key)
    | _, _ => none

/-- `unique_entries`. -/
def uniqueEntries (text : Bytes) : Bool :=
  (((lines text).map strstrip).foldlM Seen.line ⟨none, []⟩).isSome

/-- `known_entries`. -/
def knownEntries (file : KeyFile) : Bool :=
  file.groups.all fun group =>
    configKeys.any (·.1 == group) &&
      (file.keys group).all fun name => configKeys.contains (group, name)

/-! ## Values -/

/-- `read_string`. -/
def readString (file : KeyFile) (group key : Bytes) (capacity : Nat) (optional : Bool) :
    Option Bytes :=
  if optional && !file.hasKey group key then some []
  else
    (file.getString group key).filter fun value =>
      value.length < capacity && (optional || !value.isEmpty) && valid value && controlFree value

/-- `read_number`; beyond 64 bits `g_ascii_strtoull` reports an overflow. -/
def readNumber (file : KeyFile) (group key : Bytes) (minimum maximum : Nat) : Option Nat := do
  let value ← readString file group key 32 false
  let number := decimalValue 0 value
  if value.all isDigit && number < 2 ^ 64 && minimum ≤ number && number ≤ maximum then
    some number
  else none

/-- `absolute_clean`. -/
def absoluteClean (path : Bytes) : Bool :=
  path.head? == some 0x2f && !path.tail.isEmpty && !path.contains 0x5c &&
    (path.tail.splitOn 0x2f).all fun part =>
      !part.isEmpty && part != ascii "." && part != ascii ".."

/-- `server_path`. -/
def serverPath (path : Bytes) : Bool :=
  absoluteClean path && !occursIn (ascii "..") path && !hasAny (ascii " ?#%:") path

/-- The port of `base_url_valid`. -/
def portOk (port : Bytes) : Bool :=
  !port.isEmpty && port.length ≤ 5 && port.all isDigit && decimalValue 0 port != 0 &&
    decimalValue 0 port ≤ 65535

/-- What follows a host: nothing, or a colon and a port. -/
def afterHost : Bytes → Bool
  | [] => true
  | colon :: port => colon == 0x3a && portOk port

/-- The authority of `base_url_valid`. -/
def authorityValid (N : NetLibrary) (authority : Bytes) : Bool :=
  !authority.isEmpty && !hasAny (ascii "/@?#\\% ") authority &&
    if authority.head? == some 0x5b then
      match breakOn [0x5d] authority.tail with
      | none => false
      | some (host, after) =>
          host.contains 0x3a && N.hostnameIsIpAddress host && afterHost after
    else
      let host := authority.takeWhile (· != 0x3a)
      1 ≤ host.length && host.length ≤ 253 && host.all isNameByte &&
        afterHost (authority.dropWhile (· != 0x3a))

/-- `base_url_valid`. -/
def baseUrlValid (N : NetLibrary) (url : Bytes) : Bool :=
  if (ascii "http://").isPrefixOf url then authorityValid N (url.drop 7)
  else if (ascii "https://").isPrefixOf url then authorityValid N (url.drop 8)
  else false

/-- `child_is`. -/
def childIs (dir path name : Bytes) : Bool := buildFilename dir name == path

/-! ## The loader -/

def readReportingMode (file : KeyFile) : Option OtaReportingMode := do
  let mode ← readString file (ascii "reporting") (ascii "mode") 32 true
  if mode.isEmpty && file.hasKey (ascii "reporting") (ascii "mode") then none
  else if mode.isEmpty || mode == ascii "legacy" then some .legacy
  else if mode == ascii "extended" then some .extended
  else none

/-- The values of the file, each in its own range. -/
def readFields (file : KeyFile) : Option OtaConfig := do
  let str := fun group key => readString file (ascii group) (ascii key) otaPathCap
  let num := fun group key => readNumber file (ascii group) (ascii key)
  let baseUrl ←
    readString file (ascii "server") (ascii "base_url") (otaEndpointMaxBytes + 1) false
  let manifestPath ← str "server" "manifest_path" false
  let reportPath ← str "server" "report_path" false
  let pollIntervalSec ← num "server" "poll_interval_sec" 1 uint32Max
  let connectTimeoutSec ← num "server" "connect_timeout_sec" 1 int32Max
  let requestTimeoutSec ← num "server" "request_timeout_sec" 1 int32Max
  let stateDir ← str "agent" "state_dir" false
  let releaseFile ← str "agent" "release_file" false
  let maxManifestBytes ← num "agent" "max_manifest_bytes" 1 65536
  let partFile ← str "download" "part_file" false
  let bundleFile ← str "download" "bundle_file" false
  let reserveBytes ← num "download" "reserve_bytes" 0 int64Max
  let raucBinary ← str "rauc" "binary" false
  let deviceIdFile ← str "identity" "device_id_file" false
  let healthHook ← str "health" "hook" true
  let healthTimeoutSec ← num "health" "timeout_sec" 1 int32Max
  let reportingMode ← readReportingMode file
  some
    { baseUrl, manifestPath, reportPath, pollIntervalSec, connectTimeoutSec, requestTimeoutSec,
      stateDir, releaseFile, maxManifestBytes, partFile, bundleFile, reserveBytes, raucBinary,
      deviceIdFile, healthHook, healthTimeoutSec, reportingMode }

/-- The rules between the values. -/
def fieldsValid (N : NetLibrary) (config : OtaConfig) : Bool :=
  baseUrlValid N config.baseUrl && serverPath config.manifestPath &&
    serverPath config.reportPath && absoluteClean config.stateDir &&
    absoluteClean config.releaseFile &&
    (config.healthHook.isEmpty || absoluteClean config.healthHook) &&
    config.raucBinary == ascii "/usr/bin/rauc" &&
    config.connectTimeoutSec ≤ config.requestTimeoutSec &&
    childIs config.stateDir config.partFile (ascii "update.raucb.part") &&
    childIs config.stateDir config.bundleFile (ascii "update.raucb") &&
    childIs config.stateDir config.deviceIdFile (ascii "device-id")

/-- The configuration that a text stands for, if it is accepted. -/
def configOfText (load : KeyFileParser) (N : NetLibrary) (data : Bytes) : Option OtaConfig :=
  if data.contains 0 || !valid data || !uniqueEntries data then none
  else
    match load data with
    | none => none
    | some file => if knownEntries file then (readFields file).filter (fieldsValid N) else none

/-- `ota_config_load`; every failure reports the same error. -/
def otaConfigLoad (load : KeyFileParser) (N : NetLibrary) (fault : Option OtaError)
    (file : Option Bytes) (path : Bytes) : Except OtaError OtaConfig :=
  let invalid := otaErrorSet .configInvalid
    (ascii "Invalid, missing, duplicate or unsupported INI value in " ++ path)
  match otaFileRead path otaStateMaxBytes fault file with
  | .ok (some data) =>
      match configOfText load N data with
      | some config => .ok config
      | none => .error invalid
  | _ => .error invalid

/-! ## What an accepted configuration is -/

/-- A text as `read_string` hands it on. -/
structure Text (capacity : Nat) (value : Bytes) : Prop where
  length : value.length < capacity
  valid : valid value = true
  controlFree : controlFree value = true

/-- What the consumers of an accepted configuration may rely on. -/
structure Loaded (N : NetLibrary) (config : OtaConfig) : Prop where
  baseUrlText : Text (otaEndpointMaxBytes + 1) config.baseUrl
  manifestText : Text otaPathCap config.manifestPath
  reportText : Text otaPathCap config.reportPath
  partText : Text otaPathCap config.partFile
  bundleText : Text otaPathCap config.bundleFile
  connectTimeoutSec : 1 ≤ config.connectTimeoutSec ∧ config.connectTimeoutSec ≤ int32Max
  requestTimeoutSec : 1 ≤ config.requestTimeoutSec ∧ config.requestTimeoutSec ≤ int32Max
  healthTimeoutSec : 1 ≤ config.healthTimeoutSec ∧ config.healthTimeoutSec ≤ int32Max
  baseUrl : baseUrlValid N config.baseUrl = true
  manifestPath : serverPath config.manifestPath = true
  reportPath : serverPath config.reportPath = true
  stateDir : absoluteClean config.stateDir = true
  partFile : buildFilename config.stateDir (ascii "update.raucb.part") = config.partFile
  bundleFile : buildFilename config.stateDir (ascii "update.raucb") = config.bundleFile

private theorem text_of_readString {file : KeyFile} {group key value : Bytes} {capacity : Nat}
    {optional : Bool} (hcapacity : 0 < capacity)
    (h : readString file group key capacity optional = some value) : Text capacity value := by
  unfold readString at h
  split at h
  · cases h
    exact ⟨hcapacity, rfl, rfl⟩
  · obtain ⟨_, hchecks⟩ := Option.filter_eq_some_iff.mp h
    simp only [Bool.and_eq_true, decide_eq_true_eq] at hchecks
    exact ⟨hchecks.1.1.1, hchecks.1.2, hchecks.2⟩

/-- A number that is read lies within its bounds. -/
private theorem range_of_readNumber {file : KeyFile} {group key : Bytes}
    {minimum maximum number : Nat}
    (h : readNumber file group key minimum maximum = some number) :
    minimum ≤ number ∧ number ≤ maximum := by
  obtain ⟨value, _, hnumber⟩ := Option.bind_eq_some_iff.mp h
  simp only at hnumber
  split at hnumber
  · rename_i hchecks
    cases hnumber
    simp only [Bool.and_eq_true, decide_eq_true_eq] at hchecks
    exact ⟨hchecks.1.2, hchecks.2⟩
  · cases hnumber

/-- Fields that were read and passed their checks make a loaded configuration. -/
private theorem loaded_of_fields {N : NetLibrary} {file : KeyFile} {config : OtaConfig}
    (h : readFields file = some config) (hvalid : fieldsValid N config = true) :
    Loaded N config := by
  obtain ⟨_, hbaseUrl, h⟩ := Option.bind_eq_some_iff.mp h
  obtain ⟨_, hmanifest, h⟩ := Option.bind_eq_some_iff.mp h
  obtain ⟨_, hreport, h⟩ := Option.bind_eq_some_iff.mp h
  obtain ⟨_, -, h⟩ := Option.bind_eq_some_iff.mp h
  obtain ⟨_, hconnect, h⟩ := Option.bind_eq_some_iff.mp h
  obtain ⟨_, hrequest, h⟩ := Option.bind_eq_some_iff.mp h
  obtain ⟨_, -, h⟩ := Option.bind_eq_some_iff.mp h
  obtain ⟨_, -, h⟩ := Option.bind_eq_some_iff.mp h
  obtain ⟨_, -, h⟩ := Option.bind_eq_some_iff.mp h
  obtain ⟨_, hpart, h⟩ := Option.bind_eq_some_iff.mp h
  obtain ⟨_, hbundle, h⟩ := Option.bind_eq_some_iff.mp h
  obtain ⟨_, -, h⟩ := Option.bind_eq_some_iff.mp h
  obtain ⟨_, -, h⟩ := Option.bind_eq_some_iff.mp h
  obtain ⟨_, -, h⟩ := Option.bind_eq_some_iff.mp h
  obtain ⟨_, -, h⟩ := Option.bind_eq_some_iff.mp h
  obtain ⟨_, hhealth, h⟩ := Option.bind_eq_some_iff.mp h
  obtain ⟨_, -, h⟩ := Option.bind_eq_some_iff.mp h
  cases h
  simp only [fieldsValid, childIs, Bool.and_eq_true, beq_iff_eq] at hvalid
  obtain ⟨⟨⟨⟨⟨⟨⟨⟨⟨⟨hurl, hmanifestPath⟩, hreportPath⟩, hstateDir⟩, _⟩, _⟩, _⟩, _⟩, hpartFile⟩,
    hbundleFile⟩, _⟩ := hvalid
  exact
    { baseUrlText := text_of_readString (by decide) hbaseUrl
      manifestText := text_of_readString (by decide) hmanifest
      reportText := text_of_readString (by decide) hreport
      partText := text_of_readString (by decide) hpart
      bundleText := text_of_readString (by decide) hbundle
      connectTimeoutSec := range_of_readNumber hconnect
      requestTimeoutSec := range_of_readNumber hrequest
      healthTimeoutSec := range_of_readNumber hhealth
      baseUrl := hurl
      manifestPath := hmanifestPath
      reportPath := hreportPath
      stateDir := hstateDir
      partFile := hpartFile
      bundleFile := hbundleFile }

/-- Whatever the loader returns is a loaded configuration. -/
theorem loaded_of_otaConfigLoad {load : KeyFileParser} {N : NetLibrary} {fault : Option OtaError}
    {file : Option Bytes} {path : Bytes} {config : OtaConfig}
    (h : otaConfigLoad load N fault file path = .ok config) : Loaded N config := by
  simp only [otaConfigLoad] at h
  split at h
  · split at h
    · rename_i hconfig
      cases h
      unfold configOfText at hconfig
      split at hconfig
      · cases hconfig
      · split at hconfig
        · cases hconfig
        · split at hconfig
          · obtain ⟨hfields, hvalid⟩ := Option.filter_eq_some_iff.mp hconfig
            exact loaded_of_fields hfields hvalid
          · cases hconfig
    · cases h
  · cases h

/-! ## Base URLs -/

/-- A scheme, a host and perhaps a port; `literal` hosts stand in brackets. -/
structure Server where
  scheme : Bytes
  literal : Bool
  host : Bytes
  port : Option Bytes

def Server.hostText (server : Server) : Bytes :=
  if server.literal then 0x5b :: (server.host ++ [0x5d]) else server.host

def Server.text (server : Server) : Bytes :=
  server.scheme ++ ascii "://" ++ server.hostText ++ portText server.port

/-- The servers that the loader accepts. -/
structure Server.Accepted (N : NetLibrary) (server : Server) : Prop where
  scheme : isHttp server.scheme = true
  percent : 0x25 ∉ server.host
  host : if server.literal then N.hostnameIsIpAddress server.host = true ∧ 0x3a ∈ server.host
    else server.host ≠ [] ∧ server.host.all isNameByte = true
  port : ∀ digits, server.port = some digits → portOk digits = true

private theorem port_of_afterHost {after : Bytes} (h : afterHost after = true) :
    ∃ port, after = portText port ∧ ∀ digits, port = some digits → portOk digits = true := by
  cases after with
  | nil => exact ⟨none, rfl, by simp⟩
  | cons colon digits =>
      simp only [afterHost, Bool.and_eq_true, beq_iff_eq] at h
      obtain ⟨rfl, hport⟩ := h
      refine ⟨some digits, rfl, ?_⟩
      rintro _ ⟨⟩
      exact hport

private theorem percent_not_mem {authority : Bytes}
    (h : hasAny (ascii "/@?#\\% ") authority = false) : (0x25 : UInt8) ∉ authority := by
  intro hmem
  have hbyte := List.any_eq_false.mp h 0x25 hmem
  exact hbyte (by decide)

/-- An authority that is accepted is that of a server. -/
private theorem server_of_authority {N : NetLibrary} {scheme authority : Bytes}
    (hscheme : isHttp scheme = true) (h : authorityValid N authority = true) :
    ∃ server : Server, server.Accepted N ∧ scheme ++ ascii "://" ++ authority = server.text := by
  simp only [authorityValid, Bool.and_eq_true, Bool.not_eq_true'] at h
  obtain ⟨⟨_, hany⟩, h⟩ := h
  have hpercent := percent_not_mem hany
  split at h
  · rename_i hhead
    obtain ⟨rest, rfl⟩ : ∃ rest, authority = 0x5b :: rest := by
      cases authority with
      | nil => simp at hhead
      | cons b rest => exact ⟨rest, by simpa using hhead⟩
    split at h
    · cases h
    · rename_i host after hbreak
      obtain ⟨hrest, hbracket⟩ := breakOn_byte_some hbreak
      simp only [List.tail_cons] at hrest
      simp only [Bool.and_eq_true, List.contains_iff_mem] at h
      obtain ⟨port, rfl, hport⟩ := port_of_afterHost h.2
      refine ⟨⟨scheme, true, host, port⟩,
        ⟨hscheme, fun hmem => hpercent ?_, ⟨h.1.2, h.1.1⟩, hport⟩, ?_⟩
      · simp only [hrest]
        exact List.mem_cons_of_mem _ (List.mem_append_left _ hmem)
      · simp [Server.text, Server.hostText, hrest]
  · simp only [Bool.and_eq_true, decide_eq_true_eq] at h
    obtain ⟨port, hafter, hport⟩ := port_of_afterHost h.2
    refine ⟨⟨scheme, false, authority.takeWhile (· != 0x3a), port⟩,
      ⟨hscheme, fun hmem => hpercent (List.takeWhile_subset _ hmem), ⟨?_, h.1.2⟩, hport⟩, ?_⟩
    · intro hnil
      have hlength := h.1.1.1
      rw [show authority.takeWhile (· != 0x3a) = [] from hnil, List.length_nil] at hlength
      omega
    · simp only [Server.text, Server.hostText, Bool.false_eq_true, if_false]
      rw [← hafter, List.append_assoc _ (authority.takeWhile _), List.takeWhile_append_dropWhile]

/-- A base URL that the loader accepts is the text of a server. -/
theorem server_of_baseUrlValid {N : NetLibrary} {url : Bytes} (h : baseUrlValid N url = true) :
    ∃ server : Server, server.Accepted N ∧ url = server.text := by
  unfold baseUrlValid at h
  split at h
  · rename_i hstart
    obtain ⟨authority, rfl⟩ := List.isPrefixOf_iff_prefix.mp hstart
    exact server_of_authority (by decide : isHttp (ascii "http") = true) h
  · split at h
    · rename_i hstart
      obtain ⟨authority, rfl⟩ := List.isPrefixOf_iff_prefix.mp hstart
      exact server_of_authority (by decide : isHttp (ascii "https") = true) h
    · cases h

end EdgeGuard.Agent.Config
