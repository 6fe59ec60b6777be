import EdgeGuard.Agent.Config
import EdgeGuard.Agent.Download
import EdgeGuard.Agent.Services
import EdgeGuard.Base.JsonReader
import EdgeGuard.Provisioning.Store
import EdgeGuard.Provisioning.Endpoint

/-!
# The consumers of the configuration

The functions that check the values of the configuration a second time:
`ota_control_idle_wait`, `ota_health_check`, `ota_runtime_endpoint_refresh`,
`ota_http_open` and `ota_download_bundle`.  Their bounds are not the loader's.

## Main results

* `canonicalize_server` — when the endpoint reader leaves a base URL that the
  loader accepts as it is.
* `consumers_accept_iff` — exactly which accepted configurations pass all
  consumers.
-/

namespace EdgeGuard.Agent.ConfigConsumers

open EdgeGuard.Base EdgeGuard.Base.CText EdgeGuard.Base.Utf8 EdgeGuard.Base.Json
open EdgeGuard.Base.Uri EdgeGuard.Base.Ini
open EdgeGuard.Agent.Model EdgeGuard.Agent.Identity EdgeGuard.Agent.Release
open EdgeGuard.Agent.Services EdgeGuard.Agent.Download EdgeGuard.Agent.Config
open EdgeGuard.Provisioning.Model EdgeGuard.Provisioning.Endpoint
open EdgeGuard.Provisioning.Store (ReadStep)

/-! ## The idle wait -/

/-- The fields of `OtaControl` that the waiting thread shares with the server
thread. -/
structure OtaControl where
  stopping : Bool
  signalStopping : Bool
  idleEligible : Bool
  pending : Bool
  deriving DecidableEq, Repr

/-- What happens around one wait: the signal flag, the answer of `poll` for a
number of milliseconds (`false` is a failure other than `EINTR`), and what the
server thread does between the two sections under the lock. -/
structure WaitIo where
  stopping : Bool
  poll : Nat → Bool
  server : OtaControl → OtaControl

/-- `control_error`. -/
def controlError (message : Bytes) : OtaError := otaErrorSet .configInvalid message

/-- `ota_control_idle_wait`. -/
def otaControlIdleWait (timeoutSec : Nat) (io : WaitIo) (control : OtaControl) :
    OtaControl × Except OtaError Bool :=
  if int32Max / 1000 < timeoutSec then
    (control, .error (controlError (ascii "Control wait arguments are invalid")))
  else
    let waiting := { control with
      idleEligible := !control.stopping && !control.signalStopping && !io.stopping }
    if !(control.pending || io.poll (timeoutSec * 1000)) then
      (io.server waiting, .error (controlError (ascii "Control wait failed")))
    else
      let woken := io.server waiting
      ({ woken with idleEligible := false, pending := false }, .ok woken.pending)

/-! ## The runtime endpoint -/

/-- `read_runtime`: `none` is a missing file, an error the diagnostic. -/
def readRuntime (fault : Option ReadStep) (file : Option Provisioning.Store.File) :
    Except Bytes (Option Bytes) :=
  if fault = some .opening then
    .error (ascii "Runtime endpoint override could not be opened")
  else
    match file with
    | none => .ok none
    | some file =>
        if fault = some .metadata || !file.privateRegular || file.data.isEmpty ||
            egpStoreMaxBytes < file.data.length then
          .error (ascii "Runtime endpoint override metadata is invalid")
        else if fault = some .reading || fault = some .closing then
          .error (ascii "Runtime endpoint override read failed")
        else .ok (some file.data)

/-- The configuration of one cycle, whether the override is active, and the
diagnostic. -/
structure CycleConfig where
  config : OtaConfig
  overrideActive : Bool
  diagnostic : OtaError

/-- `ota_runtime_endpoint_refresh`. -/
def otaRuntimeEndpointRefresh (J : JsonParser) (N : NetLibrary) (fault : Option ReadStep)
    (file : Option Provisioning.Store.File) (config : OtaConfig) : Except OtaError CycleConfig :=
  let diagnosed := fun message =>
    .ok ⟨config, false, otaErrorSet .endpointConfigInvalid message⟩
  if (egpEndpointCanonicalize N config.baseUrl).toOption != some config.baseUrl then
    .error (otaErrorSet .configInvalid
      (ascii "Immutable endpoint default is invalid or non-canonical"))
  else
    match readRuntime fault file with
    | .error message => diagnosed message
    | .ok none => .ok ⟨config, false, .zero⟩
    | .ok (some data) =>
        match egpRuntimeParseJson J N data with
        | .error _ =>
            diagnosed (ascii "Runtime endpoint override is invalid; immutable default selected")
        | .ok runtime =>
            if otaEndpointMaxBytes < runtime.otaServerBaseUrl.length then
              diagnosed (ascii "Runtime endpoint override exceeds Agent capacity")
            else .ok ⟨{ config with baseUrl := runtime.otaServerBaseUrl }, true, .zero⟩

/-! ## Acceptance -/

/-- Every consumer accepts the configuration: with the system answering well, the
wait ends, a healthy candidate passes, the endpoint is refreshed, both requests
open, and the download gets past its paths. -/
structure Accepts (J : JsonParser) (N : NetLibrary) (config : OtaConfig) : Prop where
  idleWait : ∀ io control, (∀ ms, io.poll ms = true) →
    ∃ requested, (otaControlIdleWait config.pollIntervalSec io control).2 = .ok requested
  health : ∀ expected, expected = .a ∨ expected = .b →
    (otaHealthCheck config.healthTimeoutSec expected (.ok expected) (.ok ())).2 = .ok ()
  endpoint : ∀ fault file, ∃ cycle,
    otaRuntimeEndpointRefresh J N fault file config = .ok cycle
  manifest : ∀ code, otaHttpOpen true config config.manifestPath code =
    .ok (config.baseUrl ++ config.manifestPath)
  report : ∀ code, otaHttpOpen true config config.reportPath code =
    .ok (config.baseUrl ++ config.reportPath)
  download : downloadPaths config = .ok ()

/-! ## The text of a server -/

/-- The bytes of an accepted base URL. -/
def isUrlByte (b : UInt8) : Bool :=
  isNameByte b || isAddressByte b || b == 0x2f || b == 0x5b || b == 0x5d

theorem isUrlByte_spec {b : UInt8} (h : isUrlByte b = true) :
    (b ≠ 0 ∧ b < 0x80) ∧ 0x20 < b ∧ b < 0x7f ∧ b ≠ 0x25 ∧ b ≠ 0x5c := by
  simp only [isUrlByte, isNameByte, isAddressByte, isAlnum, isXDigit, isLowerHex, isDigit,
    Bool.or_eq_true, Bool.and_eq_true, decide_eq_true_eq, beq_iff_eq, UInt8.le_iff_toNat_le,
    ← UInt8.toNat_inj, UInt8.reduceToNat] at h
  simp only [ne_eq, ← UInt8.toNat_inj, UInt8.lt_iff_toNat_lt, UInt8.reduceToNat]
  omega

private theorem isUrlByte_of_name {b : UInt8} (h : isNameByte b = true) :
    isUrlByte b = true := by simp [isUrlByte, h]

private theorem isUrlByte_of_address {b : UInt8} (h : isAddressByte b = true) :
    isUrlByte b = true := by simp [isUrlByte, h]

/-- The bytes behind the scheme hold no separator of a path or query. -/
private theorem not_separator {b : UInt8}
    (h : isNameByte b = true ∨ isAddressByte b = true ∨ b = 0x5b ∨ b = 0x5d) :
    (ascii "/?#").contains b = false := by
  have hbyte : b ≠ 0x2f ∧ b ≠ 0x3f ∧ b ≠ 0x23 := by
    simp only [isNameByte, isAddressByte, isAlnum, isXDigit, isLowerHex, isDigit,
      Bool.or_eq_true, Bool.and_eq_true, decide_eq_true_eq, beq_iff_eq, UInt8.le_iff_toNat_le,
      ← UInt8.toNat_inj, UInt8.reduceToNat] at h
    simp only [ne_eq, ← UInt8.toNat_inj, UInt8.reduceToNat]
    omega
  rw [show ascii "/?#" = [0x2f, 0x3f, 0x23] from by decide]
  simp [hbyte.1, hbyte.2.1, hbyte.2.2]

variable {J : JsonParser} {N : NetLibrary} {server : Server}

theorem digits_of_port {digits : Bytes} (h : portOk digits = true) :
    digits ≠ [] ∧ digits.all isDigit = true ∧ decimalValue 0 digits ≠ 0 ∧
      decimalValue 0 digits ≤ 65535 := by
  simp only [portOk, Bool.and_eq_true, Bool.not_eq_true', decide_eq_true_eq, bne_iff_ne,
    List.isEmpty_eq_false_iff] at h
  exact ⟨h.1.1.1.1, h.1.1.2, h.1.2, h.2⟩

theorem hostBytes (h : server.Accepted N) :
    ∀ b ∈ server.host, isNameByte b = true ∨ isAddressByte b = true := by
  intro b hb
  have hhost := h.host
  split at hhost
  · exact .inr (List.all_eq_true.mp (N.address_bytes _ hhost.1 h.percent) b hb)
  · exact .inl (List.all_eq_true.mp hhost.2 b hb)

theorem portBytes (h : server.Accepted N) :
    ∀ digits, server.port = some digits → digits.all isDigit = true :=
  fun digits hport => (digits_of_port (h.port digits hport)).2.1

/-- The bytes of the host, its brackets and the port. -/
theorem authorityBytes
    (hhost : ∀ b ∈ server.host, isNameByte b = true ∨ isAddressByte b = true)
    (hport : ∀ digits, server.port = some digits → digits.all isDigit = true) :
    ∀ b ∈ server.hostText ++ portText server.port,
      isNameByte b = true ∨ isAddressByte b = true ∨ b = 0x5b ∨ b = 0x5d := by
  intro b hb
  rcases List.mem_append.mp hb with hb | hb
  · unfold Server.hostText at hb
    split at hb
    · simp only [List.mem_cons, List.mem_append, List.not_mem_nil, or_false] at hb
      rcases hb with rfl | hb | rfl
      · exact .inr (.inr (.inl rfl))
      · rcases hhost b hb with hn | ha
        · exact .inl hn
        · exact .inr (.inl ha)
      · exact .inr (.inr (.inr rfl))
    · rcases hhost b hb with hn | ha
      · exact .inl hn
      · exact .inr (.inl ha)
  · cases hdigits : server.port with
    | none => simp [hdigits, portText] at hb
    | some digits =>
        simp only [hdigits, portText, List.mem_cons] at hb
        rcases hb with rfl | hb
        · exact .inr (.inl (by decide))
        · have hdigit := List.all_eq_true.mp (hport digits hdigits) b hb
          exact .inl (by simp [isNameByte, isAlnum, hdigit])

/-- The text of a server is made of the bytes of URLs. -/
theorem urlBytes (hscheme : isHttp server.scheme = true)
    (hhost : ∀ b ∈ server.host, isNameByte b = true ∨ isAddressByte b = true)
    (hport : ∀ digits, server.port = some digits → digits.all isDigit = true) :
    ∀ b ∈ server.text, isUrlByte b = true := by
  intro b hb
  rw [Server.text, List.append_assoc, List.mem_append] at hb
  rcases hb with hb | hb
  · simp only [isHttp, Bool.or_eq_true, beq_iff_eq] at hscheme
    have hfront : ∀ scheme ∈ [ascii "http", ascii "https"],
        (scheme ++ ascii "://").all isUrlByte = true := by decide
    refine List.all_eq_true.mp (hfront server.scheme ?_) b hb
    rcases hscheme with hs | hs
    · simp [hs]
    · simp [hs]
  · rcases authorityBytes hhost hport b hb with hn | ha | rfl | rfl
    · exact isUrlByte_of_name hn
    · exact isUrlByte_of_address ha
    · decide
    · decide

private theorem text_ne_nil (server : Server) : server.text ≠ [] := by
  have hsep : ascii "://" ≠ [] := by decide
  simp [Server.text, hsep]

/-- The text of an accepted server passes the first check of the canonicalizer. -/
private theorem endpointTextOk_server (h : server.Accepted N)
    (hlength : server.text.length ≤ egpEndpointMaxBytes) :
    endpointTextOk server.text = true := by
  have hbytes := fun b hb => isUrlByte_spec (urlBytes h.scheme (hostBytes h) (portBytes h) b hb)
  have hascii : ∀ b ∈ server.text, b ≠ 0 ∧ b < 0x80 := fun b hb => (hbytes b hb).1
  have hforbidden : hasForbiddenCharacter server.text = false := by
    rw [hasForbiddenCharacter, unichars_of_ascii hascii, List.any_eq_false]
    intro ch hch
    obtain ⟨b, hb, rfl⟩ := List.mem_map.mp hch
    obtain ⟨_, hlow, hhigh, _⟩ := hbytes b hb
    have hlow : 0x20 < b.toNat := UInt8.lt_iff_toNat_lt.mp hlow
    have hhigh : b.toNat < 0x7f := UInt8.lt_iff_toNat_lt.mp hhigh
    simp [unicharIsCntrl, unicharIsSpace]
    omega
  have hpercent : (0x25 : UInt8) ∉ server.text := fun hm => (hbytes _ hm).2.2.2.1 rfl
  have hbackslash : (0x5c : UInt8) ∉ server.text := fun hm => (hbytes _ hm).2.2.2.2 rfl
  simp [endpointTextOk, text_ne_nil server, hlength, valid_of_ascii hascii, hforbidden,
    hpercent, hbackslash]

/-- The authority of a server does not end with a colon. -/
private theorem last_of_authority (h : server.Accepted N) :
    (server.hostText ++ portText server.port).getLast? ≠ some 0x3a := by
  cases hport : server.port with
  | some digits =>
      obtain ⟨hne, hdigits, _⟩ := digits_of_port (h.port digits hport)
      simp only [portText]
      rw [show server.hostText ++ 0x3a :: digits = (server.hostText ++ [0x3a]) ++ digits from by
        simp, List.getLast?_append_of_ne_nil _ hne]
      intro hlast
      exact absurd (List.all_eq_true.mp hdigits _ (List.mem_of_getLast? hlast)) (by decide)
  | none =>
      simp only [portText, List.append_nil, Server.hostText]
      have hhost := h.host
      split at hhost
      · rename_i hliteral
        rw [if_pos hliteral, ← List.cons_append, List.getLast?_concat]
        decide
      · rename_i hliteral
        simp only [hliteral]
        intro hlast
        exact absurd (List.all_eq_true.mp hhost.2 _ (List.mem_of_getLast? hlast)) (by decide)

private theorem hostText_ne_nil (h : server.Accepted N) : server.hostText ≠ [] := by
  have hhost := h.host
  unfold Server.hostText
  split at hhost
  · rename_i hliteral
    simp [hliteral]
  · rename_i hliteral
    simpa [hliteral] using hhost.1

/-- The text of an accepted server passes the check of its authority. -/
private theorem authorityOk_server (h : server.Accepted N) :
    authorityOk server.text = true := by
  have hwhole : (server.hostText ++ portText server.port).takeWhile
      (fun b => !(ascii "/?#").contains b) = server.hostText ++ portText server.port := by
    refine List.takeWhile_eq_self_iff.mpr fun b hb => ?_
    rw [not_separator (authorityBytes (hostBytes h) (portBytes h) b hb)]
    rfl
  have hscheme : server.scheme ≠ [] := by
    have hs := h.scheme
    rintro heq
    rw [heq] at hs
    exact absurd hs (by decide)
  rw [authorityOk, Server.text, List.append_assoc, breakOn_scheme h.scheme]
  simp only [hwhole, Bool.and_eq_true, Bool.not_eq_true', bne_iff_ne, ne_eq,
    List.isEmpty_eq_false_iff]
  refine ⟨⟨hscheme, fun hnil => ?_⟩, last_of_authority h⟩
  exact hostText_ne_nil h (List.append_eq_nil_iff.mp hnil).1

private theorem portDigits_of_portOk {digits : Bytes} (h : portOk digits = true) :
    portDigits digits = true := by
  obtain ⟨hne, hdigits, _, hmax⟩ := digits_of_port h
  simp [portDigits, hne, hdigits, hmax]

/-- GLib takes a server's text apart as it was put together. -/
private theorem uriParse_server (h : server.Accepted N) :
    N.uriParse server.text =
      some (.server server.scheme server.host (server.port.map (decimalValue 0))) := by
  have hport : ∀ digits, server.port = some digits → portDigits digits = true :=
    fun digits hd => portDigits_of_portOk (h.port digits hd)
  have hhost := h.host
  unfold Server.text Server.hostText
  split at hhost
  · rename_i hliteral
    rw [if_pos hliteral]
    exact N.uriParse_literal _ _ _ h.scheme hhost.1 hhost.2 h.percent hport
  · rename_i hliteral
    rw [if_neg hliteral]
    exact N.uriParse_name _ _ _ h.scheme hhost.1 hhost.2 hport

private theorem strdown_scheme {scheme : Bytes} (h : isHttp scheme = true) :
    strdown scheme = scheme := by
  simp only [isHttp, Bool.or_eq_true, beq_iff_eq] at h
  rcases h with rfl | rfl
  · decide
  · decide

/-- The parts of an accepted server pass the checks on parts. -/
private theorem uriPartsOk_server (h : server.Accepted N) :
    uriPartsOk (.server server.scheme server.host (server.port.map (decimalValue 0))) = true := by
  simp only [uriPartsOk, Parts.server, strdown_scheme h.scheme, h.scheme, Option.isNone_none,
    List.isEmpty_nil, Bool.true_or, Bool.and_true, Bool.true_and]
  cases hport : server.port with
  | none => rfl
  | some digits =>
      obtain ⟨_, _, hzero, hmax⟩ := digits_of_port (h.port digits hport)
      simp [hzero, hmax]

/-- A host that is not an address is not in brackets. -/
private theorem literal_of_colon (h : server.Accepted N) :
    server.literal = true ↔ 0x3a ∈ server.host := by
  have hhost := h.host
  split at hhost
  · rename_i hliteral
    simp [hliteral, hhost.2]
  · rename_i hliteral
    simp only [Bool.not_eq_true] at hliteral
    simp only [hliteral, Bool.false_eq_true, false_iff]
    intro hmem
    exact absurd (List.all_eq_true.mp hhost.2 _ hmem) (by decide)

private theorem host_ne_nil (h : server.Accepted N) : server.host ≠ [] := by
  have hhost := h.host
  split at hhost
  · exact List.ne_nil_of_mem hhost.2
  · exact hhost.1

/-- Of the host the canonicalizer asks for more than the loader did. -/
private theorem hostOk_server (h : server.Accepted N) :
    hostOk N server.text server.host =
      (N.hostnameIsIpAddress server.host ||
        (!numericDotted server.host && dnsNameValid server.host)) := by
  have hpercent : server.host.contains 0x25 = false := by simpa using h.percent
  have hempty : server.host.isEmpty = false := by simpa using host_ne_nil h
  rw [hostOk, hpercent, hempty]
  cases hip : N.hostnameIsIpAddress server.host with
  | false => simp
  | true =>
      cases hcolon : server.host.contains 0x3a with
      | false => simp
      | true =>
          have hliteral : server.literal = true :=
            (literal_of_colon h).mpr (List.contains_iff_mem.mp hcolon)
          simp only [Bool.not_false, Bool.not_true, Bool.true_and, if_true, Bool.false_or,
            Bool.true_or]
          rw [rawIpv6WasBracketed, Server.text, List.append_assoc, breakOn_scheme h.scheme]
          simp [Server.hostText, hliteral]

/-! ## Canonical servers -/

/-- How the endpoint reader spells a server: an address as GLib prints it, a name
in lower case that is a DNS name, and a port without leading zeros that the
scheme does not imply. -/
structure CanonicalServer (N : NetLibrary) (server : Server) : Prop where
  host : if N.hostnameIsIpAddress server.host then
      (N.inetAddressText server.host).getD (strdown server.host) = server.host
    else strdown server.host = server.host ∧ numericDotted server.host = false ∧
      dnsNameValid server.host = true
  port : ∀ digits, server.port = some digits →
    digits.head? ≠ some 0x30 ∧ defaultPort server.scheme (some (decimalValue 0 digits)) = false

/-- A port is printed as it was written unless it was written with a zero in front. -/
private theorem decimal_port_iff {digits : Bytes} (h : portOk digits = true) :
    decimal (decimalValue 0 digits) = digits ↔ digits.head? ≠ some 0x30 := by
  obtain ⟨hne, hdigits, hzero, _⟩ := digits_of_port h
  refine ⟨fun heq hhead => ?_, fun hhead => (decimal_decimalValue hne hdigits hhead).2⟩
  cases digits with
  | nil => exact hne rfl
  | cons b rest =>
      have hb : b = 0x30 := by simpa using hhead
      subst hb
      -- a text with a leading zero would have to be the text of zero
      have hrest := decimal_leading _ heq
      rw [hrest] at hzero
      exact hzero (by decide)

/-- The port is printed as it was unless it has a zero in front or is the default of the
scheme. -/
private theorem port_text_iff (h : server.Accepted N) :
    (if defaultPort server.scheme (server.port.map (decimalValue 0)) then []
      else portText ((server.port.map (decimalValue 0)).map decimal)) = portText server.port ↔
    ∀ digits, server.port = some digits →
      digits.head? ≠ some 0x30 ∧
        defaultPort server.scheme (some (decimalValue 0 digits)) = false := by
  cases hport : server.port with
  | none => simp [defaultPort, portText]
  | some digits =>
      simp only [Option.map_some, Option.some.injEq, forall_eq']
      rw [← decimal_port_iff (h.port digits hport)]
      split
      · rename_i hdefault
        simp [portText, hdefault]
      · rename_i hdefault
        simp [portText, hdefault]

/-- The host as it is printed keeps clear of the separators behind it. -/
private theorem canonicalHost_bytes (h : server.Accepted N) :
    0x5d ∉ canonicalHost N server.host ∧
      (0x3a ∈ canonicalHost N server.host → 0x3a ∈ server.host) := by
  have hdown : 0x5d ∉ strdown server.host ∧
      (0x3a ∈ strdown server.host → 0x3a ∈ server.host) := by
    constructor
    · intro hmem
      obtain ⟨b, hb, hbc⟩ := List.mem_map.mp hmem
      rw [(toLower_eq_iff (by decide)).mp hbc] at hb
      rcases hostBytes h _ hb with hn | ha
      · exact absurd hn (by decide)
      · exact absurd ha (by decide)
    · intro hmem
      obtain ⟨b, hb, hbc⟩ := List.mem_map.mp hmem
      rwa [(toLower_eq_iff (by decide)).mp hbc] at hb
  unfold canonicalHost
  split
  · rename_i hip
    cases htext : N.inetAddressText server.host with
    | none => exact hdown
    | some text =>
        obtain ⟨hbytes, hcolon⟩ := N.address_text _ _ hip htext h.percent
        refine ⟨fun hmem => ?_, hcolon.mp⟩
        exact absurd (List.all_eq_true.mp hbytes _ hmem) (by decide)
  · exact hdown

private theorem portText_split {a a' : Bytes} {p p' : Option Bytes} (ha : 0x3a ∉ a)
    (ha' : 0x3a ∉ a') (h : a ++ portText p = a' ++ portText p') :
    a = a' ∧ portText p = portText p' := by
  have hcolon : ∀ {x y digits : Bytes}, 0x3a ∉ x → x ≠ y ++ 0x3a :: digits := by
    rintro x y digits hx rfl
    exact hx (by simp)
  cases p with
  | none =>
      cases p' with
      | none => exact ⟨by simpa [portText] using h, rfl⟩
      | some digits' => exact absurd (by simpa [portText] using h) (hcolon ha)
  | some digits =>
      cases p' with
      | none => exact absurd (by simpa [portText] using h.symm) (hcolon ha')
      | some digits' =>
          obtain ⟨rfl, rfl⟩ := append_cons_inj ha ha' h
          exact ⟨rfl, rfl⟩

private theorem if_portText (c : Bool) (p : Option Bytes) :
    (if c then [] else portText p) = portText (if c then none else p) := by
  cases c <;> rfl

/-- The canonical text is the server's own when its host and its port are. -/
private theorem canonicalUri_eq_iff (h : server.Accepted N) :
    canonicalUri N server.scheme server.host (server.port.map (decimalValue 0)) = server.text ↔
      canonicalHost N server.host = server.host ∧
        (if defaultPort server.scheme (server.port.map (decimalValue 0)) then []
          else portText ((server.port.map (decimalValue 0)).map decimal)) =
            portText server.port := by
  obtain ⟨hbracket, hcolon⟩ := canonicalHost_bytes h
  have hhost := h.host
  simp only [canonicalUri, Server.text, Server.hostText, List.append_assoc,
    List.append_cancel_left_eq, if_portText]
  cases hliteral : server.literal with
  | true =>
      simp only [hliteral, if_true] at hhost
      have hmem : server.host.contains 0x3a = true := List.contains_iff_mem.mpr hhost.2
      have hself : (0x5d : UInt8) ∉ server.host := by
        intro hm
        exact absurd (List.all_eq_true.mp (N.address_bytes _ hhost.1 h.percent) _ hm) (by decide)
      simp only [hhost.1, hmem, Bool.and_self, if_true, List.cons_append, List.append_assoc,
        List.nil_append, List.cons.injEq, true_and]
      constructor
      · exact fun heq => append_cons_inj hbracket hself heq
      · rintro ⟨hh, hp⟩
        rw [hh, hp]
  | false =>
      have hself : (0x3a : UInt8) ∉ server.host := fun hm => by
        rw [(literal_of_colon h).mpr hm] at hliteral
        cases hliteral
      have hmem : server.host.contains 0x3a = false := by simpa using hself
      simp only [hmem, Bool.and_false, Bool.false_eq_true, if_false]
      constructor
      · exact fun heq => portText_split (fun hm => hself (hcolon hm)) hself heq
      · rintro ⟨hh, hp⟩
        rw [hh, hp]

/-- The canonicalizer returns the server's own text exactly when it is canonical. -/
theorem canonicalize_server (h : server.Accepted N)
    (hlength : server.text.length ≤ egpEndpointMaxBytes) :
    (egpEndpointCanonicalize N server.text).toOption = some server.text ↔
      CanonicalServer N server := by
  have hcanonical := canonicalUri_eq_iff h
  rw [port_text_iff h] at hcanonical
  have hexpand : (egpEndpointCanonicalize N server.text).toOption = some server.text ↔
      hostOk N server.text server.host = true ∧
        canonicalUri N server.scheme server.host (server.port.map (decimalValue 0)) =
          server.text := by
    unfold egpEndpointCanonicalize
    simp only [endpointTextOk_server h hlength, authorityOk_server h, uriParse_server h,
      Bool.not_true, Bool.or_self, Bool.false_eq_true, if_false, uriPartsOk_server h,
      Bool.false_or]
    simp only [Parts.server, strdown_scheme h.scheme]
    cases hostOk N server.text server.host with
    | false => simp [Except.toOption]
    | true =>
        simp only [Bool.not_true, Bool.false_eq_true, if_false, true_and]
        split
        · simp [Except.toOption]
        · rename_i hlong
          simp only [Except.toOption, reduceCtorEq, false_iff]
          intro heq
          rw [heq] at hlong
          exact hlong hlength
  rw [hexpand, hcanonical, hostOk_server h]
  unfold canonicalHost
  cases hip : N.hostnameIsIpAddress server.host with
  | true =>
      simp only [Bool.true_or, true_and, if_true]
      exact ⟨fun ⟨hh, hp⟩ => ⟨by simpa [hip] using hh, hp⟩,
        fun hc => ⟨by simpa [hip] using hc.host, hc.port⟩⟩
  | false =>
      simp only [Bool.false_or, Bool.and_eq_true, Bool.not_eq_true', Bool.false_eq_true, if_false]
      constructor
      · rintro ⟨⟨hdotted, hdns⟩, hh, hp⟩
        exact ⟨by simpa [hip] using ⟨hh, hdotted, hdns⟩, hp⟩
      · intro hc
        have hhost := hc.host
        simp only [hip, Bool.false_eq_true, if_false] at hhost
        exact ⟨⟨hhost.2.1, hhost.2.2⟩, hhost.1, hc.port⟩

/-! ## The other consumers -/

/-- The wait succeeds on every poll that does not fail exactly when its milliseconds fit an
`int`. -/
private theorem idleWait_iff {timeoutSec : Nat} :
    (∀ io control, (∀ ms, io.poll ms = true) →
      ∃ requested, (otaControlIdleWait timeoutSec io control).2 = .ok requested) ↔
    timeoutSec ≤ int32Max / 1000 := by
  constructor
  · intro h
    obtain ⟨requested, hok⟩ := h ⟨false, fun _ => true, id⟩ ⟨false, false, false, false⟩
      fun _ => rfl
    by_contra hlong
    rw [otaControlIdleWait, if_pos (Nat.lt_of_not_le hlong)] at hok
    cases hok
  · intro hshort io control hpoll
    rw [otaControlIdleWait, if_neg (Nat.not_lt.mpr hshort)]
    simp [hpoll]

/-- The health check can succeed exactly when its milliseconds fit 32 bits. -/
private theorem health_iff {timeoutSec : Nat} (hpos : 1 ≤ timeoutSec) :
    (∀ expected, expected = .a ∨ expected = .b →
      (otaHealthCheck timeoutSec expected (.ok expected) (.ok ())).2 = .ok ()) ↔
    timeoutSec ≤ uint32Max / 1000 := by
  have hzero : (timeoutSec == 0) = false := by
    rw [beq_eq_false_iff_ne]
    omega
  constructor
  · intro h
    have hok := h .a (.inl rfl)
    by_contra hlong
    simp only [otaHealthCheck, hzero, Bool.false_or, decide_eq_true (Nat.lt_of_not_le hlong),
      Bool.true_or, if_true] at hok
    cases hok
  · intro hshort expected hexpected
    have hslot : (expected == .a || expected == .b) = true := by
      rcases hexpected with rfl | rfl
      · decide
      · decide
    simp [otaHealthCheck, hzero, Nat.not_lt.mpr hshort, hslot]

/-- A path that the loader takes is an artifact path. -/
private theorem artifactPath_of_serverPath {path : Bytes} (h : serverPath path = true)
    (htext : Text otaPathCap path) : otaArtifactPathValid path = true := by
  simp only [serverPath, absoluteClean, Bool.and_eq_true, Bool.not_eq_true'] at h
  obtain ⟨⟨⟨⟨⟨hhead, hne⟩, hbackslash⟩, hparts⟩, hdots⟩, hany⟩ := h
  cases path with
  | nil => simp at hhead
  | cons slash rest =>
      cases rest with
      | nil => simp at hne
      | cons second rest =>
          have hslash : slash = 0x2f := by simpa using hhead
          have hsecond : second ≠ 0x2f := by
            rintro rfl
            have hsplit : (0x2f :: rest : Bytes).splitOn 0x2f = [[]] ++ rest.splitOn 0x2f :=
              List.splitOn_append_cons_self [] rest
            simp [hsplit] at hparts
          have hset : hasAny (ascii "\\%:?# ") (slash :: second :: rest) = false := by
            refine List.any_eq_false.mpr fun b hb hcontains => ?_
            have hother := List.any_eq_false.mp hany b hb
            have hb' : b ≠ 0x5c := by
              rintro rfl
              have := List.contains_iff_mem.mpr hb
              rw [this] at hbackslash
              cases hbackslash
            refine hother ?_
            rw [show ascii "\\%:?# " = [0x5c, 0x25, 0x3a, 0x3f, 0x23, 0x20] from by decide]
              at hcontains
            rw [show ascii " ?#%:" = [0x20, 0x3f, 0x23, 0x25, 0x3a] from by decide]
            simp only [List.contains_iff_mem, List.mem_cons, List.not_mem_nil, or_false]
              at hcontains ⊢
            tauto
          simp only [otaArtifactPathValid, Bool.and_eq_true, Bool.not_eq_true', bne_iff_ne,
            beq_iff_eq, decide_eq_true_eq]
          exact ⟨⟨⟨⟨⟨⟨hslash, hsecond⟩, htext.length⟩, htext.valid⟩, hdots⟩, hset⟩,
            htext.controlFree⟩

/-- The URL of a loaded configuration is its base and the path. -/
private theorem otaHttpOpen_loaded {config : OtaConfig} (h : Loaded N config) {path : Bytes}
    (hserver : serverPath path = true) (htext : Text otaPathCap path) (code : OtaErrorCode) :
    otaHttpOpen true config path code = .ok (config.baseUrl ++ path) := by
  have hpath := artifactPath_of_serverPath hserver htext
  have hbase : config.baseUrl.length < 65 := h.baseUrlText.length
  have hurl : ((ascii "http://").isPrefixOf config.baseUrl ||
      (ascii "https://").isPrefixOf config.baseUrl) = true := by
    have hvalid := h.baseUrl
    unfold baseUrlValid at hvalid
    split at hvalid
    · rename_i hstart
      simp [hstart]
    · split at hvalid
      · rename_i hstart
        simp [hstart]
      · cases hvalid
  have hconnect : config.connectTimeoutSec ≠ 0 := by have := h.connectTimeoutSec.1; omega
  have hrequest : config.requestTimeoutSec ≠ 0 := by have := h.requestTimeoutSec.1; omega
  simp [otaHttpOpen, hpath, hbase, hurl, hconnect, hrequest, h.connectTimeoutSec.2,
    h.requestTimeoutSec.2]

/-- The download finds its paths in every loaded configuration. -/
private theorem downloadPaths_loaded {config : OtaConfig} (h : Loaded N config) :
    downloadPaths config = .ok () := by
  have hdir := h.stateDir
  have hpart := h.partFile
  have hbundle := h.bundleFile
  simp only [absoluteClean, Bool.and_eq_true, Bool.not_eq_true'] at hdir
  obtain ⟨⟨⟨hhead, hne⟩, _⟩, hparts⟩ := hdir
  obtain ⟨rest, hrest⟩ : ∃ rest, config.stateDir = 0x2f :: rest := by
    cases hcase : config.stateDir with
    | nil => simp [hcase] at hhead
    | cons slash rest => exact ⟨rest, by simpa [hcase] using hhead⟩
  rw [hrest] at hne hparts hpart hbundle
  simp only [List.tail_cons, List.isEmpty_eq_false_iff] at hne hparts
  have hclean : (rest.splitOn 0x2f).all (fun part => !part.isEmpty) = true := by
    refine List.all_eq_true.mpr fun part hmem => ?_
    have hpartOk := List.all_eq_true.mp hparts part hmem
    simp only [Bool.and_eq_true] at hpartOk
    exact hpartOk.1.1
  rw [buildFilename_child hne hclean] at hpart hbundle
  have hpartLength := h.partText.length
  have hbundleLength := h.bundleText.length
  have hdiffer : config.partFile ≠ config.bundleFile := by
    rw [← hpart, ← hbundle]
    intro heq
    exact absurd (List.append_cancel_left heq) (by decide)
  have hpartDir : pathGetDirname config.partFile = 0x2f :: rest := by
    rw [← hpart]
    exact pathGetDirname_child hclean hne (by decide)
  have hbundleDir : pathGetDirname config.bundleFile = 0x2f :: rest := by
    rw [← hbundle]
    exact pathGetDirname_child hclean hne (by decide)
  have hpartHead : config.partFile.head? = some 0x2f := by rw [← hpart]; rfl
  have hbundleHead : config.bundleFile.head? = some 0x2f := by rw [← hbundle]; rfl
  simp [downloadPaths, hpartLength, hbundleLength, hpartHead, hbundleHead, hdiffer, hpartDir,
    hbundleDir]

/-- The refresh succeeds whatever is in the file exactly when the default is canonical. -/
private theorem endpoint_iff {config : OtaConfig} :
    (∀ fault file, ∃ cycle, otaRuntimeEndpointRefresh J N fault file config = .ok cycle) ↔
      (egpEndpointCanonicalize N config.baseUrl).toOption = some config.baseUrl := by
  constructor
  · intro h
    obtain ⟨cycle, hok⟩ := h none none
    by_contra hother
    have hne : ((egpEndpointCanonicalize N config.baseUrl).toOption != some config.baseUrl) =
        true := by simpa using hother
    rw [otaRuntimeEndpointRefresh, if_pos hne] at hok
    cases hok
  · intro hcanonical fault file
    simp only [otaRuntimeEndpointRefresh, hcanonical, bne_self_eq_false, Bool.false_eq_true,
      if_false]
    split
    · exact ⟨_, rfl⟩
    · exact ⟨_, rfl⟩
    · split
      · exact ⟨_, rfl⟩
      · split
        · exact ⟨_, rfl⟩
        · exact ⟨_, rfl⟩

/-! ## The contract between the loader and its consumers -/

/-- The base URL is written the way the endpoint reader prints it. -/
def CanonicalBaseUrl (N : NetLibrary) (url : Bytes) : Prop :=
  ∀ server : Server, server.Accepted N → url = server.text → CanonicalServer N server

/-- For a loaded base URL to be canonical is a condition on its server. -/
private theorem canonicalBaseUrl_iff {config : OtaConfig} (h : Loaded N config) :
    (egpEndpointCanonicalize N config.baseUrl).toOption = some config.baseUrl ↔
      CanonicalBaseUrl N config.baseUrl := by
  obtain ⟨server, haccepted, htext⟩ := server_of_baseUrlValid h.baseUrl
  have hlength : config.baseUrl.length ≤ egpEndpointMaxBytes :=
    Nat.le_of_lt_succ h.baseUrlText.length
  constructor
  · intro hcanonical other hother heq
    rw [heq] at hcanonical hlength
    exact (canonicalize_server hother hlength).mp hcanonical
  · intro hcanonical
    have hserver := hcanonical server haccepted htext
    rw [htext] at hlength ⊢
    exact (canonicalize_server haccepted hlength).mpr hserver

/-- The loader's bounds are wider than those of the consumers in three places: the
poll interval, the health timeout, and the spelling of the base URL. -/
theorem consumers_accept_iff (J : JsonParser) (N : NetLibrary) (load : KeyFileParser)
    (fault : Option OtaError) (file : Option Bytes) (path : Bytes) (config : OtaConfig)
    (h : otaConfigLoad load N fault file path = .ok config) :
    Accepts J N config ↔
      config.pollIntervalSec ≤ 2147483 ∧ config.healthTimeoutSec ≤ 4294967 ∧
        CanonicalBaseUrl N config.baseUrl := by
  have hloaded := loaded_of_otaConfigLoad h
  have hhealth := @health_iff config.healthTimeoutSec hloaded.healthTimeoutSec.1
  constructor
  · intro haccepts
    exact ⟨idleWait_iff.mp haccepts.idleWait, hhealth.mp haccepts.health,
      (canonicalBaseUrl_iff hloaded).mp (endpoint_iff.mp haccepts.endpoint)⟩
  · rintro ⟨hpoll, htimeout, hurl⟩
    exact
      { idleWait := idleWait_iff.mpr hpoll
        health := hhealth.mpr htimeout
        endpoint := endpoint_iff.mpr ((canonicalBaseUrl_iff hloaded).mpr hurl)
        manifest := otaHttpOpen_loaded hloaded hloaded.manifestPath hloaded.manifestText
        report := otaHttpOpen_loaded hloaded hloaded.reportPath hloaded.reportText
        download := downloadPaths_loaded hloaded }

/-- A configuration file with the given base URL, poll interval and health
timeout. -/
def sampleFile (url poll health : String) : Bytes :=
  ascii "[server]\nbase_url=" ++ ascii url ++
    ascii "\nmanifest_path=/manifest.json\nreport_path=/device/report\npoll_interval_sec=" ++
    ascii poll ++ ascii "\nconnect_timeout_sec=5\nrequest_timeout_sec=30\n[agent]\n" ++
    ascii "state_dir=/userdata/ota\nrelease_file=/etc/release.json\n" ++
    ascii "max_manifest_bytes=65536\n[download]\npart_file=/userdata/ota/update.raucb.part\n" ++
    ascii "bundle_file=/userdata/ota/update.raucb\nreserve_bytes=67108864\n[rauc]\n" ++
    ascii "binary=/usr/bin/rauc\n[identity]\ndevice_id_file=/userdata/ota/device-id\n" ++
    ascii "[health]\nhook=\ntimeout_sec=" ++ ascii health ++ ascii "\n"

/-- What the file stands for. -/
def sampleConfig (url : String) (poll health : Nat) : OtaConfig where
  baseUrl := ascii url
  manifestPath := ascii "/manifest.json"
  reportPath := ascii "/device/report"
  pollIntervalSec := poll
  connectTimeoutSec := 5
  requestTimeoutSec := 30
  stateDir := ascii "/userdata/ota"
  releaseFile := ascii "/etc/release.json"
  maxManifestBytes := 65536
  partFile := ascii "/userdata/ota/update.raucb.part"
  bundleFile := ascii "/userdata/ota/update.raucb"
  reserveBytes := 67108864
  raucBinary := ascii "/usr/bin/rauc"
  deviceIdFile := ascii "/userdata/ota/device-id"
  healthHook := []
  healthTimeoutSec := health
  reportingMode := .legacy

/-- The loader on a sample file. -/
def sampleLoad (url poll health : String) : Except OtaError OtaConfig :=
  otaConfigLoad readKeyFile referenceLibrary none (some (sampleFile url poll health))
    (ascii "/etc/edgeguard-ota/agent.conf")

/-- A plain configuration is loaded, and every consumer accepts it exactly as the
bounds say. -/
theorem consumers_accept_iff_plain :
    sampleLoad "http://192.168.1.100:8000" "300" "30" =
        .ok (sampleConfig "http://192.168.1.100:8000" 300 30) ∧
      (Accepts JsonReader.referenceParser referenceLibrary
          (sampleConfig "http://192.168.1.100:8000" 300 30) ↔
        300 ≤ 2147483 ∧ 30 ≤ 4294967 ∧
          CanonicalBaseUrl referenceLibrary (ascii "http://192.168.1.100:8000")) := by
  have hload : sampleLoad "http://192.168.1.100:8000" "300" "30" =
      .ok (sampleConfig "http://192.168.1.100:8000" 300 30) := by decide +kernel
  exact ⟨hload, consumers_accept_iff _ _ _ _ _ _ _ hload⟩

/-- The loader accepts a poll interval that stops the agent at its first idle
wait, a health timeout that fails a healthy candidate, and a base URL that stops
the agent before its first cycle. -/
theorem loaded_configuration_refused :
    sampleLoad "http://OTA.example:80" "2147484" "4294968" =
        .ok (sampleConfig "http://OTA.example:80" 2147484 4294968) ∧
      ¬ Accepts JsonReader.referenceParser referenceLibrary
        (sampleConfig "http://OTA.example:80" 2147484 4294968) ∧
      (otaControlIdleWait 2147484 ⟨false, fun _ => true, id⟩ ⟨false, false, false, false⟩).2 =
        .error (controlError (ascii "Control wait arguments are invalid")) ∧
      (otaHealthCheck 4294968 .b (.ok .b) (.ok ())).2 =
        .error (otaErrorSet .healthFailed (ascii "Invalid health configuration/candidate")) ∧
      (egpEndpointCanonicalize referenceLibrary (ascii "http://OTA.example:80")).toOption =
        some (ascii "http://ota.example") := by
  refine ⟨by decide +kernel, fun h => ?_, by decide +kernel, by decide +kernel,
    by decide +kernel⟩
  exact absurd (idleWait_iff.mp h.idleWait) (by decide)

end EdgeGuard.Agent.ConfigConsumers
