import EdgeGuard.Base.JsonObject
import EdgeGuard.Base.Uri
import EdgeGuard.Provisioning.Model

/-!
# The endpoint of the OTA server

`endpoint.c`, which the daemon and the agent share: the canonical form of a base
URL, and the reader of `runtime.json`, which accepts canonical URLs only.

The canonicalisation looks at the raw text first and lets GLib take it apart
afterwards, so both halves are kept: `endpointTextOk` and `authorityOk` are the
checks on the text, `canonicalUri` is what is made of the parts.
-/

namespace EdgeGuard.Provisioning.Endpoint

open EdgeGuard.Base EdgeGuard.Base.CText EdgeGuard.Base.Utf8 EdgeGuard.Base.Json
open EdgeGuard.Base.JsonObject EdgeGuard.Base.Uri
open EdgeGuard.Provisioning.Model

/-- The error of `endpoint_fail`. -/
def endpointInvalid : EgpError :=
  egpErrorSet .endpointInvalid true .none (ascii "Endpoint is not a valid R5 base URL")

/-- `has_forbidden_character`, on valid UTF-8. -/
def hasForbiddenCharacter (text : Bytes) : Bool :=
  (unichars text).any fun ch => ch == 0 || unicharIsCntrl ch || unicharIsSpace ch

/-- One label of a host name. -/
def dnsLabelValid (label : Bytes) : Bool :=
  label.all (fun b => isAlnum b || b == 0x2d) && 1 ≤ label.length && label.length ≤ 63 &&
    label.head? != some 0x2d && label.getLast? != some 0x2d

/-- `dns_name_valid`. -/
def dnsNameValid (host : Bytes) : Bool :=
  1 ≤ host.length && host.length ≤ 253 && host.head? != some 0x2e &&
    host.getLast? != some 0x2e && (host.splitOn 0x2e).all dnsLabelValid

/-- `raw_ipv6_was_bracketed`. -/
def rawIpv6WasBracketed (url : Bytes) : Bool :=
  match breakOn (ascii "://") url with
  | some (_, authority) => authority.head? == some 0x5b
  | none => false

/-- The checks on the whole text. -/
def endpointTextOk (input : Bytes) : Bool :=
  !input.isEmpty && input.length ≤ egpEndpointMaxBytes && valid input &&
    !hasForbiddenCharacter input && !input.contains 0x25 && !input.contains 0x5c

/-- The checks around the authority: something in front of `://`, something
behind it up to the path, and no colon at its end. -/
def authorityOk (input : Bytes) : Bool :=
  match breakOn (ascii "://") input with
  | none => false
  | some (front, rest) =>
      let authority := rest.takeWhile fun b => !(ascii "/?#").contains b
      !front.isEmpty && !authority.isEmpty && authority.getLast? != some 0x3a

/-- The checks on the parts of the URI other than the host. -/
def uriPartsOk (uri : Parts) : Bool :=
  isHttp (strdown uri.scheme) && uri.userinfo.isNone && uri.query.isNone &&
    uri.fragment.isNone && uri.port.all (fun port => port != 0 && port ≤ 65535) &&
    (uri.path.isEmpty || uri.path == ascii "/")

def numericDotted (host : Bytes) : Bool := host.all fun b => isDigit b || b == 0x2e

/-- The checks on the host. -/
def hostOk (N : NetLibrary) (input host : Bytes) : Bool :=
  !host.isEmpty && !host.contains 0x25 &&
    if N.hostnameIsIpAddress host then !host.contains 0x3a || rawIpv6WasBracketed input
    else !numericDotted host && dnsNameValid host

def canonicalHost (N : NetLibrary) (host : Bytes) : Bytes :=
  if N.hostnameIsIpAddress host then (N.inetAddressText host).getD (strdown host)
  else strdown host

/-- The port is the one the scheme implies. -/
def defaultPort (scheme : Bytes) : Option Nat → Bool
  | none => true
  | some port => (scheme == ascii "http" && port == 80) || (scheme == ascii "https" && port == 443)

/-- The URL that is printed for accepted parts. -/
def canonicalUri (N : NetLibrary) (scheme host : Bytes) (port : Option Nat) : Bytes :=
  let name := canonicalHost N host
  let bracketed :=
    if N.hostnameIsIpAddress host && host.contains 0x3a then 0x5b :: (name ++ [0x5d]) else name
  scheme ++ ascii "://" ++ bracketed ++
    if defaultPort scheme port then [] else portText (port.map decimal)

/-- `egp_endpoint_canonicalize`. -/
def egpEndpointCanonicalize (N : NetLibrary) (input : Bytes) : Except EgpError Bytes :=
  if !endpointTextOk input || !authorityOk input then .error endpointInvalid
  else
    match N.uriParse input with
    | none => .error endpointInvalid
    | some uri =>
        match uri.host with
        | none => .error endpointInvalid
        | some host =>
            if !uriPartsOk uri || !hostOk N input host then .error endpointInvalid
            else
              let canonical := canonicalUri N (strdown uri.scheme) host uri.port
              if canonical.length ≤ egpEndpointMaxBytes then .ok canonical
              else .error endpointInvalid

/-! ## The runtime configuration -/

def runtimeInteger (object : Members) (name : Bytes) : Option Int := integerMember object name

def runtimeString (object : Members) (name : Bytes) (capacity : Nat) : Option Bytes :=
  stringMember object name capacity

def runtimeConfigInvalid : EgpError :=
  egpErrorSet .endpointConfigInvalid true .none (ascii "Canonical runtime endpoint is invalid")

def runtimeSchemaUnsupported : EgpError :=
  egpErrorSet .persistenceSchemaUnsupported false .none
    (ascii "Runtime store schema is unsupported")

/-- The tests of `egp_runtime_parse_json` on the raw bytes. -/
def runtimeBytesOk (data : Bytes) : Bool :=
  !data.isEmpty && data.length ≤ egpStoreMaxBytes && !data.contains 0 && valid data &&
    !occursIn nulEscape data

/-- The members of the runtime configuration; the URL must be its own canonical
form. -/
def runtimeOfObject (N : NetLibrary) (object : Members) : Option EgpRuntimeConfig := do
  let schema ← runtimeInteger object (ascii "schema_version")
  if schema != egpSchemaVersion || object.size != 3 then none
  let generation ← runtimeInteger object (ascii "generation")
  if generation ≤ 0 then none
  let raw ← runtimeString object (ascii "ota_server_base_url") (egpEndpointMaxBytes + 1)
  match egpEndpointCanonicalize N raw with
  | .error _ => none
  | .ok canonical =>
      if raw == canonical then
        some { generation := generation.toNat, otaServerBaseUrl := canonical }
      else none

/-- `egp_runtime_parse_json`. -/
def egpRuntimeParseJson (J : JsonParser) (N : NetLibrary) (data : Bytes) :
    Except EgpError EgpRuntimeConfig :=
  if !runtimeBytesOk data then .error runtimeConfigInvalid
  else
    match J.load data with
    | some (.obj object) =>
        if object.duplicate then .error runtimeConfigInvalid
        else if (runtimeInteger object (ascii "schema_version")).any (· != egpSchemaVersion) then
          .error runtimeSchemaUnsupported
        else
          match runtimeOfObject N object with
          | some runtime => .ok runtime
          | none => .error runtimeConfigInvalid
    | _ => .error runtimeConfigInvalid

/-- There is one refusal of an endpoint. -/
theorem canonicalize_error {N : NetLibrary} {input : Bytes} {error : EgpError}
    (h : egpEndpointCanonicalize N input = .error error) : error = endpointInvalid := by
  unfold egpEndpointCanonicalize at h
  split at h
  · exact (Except.error.inj h).symm
  · split at h
    · exact (Except.error.inj h).symm
    · split at h
      · exact (Except.error.inj h).symm
      · split at h
        · exact (Except.error.inj h).symm
        · simp only at h
          split at h
          · cases h
          · exact (Except.error.inj h).symm

/-- A canonical URL fits the array it is copied to. -/
theorem length_of_canonicalize {N : NetLibrary} {input canonical : Bytes}
    (h : egpEndpointCanonicalize N input = .ok canonical) :
    canonical.length ≤ egpEndpointMaxBytes := by
  unfold egpEndpointCanonicalize at h
  split at h
  · cases h
  · split at h
    · cases h
    · split at h
      · cases h
      · split at h
        · cases h
        · simp only at h
          split at h
          · rename_i hlength
            cases h
            exact hlength
          · cases h

/-- A configuration that is read has a generation, and a URL in its canonical form. -/
theorem runtimeOfObject_some {N : NetLibrary} {object : Members} {runtime : EgpRuntimeConfig}
    (h : runtimeOfObject N object = some runtime) :
    integerMember object (ascii "generation") = some (runtime.generation : Int) ∧
      egpEndpointCanonicalize N runtime.otaServerBaseUrl = .ok runtime.otaServerBaseUrl := by
  unfold runtimeOfObject at h
  simp only [Option.bind_eq_bind] at h
  obtain ⟨schema, -, h⟩ := Option.bind_eq_some_iff.mp h
  split at h
  · simp at h
  · obtain ⟨generation, hgeneration, h⟩ := Option.bind_eq_some_iff.mp h
    split at h
    · simp at h
    · obtain ⟨raw, -, h⟩ := Option.bind_eq_some_iff.mp h
      split at h
      · cases h
      · rename_i canonical hcanonical
        split at h
        · rename_i hsame
          cases h
          have hpositive : (generation.toNat : Int) = generation := by omega
          rw [hpositive]
          rw [eq_of_beq hsame] at hcanonical
          exact ⟨hgeneration, hcanonical⟩
        · cases h

/-- The object behind a configuration that is read. -/
theorem runtimeParse_object {J : JsonParser} {N : NetLibrary} {data : Bytes}
    {runtime : EgpRuntimeConfig} (h : egpRuntimeParseJson J N data = .ok runtime) :
    ∃ object, J.load data = some (.obj object) ∧ runtimeOfObject N object = some runtime := by
  unfold egpRuntimeParseJson at h
  split at h
  · cases h
  · split at h
    · rename_i object hload
      split at h
      · cases h
      · split at h
        · cases h
        · split at h
          · rename_i hobject
            cases h
            exact ⟨object, hload, hobject⟩
          · cases h
    · cases h

/-- A refused runtime file is reported with a code and no change. -/
theorem runtimeParse_error {J : JsonParser} {N : NetLibrary} {data : Bytes} {error : EgpError}
    (h : egpRuntimeParseJson J N data = .error error) :
    error.code ≠ .none ∧ error.persistentChange = .none := by
  have hcases : error = runtimeConfigInvalid ∨ error = runtimeSchemaUnsupported := by
    unfold egpRuntimeParseJson at h
    split at h
    · exact .inl (Except.error.inj h).symm
    · split at h
      · split at h
        · exact .inl (Except.error.inj h).symm
        · split at h
          · exact .inr (Except.error.inj h).symm
          · split at h
            · cases h
            · exact .inl (Except.error.inj h).symm
      · exact .inl (Except.error.inj h).symm
  rcases hcases with rfl | rfl
  · exact ⟨by decide, rfl⟩
  · exact ⟨by decide, rfl⟩

end EdgeGuard.Provisioning.Endpoint
