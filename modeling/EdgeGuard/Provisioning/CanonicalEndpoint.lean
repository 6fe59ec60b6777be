import EdgeGuard.Agent.ConfigConsumers
import EdgeGuard.Provisioning.RuntimeStore

/-!
# Canonical endpoints

What `egp_endpoint_canonicalize` prints is the text of a server in canonical
spelling, and that spelling is a fixed point: it canonicalizes to itself, and
`base_url_valid` of the agent accepts it.  So a runtime configuration that the
store commits is read back by the daemon and by the agent.

## Main results

* `canonical_of_canonicalize` — the printed text as a server.
* `baseUrlValid_server` — the loader accepts every server it could have read.
* `egpRuntimeParseJson_serializeRuntime` — what the reader makes of a written
  runtime configuration.
* `canonical_endpoint` — the agreement of the three validators.
-/

namespace EdgeGuard.Provisioning.CanonicalEndpoint

open EdgeGuard.Base EdgeGuard.Base.CText EdgeGuard.Base.Utf8 EdgeGuard.Base.Json
open EdgeGuard.Base.JsonObject EdgeGuard.Base.Uri EdgeGuard.Base.DurableDirectory
open EdgeGuard.Agent.Model EdgeGuard.Agent.Config EdgeGuard.Agent.ConfigConsumers
open EdgeGuard.Provisioning.Model EdgeGuard.Provisioning.Store
open EdgeGuard.Provisioning.StoreTransactions EdgeGuard.Provisioning.Endpoint
open EdgeGuard.Provisioning.RuntimeStore

/-! ## Addresses -/

/-- How an address is printed and read again: the printed text is an address that
prints as itself, the case of a hexadecimal digit does not matter, and no text is
no address. -/
structure Reprints (N : NetLibrary) : Prop where
  nonempty : N.hostnameIsIpAddress [] = false
  text : ∀ host text, N.hostnameIsIpAddress host = true → 0x25 ∉ host →
    N.inetAddressText host = some text →
      N.hostnameIsIpAddress text = true ∧ N.inetAddressText text = some text
  caseless : ∀ host, 0x25 ∉ host →
    N.hostnameIsIpAddress (strdown host) = N.hostnameIsIpAddress host ∧
      (N.inetAddressText host = none → N.inetAddressText (strdown host) = none)

/-! ## Letter case -/

theorem mem_strdown_iff {c : UInt8} (hc : c < 0x41 ∨ 0x5a < c ∧ c < 0x61) (s : Bytes) :
    c ∈ strdown s ↔ c ∈ s := by
  rw [strdown, List.mem_map]
  constructor
  · rintro ⟨b, hb, hbc⟩
    rwa [(toLower_eq_iff hc).mp hbc] at hb
  · intro hmem
    exact ⟨c, hmem, (toLower_eq_iff hc).mpr rfl⟩

private theorem all_strdown {p : UInt8 → Bool} (hp : ∀ b, p (toLower b) = p b) (s : Bytes) :
    (strdown s).all p = s.all p := by
  simp [strdown, List.all_map, Function.comp_def, hp]

theorem isDigit_toLower (b : UInt8) : isDigit (toLower b) = isDigit b := by
  have hnat := toNat_toLower b
  rw [Bool.eq_iff_iff]
  simp only [isDigit, Bool.and_eq_true, decide_eq_true_eq, UInt8.le_iff_toNat_le,
    UInt8.reduceToNat, hnat]
  split <;> omega

theorem isAlnum_toLower (b : UInt8) : isAlnum (toLower b) = isAlnum b := by
  have hnat := toNat_toLower b
  rw [Bool.eq_iff_iff]
  simp only [isAlnum, isDigit, Bool.or_eq_true, Bool.and_eq_true, decide_eq_true_eq,
    UInt8.le_iff_toNat_le, UInt8.reduceToNat, hnat]
  split <;> omega

theorem isXDigit_toLower (b : UInt8) : isXDigit (toLower b) = isXDigit b := by
  have hnat := toNat_toLower b
  rw [Bool.eq_iff_iff]
  simp only [isXDigit, isLowerHex, isDigit, Bool.or_eq_true, Bool.and_eq_true,
    decide_eq_true_eq, UInt8.le_iff_toNat_le, UInt8.reduceToNat, hnat]
  split <;> omega

private theorem beq_toLower {c : UInt8} (hc : c < 0x41 ∨ 0x5a < c ∧ c < 0x61) (b : UInt8) :
    (toLower b == c) = (b == c) := by
  rw [Bool.eq_iff_iff, beq_iff_eq, beq_iff_eq]
  exact toLower_eq_iff hc

theorem isNameByte_toLower (b : UInt8) : isNameByte (toLower b) = isNameByte b := by
  simp only [isNameByte, isAlnum_toLower, beq_toLower (by decide : (0x2d : UInt8) < 0x41 ∨ _),
    beq_toLower (by decide : (0x2e : UInt8) < 0x41 ∨ _)]

theorem isAddressByte_toLower (b : UInt8) : isAddressByte (toLower b) = isAddressByte b := by
  simp only [isAddressByte, isXDigit_toLower,
    beq_toLower (by decide : (0x2e : UInt8) < 0x41 ∨ _),
    beq_toLower (by decide : (0x3a : UInt8) < 0x41 ∨ _)]

theorem numericDotted_strdown (host : Bytes) :
    numericDotted (strdown host) = numericDotted host := by
  refine all_strdown (fun b => ?_) host
  rw [isDigit_toLower, beq_toLower (by decide)]

private theorem head_strdown {c : UInt8} (hc : c < 0x41 ∨ 0x5a < c ∧ c < 0x61) (s : Bytes) :
    ((strdown s).head? != some c) = (s.head? != some c) := by
  cases s with
  | nil => rfl
  | cons b s =>
      have hbyte := beq_toLower hc b
      simp only [strdown, List.map_cons, List.head?_cons, bne, Option.some_beq_some, hbyte]

private theorem last_strdown {c : UInt8} (hc : c < 0x41 ∨ 0x5a < c ∧ c < 0x61) (s : Bytes) :
    ((strdown s).getLast? != some c) = (s.getLast? != some c) := by
  rw [strdown, List.getLast?_map]
  cases s.getLast? with
  | none => rfl
  | some b => simp only [Option.map_some, bne, Option.some_beq_some, beq_toLower hc b]

theorem dnsLabelValid_strdown (label : Bytes) :
    dnsLabelValid (strdown label) = dnsLabelValid label := by
  have hbytes : (strdown label).all (fun b => isAlnum b || b == 0x2d) =
      label.all fun b => isAlnum b || b == 0x2d := by
    refine all_strdown (fun b => ?_) label
    rw [isAlnum_toLower, beq_toLower (by decide)]
  have hlength : (strdown label).length = label.length := List.length_map ..
  rw [dnsLabelValid, hbytes, hlength, head_strdown (by decide), last_strdown (by decide)]
  rfl

theorem dnsNameValid_strdown (host : Bytes) :
    dnsNameValid (strdown host) = dnsNameValid host := by
  have hlength : (strdown host).length = host.length := List.length_map ..
  rw [dnsNameValid, hlength, head_strdown (by decide), last_strdown (by decide),
    splitOn_strdown (by decide), List.all_map]
  simp only [Function.comp_def, dnsLabelValid_strdown]
  rfl

/-! ## The printed server -/

variable {N : NetLibrary}

/-- The server whose text is printed for accepted parts. -/
def printedServer (N : NetLibrary) (scheme host : Bytes) (port : Option Nat) : Server where
  scheme := scheme
  literal := N.hostnameIsIpAddress host && host.contains 0x3a
  host := canonicalHost N host
  port := if defaultPort scheme port then none else port.map decimal

theorem text_printedServer (scheme host : Bytes) (port : Option Nat) :
    (printedServer N scheme host port).text = canonicalUri N scheme host port := by
  simp only [printedServer, Server.text, Server.hostText, canonicalUri]
  cases defaultPort scheme port with
  | true => rfl
  | false => rfl

/-- The parts of an input that is accepted. -/
structure Printable (N : NetLibrary) (scheme host : Bytes) (port : Option Nat) : Prop where
  scheme : isHttp scheme = true
  nonempty : host ≠ []
  percent : 0x25 ∉ host
  name : N.hostnameIsIpAddress host = false →
    numericDotted host = false ∧ dnsNameValid host = true
  port : ∀ number, port = some number → number ≠ 0 ∧ number ≤ 65535

/-- What the canonicalizer returns is printed from a scheme, a host and a port. -/
theorem canonicalize_ok {input canonical : Bytes}
    (h : egpEndpointCanonicalize N input = .ok canonical) :
    ∃ scheme host port, Printable N scheme host port ∧
      canonical = canonicalUri N scheme host port ∧ canonical.length ≤ egpEndpointMaxBytes := by
  unfold egpEndpointCanonicalize at h
  split at h
  · cases h
  · split at h
    · cases h
    · rename_i uri _
      split at h
      · cases h
      · rename_i host _
        split at h
        · cases h
        · rename_i hparts
          simp only at h
          split at h
          · rename_i hlength
            cases h
            simp only [Bool.or_eq_true, Bool.not_eq_true', not_or, Bool.not_eq_false] at hparts
            obtain ⟨huri, hhost⟩ := hparts
            simp only [uriPartsOk, Bool.and_eq_true] at huri
            simp only [hostOk, Bool.and_eq_true, Bool.not_eq_true', List.isEmpty_eq_false_iff,
              List.contains_eq_mem, decide_eq_false_iff_not] at hhost
            refine ⟨strdown uri.scheme, host, uri.port, ?_, rfl, hlength⟩
            refine ⟨huri.1.1.1.1.1, hhost.1.1, hhost.1.2, fun hname => ?_, fun number hport => ?_⟩
            · simpa [hname] using hhost.2
            · simpa [hport] using huri.1.2
          · cases h

theorem nameBytes_of_dnsNameValid {host : Bytes} (h : dnsNameValid host = true) :
    host.all isNameByte = true := by
  simp only [dnsNameValid, Bool.and_eq_true] at h
  refine List.all_eq_true.mpr fun b hb => ?_
  rcases mem_splitOn 0x2e hb with rfl | ⟨label, hlabel, hmem⟩
  · decide
  · have hvalid := List.all_eq_true.mp h.2 label hlabel
    simp only [dnsLabelValid, Bool.and_eq_true] at hvalid
    have hbyte := List.all_eq_true.mp hvalid.1.1.1.1 b hmem
    simp only [isNameByte, hbyte, Bool.true_or]

variable {scheme host : Bytes} {port : Option Nat}

/-- A printed address consists of the bytes of an address and keeps its colons. -/
theorem canonicalHost_address (h : Printable N scheme host port)
    (hip : N.hostnameIsIpAddress host = true) :
    (canonicalHost N host).all isAddressByte = true ∧
      (0x3a ∈ canonicalHost N host ↔ 0x3a ∈ host) := by
  rw [canonicalHost, if_pos hip]
  cases htext : N.inetAddressText host with
  | none =>
      constructor
      · rw [Option.getD_none, all_strdown isAddressByte_toLower]
        exact N.address_bytes _ hip h.percent
      · exact mem_strdown_iff (by decide) host
  | some text => exact N.address_text _ _ hip htext h.percent

/-- The host that is printed is spelled as the reader spells it. -/
theorem canonicalHost_fixed (hreprints : Reprints N) (h : Printable N scheme host port) :
    N.hostnameIsIpAddress (canonicalHost N host) = N.hostnameIsIpAddress host ∧
      canonicalHost N (canonicalHost N host) = canonicalHost N host := by
  obtain ⟨hsame, hnone⟩ := hreprints.caseless host h.percent
  cases hip : N.hostnameIsIpAddress host with
  | false =>
      rw [hip] at hsame
      simp [canonicalHost, hip, hsame, strdown_strdown]
  | true =>
      rw [hip] at hsame
      cases htext : N.inetAddressText host with
      | none => simp [canonicalHost, hip, htext, hsame, hnone htext, strdown_strdown]
      | some text =>
          obtain ⟨htextIp, hagain⟩ := hreprints.text _ _ hip h.percent htext
          simp [canonicalHost, hip, htext, htextIp, hagain]

private theorem portOk_decimal {number : Nat} (hpos : number ≠ 0) (hmax : number ≤ 65535) :
    portOk (decimal number) = true := by
  have hdigits : (decimal number).all isDigit = true :=
    List.all_eq_true.mpr (isDigit_of_mem_decimal number)
  have hlength : (decimal number).length ≤ 5 := length_decimal_le (by decide) (by omega)
  simp [portOk, decimal_ne_nil, hdigits, hlength, hpos, hmax]

private theorem isNameByte_of_address {b : UInt8} (h : isAddressByte b = true)
    (hcolon : b ≠ 0x3a) : isNameByte b = true := by
  simp only [isAddressByte, isXDigit, isLowerHex, isDigit, Bool.or_eq_true, Bool.and_eq_true,
    decide_eq_true_eq, beq_iff_eq, hcolon, or_false, UInt8.le_iff_toNat_le,
    ← UInt8.toNat_inj, UInt8.reduceToNat] at h
  simp only [isNameByte, isAlnum, isDigit, Bool.or_eq_true, Bool.and_eq_true, decide_eq_true_eq,
    beq_iff_eq, UInt8.le_iff_toNat_le, ← UInt8.toNat_inj, UInt8.reduceToNat]
  omega

/-- A server that is printed is one that the loader accepts. -/
theorem accepted_printedServer (hreprints : Reprints N) (h : Printable N scheme host port) :
    (printedServer N scheme host port).Accepted N where
  scheme := h.scheme
  percent := by
    intro hmem
    cases hip : N.hostnameIsIpAddress host with
    | true =>
        have hbytes := (canonicalHost_address h hip).1
        exact absurd (List.all_eq_true.mp hbytes _ hmem) (by decide)
    | false =>
        simp only [printedServer, canonicalHost, hip] at hmem
        exact h.percent ((mem_strdown_iff (by decide) host).mp hmem)
  host := by
    cases hip : N.hostnameIsIpAddress host with
    | true =>
        obtain ⟨hbytes, hcolon⟩ := canonicalHost_address h hip
        have hagain := (canonicalHost_fixed hreprints h).1
        simp only [printedServer, hip, Bool.true_and]
        split
        · rename_i hliteral
          exact ⟨by rw [hagain, hip], hcolon.mpr (List.contains_iff_mem.mp hliteral)⟩
        · rename_i hliteral
          rw [List.contains_iff_mem] at hliteral
          refine ⟨fun hnil => ?_, List.all_eq_true.mpr fun b hb => ?_⟩
          · rw [hnil, hip, hreprints.nonempty] at hagain
            cases hagain
          · apply isNameByte_of_address (List.all_eq_true.mp hbytes b hb)
            rintro rfl
            exact hliteral (hcolon.mp hb)
    | false =>
        have hname := nameBytes_of_dnsNameValid (h.name hip).2
        simp only [printedServer, canonicalHost, hip, Bool.false_and, Bool.false_eq_true, if_false]
        refine ⟨?_, ?_⟩
        · simpa [strdown] using h.nonempty
        · rwa [all_strdown isNameByte_toLower]
  port := by
    intro digits hdigits
    simp only [printedServer] at hdigits
    split at hdigits
    · cases hdigits
    · obtain ⟨number, hport, rfl⟩ := Option.map_eq_some_iff.mp hdigits
      obtain ⟨hpos, hmax⟩ := h.port number hport
      exact portOk_decimal hpos hmax

private theorem head_decimal {number : Nat} (hpos : number ≠ 0) :
    (decimal number).head? ≠ some 0x30 := by
  intro hhead
  obtain ⟨rest, hrest⟩ := List.head?_eq_some_iff.mp hhead
  have hvalue := decimalValue_decimal number
  rw [hrest, decimal_leading number hrest] at hvalue
  exact hpos hvalue.symm

/-- A server that is printed is canonical. -/
theorem canonical_printedServer (hreprints : Reprints N) (h : Printable N scheme host port) :
    CanonicalServer N (printedServer N scheme host port) where
  host := by
    obtain ⟨hsame, hagain⟩ := canonicalHost_fixed hreprints h
    show if N.hostnameIsIpAddress (canonicalHost N host) then _ else _
    rw [hsame]
    cases hip : N.hostnameIsIpAddress host with
    | true =>
        rw [hip] at hsame
        rw [canonicalHost, if_pos hsame] at hagain
        exact hagain
    | false =>
        obtain ⟨hdotted, hdns⟩ := h.name hip
        rw [hip] at hsame
        rw [canonicalHost, hsame] at hagain
        refine ⟨hagain, ?_⟩
        simp only [printedServer, canonicalHost, hip]
        exact ⟨(numericDotted_strdown host).trans hdotted, (dnsNameValid_strdown host).trans hdns⟩
  port := by
    intro digits hdigits
    simp only [printedServer] at hdigits
    split at hdigits
    · cases hdigits
    · rename_i hdefault
      obtain ⟨number, hport, rfl⟩ := Option.map_eq_some_iff.mp hdigits
      obtain ⟨hpos, hmax⟩ := h.port number hport
      rw [hport] at hdefault
      rw [decimalValue_decimal]
      exact ⟨head_decimal hpos, Bool.eq_false_iff.mpr hdefault⟩

theorem canonical_of_canonicalize (hreprints : Reprints N) {input url : Bytes}
    (h : egpEndpointCanonicalize N input = .ok url) :
    ∃ server : Server, server.Accepted N ∧ CanonicalServer N server ∧ url = server.text := by
  obtain ⟨scheme, host, port, hprintable, rfl, -⟩ := canonicalize_ok h
  exact ⟨printedServer N scheme host port, accepted_printedServer hreprints hprintable,
    canonical_printedServer hreprints hprintable, (text_printedServer scheme host port).symm⟩

/-- Canonicalizing a canonical endpoint changes nothing. -/
theorem canonicalize_fixed (hreprints : Reprints N) {input url : Bytes}
    (h : egpEndpointCanonicalize N input = .ok url) :
    egpEndpointCanonicalize N url = .ok url := by
  obtain ⟨server, haccepted, hcanonical, rfl⟩ := canonical_of_canonicalize hreprints h
  have hagain := (canonicalize_server haccepted (length_of_canonicalize h)).mpr hcanonical
  cases hresult : egpEndpointCanonicalize N server.text with
  | error error =>
      rw [hresult] at hagain
      cases hagain
  | ok again =>
      rw [hresult] at hagain
      cases hagain
      rfl

/-! ## The loader of the agent -/

private theorem afterHost_portText {port : Option Bytes}
    (h : ∀ digits, port = some digits → portOk digits = true) :
    afterHost (portText port) = true := by
  cases port with
  | none => rfl
  | some digits => simp [portText, afterHost, h digits rfl]

/-- An authority holds none of the bytes that `base_url_valid` looks for. -/
private theorem not_forbidden {b : UInt8}
    (h : isNameByte b = true ∨ isAddressByte b = true ∨ b = 0x5b ∨ b = 0x5d) :
    (ascii "/@?#\\% ").contains b = false := by
  rw [show ascii "/@?#\\% " = [0x2f, 0x40, 0x3f, 0x23, 0x5c, 0x25, 0x20] from by decide]
  simp only [isNameByte, isAddressByte, isAlnum, isXDigit, isLowerHex, isDigit,
    Bool.or_eq_true, Bool.and_eq_true, decide_eq_true_eq, beq_iff_eq, UInt8.le_iff_toNat_le,
    ← UInt8.toNat_inj, UInt8.reduceToNat] at h
  simp only [List.contains_eq_mem, List.mem_cons, List.not_mem_nil, or_false,
    ← UInt8.toNat_inj, UInt8.reduceToNat, decide_eq_false_iff_not]
  omega

/-- The agent's loader accepts the authority of an accepted server. -/
theorem authorityValid_server {server : Server} (h : server.Accepted N)
    (hlength : server.host.length ≤ 253) :
    authorityValid N (server.hostText ++ portText server.port) = true := by
  have hafter := afterHost_portText h.port
  have hbytes := authorityBytes (hostBytes h) (portBytes h)
  have hforbidden : hasAny (ascii "/@?#\\% ") (server.hostText ++ portText server.port) =
      false :=
    List.any_eq_false.mpr fun b hb => Bool.eq_false_iff.mp (not_forbidden (hbytes b hb))
  have hhost := h.host
  rw [authorityValid, hforbidden]
  cases hliteral : server.literal with
  | true =>
      simp only [hliteral, if_true] at hhost
      have hbracket : (0x5d : UInt8) ∉ server.host := by
        intro hmem
        have haddress := N.address_bytes _ hhost.1 h.percent
        exact absurd (List.all_eq_true.mp haddress _ hmem) (by decide)
      have htext : server.hostText ++ portText server.port =
          0x5b :: (server.host ++ 0x5d :: portText server.port) := by
        simp [Server.hostText, hliteral]
      rw [htext]
      simp [breakOn_byte hbracket, hhost.1, hhost.2, hafter]
  | false =>
      simp only [hliteral, Bool.false_eq_true, if_false] at hhost
      have hcolon : server.host.all (· != 0x3a) = true := by
        refine List.all_eq_true.mpr fun b hb => ?_
        rw [bne_iff_ne]
        rintro rfl
        exact absurd (List.all_eq_true.mp hhost.2 _ hb) (by decide)
      have hhead : server.host.head? ≠ some 0x5b := by
        intro hhead
        exact absurd (List.all_eq_true.mp hhost.2 _ (List.mem_of_head? hhead)) (by decide)
      have hpositive : 1 ≤ server.host.length := List.length_pos_iff.mpr hhost.1
      simp only [Server.hostText, hliteral, Bool.false_eq_true, if_false]
      simp [hhead, takeWhile_portText (by decide) hcolon, dropWhile_portText (by decide) hcolon,
        hhost.1, hhost.2, hpositive, hlength, hafter]

/-- The loader accepts every server it could have read. -/
theorem baseUrlValid_server {server : Server} (h : server.Accepted N)
    (hlength : server.host.length ≤ 253) : baseUrlValid N server.text = true := by
  have hauthority := authorityValid_server h hlength
  have hscheme := h.scheme
  simp only [isHttp, Bool.or_eq_true, beq_iff_eq] at hscheme
  rw [Server.text, List.append_assoc]
  rcases hscheme with hs | hs
  · rw [hs]
    exact hauthority
  · rw [hs]
    exact hauthority

/-! ## The written runtime configuration -/

/-- The bytes of a printed URL, whatever the library prints for an address. -/
theorem bytes_of_canonicalize {input url : Bytes}
    (h : egpEndpointCanonicalize N input = .ok url) : ∀ b ∈ url, isUrlByte b = true := by
  obtain ⟨scheme, host, port, hprintable, rfl, -⟩ := canonicalize_ok h
  rw [← text_printedServer]
  refine urlBytes hprintable.scheme (fun b hb => ?_) (fun digits hdigits => ?_)
  · cases hip : N.hostnameIsIpAddress host with
    | true =>
        exact .inr (List.all_eq_true.mp (canonicalHost_address hprintable hip).1 b hb)
    | false =>
        have hname := nameBytes_of_dnsNameValid (hprintable.name hip).2
        rw [← all_strdown isNameByte_toLower] at hname
        simp only [printedServer, canonicalHost, hip] at hb
        exact .inl (List.all_eq_true.mp hname b hb)
  · simp only [printedServer] at hdigits
    split at hdigits
    · cases hdigits
    · obtain ⟨number, -, rfl⟩ := Option.map_eq_some_iff.mp hdigits
      exact List.all_eq_true.mpr (isDigit_of_mem_decimal number)

theorem textOk_of_canonicalize {input url : Bytes}
    (h : egpEndpointCanonicalize N input = .ok url) : TextOk url ∧ (0x5c : UInt8) ∉ url := by
  have hbytes := fun b hb => isUrlByte_spec (bytes_of_canonicalize h b hb)
  constructor
  · refine textOk_of_printable fun b hb => ?_
    obtain ⟨-, hlow, hhigh, -⟩ := hbytes b hb
    simp only [UInt8.lt_iff_toNat_lt, UInt8.le_iff_toNat_le, UInt8.reduceToNat] at hlow hhigh ⊢
    omega
  · exact fun hmem => (hbytes _ hmem).2.2.2.2 rfl

/-- A runtime configuration with a printed URL and a generation in range. -/
structure Storable (N : NetLibrary) (runtime : EgpRuntimeConfig) : Prop where
  printed : ∃ input, egpEndpointCanonicalize N input = .ok runtime.otaServerBaseUrl
  positive : 1 ≤ runtime.generation
  bounded : runtime.generation ≤ egpJsonUintMax

variable {runtime : EgpRuntimeConfig}

theorem writable_runtimeMembers (h : Storable N runtime) :
    WritableMembers (runtimeMembers runtime) := by
  obtain ⟨input, hprinted⟩ := h.printed
  have hgeneration : 0 ≤ gint64 runtime.generation := by
    rw [StoreRoundTrip.gint64_of_le h.bounded]
    exact Int.natCast_nonneg _
  refine writable_cons (by decide) (by decide) rfl (by decide : (0 : Int) ≤ 1) ?_
  refine writable_cons (by decide) (by decide) rfl hgeneration ?_
  exact writable_cons (by decide) (by decide) rfl (textOk_of_canonicalize hprinted).1 trivial

theorem inRange_runtimeMembers (h : Storable N runtime) :
    InRangeMembers (runtimeMembers runtime) := by
  have hgeneration : gint64 runtime.generation ≤ gint64Max := by
    rw [StoreRoundTrip.gint64_of_le h.bounded]
    exact Int.ofNat_le.mpr h.bounded
  have hschema : (egpSchemaVersion : Int) ≤ gint64Max := by decide
  simp [runtimeMembers, InRangeMembers, InRange, hschema, hgeneration]

/-- What is written passes the lexical check of the reader. -/
theorem runtimeBytesOk_serializeRuntime (h : Storable N runtime) :
    runtimeBytesOk (serializeRuntime runtime) = true := by
  obtain ⟨input, hprinted⟩ := h.printed
  have hw : Writable (.obj (runtimeMembers runtime)) := writable_runtimeMembers h
  have hutf8 : valid (serializeRuntime runtime) = true := valid_generate hw
  have hlength := length_serializeRuntime_le h.bounded (length_of_canonicalize hprinted)
  have hescape : occursIn nulEscape (serializeRuntime runtime) = false := by
    have hurl := occursIn_of_no_backslash (textOk_of_canonicalize hprinted).2
    rw [serializeRuntime, occursIn_generate escapePattern_nulEscape hw, mentions, runtimeMembers]
    simp only [members_cons, members_nil]
    repeat rw [mentions_cons (by decide)]
    simp only [mentions, mentionsMembers, hurl, Bool.or_self]
  have hne : (serializeRuntime runtime).isEmpty = false := rfl
  have hnul := not_mem_nul_of_valid hutf8
  simp [runtimeBytesOk, hne, hlength, hnul, hutf8, hescape]

/-- What the reader makes of a written runtime configuration. -/
theorem egpRuntimeParseJson_serializeRuntime (J : JsonParser) (hreprints : Reprints N)
    (h : Storable N runtime) :
    egpRuntimeParseJson J N (serializeRuntime runtime) = .ok runtime := by
  obtain ⟨input, hprinted⟩ := h.printed
  have hpositive := h.positive
  have hload : J.load (serializeRuntime runtime) = some (.obj (runtimeMembers runtime)) :=
    J.load_generate _ (writable_runtimeMembers h) (inRange_runtimeMembers h)
  have hdup : (runtimeMembers runtime).duplicate = false :=
    duplicate_of_writableMembers _ (writable_runtimeMembers h)
  have hsize : (runtimeMembers runtime).size = 3 := rfl
  have hschema : runtimeInteger (runtimeMembers runtime) (ascii "schema_version") =
      some egpSchemaVersion := rfl
  have hgeneration : runtimeInteger (runtimeMembers runtime) (ascii "generation") =
      some (gint64 runtime.generation) := rfl
  have hurl : runtimeString (runtimeMembers runtime) (ascii "ota_server_base_url")
      (egpEndpointMaxBytes + 1) = some runtime.otaServerBaseUrl :=
    stringMember_of_find _ _ rfl (Nat.lt_succ_of_le (length_of_canonicalize hprinted))
  rw [StoreRoundTrip.gint64_of_le h.bounded] at hgeneration
  have hnonzero : ¬ runtime.generation = 0 := by omega
  have hobject : runtimeOfObject N (runtimeMembers runtime) = some runtime := by
    simp [runtimeOfObject, hschema, hsize, hgeneration, hurl, hnonzero,
      canonicalize_fixed hreprints hprinted]
  rw [egpRuntimeParseJson, runtimeBytesOk_serializeRuntime h, hload]
  simp [hdup, hschema, hobject]

/-! ## The committed endpoint -/

theorem storable_nextRuntime {candidateUrl url : Bytes} {previous : Option EgpRuntimeConfig}
    (hurl : egpEndpointCanonicalize N candidateUrl = .ok url)
    (hroom : runtimeHasRoom previous = true) : Storable N (nextRuntime url previous) where
  printed := ⟨candidateUrl, hurl⟩
  positive := by cases previous <;> simp [nextRuntime]
  bounded := generation_nextRuntime_le hroom url

/-- A file with a written runtime configuration in it, as `atomic_write_at` leaves it:
of mode 0600, which the readers on both sides ask for. -/
def runtimeFile (runtime : EgpRuntimeConfig) : File := ⟨true, serializeRuntime runtime⟩

theorem length_serializeRuntime (h : Storable N runtime) :
    (serializeRuntime runtime).length ≤ egpStoreMaxBytes := by
  obtain ⟨input, hprinted⟩ := h.printed
  exact length_serializeRuntime_le h.bounded (length_of_canonicalize hprinted)

/-- The store reads back what it wrote. -/
theorem loadRuntimePath_runtimeFile (J : JsonParser) (hreprints : Reprints N)
    (h : Storable N runtime) :
    loadRuntimePath J N none (some (runtimeFile runtime)) = .ok (some runtime) := by
  have hread : readPrivateFile none (some (runtimeFile runtime)) =
      .ok (some (serializeRuntime runtime)) := by
    simp [readPrivateFile, runtimeFile, Nat.not_lt.mpr (length_serializeRuntime h)]
  rw [loadRuntimePath, hread]
  simp only [egpRuntimeParseJson_serializeRuntime J hreprints h]
  rfl

/-- What the agent makes of its immutable default and a committed endpoint. -/
def overridden (N : NetLibrary) (config : OtaConfig) (url : Bytes) :
    Except OtaError CycleConfig :=
  if (egpEndpointCanonicalize N config.baseUrl).toOption = some config.baseUrl then
    .ok ⟨{ config with baseUrl := url }, true, .zero⟩
  else
    .error (otaErrorSet .configInvalid
      (ascii "Immutable endpoint default is invalid or non-canonical"))

/-- The agent takes the endpoint of a runtime file that it can read. -/
theorem otaRuntimeEndpointRefresh_of_read {J : JsonParser} {file : Option File} {data : Bytes}
    (hread : readRuntime none file = .ok (some data))
    (hparse : egpRuntimeParseJson J N data = .ok runtime)
    (hlength : runtime.otaServerBaseUrl.length ≤ otaEndpointMaxBytes) (config : OtaConfig) :
    otaRuntimeEndpointRefresh J N none file config =
      overridden N config runtime.otaServerBaseUrl := by
  by_cases hdefault : (egpEndpointCanonicalize N config.baseUrl).toOption = some config.baseUrl
  · have hne : ¬ ((egpEndpointCanonicalize N config.baseUrl).toOption != some config.baseUrl) =
        true := by simpa using hdefault
    rw [otaRuntimeEndpointRefresh, if_neg hne, overridden, if_pos hdefault, hread]
    simp only [hparse]
    rw [if_neg (Nat.not_lt.mpr hlength)]
  · have hne : ((egpEndpointCanonicalize N config.baseUrl).toOption != some config.baseUrl) =
        true := bne_iff_ne.mpr hdefault
    rw [otaRuntimeEndpointRefresh, if_pos hne, overridden, if_neg hdefault]

/-- The agent takes the endpoint that the store wrote. -/
theorem otaRuntimeEndpointRefresh_runtimeFile (J : JsonParser) (hreprints : Reprints N)
    (h : Storable N runtime) (config : OtaConfig) :
    otaRuntimeEndpointRefresh J N none (some (runtimeFile runtime)) config =
      overridden N config runtime.otaServerBaseUrl := by
  obtain ⟨input, hprinted⟩ := h.printed
  have hread : readRuntime none (some (runtimeFile runtime)) =
      .ok (some (serializeRuntime runtime)) := by
    have hne : (serializeRuntime runtime).isEmpty = false := rfl
    have hlong : ¬ egpStoreMaxBytes < (serializeRuntime runtime).length :=
      Nat.not_lt.mpr (length_serializeRuntime h)
    simp only [readRuntime, runtimeFile, hne, hlong, reduceCtorEq, if_false, decide_false,
      Bool.not_true, Bool.or_self, Bool.false_eq_true]
  exact otaRuntimeEndpointRefresh_of_read hread
    (egpRuntimeParseJson_serializeRuntime J hreprints h) (length_of_canonicalize hprinted) config

/-- The committed runtime configuration is in its file. -/
theorem committed_of_value (J : JsonParser) {io : ReplaceIo} {d : Directory}
    {candidateUrl : Bytes} {v : ReplacedRuntime}
    (h : (egpStoreReplaceRuntime J N io d candidateUrl).value = some v) :
    Storable N v.committed ∧
      d.run (egpStoreReplaceRuntime J N io d candidateUrl).acts .runtime =
        some (runtimeFile v.committed) := by
  rcases replaceRuntimeCases J N io d candidateUrl with
    hr | ⟨url, previous, hurl, -, hroom, houtcome⟩
  · rw [hr.value] at h
    cases h
  · obtain ⟨rfl, hfiles⟩ := houtcome.of_value h
    exact ⟨storable_nextRuntime hurl hroom, congrArg Files.runtime hfiles⟩

/-- The three validators agree on every printed URL, and so every endpoint that the
store commits is read back by the daemon and taken by the agent. -/
theorem canonical_endpoint (J : JsonParser) (N : NetLibrary) (hreprints : Reprints N) :
    (∀ input url, egpEndpointCanonicalize N input = .ok url →
      url.length ≤ egpEndpointMaxBytes ∧ egpEndpointCanonicalize N url = .ok url ∧
        baseUrlValid N url = true) ∧
    ∀ io d candidateUrl v, (egpStoreReplaceRuntime J N io d candidateUrl).value = some v →
      ∃ data, d.run (egpStoreReplaceRuntime J N io d candidateUrl).acts .runtime =
          some ⟨true, data⟩ ∧
        egpRuntimeParseJson J N data = .ok v.committed ∧
        loadRuntimePath J N none (some ⟨true, data⟩) = .ok (some v.committed) ∧
        ∀ config, otaRuntimeEndpointRefresh J N none (some ⟨true, data⟩) config =
          overridden N config v.committed.otaServerBaseUrl := by
  constructor
  · intro input url h
    have hlength := length_of_canonicalize h
    obtain ⟨server, haccepted, -, rfl⟩ := canonical_of_canonicalize hreprints h
    refine ⟨hlength, canonicalize_fixed hreprints h, baseUrlValid_server haccepted ?_⟩
    simp only [Server.text, List.length_append] at hlength
    have hhost : server.host.length ≤ server.hostText.length := by
      unfold Server.hostText
      split
      · simp only [List.length_cons, List.length_append]
        omega
      · omega
    unfold egpEndpointMaxBytes at hlength
    omega
  · intro io d candidateUrl v h
    obtain ⟨hstorable, hfile⟩ := committed_of_value J h
    exact ⟨serializeRuntime v.committed, hfile,
      egpRuntimeParseJson_serializeRuntime J hreprints hstorable,
      loadRuntimePath_runtimeFile J hreprints hstorable,
      otaRuntimeEndpointRefresh_runtimeFile J hreprints hstorable⟩

private theorem strdown_numericDotted {host : Bytes} (h : numericDotted host = true) :
    strdown host = host := by
  refine (List.map_congr_left fun b hb => ?_).trans (List.map_id host)
  have hbyte := List.all_eq_true.mp h b hb
  refine (toLower_eq_iff (.inl ?_)).mpr rfl
  simp only [isDigit, Bool.or_eq_true, Bool.and_eq_true, decide_eq_true_eq, beq_iff_eq,
    UInt8.le_iff_toNat_le, ← UInt8.toNat_inj, UInt8.reduceToNat] at hbyte
  show b < 0x41
  simp only [UInt8.lt_iff_toNat_lt, UInt8.reduceToNat]
  omega

private theorem isDotted_strdown (host : Bytes) : isDotted (strdown host) = isDotted host := by
  cases hdotted : numericDotted host with
  | true => rw [strdown_numericDotted hdotted]
  | false =>
      have hfalse : ∀ text, numericDotted text = false → isDotted text = false := by
        intro text htext
        rw [isDotted, ← numericDotted, htext, Bool.false_and, Bool.false_and]
      rw [hfalse host hdotted, hfalse _ ((numericDotted_strdown host).trans hdotted)]

/-- The laws of the library are those of the functions used in the samples. -/
theorem reprints_referenceLibrary : Reprints referenceLibrary where
  nonempty := rfl
  text := by
    intro host text hip _ htext
    have hdotted : isDotted host = true := hip
    simp only [referenceLibrary, hdotted, if_true, Option.some.injEq] at htext
    subst htext
    exact ⟨hip, by simp [referenceLibrary, hdotted]⟩
  caseless := by
    intro host _
    simp only [referenceLibrary, isDotted_strdown]
    refine ⟨trivial, fun hnone => ?_⟩
    split at hnone
    · cases hnone
    · rename_i hdotted
      rw [if_neg hdotted]

/-- The scheme keeps its port to itself and the name is written in lower case. -/
theorem canonical_endpoint_folded :
    egpEndpointCanonicalize referenceLibrary (ascii "http://OTA.Example:80") =
        .ok (ascii "http://ota.example") ∧
      baseUrlValid referenceLibrary (ascii "http://ota.example") = true ∧
      ∃ v data, (egpStoreReplaceRuntime JsonReader.referenceParser referenceLibrary
          ⟨0, none, none⟩ (fun _ => none) (ascii "http://OTA.Example:80")).value = some v ∧
        v.committed = ⟨1, ascii "http://ota.example"⟩ ∧
        egpRuntimeParseJson JsonReader.referenceParser referenceLibrary data = .ok v.committed := by
  have hall := canonical_endpoint JsonReader.referenceParser referenceLibrary
    reprints_referenceLibrary
  have hcanonical : egpEndpointCanonicalize referenceLibrary (ascii "http://OTA.Example:80") =
      .ok (ascii "http://ota.example") := by decide +kernel
  have hcommits : (egpStoreReplaceRuntime JsonReader.referenceParser referenceLibrary
      ⟨0, none, none⟩ (fun _ => none) (ascii "http://OTA.Example:80")).value.map (·.committed) =
      some ⟨1, ascii "http://ota.example"⟩ := by decide +kernel
  obtain ⟨v, hv, hcommitted⟩ := Option.map_eq_some_iff.mp hcommits
  obtain ⟨data, -, hparse, -, -⟩ := hall.2 _ _ _ _ hv
  exact ⟨hcanonical, (hall.1 _ _ hcanonical).2.2, v, data, hv, hcommitted, hparse⟩

end EdgeGuard.Provisioning.CanonicalEndpoint
