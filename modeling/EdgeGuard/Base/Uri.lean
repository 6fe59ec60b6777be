import EdgeGuard.Base.CText

/-!
# The network half of GLib that the programs use

`g_uri_parse`, `g_hostname_is_ip_address` and the pair of `GInetAddress`
functions that parse and print an address are not part of the sources.
`NetLibrary` is any implementation of them together with the laws that the
clients rely on: how a URI made of a scheme, a host and a port falls into its
parts (RFC 3986), which bytes a textual address consists of, and that printing
an address keeps its family.

## Main results

* `referenceLibrary` — the laws can be met: an instance for host names and
  dotted IPv4 addresses.
-/

namespace EdgeGuard.Base.Uri

open EdgeGuard.Base.CText

/-- A parsed `GUri`; `none` as a port is -1. -/
structure Parts where
  scheme : Bytes
  userinfo : Option Bytes
  host : Option Bytes
  port : Option Nat
  path : Bytes
  query : Option Bytes
  fragment : Option Bytes

/-- The URI that has a scheme, a host and perhaps a port, and nothing else. -/
def Parts.server (scheme host : Bytes) (port : Option Nat) : Parts :=
  ⟨scheme, none, some host, port, [], none, none⟩

/-- A byte of a host name. -/
def isNameByte (b : UInt8) : Bool := isAlnum b || b == 0x2d || b == 0x2e

/-- A byte of a textual IP address without scope. -/
def isAddressByte (b : UInt8) : Bool := isXDigit b || b == 0x2e || b == 0x3a

/-- The text of a port, with its colon. -/
def portText : Option Bytes → Bytes
  | none => []
  | some digits => 0x3a :: digits

/-- The digits of a port number. -/
def portDigits (digits : Bytes) : Bool :=
  !digits.isEmpty && digits.all isDigit && decimalValue 0 digits ≤ 65535

def isHttp (scheme : Bytes) : Bool := scheme == ascii "http" || scheme == ascii "https"

structure NetLibrary where
  /-- `g_uri_parse(text, G_URI_FLAGS_NONE, …)`. -/
  uriParse : Bytes → Option Parts
  /-- `g_hostname_is_ip_address`. -/
  hostnameIsIpAddress : Bytes → Bool
  /-- `g_inet_address_to_string` of `g_inet_address_new_from_string`. -/
  inetAddressText : Bytes → Option Bytes
  uriParse_name : ∀ scheme host port, isHttp scheme = true → host ≠ [] →
    host.all isNameByte = true → (∀ digits, port = some digits → portDigits digits = true) →
      uriParse (scheme ++ ascii "://" ++ host ++ portText port) =
        some (.server scheme host (port.map (decimalValue 0)))
  uriParse_literal : ∀ scheme host port, isHttp scheme = true →
    hostnameIsIpAddress host = true → 0x3a ∈ host → 0x25 ∉ host →
    (∀ digits, port = some digits → portDigits digits = true) →
      uriParse (scheme ++ ascii "://" ++ (0x5b :: (host ++ [0x5d])) ++ portText port) =
        some (.server scheme host (port.map (decimalValue 0)))
  address_bytes : ∀ host, hostnameIsIpAddress host = true → 0x25 ∉ host →
    host.all isAddressByte = true
  address_text : ∀ host text, hostnameIsIpAddress host = true →
    inetAddressText host = some text → 0x25 ∉ host →
      text.all isAddressByte = true ∧ (0x3a ∈ text ↔ 0x3a ∈ host)

/-! ## A reference instance -/

/-- The host and the port behind `://`. -/
def readAuthority (scheme authority : Bytes) : Option Parts :=
  let host := authority.takeWhile isNameByte
  if host.isEmpty then none
  else
    match authority.dropWhile isNameByte with
    | [] => some (.server scheme host none)
    | colon :: digits =>
        if colon == 0x3a && portDigits digits then
          some (.server scheme host (some (decimalValue 0 digits)))
        else none

def readUri (text : Bytes) : Option Parts :=
  match breakOn (ascii "://") text with
  | some (scheme, authority) => if isHttp scheme then readAuthority scheme authority else none
  | none => none

/-- One of the four numbers of a dotted address. -/
def readOctet (digits : Bytes) : Bool :=
  !digits.isEmpty && digits.all isDigit && decimalValue 0 digits ≤ 255 &&
    digits == decimal (decimalValue 0 digits)

/-- A dotted IPv4 address without leading zeros. -/
def isDotted (host : Bytes) : Bool :=
  (host.all fun b => isDigit b || b == 0x2e) && (host.splitOn 0x2e).length == 4 &&
    (host.splitOn 0x2e).all readOctet

private theorem colon_not_isNameByte : isNameByte 0x3a = false := by decide

private theorem portText_head (port : Option Bytes) :
    portText port = [] ∨ ∃ digits, portText port = 0x3a :: digits := by
  cases port with
  | none => exact .inl rfl
  | some digits => exact .inr ⟨digits, rfl⟩

/-- A host ends where its port begins. -/
theorem takeWhile_portText {p : UInt8 → Bool} (hcolon : p 0x3a = false) {host : Bytes}
    (h : host.all p = true) (port : Option Bytes) :
    (host ++ portText port).takeWhile p = host := by
  rw [List.takeWhile_append_of_pos (List.all_eq_true.mp h)]
  rcases portText_head port with hp | ⟨digits, hp⟩
  · simp [hp]
  · simp [hp, hcolon]

theorem dropWhile_portText {p : UInt8 → Bool} (hcolon : p 0x3a = false) {host : Bytes}
    (h : host.all p = true) (port : Option Bytes) :
    (host ++ portText port).dropWhile p = portText port := by
  rw [List.dropWhile_append_of_pos (List.all_eq_true.mp h)]
  rcases portText_head port with hp | ⟨digits, hp⟩
  · simp [hp]
  · simp [hp, hcolon]

theorem breakOn_scheme {scheme : Bytes} (h : isHttp scheme = true) (rest : Bytes) :
    breakOn (ascii "://") (scheme ++ ascii "://" ++ rest) = some (scheme, rest) := by
  simp only [isHttp, Bool.or_eq_true, beq_iff_eq] at h
  rcases h with rfl | rfl
  · simp [breakOn, ascii, List.isPrefixOf_cons_cons]
  · simp [breakOn, ascii, List.isPrefixOf_cons_cons]

/-- A name with its port is read back. -/
private theorem readUri_name {scheme host : Bytes} {port : Option Bytes}
    (hscheme : isHttp scheme = true) (hne : host ≠ []) (hhost : host.all isNameByte = true)
    (hport : ∀ digits, port = some digits → portDigits digits = true) :
    readUri (scheme ++ ascii "://" ++ host ++ portText port) =
      some (.server scheme host (port.map (decimalValue 0))) := by
  rw [readUri, List.append_assoc, breakOn_scheme hscheme]
  simp only [hscheme, if_true, readAuthority, takeWhile_portText colon_not_isNameByte hhost,
    dropWhile_portText colon_not_isNameByte hhost, List.isEmpty_iff, hne, if_false]
  cases port with
  | none => rfl
  | some digits => simp [portText, hport digits rfl]

/-- A dotted address is made of the bytes of addresses. -/
private theorem dotted_bytes {host : Bytes} (h : isDotted host = true) :
    host.all isAddressByte = true ∧ (0x3a : UInt8) ∉ host := by
  simp only [isDotted, Bool.and_eq_true] at h
  have hall := List.all_eq_true.mp h.1.1
  constructor
  · refine List.all_eq_true.mpr fun b hb => ?_
    have hbyte := hall b hb
    simp only [Bool.or_eq_true] at hbyte
    rcases hbyte with hdigit | hdot
    · simp [isAddressByte, isXDigit, isLowerHex, hdigit]
    · simp [isAddressByte, hdot]
  · intro hmem
    exact absurd (hall _ hmem) (by decide)

/-- Host names and dotted IPv4 addresses, which print as they are written. -/
def referenceLibrary : NetLibrary where
  uriParse := readUri
  hostnameIsIpAddress := isDotted
  inetAddressText := fun host => if isDotted host then some host else none
  uriParse_name := fun _ _ _ hscheme hne hhost hport => readUri_name hscheme hne hhost hport
  uriParse_literal := fun _ _ _ _ haddress hcolon _ _ =>
    absurd hcolon (dotted_bytes haddress).2
  address_bytes := fun _ haddress _ => (dotted_bytes haddress).1
  address_text := by
    intro host text haddress htext _
    simp only [haddress, if_true, Option.some.injEq] at htext
    rw [← htext]
    exact ⟨(dotted_bytes haddress).1, Iff.rfl⟩

end EdgeGuard.Base.Uri
