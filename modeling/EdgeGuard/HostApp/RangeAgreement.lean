import EdgeGuard.Agent.ContentRange
import EdgeGuard.HostApp.Artifact
import Mathlib.Algebra.GroupWithZero.Nat

/-!
# The ranges of the server and of the agent

`get_artifact` answers the header that `ota_download_bundle` sends, and the
header callback of the agent reads the answer.  Between the two stands HTTP:
the header fields may arrive in any order, with names in any case and with
further fields between them.

## Main results

* `callbacks_fields` — what the header callback has seen behind the fields.
* `ranges_agree` — an answer to the agent's request is the rest of the
  artifact, and the agent takes it as exactly that.
-/

namespace EdgeGuard.HostApp.RangeAgreement

open EdgeGuard.Base.CText EdgeGuard.Agent.Model EdgeGuard.Agent.Download
  EdgeGuard.Agent.ContentRange EdgeGuard.HostApp.Artifact

/-! ## The request -/

/-- The `Range` header of `ota_download_bundle`: `range` of its 32 bytes, behind the
unit that libcurl writes. -/
def requestRange (partialSize : Nat) : Option Bytes :=
  if partialSize = 0 then none
  else some (ascii "bytes=" ++ (decimal partialSize ++ ascii "-").take 31)

/-- A header value as the server decodes it. -/
def latin1 (value : Bytes) : Str := value.map fun b => Char.ofNat b.toNat

/-! ## The answer on its way -/

def contentRangeName : Bytes := ascii "content-range"
def contentLengthName : Bytes := ascii "content-length"
def contentEncodingName : Bytes := ascii "content-encoding"

abbrev Field := Bytes × Bytes

/-- The values of the fields with a name, which is compared without case. -/
def valuesOf (name : Bytes) (fields : List Field) : List Bytes :=
  (fields.filter fun field => strdown field.1 == name).map (·.2)

def fieldLine (field : Field) : Bytes := field.1 ++ 0x3a :: 0x20 :: (field.2 ++ [0x0d, 0x0a])

/-- A field name: a token, of which only this much is used. -/
def isFieldName (name : Bytes) : Bool :=
  !name.isEmpty && name.all fun b => !isSpace b && b != 0x3a && b != 0x2f && b != 0

/-- The lines of a response that HTTP delivers for the answer. -/
structure Delivered (answer : Artifact.Response) (lines : List Bytes) : Prop where
  wire : ∃ version reason fields,
    lines = (ascii "HTTP/" ++ version ++ 0x20 :: (decimal answer.status ++ reason ++ [0x0d, 0x0a])) ::
      (fields.map fieldLine ++ [[0x0d, 0x0a]]) ∧
    (0x20 ∉ version ∧ 0 ∉ version ∧ (reason = [] ∨ reason.head? = some 0x20) ∧ 0 ∉ reason) ∧
    (∀ field ∈ fields, isFieldName field.1 = true ∧ 0 ∉ field.2) ∧
    ∀ name ∈ [contentRangeName, contentLengthName, contentEncodingName],
      valuesOf name fields = valuesOf name answer.headers
  size : (lines.map List.length).sum ≤ 65536

/-! ## Lines of a header -/

theorem rdropWhile_append {q : UInt8 → Bool} {z : UInt8} (hz : q z = false) (xs ys : Bytes) :
    (xs ++ z :: ys).rdropWhile q = xs ++ z :: ys.rdropWhile q := by
  induction ys using List.reverseRecOn with
  | nil => exact List.rdropWhile_concat_neg q xs z (by simp [hz])
  | append_singleton ys y ih =>
      rw [← List.cons_append, ← List.append_assoc]
      by_cases hy : q y = true
      · rw [List.rdropWhile_concat_pos q _ y hy, List.rdropWhile_concat_pos q _ y hy]
        exact ih
      · rw [List.rdropWhile_concat_neg q _ y hy, List.rdropWhile_concat_neg q _ y hy,
          List.append_assoc, List.cons_append]

theorem rdropWhile_crlf (xs : Bytes) :
    (xs ++ [0x0d, 0x0a]).rdropWhile isSpace = xs.rdropWhile isSpace := by
  have hsplit : xs ++ [0x0d, 0x0a] = (xs ++ [0x0d]) ++ [0x0a] := by simp
  rw [hsplit, List.rdropWhile_concat_pos _ _ _ (by decide),
    List.rdropWhile_concat_pos _ _ _ (by decide)]

/-- A value without white space around it. -/
structure Trimmed (value : Bytes) : Prop where
  first : ∃ b rest, value = b :: rest ∧ isSpace b = false
  last : ∃ front z, value = front ++ [z] ∧ isSpace z = false

/-- A header value is received without the white space around it. -/
theorem strstrip_wire {value : Bytes} (h : Trimmed value) :
    strstrip ((0x20 :: (value ++ [0x0d, 0x0a])).rdropWhile isSpace) = value := by
  obtain ⟨front, z, hlast, hz⟩ := h.last
  obtain ⟨b, rest, hfirst, hb⟩ := h.first
  have hkeep : ∀ xs : Bytes, (xs ++ value).rdropWhile isSpace = xs ++ value := by
    intro xs
    rw [hlast, ← List.append_assoc]
    exact List.rdropWhile_concat_neg _ _ _ (by simp [hz])
  have hwire : (0x20 :: (value ++ [0x0d, 0x0a])).rdropWhile isSpace = 0x20 :: value := by
    rw [← List.cons_append, rdropWhile_crlf]
    exact hkeep [0x20]
  have hspace : isSpace 0x20 = true := by decide
  have hdrop : (0x20 :: value).dropWhile isSpace = value := by
    rw [List.dropWhile_cons, if_pos hspace, hfirst, List.dropWhile_cons, if_neg (by simp [hb])]
  rw [hwire, strstrip, hdrop]
  exact hkeep []

theorem isSpace_of_isDigit {b : UInt8} (h : isDigit b = true) : isSpace b = false := by
  simp only [isDigit, Bool.and_eq_true, decide_eq_true_eq, UInt8.le_iff_toNat_le] at h
  have hfirst : 0x30 ≤ b.toNat := h.1
  have hmore : ∀ c : UInt8, c.toNat < 0x30 → b ≠ c := by
    rintro c hc rfl
    omega
  simp [isSpace, hmore 0x20 (by decide), hmore 0x09 (by decide), hmore 0x0a (by decide),
hmore 0x0c (by decide), hmore 0x0d (by decide)]

theorem last_decimal (n : Nat) : ∃ front z, decimal n = front ++ [z] ∧ isSpace z = false := by
  have hne := decimal_ne_nil n
  refine ⟨(decimal n).dropLast, (decimal n).getLast hne,
    (List.dropLast_append_getLast hne).symm, ?_⟩
  exact isSpace_of_isDigit (isDigit_of_mem_decimal n _ (List.getLast_mem hne))

theorem trimmed_decimal (n : Nat) : Trimmed (decimal n) := by
  refine ⟨?_, last_decimal n⟩
  cases hdecimal : decimal n with
  | nil => exact absurd hdecimal (decimal_ne_nil n)
  | cons b rest =>
      exact ⟨b, rest, rfl, isSpace_of_isDigit (isDigit_of_mem_decimal n b (by simp [hdecimal]))⟩

theorem trimmed_rangeText (a b : Bytes) (n : Nat) : Trimmed (rangeText a b (decimal n)) := by
  obtain ⟨front, z, hlast, hz⟩ := last_decimal n
  refine ⟨⟨0x62, _, rfl, by decide⟩,
    ascii "bytes " ++ (a ++ 0x2d :: (b ++ 0x2f :: front)), z, ?_, hz⟩
  rw [rangeText, hlast]
  simp

/-! ## The header callback -/

section Headers

variable {t : Transfer} (io : HeaderIo)

theorem fits_buffer {data : Bytes} (hsize : t.headerBytes + data.length ≤ 65536)
    (hnul : 0 ∉ data) :
    ¬ (65536 - t.headerBytes < data.length || data.contains 0) = true := by
  simp only [Bool.or_eq_true, decide_eq_true_eq, List.contains_eq_mem, not_or]
  exact ⟨by omega, hnul⟩

/-- A status line of the three digits `a`, `b` and `c`. -/
theorem headers_status {version reason : Bytes} {status : Nat} {a b c : UInt8}
    (hdigits : decimal status = [a, b, c]) (hversion : 0x20 ∉ version ∧ 0 ∉ version)
    (hreason : (reason = [] ∨ reason.head? = some 0x20) ∧ 0 ∉ reason)
    (hdone : t.headersDone = false)
    (hsize : t.headerBytes + (ascii "HTTP/" ++ version ++
      0x20 :: (decimal status ++ reason ++ [0x0d, 0x0a])).length ≤ 65536) :
    headers t (ascii "HTTP/" ++ version ++ 0x20 :: (decimal status ++ reason ++ [0x0d, 0x0a])) io =
      Transfer.goesOn { t with
        headerBytes := t.headerBytes + (ascii "HTTP/" ++ version ++
          0x20 :: (decimal status ++ reason ++ [0x0d, 0x0a])).length
        status := status, rangeSeen := false, lengthSeen := false, encodingSeen := false
        range := [] } := by
  have hisDigit := isDigit_of_mem_decimal status
  have hvalue := decimalValue_decimal status
  rw [hdigits] at hisDigit hvalue
  have ha := hisDigit a (by simp)
  have hb := hisDigit b (by simp)
  have hc := hisDigit c (by simp)
  have hnul : (0 : UInt8) ∉ ascii "HTTP/" ++ version ++
      0x20 :: (decimal status ++ reason ++ [0x0d, 0x0a]) := by
    have hdigit : ∀ d : UInt8, isDigit d = true → (0 : UInt8) ≠ d := by
      rintro d hd rfl
      cases hd
    have hhttp : (0 : UInt8) ∉ ascii "HTTP/" := by decide
    simp [hdigits, hversion.2, hreason.2, hhttp, hdigit a ha, hdigit b hb, hdigit c hc]
  -- what `g_strchomp` leaves
  have hbehind : (reason.rdropWhile isSpace).isEmpty = true ∨
      (reason.rdropWhile isSpace).head? = some 0x20 := by
    have hfront := List.rdropWhile_prefix isSpace reason
    cases hrest : reason.rdropWhile isSpace with
    | nil => exact .inl rfl
    | cons x rest =>
        right
        rw [hrest] at hfront
        obtain ⟨tail, htail⟩ := hfront
        rcases hreason.1 with hnil | hhead
        · rw [hnil] at htail
          cases htail
        · rw [← htail] at hhead
          exact hhead
  have hline : (ascii "HTTP/" ++ version ++
      0x20 :: (decimal status ++ reason ++ [0x0d, 0x0a])).rdropWhile isSpace =
        ascii "HTTP/" ++ version ++ 0x20 :: a :: b :: c :: reason.rdropWhile isSpace := by
    have hsplit : ascii "HTTP/" ++ version ++ 0x20 :: (decimal status ++ reason ++ [0x0d, 0x0a]) =
        (ascii "HTTP/" ++ version ++ [0x20, a, b]) ++ c :: (reason ++ [0x0d, 0x0a]) := by
      rw [hdigits]
      simp
    rw [hsplit, rdropWhile_append (isSpace_of_isDigit hc), rdropWhile_crlf]
    simp
  have hstarts : (ascii "HTTP/").isPrefixOf
      (ascii "HTTP/" ++ version ++ 0x20 :: a :: b :: c :: reason.rdropWhile isSpace) = true := by
    rw [List.isPrefixOf_iff_prefix, List.append_assoc]
    exact List.prefix_append _ _
  have hspace : (ascii "HTTP/" ++ version ++
      0x20 :: a :: b :: c :: reason.rdropWhile isSpace).dropWhile (· != 0x20) =
        0x20 :: a :: b :: c :: reason.rdropWhile isSpace := by
    rw [List.dropWhile_append_of_pos, List.dropWhile_cons, if_neg (by decide)]
    intro x hx
    have hne : x ≠ 0x20 := by
      rintro rfl
      rcases List.mem_append.mp hx with hx | hx
      · exact absurd hx (by decide)
      · exact hversion.1 hx
    simpa using hne
  have hstatus : digitOf a * 100 + digitOf b * 10 + digitOf c = status := by
    simp only [decimalValue, List.foldl_cons, List.foldl_nil] at hvalue
    omega
  rw [headers, if_neg (fits_buffer hsize hnul)]
  simp only [hline, hstarts, if_true]
  unfold statusLine statusOf
  simp only [hdone, hspace, ha, hb, hc, Bool.true_and]
  rw [if_neg (by simp), if_pos (by rcases hbehind with h | h <;> simp [h])]
  simp only [hstatus]

/-- The bytes of a field line in front of its white space. -/
theorem chomp_fieldLine (field : Field) : (fieldLine field).rdropWhile isSpace =
    field.1 ++ 0x3a :: (0x20 :: (field.2 ++ [0x0d, 0x0a])).rdropWhile isSpace :=
  rdropWhile_append (by decide) _ _

/-- A header is not taken for a status line. -/
theorem not_status_of_fieldName {name : Bytes} (h : isFieldName name = true) (rest : Bytes) :
    (ascii "HTTP/").isPrefixOf (name ++ 0x3a :: rest) = false := by
  simp only [isFieldName, Bool.and_eq_true, List.all_eq_true] at h
  have hslash : (0x2f : UInt8) ∉ name := by
    intro hmem
    have hbyte := h.2 _ hmem
    revert hbyte
    decide
  rw [Bool.eq_false_iff, ne_eq, List.isPrefixOf_iff_prefix]
  intro hhttp
  rcases List.prefix_or_prefix_of_prefix hhttp (List.prefix_append name _) with hfront | hfront
  · exact hslash (hfront.subset (by decide))
  · obtain ⟨behind, hbehind⟩ := hfront
    rw [← hbehind, List.prefix_append_right_inj] at hhttp
    cases behind with
    | nil =>
        rw [List.append_nil] at hbehind
        rw [hbehind] at hslash
        exact hslash (by decide)
    | cons b behind =>
        have hb : b = 0x3a := (List.cons_prefix_cons.mp hhttp).1
        have hcolon : (0x3a : UInt8) ∈ ascii "HTTP/" := by
          rw [← hbehind, hb]
          simp
        exact absurd hcolon (by decide)

/-- A field line is handled by `headerField`. -/
theorem headers_field {field : Field} (hname : isFieldName field.1 = true)
    (hnul : 0 ∉ field.2) (hdone : t.headersDone = false)
    (hsize : t.headerBytes + (fieldLine field).length ≤ 65536) :
    headers t (fieldLine field) io =
      headerField { t with headerBytes := t.headerBytes + (fieldLine field).length } field.1
        (strstrip ((0x20 :: (field.2 ++ [0x0d, 0x0a])).rdropWhile isSpace)) := by
  have hnot := not_status_of_fieldName hname
    ((0x20 :: (field.2 ++ [0x0d, 0x0a])).rdropWhile isSpace)
  simp only [isFieldName, Bool.and_eq_true, List.all_eq_true, Bool.not_eq_true',
    List.isEmpty_eq_false_iff] at hname
  have hcolon : (0x3a : UInt8) ∉ field.1 := by
    intro hmem
    have hbyte := hname.2 _ hmem
    revert hbyte
    decide
  have hnul' : (0 : UInt8) ∉ field.1 := by
    intro hmem
    have hbyte := hname.2 _ hmem
    revert hbyte
    decide
  have hline : (0 : UInt8) ∉ fieldLine field := by
    simp [fieldLine, hnul, hnul']
  have hsome : (field.1 ++ 0x3a :: (0x20 :: (field.2 ++ [0x0d, 0x0a])).rdropWhile isSpace).isEmpty =
      false := by
    simp
  rw [headers, if_neg (fits_buffer hsize hline)]
  simp only [chomp_fieldLine, hnot, Bool.false_eq_true, if_false, hdone, hsome,
    breakOn_byte hcolon]

/-- The empty line. -/
theorem headers_empty (hdone : t.headersDone = false) (hsize : t.headerBytes + 2 ≤ 65536) :
    headers t [0x0d, 0x0a] io = headersEnd io { t with headerBytes := t.headerBytes + 2 } := by
  have hline : ([0x0d, 0x0a] : Bytes).rdropWhile isSpace = [] := rdropWhile_crlf []
  have hnot : (ascii "HTTP/").isPrefixOf [] = false := by decide
  rw [headers, if_neg (fits_buffer hsize (by decide))]
  simp only [hline, hnot, Bool.false_eq_true, if_false, hdone, List.isEmpty_nil, if_true,
    List.length_cons, List.length_nil]

/-- Callbacks that go on are followed by those behind them. -/
theorem callbacks_append {cs ds : List Callback} {t' : Transfer}
    (h : callbacks t cs = ⟨t', [], true⟩) : callbacks t (cs ++ ds) = callbacks t' ds := by
  induction cs generalizing t with
  | nil =>
      cases h
      rfl
  | cons c cs ih =>
      rw [callbacks] at h
      by_cases hok : (callback t c).ok = true
      · simp only [hok, if_true] at h
        have hsplit := Called.mk.inj h
        have hacts := List.append_eq_nil_iff.mp hsplit.2.1
        have hrest : callbacks (callback t c).transfer cs = ⟨t', [], true⟩ := by
          rw [← hsplit.1, ← hsplit.2.2, ← hacts.2]
        rw [List.cons_append, callbacks]
        simp only [hok, if_true, ih hrest, hacts.1, List.nil_append]
      · simp only [hok] at h
        have hsplit := congrArg Called.ok h
        exact absurd hsplit hok

/-! ## The fields of an answer -/

/-- The `Content-Range` that was seen. -/
def seenRange (t : Transfer) : List Bytes := if t.rangeSeen then [t.range] else []

/-- The `Content-Length` that was seen. -/
def seenLength (t : Transfer) : List Bytes := if t.lengthSeen then [decimal t.length] else []

/-- What the fields leave alone. -/
structure Carries (t t' : Transfer) : Prop where
  partialSize : t'.partialSize = t.partialSize
  expected : t'.expected = t.expected
  status : t'.status = t.status
  headersDone : t'.headersDone = t.headersDone

theorem valuesOf_cons (name : Bytes) (field : Field) (fields : List Field) :
    valuesOf name (field :: fields) =
      if strdown field.1 == name then field.2 :: valuesOf name fields
      else valuesOf name fields := by
  unfold valuesOf
  rw [List.filter_cons]
  split <;> rfl

theorem append_cons_eq_singleton {α : Type} {xs ys : List α} {x y : α} (h : xs ++ x :: ys = [y]) :
    xs = [] ∧ x = y ∧ ys = [] := by
  cases xs with
  | nil =>
      obtain ⟨hx, hys⟩ := List.cons.inj h
      exact ⟨rfl, hx, hys⟩
  | cons z xs =>
      have hlength := congrArg List.length h
      simp only [List.cons_append, List.length_cons, List.length_append, List.length_nil] at hlength
      omega

theorem append_cons_eq_toList {α : Type} {xs ys : List α} {x : α} {o : Option α}
    (h : xs ++ x :: ys = o.toList) : xs = [] ∧ o = some x ∧ ys = [] := by
  cases o with
  | none => simp at h
  | some y =>
      obtain ⟨hxs, rfl, hys⟩ := append_cons_eq_singleton h
      exact ⟨hxs, rfl, hys⟩

/-- One field is read, whatever its name is; the fields behind it are still to be seen. -/
theorem field_read {range : Option Bytes} {length : Nat}
    (hrange : ∀ r ∈ range, Trimmed r ∧ r.length < 128) (hlength : length ≤ int64Max)
    {field : Field} {fields : List Field} (hname : isFieldName field.1 = true)
    (hnul : 0 ∉ field.2) (hdone : t.headersDone = false)
    (hline : t.headerBytes + (fieldLine field).length ≤ 65536)
    (hranges : seenRange t ++ valuesOf contentRangeName (field :: fields) = range.toList)
    (hlengths : seenLength t ++ valuesOf contentLengthName (field :: fields) = [decimal length])
    (hencodings : valuesOf contentEncodingName (field :: fields) = []) :
    ∃ t', headers t (fieldLine field) io = t'.goesOn ∧ Carries t t' ∧
      t'.headerBytes = t.headerBytes + (fieldLine field).length ∧
      seenRange t' ++ valuesOf contentRangeName fields = range.toList ∧
      seenLength t' ++ valuesOf contentLengthName fields = [decimal length] ∧
      valuesOf contentEncodingName fields = [] := by
  rw [headers_field io hname hnul hdone hline]
  rw [valuesOf_cons] at hranges hlengths hencodings
  by_cases hr : strdown field.1 = contentRangeName
  · have hl : (contentRangeName == contentLengthName) = false := by decide
    have he : (contentRangeName == contentEncodingName) = false := by decide
    simp only [hr, beq_self_eq_true, if_true, hl, he, Bool.false_eq_true, if_false]
      at hranges hlengths hencodings
    obtain ⟨hseen, hvalue⟩ := append_cons_eq_toList hranges
    obtain ⟨htrimmed, hshort⟩ := hrange field.2 (by rw [hvalue.1]; rfl)
    have hfresh : t.rangeSeen = false := by
      by_contra hset
      rw [seenRange, if_pos (by simpa using hset)] at hseen
      cases hseen
    refine ⟨{ t with
      headerBytes := t.headerBytes + (fieldLine field).length
      rangeSeen := true
      range := field.2 }, ?_, ⟨rfl, rfl, rfl, rfl⟩, rfl, ?_, hlengths, hencodings⟩
    · have hsmall : ¬ 128 ≤ field.2.length := by omega
      rw [headerField, if_pos (by rw [hr]; rfl), strstrip_wire htrimmed]
      simp [hfresh, hsmall]
    · rw [hvalue.2, List.append_nil, hvalue.1]
      rfl
  · by_cases hl : strdown field.1 = contentLengthName
    · have he : (contentLengthName == contentEncodingName) = false := by decide
      have hr' : (contentLengthName == contentRangeName) = false := by decide
      simp only [hl, beq_self_eq_true, if_true, hr', he, Bool.false_eq_true, if_false]
        at hranges hlengths hencodings
      obtain ⟨hseen, hvalue, hnone⟩ := append_cons_eq_singleton hlengths
      have hfresh : t.lengthSeen = false := by
        by_contra hset
        rw [seenLength, if_pos (by simpa using hset)] at hseen
        cases hseen
      have hread : decimalNumber (decimal length) = some (length, []) :=
        decimalNumber_eq_some_iff.mpr ⟨_, (List.append_nil _).symm,
          denotes_decimal hlength, ends_nil⟩
      refine ⟨{ t with
        headerBytes := t.headerBytes + (fieldLine field).length
        length := length
        lengthSeen := true }, ?_, ⟨rfl, rfl, rfl, rfl⟩, rfl, hranges, ?_, hencodings⟩
      · rw [headerField, if_neg (by rw [hl]; decide), if_pos (by rw [hl]; rfl), hvalue,
          strstrip_wire (trimmed_decimal length), hread]
        simp only [hfresh]
      · rw [hnone, List.append_nil]
        rfl
    · by_cases he : strdown field.1 = contentEncodingName
      · rw [if_pos (by simp [he])] at hencodings
        cases hencodings
      · rw [if_neg (by simpa using hr)] at hranges
        rw [if_neg (by simpa using hl)] at hlengths
        rw [if_neg (by simpa using he)] at hencodings
        refine ⟨{ t with headerBytes := t.headerBytes + (fieldLine field).length }, ?_,
          ⟨rfl, rfl, rfl, rfl⟩, rfl, hranges, hlengths, hencodings⟩
        rw [headerField, if_neg (by simpa [contentRangeName] using hr),
          if_neg (by simpa [contentLengthName] using hl),
          if_neg (by simpa [contentEncodingName] using he)]

/-- The fields are read into the transfer, in whatever order they arrive. -/
theorem callbacks_fields {range : Option Bytes} {length : Nat}
    (hrange : ∀ r ∈ range, Trimmed r ∧ r.length < 128) (hlength : length ≤ int64Max)
    (fields : List Field) (hfields : ∀ field ∈ fields, isFieldName field.1 = true ∧ 0 ∉ field.2)
    (t : Transfer) (hdone : t.headersDone = false)
    (hsize : t.headerBytes + ((fields.map fieldLine).map List.length).sum ≤ 65536)
    (hranges : seenRange t ++ valuesOf contentRangeName fields = range.toList)
    (hlengths : seenLength t ++ valuesOf contentLengthName fields = [decimal length])
    (hencodings : valuesOf contentEncodingName fields = []) :
    ∃ t', callbacks t (fields.map fun field => .header (fieldLine field) io) = ⟨t', [], true⟩ ∧
      Carries t t' ∧
      t'.headerBytes = t.headerBytes + ((fields.map fieldLine).map List.length).sum ∧
      seenRange t' = range.toList ∧ seenLength t' = [decimal length] := by
  induction fields generalizing t with
  | nil =>
      refine ⟨t, rfl, ⟨rfl, rfl, rfl, rfl⟩, rfl, ?_, ?_⟩
      · simpa [valuesOf] using hranges
      · simpa [valuesOf] using hlengths
  | cons field fields ih =>
      obtain ⟨hname, hnul⟩ := hfields field (by simp)
      have hrest := ih fun f hf => hfields f (by simp [hf])
      simp only [List.map_cons, List.sum_cons] at hsize ⊢
      have hline : t.headerBytes + (fieldLine field).length ≤ 65536 := by omega
      obtain ⟨t₁, heq, hcarries, hbytes, hranges₁, hlengths₁, hencodings₁⟩ :=
        field_read io hrange hlength hname hnul hdone hline hranges hlengths hencodings
      obtain ⟨t', hcalls, hcarries', hbytes', hseen⟩ := hrest t₁
        (by rw [hcarries.headersDone]; exact hdone) (by rw [hbytes]; omega)
        hranges₁ hlengths₁ hencodings₁
      refine ⟨t', ?_, ?_, ?_, hseen⟩
      · rw [callbacks]
        simp only [callback, heq, Transfer.goesOn, if_true, hcalls, List.nil_append]
      · exact ⟨hcarries'.partialSize.trans hcarries.partialSize,
          hcarries'.expected.trans hcarries.expected, hcarries'.status.trans hcarries.status,
          hcarries'.headersDone.trans hcarries.headersDone⟩
      · rw [hbytes', hbytes]
        omega

end Headers

/-! ## The answer at the agent -/

section Delivery

variable {answer : Artifact.Response} {lines : List Bytes} (io : HeaderIo)
  (position partialSize expected : Nat)

/-- The lines of an answer end in `headersEnd`, with its fields in the transfer. -/
theorem delivered_end {range : Option Bytes} {length : Nat} {a b c : UInt8}
    (h : Delivered answer lines) (hstatus : decimal answer.status = [a, b, c])
    (hrange : ∀ r ∈ range, Trimmed r ∧ r.length < 128) (hlength : length ≤ int64Max)
    (hranges : valuesOf contentRangeName answer.headers = range.toList)
    (hlengths : valuesOf contentLengthName answer.headers = [decimal length])
    (hencodings : valuesOf contentEncodingName answer.headers = []) :
    ∃ t, t.partialSize = partialSize ∧ t.expected = expected ∧ t.status = answer.status ∧
      (if t.rangeSeen then some t.range else none) = range ∧
      t.lengthSeen = true ∧ t.length = length ∧
      (callbacks (.fresh position partialSize expected) (lines.map (.header · io))).transfer =
        (headersEnd io t).transfer ∧
      (callbacks (.fresh position partialSize expected) (lines.map (.header · io))).ok =
        (headersEnd io t).ok := by
  obtain ⟨version, reason, fields, hlines, ⟨hspace, hnul, hreason, hreason'⟩, hfields, hsame⟩ :=
    h.wire
  have hsize := h.size
  rw [hlines] at hsize ⊢
  generalize hfirst : ascii "HTTP/" ++ version ++
    0x20 :: (decimal answer.status ++ reason ++ [0x0d, 0x0a]) = first at hsize ⊢
  simp only [List.map_cons, List.map_append, List.sum_cons, List.sum_append, List.map_nil,
    List.sum_nil, List.length_cons, List.length_nil] at hsize
  have hcall : headers (.fresh position partialSize expected) first io =
      Transfer.goesOn { Transfer.fresh position partialSize expected with
        headerBytes := 0 + first.length
        status := answer.status } := by
    rw [← hfirst]
    refine headers_status io hstatus ⟨hspace, hnul⟩ ⟨hreason, hreason'⟩ rfl ?_
    rw [hfirst]
    show 0 + first.length ≤ 65536
    omega
  obtain ⟨t', hcalls, hcarries, hbytes, hseen, hseen'⟩ := callbacks_fields io hrange hlength fields
    hfields { Transfer.fresh position partialSize expected with
      headerBytes := 0 + first.length
      status := answer.status } rfl (by show 0 + first.length + _ ≤ 65536; omega)
    (by rw [hsame _ (by simp), hranges]; rfl) (by rw [hsame _ (by simp), hlengths]; rfl)
    (by rw [hsame _ (by simp), hencodings])
  have hroom : t'.headerBytes + 2 ≤ 65536 := by
    rw [hbytes]
    show 0 + first.length + _ + 2 ≤ 65536
    omega
  have hempty := headers_empty io hcarries.headersDone hroom
  have hall : callbacks (.fresh position partialSize expected)
      ((first :: (fields.map fieldLine ++ [[0x0d, 0x0a]])).map (.header · io)) =
        callbacks t' [.header [0x0d, 0x0a] io] := by
    rw [List.map_cons, callbacks]
    simp only [callback, hcall, Transfer.goesOn, if_true, List.nil_append]
    rw [List.map_append, List.map_map]
    exact callbacks_append hcalls
  refine ⟨{ t' with headerBytes := t'.headerBytes + 2 }, hcarries.partialSize, hcarries.expected,
    hcarries.status, ?_, ?_, ?_, ?_, ?_⟩
  · show (if t'.rangeSeen then some t'.range else none) = range
    unfold seenRange at hseen
    by_cases hset : t'.rangeSeen = true
    · rw [if_pos hset] at hseen ⊢
      cases range with
      | none => cases hseen
      | some r => rw [(List.cons.inj hseen).1]
    · rw [if_neg hset] at hseen ⊢
      cases range with
      | none => rfl
      | some r => cases hseen
  · show t'.lengthSeen = true
    by_contra hunset
    rw [seenLength, if_neg hunset] at hseen'
    cases hseen'
  · show t'.length = length
    unfold seenLength at hseen'
    split at hseen'
    · have hvalue := congrArg (decimalValue 0) (List.cons.inj hseen').1
      rwa [decimalValue_decimal, decimalValue_decimal] at hvalue
    · cases hseen'
  · rw [hall, callbacks]
    simp only [callback, hempty]
    split <;> rfl
  · rw [hall, callbacks]
    simp only [callback, hempty]
    split
    · rename_i hok
      rw [hok]
      rfl
    · rfl

/-- The agent has taken an answer: its action, and the bytes it lets through. -/
structure Takes (r : Called) (io : HeaderIo) (action : OtaDownloadAction) (limit : Nat) : Prop where
  done : r.transfer.headersDone = true
  action : r.transfer.action = action
  limit : r.transfer.limit = limit
  ok : io = ⟨none, none⟩ → r.ok = true

/-- A full answer. -/
theorem headersEnd_full {t : Transfer} (hstatus : t.status = 200) (hpos : 1 ≤ t.expected)
    (hmax : t.expected ≤ int64Max) (hle : t.partialSize ≤ t.expected)
    (hrange : (if t.rangeSeen then some t.range else none) = none)
    (hlength : t.length = t.expected) : Takes (headersEnd io t) io .writeZero t.expected := by
  have hresponse : otaDownloadResponse t.partialSize t.expected 200 none = .ok .writeZero := by
    unfold otaDownloadResponse
    have hgood :
        (t.expected == 0 || int64Max < t.expected || t.expected < t.partialSize) = false := by
      simp only [Bool.or_eq_false_iff, decide_eq_false_iff_not, beq_eq_false_iff_ne]
      omega
    simp only [hgood, Bool.false_eq_true, if_false]
    rfl
  unfold headersEnd
  simp only [hstatus, hrange, hresponse]
  have hmatches : (t.lengthSeen && t.length != t.expected) = false := by simp [hlength]
  unfold acceptBody
  simp only [hmatches]
  cases hreset : io.reset with
  | none => exact ⟨rfl, rfl, rfl, fun _ => rfl⟩
  | some fault =>
      obtain ⟨step, errno⟩ := fault
      have hfault : io = ⟨none, none⟩ → False := by
        rintro rfl
        cases hreset
      cases step with
      | truncate | seek | sync => exact ⟨rfl, rfl, rfl, fun hio => (hfault hio).elim⟩

/-- The answer for the tail from the end of the partial file on. -/
theorem headersEnd_tail {t : Transfer} {range : Bytes} (hstatus : t.status = 206)
    (hpos : 0 < t.partialSize) (hlt : t.partialSize < t.expected) (hmax : t.expected ≤ int64Max)
    (hrange : (if t.rangeSeen then some t.range else none) = some range)
    (hexact : exactRange range t.partialSize t.expected = true)
    (hlength : t.length = t.expected - t.partialSize) :
    Takes (headersEnd io t) io .append (t.expected - t.partialSize) := by
  have hresponse : otaDownloadResponse t.partialSize t.expected 206 (some range) =
      .ok .append := by
    unfold otaDownloadResponse
    have hgood :
        (t.expected == 0 || int64Max < t.expected || t.expected < t.partialSize) = false := by
      simp only [Bool.or_eq_false_iff, decide_eq_false_iff_not, beq_eq_false_iff_ne]
      omega
    have htail : (t.partialSize != 0 && t.partialSize < t.expected &&
        (some range).any (exactRange · t.partialSize t.expected)) = true := by
      simp only [Option.any_some, hexact, Bool.and_true, Bool.and_eq_true, bne_iff_ne,
        decide_eq_true_eq]
      omega
    simp only [hgood, Bool.false_eq_true, if_false, htail]
    rfl
  unfold headersEnd
  simp only [hstatus, hrange, hresponse]
  have hmatches : (t.lengthSeen && t.length != t.expected - t.partialSize) = false := by
    simp [hlength]
  unfold acceptBody
  simp only [hmatches]
  cases hseek : io.seek with
  | none => exact ⟨rfl, rfl, rfl, fun _ => rfl⟩
  | some errno =>
      refine ⟨rfl, rfl, rfl, ?_⟩
      rintro rfl
      cases hseek

end Delivery

/-! ## The request at the server -/

theorem toNat_ofNat (b : UInt8) : (Char.ofNat b.toNat).toNat = b.toNat := by
  have hlt := b.toNat_lt
  have hvalid : b.toNat.isValidChar := .inl (by omega)
  rw [Char.ofNat, dif_pos hvalid]
  rfl

theorem isAsciiDigit_latin1 (b : UInt8) : isAsciiDigit (Char.ofNat b.toNat) = isDigit b := by
  unfold isAsciiDigit isDigit
  rw [toNat_ofNat]
  rfl

/-- Python and C read the same number from digits. -/
theorem intOf_latin1 (ds : Bytes) : intOf (latin1 ds) = decimalValue 0 ds := by
  have hfold : ∀ (ds : Bytes) (n : Nat),
      (latin1 ds).foldl (fun n c => n * 10 + ((c.toNat - 0x30 : Nat) : Int)) (n : Int) =
        decimalValue n ds := by
    intro ds
    induction ds with
    | nil => exact fun n => rfl
    | cons b ds ih =>
        intro n
        have hstep := ih (n * 10 + digitOf b)
        rw [latin1, List.map_cons, List.foldl_cons, toNat_ofNat]
        rw [Int.natCast_add, Int.natCast_mul] at hstep
        exact hstep
  exact hfold ds 0

/-- The characters of a number are digits. -/
theorem digit_of_mem_latin1 {n : Nat} {c : Char} (h : c ∈ latin1 (decimal n)) :
    isAsciiDigit c = true := by
  obtain ⟨b, hb, rfl⟩ := List.mem_map.mp h
  rw [isAsciiDigit_latin1]
  exact isDigit_of_mem_decimal n b hb

theorem not_mem_latin1_decimal {n : Nat} {c : Char} (hc : isAsciiDigit c = false) :
    c ∉ latin1 (decimal n) := by
  intro hmem
  rw [digit_of_mem_latin1 hmem] at hc
  cases hc

theorem isSpaceChar_of_digit {c : Char} (h : isAsciiDigit c = true) : isSpaceChar c = false := by
  simp only [isAsciiDigit, Bool.and_eq_true, decide_eq_true_eq] at h
  simp only [isSpaceChar, List.contains_cons, List.contains_nil, Bool.or_eq_false_iff,
    Bool.and_eq_false_iff, decide_eq_false_iff_not, beq_eq_false_iff_ne, and_true]
  omega

theorem length_decimal_of_le {n : Nat} (h : n ≤ int64Max) : (decimal n).length ≤ 19 := by
  apply length_decimal_le (by decide)
  have hmax : int64Max < 10 ^ 19 := by decide
  omega

/-- The headers of a request for the rest of the artifact. -/
def rangeHeaders (partialSize : Nat) : List Str := (requestRange partialSize).toList.map latin1

/-- A range is asked for from the received prefix on. -/
theorem rangeHeaders_eq {p : Nat} (hpos : 0 < p) (hmax : p ≤ int64Max) :
    rangeHeaders p = ["bytes=".toList ++ (latin1 (decimal p) ++ ['-'])] := by
  have hlength := length_decimal_of_le hmax
  have htake : (decimal p ++ ascii "-").take 31 = decimal p ++ ascii "-" := by
    apply List.take_of_length_le
    rw [List.length_append]
    show _ + 1 ≤ 31
    omega
  have hunit : (ascii "bytes=").map (fun b => Char.ofNat b.toNat) = "bytes=".toList := by decide
  have hdash : (ascii "-").map (fun b => Char.ofNat b.toNat) = ['-'] := by decide
  unfold rangeHeaders requestRange
  rw [if_neg (by omega), htake, Option.toList_some, List.map_singleton, latin1, List.map_append,
    List.map_append, hunit, hdash]
  rfl

/-- The server reads the request as the tail of the artifact. -/
theorem parse_request {p size : Nat} (hlt : p < size) (hmax : size ≤ int64Max) :
    parseSingleRange ("bytes=".toList ++ (latin1 (decimal p) ++ ['-'])) size
        settings.maxRangeHeaderLength settings.maxRangeNumberDigits =
      .ok ⟨p, size - 1⟩ := by
  have hlength : (latin1 (decimal p)).length ≤ 19 := by
    rw [latin1, List.length_map]
    exact length_decimal_of_le (by omega)
  have hdash : '-' ∉ latin1 (decimal p) := not_mem_latin1_decimal (by decide)
  have hcomma : ',' ∉ latin1 (decimal p) := not_mem_latin1_decimal (by decide)
  have hshort : ¬ settings.maxRangeHeaderLength <
      ("bytes=".toList ++ (latin1 (decimal p) ++ ['-'])).length := by
    rw [List.length_append, List.length_append]
    show ¬ 128 < 6 + (_ + 1)
    omega
  have hsingle : ("bytes=".toList ++ (latin1 (decimal p) ++ ['-'])).contains ',' = false := by
    simp [hcomma]
  have hunit : ("bytes=".toList).isPrefixOf ("bytes=".toList ++ (latin1 (decimal p) ++ ['-'])) =
      true := List.isPrefixOf_iff_prefix.mpr (List.prefix_append _ _)
  have hdrop : ("bytes=".toList ++ (latin1 (decimal p) ++ ['-'])).drop 6 =
      latin1 (decimal p) ++ ['-'] := rfl
  have hsyntax : ¬ ((latin1 (decimal p) ++ ['-']).count '-' ≠ 1 ∨
      (latin1 (decimal p) ++ ['-']).any isSpaceChar = true) := by
    rw [List.count_append, List.count_eq_zero_of_not_mem hdash, not_or]
    refine ⟨by simp, ?_⟩
    rw [List.any_append, Bool.or_eq_true, not_or]
    refine ⟨?_, by decide⟩
    rw [List.any_eq_true]
    rintro ⟨c, hc, hspace⟩
    rw [isSpaceChar_of_digit (digit_of_mem_latin1 hc)] at hspace
    cases hspace
  have hfirst : ∀ c ∈ latin1 (decimal p), (c != '-') = true := by
    intro c hc
    have hne : c ≠ '-' := by
      rintro rfl
      exact hdash hc
    simpa using hne
  have hstart : (latin1 (decimal p) ++ ['-']).takeWhile (· != '-') = latin1 (decimal p) := by
    rw [List.takeWhile_append_of_pos hfirst]
    simp
  have hend : ((latin1 (decimal p) ++ ['-']).dropWhile (· != '-')).tail = [] := by
    rw [List.dropWhile_append_of_pos hfirst]
    simp
  have hread : parseBoundedUint (latin1 (decimal p)) settings.maxRangeNumberDigits =
      .ok (p : Int) := by
    have hgood : ¬ ((latin1 (decimal p)).isEmpty ||
        settings.maxRangeNumberDigits < (latin1 (decimal p)).length ||
        !(latin1 (decimal p)).all isAsciiDigit) = true := by
      have hdigits : (latin1 (decimal p)).all isAsciiDigit = true :=
        List.all_eq_true.mpr fun c hc => digit_of_mem_latin1 hc
      have hsome : (latin1 (decimal p)).isEmpty = false := by
        simp [latin1, decimal_ne_nil]
      have hbound : ¬ settings.maxRangeNumberDigits < (latin1 (decimal p)).length := by
        show ¬ 20 < _
        omega
      simp only [hdigits, hsome, hbound, decide_false, Bool.or_false, Bool.not_true,
        Bool.false_eq_true, not_false_eq_true]
    rw [parseBoundedUint, if_neg hgood, intOf_latin1, decimalValue_decimal]
  have hsome : (latin1 (decimal p)).isEmpty = false := by
    simp [latin1, decimal_ne_nil]
  unfold parseSingleRange
  rw [if_neg hshort, hsingle, hunit]
  simp only [Bool.false_eq_true, if_false, Bool.not_true, hdrop]
  rw [if_neg (by simpa using hsyntax), hstart, hend]
  unfold rangeOf
  have hpositive : ¬ (size : Int) ≤ 0 := by omega
  have hwithin : ¬ (size : Int) ≤ (p : Int) := by omega
  simp only [hsome, Bool.false_and, Bool.false_eq_true, if_false, hpositive, hread, bind,
    Except.bind, hwithin, List.isEmpty_nil, if_true]

/-! ## Agreement -/

/-- The text of a range that ends with the artifact. -/
def tailText (start size : Nat) : Bytes :=
  ascii "bytes " ++ decimal start ++ ascii "-" ++ decimal (size - 1) ++ ascii "/" ++ decimal size

theorem tailText_eq (start size : Nat) :
    tailText start size = rangeText (decimal start) (decimal (size - 1)) (decimal size) := by
  have hdash : ascii "-" = [0x2d] := rfl
  have hslash : ascii "/" = [0x2f] := rfl
  rw [tailText, rangeText, hdash, hslash]
  simp

/-- The answer to a request for the tail. -/
theorem getArtifact_tail {data : Bytes} {p : Nat} (hpos : 0 < p) (hlt : p < data.length)
    (hmax : data.length ≤ int64Max) :
    getArtifact settings (.file data) (rangeHeaders p) =
      ⟨206, [acceptRanges, (ascii "Content-Length", decimal (data.length - p)),
          (ascii "Content-Range", tailText p data.length)],
        .stream (streamFileRegion data p (data.length - p : Nat) settings.streamChunkSize)⟩ := by
  have hparse := parse_request hlt hmax
  have hlength : (⟨p, (data.length : Int) - 1⟩ : ByteRange).length = (data.length - p : Nat) := by
    show (data.length : Int) - 1 - p + 1 = _
    omega
  have hfinish : (data.length : Int) - 1 = (data.length - 1 : Nat) := by omega
  rw [rangeHeaders_eq hpos (by omega)]
  unfold getArtifact
  simp only [List.length_singleton, Nat.lt_irrefl, if_false, List.head?_cons, selectRange, hparse,
    Except.map, hlength]
  rw [hfinish]
  rfl

/-- The answer without a range. -/
theorem getArtifact_full (data : Bytes) :
    getArtifact settings (.file data) [] =
      ⟨200, [acceptRanges, (ascii "Content-Length", decimal data.length)],
        .stream (streamFileRegion data 0 data.length settings.streamChunkSize)⟩ := rfl

theorem chunkSize_pos : 1 ≤ settings.streamChunkSize := by decide

/-- The body of an answer is a generator that goes through, with these bytes. -/
def BodyIs (answer : Artifact.Response) (bytes : Bytes) : Prop :=
  ∃ chunks, answer.body = .stream ⟨chunks, false⟩ ∧ chunks.flatten = bytes

/-- The body is the region of the file. -/
theorem bodyIs_stream {data : Bytes} {start length : Nat} {status : Nat} {fields : List Field}
    (hfits : start + length ≤ data.length) :
    BodyIs ⟨status, fields, .stream (streamFileRegion data start length settings.streamChunkSize)⟩
      ((data.drop start).take length) := by
  have hfits' : (start : Int) + (length : Int) ≤ data.length := by omega
  obtain ⟨hraised, hflatten⟩ := streamFileRegion_spec data chunkSize_pos
    (Int.natCast_nonneg start) (Int.natCast_nonneg length) hfits'
  generalize streamFileRegion data start length settings.streamChunkSize = streamed at *
  obtain ⟨chunks, raised⟩ := streamed
  cases hraised
  exact ⟨chunks, rfl, hflatten⟩

/-- An answer with its status, its header fields and its body. -/
structure Answers (answer : Artifact.Response) (status : Nat) (contentRange : List Bytes)
    (contentLength : Nat) (body : Bytes) : Prop where
  status : answer.status = status
  contentRange : valuesOf contentRangeName answer.headers = contentRange
  contentLength : valuesOf contentLengthName answer.headers = [decimal contentLength]
  contentEncoding : valuesOf contentEncodingName answer.headers = []
  body : BodyIs answer body

/-- To a prefix of the file the server answers with the rest of it. -/
theorem answers_tail {data : Bytes} {p : Nat} (hpos : 0 < p) (hlt : p < data.length)
    (hmax : data.length ≤ int64Max) :
    Answers (getArtifact settings (.file data) (rangeHeaders p)) 206 [tailText p data.length]
      (data.length - p) (data.drop p) := by
  rw [getArtifact_tail hpos hlt hmax]
  refine ⟨rfl, rfl, rfl, rfl, ?_⟩
  have hbody : ∀ fields, BodyIs ⟨206, fields,
      .stream (streamFileRegion data p (data.length - p : Nat) settings.streamChunkSize)⟩
        ((data.drop p).take (data.length - p)) := fun fields => bodyIs_stream (by omega)
  have hwhole : (data.drop p).take (data.length - p) = data.drop p := by
    rw [← List.length_drop, List.take_length]
  rw [hwhole] at hbody
  exact hbody _

theorem answers_full (data : Bytes) :
    Answers (getArtifact settings (.file data) []) 200 [] data.length data := by
  rw [getArtifact_full]
  refine ⟨rfl, rfl, rfl, rfl, ?_⟩
  have hbody : ∀ fields, BodyIs ⟨200, fields,
      .stream (streamFileRegion data (0 : Nat) data.length settings.streamChunkSize)⟩
        ((data.drop 0).take data.length) := fun fields => bodyIs_stream (by omega)
  rw [List.drop_zero, List.take_length] at hbody
  exact hbody _

theorem Takes.of_same {r s : Called} {io : HeaderIo} {action : OtaDownloadAction} {limit : Nat}
    (h : Takes s io action limit) (htransfer : r.transfer = s.transfer) (hok : r.ok = s.ok) :
    Takes r io action limit :=
  ⟨by rw [htransfer]; exact h.done, by rw [htransfer]; exact h.action,
    by rw [htransfer]; exact h.limit, by rw [hok]; exact h.ok⟩

/-- The agent at the answer to its own request. -/
theorem takes_tail {data : Bytes} {answer : Artifact.Response} {lines : List Bytes} {p : Nat}
    (hpos : 0 < p) (hlt : p < data.length) (hmax : data.length ≤ int64Max)
    (hanswer : Answers answer 206 [tailText p data.length] (data.length - p) (data.drop p))
    (h : Delivered answer lines) (io : HeaderIo) (position : Nat) :
    Takes (callbacks (.fresh position p data.length) (lines.map (.header · io))) io .append
      (data.length - p) := by
  have hshort : (tailText p data.length).length < 128 := by
    have hp := length_decimal_of_le (n := p) (by omega)
    have hlast := length_decimal_of_le (n := data.length - 1) (by omega)
    have htotal := length_decimal_of_le hmax
    rw [tailText]
    simp only [List.length_append]
    have hunit : (ascii "bytes ").length = 6 := rfl
    have hdash : (ascii "-").length = 1 := rfl
    have hslash : (ascii "/").length = 1 := rfl
    omega
  have hdigits : decimal answer.status = [0x32, 0x30, 0x36] := by
    rw [hanswer.status]
    rfl
  have hrange : ∀ r ∈ some (tailText p data.length), Trimmed r ∧ r.length < 128 := by
    rintro r ⟨⟩
    refine ⟨?_, hshort⟩
    rw [tailText_eq]
    exact trimmed_rangeText _ _ _
  obtain ⟨t, hkept, hexpected, hstatus, hseen, _, hlength, htransfer, hok⟩ :=
    delivered_end io position p data.length h hdigits hrange (by omega) hanswer.contentRange
      hanswer.contentLength hanswer.contentEncoding
  have hexact : exactRange (tailText p data.length) t.partialSize t.expected = true := by
    rw [hkept, hexpected, exactRange_iff hlt, tailText_eq]
    exact ⟨_, _, _, rfl, denotes_decimal (by omega), denotes_decimal (by omega),
      denotes_decimal hmax⟩
  have htail := headersEnd_tail io (hstatus.trans hanswer.status) (by omega) (by omega)
    (by omega) hseen hexact (by omega)
  rw [hkept, hexpected] at htail
  exact htail.of_same htransfer hok

/-- The agent takes the whole file from any position. -/
theorem takes_full {data : Bytes} {answer : Artifact.Response} {lines : List Bytes}
    {partialSize : Nat} (hsize : 1 ≤ data.length) (hmax : data.length ≤ int64Max)
    (hkept : partialSize ≤ data.length) (hanswer : Answers answer 200 [] data.length data)
    (h : Delivered answer lines) (io : HeaderIo) (position : Nat) :
    Takes (callbacks (.fresh position partialSize data.length) (lines.map (.header · io))) io
      .writeZero data.length := by
  have hdigits : decimal answer.status = [0x32, 0x30, 0x30] := by
    rw [hanswer.status]
    rfl
  have hrange : ∀ r ∈ (none : Option Bytes), Trimmed r ∧ r.length < 128 := by
    rintro r ⟨⟩
  obtain ⟨t, hsame, hexpected, hstatus, hseen, _, hlength, htransfer, hok⟩ :=
    delivered_end io position partialSize data.length h hdigits hrange hmax hanswer.contentRange
      hanswer.contentLength hanswer.contentEncoding
  have hfull := headersEnd_full io (hstatus.trans hanswer.status) (by omega) (by omega)
    (by omega) hseen (by omega)
  rw [hexpected] at hfull
  exact hfull.of_same htransfer hok

/-- A header that is accepted selects bytes of the file, and these are streamed. -/
theorem accepted_streamed {headerValue : Str} {fileSize : Int}
    {maxHeaderLength maxNumberDigits : Nat} {r : ByteRange}
    (hparse : parseSingleRange headerValue fileSize maxHeaderLength maxNumberDigits = .ok r)
    {content : Bytes} {chunkSize : Int} (hcontent : (content.length : Int) = fileSize)
    (hchunk : 1 ≤ chunkSize) :
    ∃ chunks, streamFileRegion content r.start r.length chunkSize = ⟨chunks, false⟩ ∧
      chunks.flatten = (content.drop r.start.toNat).take (r.finish - r.start + 1).toNat ∧
      (chunks.flatten.length : Int) = r.finish - r.start + 1 := by
  have hspec := parseSingleRange_spec hparse
  have hlength : r.length = r.finish - r.start + 1 := rfl
  obtain ⟨hraised, hflatten⟩ := streamFileRegion_spec content hchunk hspec.1
    (show 0 ≤ r.length by omega) (by omega)
  generalize streamFileRegion content r.start r.length chunkSize = streamed at *
  obtain ⟨chunks, raised⟩ := streamed
  cases hraised
  refine ⟨chunks, rfl, hflatten, ?_⟩
  have htake : chunks.flatten.length = min r.length.toNat (content.length - r.start.toNat) := by
    rw [show chunks.flatten = _ from hflatten, List.length_take, List.length_drop]
  omega

/-- For every artifact up to `INT64_MAX` bytes the answer to the agent's request is the tail
from the end of the partial file on, and the agent appends exactly that many bytes; without a
`Range` header it is the whole artifact, and the agent writes it from the start.  Whatever
header is accepted, the range lies in the file and is streamed whole in chunks of any size. -/
theorem ranges_agree (data : Bytes) (hsize : 1 ≤ data.length) (hmax : data.length ≤ int64Max) :
    (∀ p, 0 < p → p < data.length →
      Answers (getArtifact settings (.file data) (rangeHeaders p)) 206 [tailText p data.length]
        (data.length - p) (data.drop p) ∧
      ∀ lines io position, Delivered (getArtifact settings (.file data) (rangeHeaders p)) lines →
        Takes (callbacks (.fresh position p data.length) (lines.map (.header · io))) io .append
          (data.drop p).length) ∧
    (Answers (getArtifact settings (.file data) []) 200 [] data.length data ∧
      ∀ lines io position partialSize, partialSize ≤ data.length →
        Delivered (getArtifact settings (.file data) []) lines →
        Takes (callbacks (.fresh position partialSize data.length) (lines.map (.header · io)))
          io .writeZero data.length) ∧
    (∀ headerValue fileSize maxHeaderLength maxNumberDigits r,
      parseSingleRange headerValue fileSize maxHeaderLength maxNumberDigits = .ok r →
        (0 ≤ r.start ∧ r.start ≤ r.finish ∧ r.finish < fileSize) ∧
        ∀ (content : Bytes) (chunkSize : Int), (content.length : Int) = fileSize → 1 ≤ chunkSize →
          ∃ chunks, streamFileRegion content r.start r.length chunkSize = ⟨chunks, false⟩ ∧
            chunks.flatten = (content.drop r.start.toNat).take (r.finish - r.start + 1).toNat ∧
            (chunks.flatten.length : Int) = r.finish - r.start + 1) := by
  refine ⟨?_, ⟨answers_full data, ?_⟩, ?_⟩
  · intro p hpos hlt
    have hanswer := answers_tail hpos hlt hmax
    refine ⟨hanswer, ?_⟩
    intro lines io position h
    rw [List.length_drop]
    exact takes_tail hpos hlt hmax hanswer h io position
  · intro lines io position partialSize hkept h
    exact takes_full hsize hmax hkept (answers_full data) h io position
  · intro headerValue fileSize maxHeaderLength maxNumberDigits r hparse
    exact ⟨parseSingleRange_spec hparse,
      fun content chunkSize hcontent hchunk => accepted_streamed hparse hcontent hchunk⟩

/-- The lines of an answer as a server may send them. -/
def sampleLines : List Bytes :=
  [ascii "HTTP/1.1 206 Partial Content", ascii "accept-ranges: bytes", ascii "content-length: 3",
    ascii "content-range: bytes 1-3/4", ascii "content-type: application/octet-stream",
    []].map (· ++ [0x0d, 0x0a])

/-- Four bytes, of which one was received. -/
theorem ranges_agree_sample :
    (1 ≤ [0x52, 0x41, 0x55, 0x43].length ∧ [0x52, 0x41, 0x55, 0x43].length ≤ int64Max) ∧
      Delivered (getArtifact settings (.file [0x52, 0x41, 0x55, 0x43]) (rangeHeaders 1))
        sampleLines ∧
      Takes (callbacks (.fresh 4 1 4) (sampleLines.map (.header · ⟨none, none⟩))) ⟨none, none⟩
        .append 3 := by
  have hdelivered : Delivered (getArtifact settings (.file [0x52, 0x41, 0x55, 0x43])
      (rangeHeaders 1)) sampleLines := by
    refine ⟨⟨ascii "1.1", ascii " Partial Content",
      [(ascii "accept-ranges", ascii "bytes"), (ascii "content-length", ascii "3"),
        (ascii "content-range", ascii "bytes 1-3/4"),
        (ascii "content-type", ascii "application/octet-stream")], ?_, ?_, ?_, ?_⟩, ?_⟩
    · decide +kernel
    · decide +kernel
    · decide +kernel
    · decide +kernel
    · decide +kernel
  refine ⟨by decide, hdelivered, ?_⟩
  exact ((ranges_agree [0x52, 0x41, 0x55, 0x43] (by decide) (by decide)).1 1 (by decide)
    (by decide)).2 sampleLines ⟨none, none⟩ 4 hdelivered

end EdgeGuard.HostApp.RangeAgreement
