import EdgeGuard.Base.CText

/-!
# The artifact endpoint of the server

`artifact_service.py` and `get_artifact` of `main.py`.  A `str` is the list of
its characters; a header that arrives over HTTP is decoded as Latin-1, and the
headers and texts of an answer are the bytes that are sent.

## Main results

* `parseSingleRange_spec` — the range of an accepted header selects bytes of the file.
* `streamFileRegion_spec` — the chunks of a region inside the file are its bytes.
-/

namespace EdgeGuard.HostApp.Artifact

open EdgeGuard.Base.CText

/-! ## `artifact_service.py` -/

abbrev Str := List Char

/-- `MalformedRangeError` and `UnsatisfiableRangeError`. -/
inductive RangeError
  | malformed (message : Bytes)
  | unsatisfiable (message : Bytes)
  deriving DecidableEq, Repr

structure ByteRange where
  start : Int
  finish : Int
  deriving DecidableEq, Repr

def ByteRange.length (r : ByteRange) : Int := r.finish - r.start + 1

/-- `str.isspace` of one character. -/
def isSpaceChar (c : Char) : Bool :=
  (0x09 ≤ c.toNat && c.toNat ≤ 0x0d) || (0x1c ≤ c.toNat && c.toNat ≤ 0x20) ||
    (0x2000 ≤ c.toNat && c.toNat ≤ 0x200a) ||
    [0x85, 0xa0, 0x1680, 0x2028, 0x2029, 0x202f, 0x205f, 0x3000].contains c.toNat

/-- The characters of a text that is both `isascii` and `isdigit`. -/
def isAsciiDigit (c : Char) : Bool := 0x30 ≤ c.toNat && c.toNat ≤ 0x39

/-- `int(value, 10)` of ASCII digits. -/
def intOf (value : Str) : Int := value.foldl (fun n c => n * 10 + (c.toNat - 0x30 : Nat)) 0

/-- `_parse_bounded_uint`. -/
def parseBoundedUint (value : Str) (maxDigits : Nat) : Except RangeError Int :=
  if value.isEmpty || maxDigits < value.length || !value.all isAsciiDigit then
    .error (.malformed (ascii "range bounds must be bounded ASCII decimal integers"))
  else .ok (intOf value)

/-- The bounds of `parse_single_range`, behind the tests of the syntax. -/
def rangeOf (startText endText : Str) (fileSize : Int) (maxNumberDigits : Nat) :
    Except RangeError ByteRange :=
  if startText.isEmpty && endText.isEmpty then
    .error (.malformed (ascii "range bounds are missing"))
  else if fileSize ≤ 0 then
    .error (.unsatisfiable (ascii "empty artifacts have no satisfiable byte range"))
  else if startText.isEmpty then do
    let suffixLength ← parseBoundedUint endText maxNumberDigits
    if suffixLength = 0 then
      .error (.unsatisfiable (ascii "zero-length suffix range is unsatisfiable"))
    else .ok ⟨max (fileSize - suffixLength) 0, fileSize - 1⟩
  else do
    let start ← parseBoundedUint startText maxNumberDigits
    if fileSize ≤ start then
      .error (.unsatisfiable (ascii "range starts beyond the artifact"))
    else if endText.isEmpty then .ok ⟨start, fileSize - 1⟩
    else do
      let finish ← parseBoundedUint endText maxNumberDigits
      if finish < start then
        .error (.unsatisfiable (ascii "range end precedes range start"))
      else .ok ⟨start, min finish (fileSize - 1)⟩

/-- `parse_single_range`. -/
def parseSingleRange (headerValue : Str) (fileSize : Int) (maxHeaderLength maxNumberDigits : Nat) :
    Except RangeError ByteRange :=
  if maxHeaderLength < headerValue.length then
    .error (.malformed (ascii "Range header is too long"))
  else if headerValue.contains ',' then
    .error (.malformed (ascii "multiple ranges are not supported"))
  else if !("bytes=".toList).isPrefixOf headerValue then
    .error (.malformed (ascii "only the bytes range unit is supported"))
  else
    let expression := headerValue.drop 6
    if expression.count '-' ≠ 1 || expression.any isSpaceChar then
      .error (.malformed (ascii "invalid byte-range syntax"))
    else
      rangeOf (expression.takeWhile (· != '-')) (expression.dropWhile (· != '-')).tail
        fileSize maxNumberDigits

/-- The chunks a generator yields, and whether it ends with an exception. -/
structure Streamed where
  chunks : List Bytes
  raised : Bool
  deriving DecidableEq, Repr

/-- `read` of an open file; a negative size reads all that is left. -/
def readFile (data : Bytes) (position : Nat) (size : Int) : Bytes :=
  if size < 0 then data.drop position else (data.drop position).take size.toNat

/-- The loop of `stream_file_region`. -/
def streamChunks (data : Bytes) (chunkSize : Int) (position remaining : Nat) : Streamed :=
  if _ : remaining = 0 then ⟨[], false⟩
  else
    let chunk := readFile data position (min chunkSize remaining)
    if _ : chunk = [] then ⟨[], true⟩
    else
      let rest := streamChunks data chunkSize (position + chunk.length) (remaining - chunk.length)
      { rest with chunks := chunk :: rest.chunks }
  termination_by remaining
  decreasing_by
    exact Nat.sub_lt (Nat.pos_of_ne_zero ‹_›) (List.length_pos_iff.mpr ‹_›)

/-- `stream_file_region` of a file with the given content; a negative offset
cannot be sought. -/
def streamFileRegion (data : Bytes) (start length chunkSize : Int) : Streamed :=
  if start < 0 then ⟨[], true⟩ else streamChunks data chunkSize start.toNat length.toNat

/-- `select_range`. -/
def selectRange (rangeHeader : Option Str) (fileSize : Int)
    (maxHeaderLength maxNumberDigits : Nat) : Except RangeError (Option ByteRange) :=
  match rangeHeader with
  | none => .ok none
  | some header => (parseSingleRange header fileSize maxHeaderLength maxNumberDigits).map some

/-! ## `get_artifact` -/

/-- The settings that `get_artifact` reads. -/
structure Settings where
  streamChunkSize : Int
  maxRangeHeaderLength : Nat
  maxRangeNumberDigits : Nat
  deriving DecidableEq, Repr

/-- `SETTINGS`. -/
def settings : Settings where
  streamChunkSize := 64 * 1024
  maxRangeHeaderLength := 128
  maxRangeNumberDigits := 20

/-- What `get_artifact` finds under the path. -/
inductive Found
  | absent
  | unreadable
  | file (data : Bytes)
  deriving DecidableEq, Repr

inductive Body
  | stream (streamed : Streamed)
  /-- The JSON object with the member `detail`. -/
  | detail (text : Bytes)
  deriving DecidableEq, Repr

structure Response where
  status : Nat
  headers : List (Bytes × Bytes)
  body : Body
  deriving DecidableEq, Repr

/-- `_error_response`. -/
def errorResponse (status : Nat) (detail : Bytes) (headers : List (Bytes × Bytes)) : Response :=
  ⟨status, headers, .detail detail⟩

def acceptRanges : Bytes × Bytes := (ascii "Accept-Ranges", ascii "bytes")

/-- `str` of a number. -/
def strOf (n : Int) : Bytes :=
  match n with
  | .ofNat n => decimal n
  | .negSucc n => 0x2d :: decimal (n + 1)

/-- `get_artifact`, with the values of the `Range` headers of the request. -/
def getArtifact (settings : Settings) (artifact : Found) (rangeHeaders : List Str) : Response :=
  match artifact with
  | .absent => errorResponse 404 (ascii "artifact not found") []
  | .unreadable => errorResponse 500 (ascii "artifact is not readable") []
  | .file data =>
      let fileSize : Int := data.length
      if 1 < rangeHeaders.length then
        errorResponse 400 (ascii "multiple Range headers are not supported") [acceptRanges]
      else
        match selectRange rangeHeaders.head? fileSize settings.maxRangeHeaderLength
            settings.maxRangeNumberDigits with
        | .error (.malformed message) => errorResponse 400 message [acceptRanges]
        | .error (.unsatisfiable message) =>
            errorResponse 416 message
              [acceptRanges, (ascii "Content-Range", ascii "bytes */" ++ strOf fileSize)]
        | .ok none =>
            ⟨200, [acceptRanges, (ascii "Content-Length", strOf fileSize)],
              .stream (streamFileRegion data 0 fileSize settings.streamChunkSize)⟩
        | .ok (some range) =>
            ⟨206, [acceptRanges, (ascii "Content-Length", strOf range.length),
                (ascii "Content-Range", ascii "bytes " ++ strOf range.start ++ ascii "-" ++
                  strOf range.finish ++ ascii "/" ++ strOf fileSize)],
              .stream (streamFileRegion data range.start range.length settings.streamChunkSize)⟩

/-! ## What an accepted header selects -/

/-- Digits make a number that is not negative. -/
theorem intOf_nonneg (value : Str) : 0 ≤ intOf value := by
  unfold intOf
  have hfold : ∀ (cs : Str) (n : Int), 0 ≤ n →
      0 ≤ cs.foldl (fun n c => n * 10 + ((c.toNat - 0x30 : Nat) : Int)) n := by
    intro cs
    induction cs with
    | nil => exact fun n h => h
    | cons c cs ih =>
        intro n h
        refine ih _ ?_
        show 0 ≤ n * 10 + ((c.toNat - 0x30 : Nat) : Int)
        omega
  exact hfold value 0 (Int.le_refl 0)

theorem parseBoundedUint_ok {value : Str} {maxDigits : Nat} {n : Int}
    (h : parseBoundedUint value maxDigits = .ok n) : 0 ≤ n := by
  unfold parseBoundedUint at h
  split at h
  · cases h
  · cases h
    exact intOf_nonneg value

/-- A range that is returned lies within the file. -/
theorem rangeOf_spec {startText endText : Str} {fileSize : Int} {maxNumberDigits : Nat}
    {r : ByteRange} (h : rangeOf startText endText fileSize maxNumberDigits = .ok r) :
    0 ≤ r.start ∧ r.start ≤ r.finish ∧ r.finish < fileSize := by
  unfold rangeOf at h
  split at h
  · cases h
  · split at h
    · cases h
    · split at h
      · cases hsuffix : parseBoundedUint endText maxNumberDigits with
        | error e =>
            rw [hsuffix] at h
            cases h
        | ok suffixLength =>
            have hnonneg := parseBoundedUint_ok hsuffix
            rw [hsuffix] at h
            by_cases hzero : suffixLength = 0
            · simp [hzero, bind, Except.bind] at h
            · simp only [bind, Except.bind, if_neg hzero, Except.ok.injEq] at h
              rw [← h]
              show 0 ≤ max (fileSize - suffixLength) 0 ∧
                max (fileSize - suffixLength) 0 ≤ fileSize - 1 ∧ fileSize - 1 < fileSize
              omega
      · cases hstart : parseBoundedUint startText maxNumberDigits with
        | error e =>
            rw [hstart] at h
            cases h
        | ok start =>
            have hnonneg := parseBoundedUint_ok hstart
            rw [hstart] at h
            simp only [bind, Except.bind] at h
            split at h
            · cases h
            · split at h
              · cases h
                show 0 ≤ start ∧ start ≤ fileSize - 1 ∧ fileSize - 1 < fileSize
                omega
              · cases hfinish : parseBoundedUint endText maxNumberDigits with
                | error e =>
                    rw [hfinish] at h
                    cases h
                | ok finish =>
                    rw [hfinish] at h
                    simp only at h
                    split at h
                    · cases h
                    · cases h
                      show 0 ≤ start ∧ start ≤ min finish (fileSize - 1) ∧
                        min finish (fileSize - 1) < fileSize
                      omega

/-- A range that is parsed from a header lies within the file. -/
theorem parseSingleRange_spec {headerValue : Str} {fileSize : Int}
    {maxHeaderLength maxNumberDigits : Nat} {r : ByteRange}
    (h : parseSingleRange headerValue fileSize maxHeaderLength maxNumberDigits = .ok r) :
    0 ≤ r.start ∧ r.start ≤ r.finish ∧ r.finish < fileSize := by
  unfold parseSingleRange at h
  split at h
  · cases h
  · split at h
    · cases h
    · split at h
      · cases h
      · simp only at h
        split at h
        · cases h
        · exact rangeOf_spec h

/-! ## What is streamed -/

/-- The chunks make up the region, and reading them raises nothing. -/
theorem streamChunks_spec (data : Bytes) {chunkSize : Int} (hchunk : 1 ≤ chunkSize)
    (remaining position : Nat) (hfits : position + remaining ≤ data.length) :
    (streamChunks data chunkSize position remaining).raised = false ∧
      (streamChunks data chunkSize position remaining).chunks.flatten =
        (data.drop position).take remaining := by
  induction remaining using Nat.strongRecOn generalizing position with
  | ind remaining ih =>
      unfold streamChunks
      by_cases hzero : remaining = 0
      · rw [dif_pos hzero, hzero]
        exact ⟨rfl, by rw [List.take_zero]; rfl⟩
      · rw [dif_neg hzero]
        have hsize : ¬ min chunkSize (remaining : Int) < 0 := by omega
        have hread : readFile data position (min chunkSize remaining) =
            (data.drop position).take (min chunkSize remaining).toNat := by
          rw [readFile, if_neg hsize]
        have hlength : (readFile data position (min chunkSize remaining)).length =
            (min chunkSize remaining).toNat := by
          rw [hread, List.length_take, List.length_drop]
          omega
        have hne : readFile data position (min chunkSize remaining) ≠ [] := by
          intro hnil
          rw [hnil, List.length_nil] at hlength
          omega
        simp only [hne, dif_neg, not_false_eq_true]
        rw [hlength]
        obtain ⟨hraised, hflatten⟩ := ih (remaining - (min chunkSize remaining).toNat)
          (by omega) (position + (min chunkSize remaining).toNat) (by omega)
        refine ⟨hraised, ?_⟩
        rw [List.flatten_cons, hflatten, hread, ← List.drop_drop, ← List.take_add]
        congr 1
        omega

/-- A region inside the file is streamed whole. -/
theorem streamFileRegion_spec (data : Bytes) {start length chunkSize : Int}
    (hchunk : 1 ≤ chunkSize) (hstart : 0 ≤ start) (hlength : 0 ≤ length)
    (hfits : start + length ≤ data.length) :
    (streamFileRegion data start length chunkSize).raised = false ∧
      (streamFileRegion data start length chunkSize).chunks.flatten =
        (data.drop start.toNat).take length.toNat := by
  unfold streamFileRegion
  rw [if_neg (by omega)]
  exact streamChunks_spec data hchunk length.toNat start.toNat (by omega)

end EdgeGuard.HostApp.Artifact
