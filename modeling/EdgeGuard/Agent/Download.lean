import EdgeGuard.Agent.Release
import EdgeGuard.Base.Trace

/-!
# The download of a bundle

`download.c`, and the part of `manifest.c` that opens a request.

Everything outside the process is an argument: the transport as the list of the
callbacks libcurl makes and its result, and for each file operation whether it
fails.  The two files of the download are a `Disk`; a function that changes them
returns the list of its acts, so a process that dies has performed a prefix.
SHA-256 is a parameter, as a function from bytes to hexadecimal digits.

`headers` and `body` get one byte string instead of `size` and `count`: their
product is the length of a string in memory and does not overflow.
-/

namespace EdgeGuard.Agent.Download

open EdgeGuard.Base EdgeGuard.Base.CText EdgeGuard.Base.Utf8
open EdgeGuard.Agent.Model EdgeGuard.Agent.Identity EdgeGuard.Agent.Release

def uint64Max : Nat := 2 ^ 64 - 1

/-! ## Requests -/

/-- `ota_http_open`: the URL of the request.  `curl` says that libcurl is
initialised and takes every option. -/
def otaHttpOpen (curl : Bool) (config : OtaConfig) (path : Bytes) (code : OtaErrorCode) :
    Except OtaError Bytes :=
  if otaArtifactPathValid path && config.baseUrl.length < 65 &&
      ((ascii "http://").isPrefixOf config.baseUrl ||
        (ascii "https://").isPrefixOf config.baseUrl) &&
      config.connectTimeoutSec != 0 && config.requestTimeoutSec != 0 &&
      config.connectTimeoutSec ≤ int32Max && config.requestTimeoutSec ≤ int32Max && curl then
    .ok (config.baseUrl ++ path)
  else .error (otaErrorSet code (ascii "Cannot initialize bounded HTTP request"))

/-- `CURLE_OK`. -/
def curlOk : Nat := 0

/-- `CURLE_WRITE_ERROR`, the result of a transfer that a callback ended. -/
def curlWriteError : Nat := 23

/-- `ota_http_retryable`, with libcurl's numbers for a failed resolution or
connection, a partial file, a timeout, and errors of sending and receiving. -/
def otaHttpRetryable (result status : Nat) : Bool :=
  [503, 502, 504, 408, 429].contains status || [28, 56, 55, 18, 7, 6].contains result

/-- The tests of `ota_download_bundle` on its paths. -/
def downloadPaths (config : OtaConfig) : Except OtaError Unit :=
  if !(config.partFile.length < otaPathCap && config.bundleFile.length < otaPathCap &&
      config.partFile.head? == some 0x2f && config.bundleFile.head? == some 0x2f &&
      config.partFile != config.bundleFile) then
    .error (otaErrorSet .configInvalid (ascii "Invalid download paths"))
  else if pathGetDirname config.partFile != pathGetDirname config.bundleFile then
    .error (otaErrorSet .configInvalid (ascii "Download files must share one directory"))
  else .ok ()

/-! ## The response gate -/

/-- The digits of `decimal`, from the value read so far. -/
def decimalDigits (n : Nat) : Bytes → Option (Nat × Bytes)
  | [] => some (n, [])
  | b :: rest =>
      if isDigit b then
        if (int64Max - digitOf b) / 10 < n then none
        else decimalDigits (n * 10 + digitOf b) rest
      else some (n, b :: rest)

/-- `decimal`: a number and the text behind it. -/
def decimalNumber (text : Bytes) : Option (Nat × Bytes) :=
  if text.head?.any isDigit then decimalDigits 0 text else none

/-- A number and the byte behind it. -/
def decimalThen (separator : UInt8) (text : Bytes) : Option (Nat × Bytes) := do
  let (number, rest) ← decimalNumber text
  if rest.head? == some separator then some (number, rest.tail) else none

/-- The three numbers of a `Content-Range`. -/
def contentRange (text : Bytes) : Option (Nat × Nat × Nat) :=
  if (ascii "bytes ").isPrefixOf text then do
    let (start, rest) ← decimalThen 0x2d (text.drop 6)
    let (finish, rest) ← decimalThen 0x2f rest
    let (total, rest) ← decimalNumber rest
    if rest.isEmpty then some (start, finish, total) else none
  else none

/-- `exact_range`. -/
def exactRange (text : Bytes) (partialSize expected : Nat) : Bool :=
  match contentRange text with
  | some (start, finish, total) =>
      start == partialSize && start ≤ finish && finish == expected - 1 && total == expected
  | none => false

inductive OtaDownloadAction
  | reject | writeZero | append | restart | verify
  deriving DecidableEq, Repr

def rangeMismatch : OtaError :=
  otaErrorSet .downloadRangeMismatch
    (ascii "Response does not describe the exact requested tail")

/-- `ota_download_response`; an error is `OTA_DOWNLOAD_REJECT`. -/
def otaDownloadResponse (partialSize expected status : Nat) (range : Option Bytes) :
    Except OtaError OtaDownloadAction :=
  if expected == 0 || int64Max < expected || expected < partialSize then .error rangeMismatch
  else if status == 416 then .ok (if partialSize == expected then .verify else .restart)
  else if status == 200 then if range.isSome then .error rangeMismatch else .ok .writeZero
  else if status == 206 then
    if partialSize != 0 && partialSize < expected &&
        range.any (exactRange · partialSize expected) then .ok .append
    else .error rangeMismatch
  else .error (otaErrorSet .downloadHttp (ascii "Bundle HTTP " ++ decimal status))

/-! ## The files -/

/-- An inode; `regular` says that it is a regular file with one link. -/
structure File where
  regular : Bool
  data : Bytes
  deriving DecidableEq, Repr

structure Disk where
  part : Option File
  bundle : Option File
  deriving DecidableEq, Repr

/-- A change of the files that has happened. -/
inductive Act
  /-- The partial file is created by its opening. -/
  | create
  | truncate
  | write (offset : Nat) (bytes : Bytes)
  /-- The partial file is unlinked. -/
  | discard
  /-- The partial file is renamed to the bundle. -/
  | publish
  deriving DecidableEq, Repr

/-- `pwrite`: a hole reads as zeros. -/
def writeAt (data : Bytes) (offset : Nat) (bytes : Bytes) : Bytes :=
  (data ++ List.replicate (offset - data.length) 0).take offset ++ bytes ++
    data.drop (offset + bytes.length)

def perform (d : Disk) : Act → Disk
  | .create => { d with part := some ⟨true, []⟩ }
  | .truncate => { d with part := d.part.map fun file => { file with data := [] } }
  | .write offset bytes =>
      { d with part := d.part.map fun file => { file with data := writeAt file.data offset bytes } }
  | .discard => { d with part := none }
  | .publish => { part := none, bundle := d.part }

def Disk.run (d : Disk) (acts : List Act) : Disk := Trace.run perform d acts

/-- What the code looks at of `errno`. -/
structure Errno where
  /-- `ENOSPC` or `EDQUOT`. -/
  noSpace : Bool
  text : Bytes
  deriving DecidableEq, Repr

/-! ## The transfer -/

structure Transfer where
  /-- The file offset of `fd`. -/
  position : Nat
  partialSize : Nat
  expected : Nat
  received : Nat
  limit : Nat
  status : Nat
  headerBytes : Nat
  headersDone : Bool
  rangeSeen : Bool
  lengthSeen : Bool
  encodingSeen : Bool
  length : Nat
  range : Bytes
  action : OtaDownloadAction
  error : OtaError
  deriving DecidableEq, Repr

/-- `(Transfer){.fd=…,.expected=…}`. -/
def Transfer.fresh (position partialSize expected : Nat) : Transfer where
  position := position
  partialSize := partialSize
  expected := expected
  received := 0
  limit := 0
  status := 0
  headerBytes := 0
  headersDone := false
  rangeSeen := false
  lengthSeen := false
  encodingSeen := false
  length := 0
  range := []
  action := .reject
  error := .zero

/-- What a function did to the transfer and the files, and whether it goes on. -/
structure Called where
  transfer : Transfer
  acts : List Act
  ok : Bool

def Transfer.goesOn (t : Transfer) : Called := ⟨t, [], true⟩

def Transfer.fails (t : Transfer) (code : OtaErrorCode) (message : Bytes) : Called :=
  ⟨{ t with error := otaErrorSet code message }, [], false⟩

/-- `disk_error`. -/
def diskError (t : Transfer) (action : Bytes) (errno : Errno) : Transfer :=
  let code := if errno.noSpace then .downloadDiskSpace else .persistenceFailed
  { t with error := otaErrorSet code (action ++ ascii ": " ++ errno.text) }

inductive ResetStep
  | truncate | seek | sync
  deriving DecidableEq, Repr

/-- `reset_file`. -/
def resetFile (fault : Option (ResetStep × Errno)) (t : Transfer) : Called :=
  match fault with
  | none => ⟨{ t with position := 0 }, [.truncate], true⟩
  | some (step, errno) =>
      let failed := diskError t (ascii "Reset partial file") errno
      match step with
      | .truncate => ⟨failed, [], false⟩
      | .seek => ⟨failed, [.truncate], false⟩
      | .sync => ⟨{ failed with position := 0 }, [.truncate], false⟩

/-- The answer of `fstatvfs`: the block size and the available blocks. -/
abbrev SpaceAnswer := Except Errno (Nat × Nat)

/-- `space_available`. -/
def spaceAvailable (answer : SpaceAnswer) (reserve : Nat) (t : Transfer) : Called :=
  match answer with
  | .error errno => ⟨diskError t (ascii "Read available space") errno, [], false⟩
  | .ok (unit, available) =>
      let bytes :=
        if unit != 0 && uint64Max / unit < available then uint64Max else available * unit
      let needed := t.expected - t.partialSize
      if uint64Max - needed < reserve || bytes < needed + reserve then
        t.fails .downloadDiskSpace (ascii "Insufficient space for bundle and configured reserve")
      else t.goesOn

/-- The failures of the file operations of one header callback. -/
structure HeaderIo where
  reset : Option (ResetStep × Errno)
  seek : Option Errno
  deriving DecidableEq, Repr

/-- The three digits of a status line. -/
def statusOf (line : Bytes) : Option Nat :=
  match line.dropWhile (· != 0x20) with
  | _ :: a :: b :: c :: rest =>
      if isDigit a && isDigit b && isDigit c && (rest.isEmpty || rest.head? == some 0x20) then
        some (digitOf a * 100 + digitOf b * 10 + digitOf c)
      else none
  | _ => none

/-- The status line of `headers`. -/
def statusLine (t : Transfer) (line : Bytes) : Called :=
  if t.headersDone then t.fails .downloadHttp (ascii "Unexpected second final response")
  else
    match statusOf line with
    | none => t.fails .downloadHttp (ascii "Malformed HTTP status line")
    | some status =>
        Transfer.goesOn { t with
          status, rangeSeen := false, lengthSeen := false, encodingSeen := false, range := [] }

/-- An accepted response of `headers`: the file is put where the body goes. -/
def acceptBody (io : HeaderIo) (t : Transfer) : Called :=
  if t.lengthSeen && t.length != t.limit then
    t.fails .downloadSizeMismatch (ascii "Content-Length differs from expected response size")
  else if t.action == .writeZero then resetFile io.reset t
  else
    match io.seek with
    | some errno => ⟨diskError t (ascii "Seek partial file") errno, [], false⟩
    | none => Transfer.goesOn { t with position := t.partialSize }

/-- The empty line of `headers`. -/
def headersEnd (io : HeaderIo) (t : Transfer) : Called :=
  if 100 ≤ t.status && t.status < 200 && t.status != 101 then t.goesOn
  else
    match otaDownloadResponse t.partialSize t.expected t.status
        (if t.rangeSeen then some t.range else none) with
    | .error error => ⟨{ t with action := .reject, error }, [], false⟩
    | .ok .append =>
        acceptBody io { t with
          action := .append, headersDone := true, limit := t.expected - t.partialSize }
    | .ok .writeZero =>
        acceptBody io { t with action := .writeZero, headersDone := true, limit := t.expected }
    | .ok action => Transfer.goesOn { t with action, headersDone := true }

/-- The header fields that `headers` looks at. -/
def headerField (t : Transfer) (name value : Bytes) : Called :=
  if strdown name == ascii "content-range" then
    if t.rangeSeen || 128 ≤ value.length then
      t.fails .downloadRangeMismatch (ascii "Duplicate or oversized Content-Range")
    else Transfer.goesOn { t with rangeSeen := true, range := value }
  else if strdown name == ascii "content-length" then
    match t.lengthSeen, decimalNumber value with
    | false, some (length, []) => Transfer.goesOn { t with length, lengthSeen := true }
    | _, _ => t.fails .downloadSizeMismatch (ascii "Invalid or duplicate Content-Length")
  else if strdown name == ascii "content-encoding" then
    if t.encodingSeen || strdown value != ascii "identity" then
      t.fails .downloadHttp (ascii "Encoded bundle response is not permitted")
    else Transfer.goesOn { t with encodingSeen := true }
  else t.goesOn

/-- `headers`. -/
def headers (t : Transfer) (data : Bytes) (io : HeaderIo) : Called :=
  if 65536 - t.headerBytes < data.length || data.contains 0 then
    t.fails .downloadHttp (ascii "Invalid or oversized HTTP headers")
  else
    let t := { t with headerBytes := t.headerBytes + data.length }
    -- `g_strchomp`
    let line := data.rdropWhile isSpace
    if (ascii "HTTP/").isPrefixOf line then statusLine t line
    else if t.headersDone then t.goesOn
    else if line.isEmpty then headersEnd io t
    else
      match breakOn [0x3a] line with
      | none => t.fails .downloadHttp (ascii "Malformed HTTP header")
      | some (name, value) => headerField t name (strstrip value)

/-- The answer of one `write`: the bytes written, at most those that are left. -/
inductive WriteAnswer
  | wrote (count : Nat)
  | failed (errno : Errno)
  deriving DecidableEq, Repr

def ioErrno : Errno := ⟨false, ascii "Input/output error"⟩

/-- The loop of `body` that writes the data; when the answers are used up the
rest is written at once. -/
def writeAll (t : Transfer) : List WriteAnswer → Bytes → Called
  | _, [] => t.goesOn
  | [], b :: data =>
      ⟨{ t with
          position := t.position + (b :: data).length
          received := t.received + (b :: data).length },
        [.write t.position (b :: data)], true⟩
  | .failed errno :: _, _ :: _ =>
      ⟨diskError t (ascii "Write partial file") errno, [], false⟩
  | .wrote count :: answers, b :: data =>
      if count == 0 then ⟨diskError t (ascii "Write partial file") ioErrno, [], false⟩
      else
        let written := (b :: data).take count
        let r := writeAll
          { t with
            position := t.position + written.length
            received := t.received + written.length }
          answers ((b :: data).drop count)
        { r with acts := .write t.position written :: r.acts }

/-- `body`; the callback is successful when it returns the length of its data. -/
def body (t : Transfer) (data : Bytes) (answers : List WriteAnswer) : Called :=
  if !t.headersDone || (t.action != .append && t.action != .writeZero) then
    -- nothing of a 416 body is written
    ⟨t, [], data.isEmpty⟩
  else if t.limit - t.received < data.length then
    t.fails .downloadSizeMismatch (ascii "Response exceeds expected bundle size")
  else writeAll t answers data

/-! ## One request -/

inductive Callback
  | header (data : Bytes) (io : HeaderIo)
  | body (data : Bytes) (answers : List WriteAnswer)
  deriving DecidableEq, Repr

def callback (t : Transfer) : Callback → Called
  | .header data io => headers t data io
  | .body data answers => body t data answers

/-- The callbacks of a transfer, up to the first that fails. -/
def callbacks (t : Transfer) : List Callback → Called
  | [] => t.goesOn
  | c :: rest =>
      let r := callback t c
      if r.ok then
        let s := callbacks r.transfer rest
        { s with acts := r.acts ++ s.acts }
      else r

/-- What libcurl makes of a request: its callbacks, and the result that
`curl_easy_perform` has when none of them fails. -/
structure Response where
  callbacks : List Callback
  result : Nat

structure AttemptIo where
  curl : Bool
  response : Response
  reset : Option (ResetStep × Errno)
  space : SpaceAnswer

/-- How a pass of the request loop ends. -/
inductive Verdict
  | complete
  | done (retryable : Bool)
  | again
  deriving DecidableEq, Repr

structure Attempted where
  transfer : Transfer
  acts : List Act
  verdict : Verdict

/-- The answer 416 in a pass of the loop: complete, or restarted from nothing. -/
def restart (last : Bool) (reserve : Nat) (io : AttemptIo) (t : Transfer) : Attempted :=
  if t.action == .verify then ⟨t, [], .complete⟩
  else
    let r := resetFile io.reset t
    if !r.ok then ⟨r.transfer, r.acts, .done false⟩
    else if last then
      let message := ascii "Repeated HTTP 416 after restart"
      ⟨{ r.transfer with error := otaErrorSet .downloadHttp message }, r.acts, .done false⟩
    else
      let s := spaceAvailable io.space reserve (.fresh r.transfer.position 0 t.expected)
      ⟨s.transfer, r.acts, if s.ok then .again else .done false⟩

/-- What a pass of the loop makes of a transfer that has ended. -/
def performed (last : Bool) (reserve : Nat) (io : AttemptIo) (result : Nat) (t : Transfer) :
    Attempted :=
  if t.error.code != .none then
    ⟨t, [], .done (t.error.code == .downloadHttp && otaHttpRetryable result t.status)⟩
  else if t.headersDone && t.status == 416 then restart last reserve io t
  else if result != curlOk then
    let message := ascii "Bundle HTTP " ++ decimal t.status ++ ascii ", transport " ++
      decimal result ++ ascii "; partial retained"
    ⟨{ t with error := otaErrorSet .downloadHttp message }, [],
      .done (otaHttpRetryable result t.status)⟩
  else if !t.headersDone || t.received != t.limit then
    let message := ascii "Incomplete response body; partial retained"
    ⟨{ t with error := otaErrorSet .downloadSizeMismatch message }, [], .done false⟩
  else ⟨t, [], .complete⟩

/-- One pass of the request loop; `last` is the second. -/
def attempt (config : OtaConfig) (m : OtaManifest) (last : Bool) (io : AttemptIo)
    (t : Transfer) : Attempted :=
  match otaHttpOpen io.curl config m.artifactUrl .downloadHttp with
  | .error error => ⟨{ t with error }, [], .done false⟩
  | .ok _ =>
      let r := callbacks t io.response.callbacks
      let result := if r.ok then io.response.result else curlWriteError
      let p := performed last config.reserveBytes io result r.transfer
      { p with acts := r.acts ++ p.acts }

/-- The request loop. -/
def requests (config : OtaConfig) (m : OtaManifest) (first second : AttemptIo)
    (t : Transfer) : Attempted :=
  let r := attempt config m false first t
  match r.verdict with
  | .again =>
      let s := attempt config m true second r.transfer
      { s with acts := r.acts ++ s.acts }
  | _ => r

/-! ## Verification and publication -/

structure VerifyIo where
  inspect : Option Errno
  seek : Option Errno
  read : Option Errno
  reset : Option (ResetStep × Errno)
  deriving DecidableEq, Repr

/-- `verify`, on the content of the partial file.  The lengths that are counted
while reading are those of a file that nobody else writes. -/
def verify (sha256 : Bytes → Bytes) (io : VerifyIo) (hash data : Bytes) (t : Transfer) : Called :=
  match io.inspect with
  | some errno => ⟨diskError t (ascii "Stat downloaded bundle") errno, [], false⟩
  | none =>
      if data.length != t.expected then
        t.fails .downloadSizeMismatch (ascii "Downloaded file size does not match manifest")
      else
        match io.seek, io.read with
        | some errno, _ => ⟨diskError t (ascii "Seek downloaded bundle") errno, [], false⟩
        | none, some errno => ⟨diskError t (ascii "Read downloaded bundle") errno, [], false⟩
        | none, none =>
            if sha256 data != hash then
              let r := resetFile io.reset t
              if r.ok then
                { r.transfer.fails .downloadHashMismatch
                    (ascii "SHA256 mismatch; invalid partial data discarded") with acts := r.acts }
              else r
            else t.goesOn

inductive PublishStep
  | openDirectory | inspect | fileSync | rename | directorySync
  deriving DecidableEq, Repr

/-- `publish`. -/
def publish (fault : Option (PublishStep × Errno)) (t : Transfer) : Called :=
  match fault with
  | none => ⟨t, [.publish], true⟩
  | some (.openDirectory, errno) =>
      ⟨diskError t (ascii "Open bundle directory") errno, [], false⟩
  | some (step, errno) =>
      ⟨diskError t (ascii "Durably publish verified bundle") errno,
        if step == .directorySync then [.publish] else [], false⟩

inductive BundleStep
  | opening | inspect | reading
  deriving DecidableEq, Repr

inductive BundleCheck
  | valid
  | missing
  | invalid (error : OtaError)
  deriving DecidableEq, Repr

/-- `validate_bundle_path`. -/
def validateBundlePath (sha256 : Bytes → Bytes) (fault : Option (BundleStep × Errno))
    (m : OtaManifest) (bundle : Option File) : BundleCheck :=
  match fault, bundle with
  | some (.opening, errno), _ =>
      .invalid (otaErrorSet .persistenceFailed (ascii "Open completed bundle: " ++ errno.text))
  | _, none => .missing
  | fault, some file =>
      if (fault.any fun f => f.1 == .inspect) || !file.regular then
        .invalid (otaErrorSet .persistenceFailed
          (ascii "Completed bundle is not a private regular file"))
      else if file.data.length != m.size then
        .invalid (otaErrorSet .downloadSizeMismatch
          (ascii "Completed bundle size differs from persisted attempt"))
      else
        match fault with
        | some (_, errno) =>
            .invalid (otaErrorSet .persistenceFailed
              (ascii "Read completed bundle: " ++ errno.text))
        | none =>
            if sha256 file.data == m.sha256 then .valid
            else .invalid (otaErrorSet .downloadHashMismatch
              (ascii "Completed bundle hash differs from persisted attempt"))

inductive DiscardStep
  | inspect | openDirectory | unlink | directorySync
  deriving DecidableEq, Repr

/-- `ota_download_discard_partial`. -/
def otaDownloadDiscardPartial (config : OtaConfig) (fault : Option (DiscardStep × Errno))
    (part : Option File) : List Act × Except OtaError Unit :=
  if config.partFile.head? != some 0x2f then
    ([], .error (otaErrorSet .configInvalid (ascii "Invalid partial path")))
  else
    match fault, part with
    | some (.inspect, errno), _ =>
        ([], .error (otaErrorSet .persistenceFailed
          (ascii "Inspect stale partial: " ++ errno.text)))
    | _, none => ([], .ok ())
    | fault, some file =>
        if !file.regular then
          ([], .error (otaErrorSet .persistenceFailed
            (ascii "Stale partial is not a private regular file")))
        else
          match fault with
          | none => ([.discard], .ok ())
          | some (step, errno) =>
              (if step == .directorySync then [.discard] else [],
                .error (otaErrorSet .persistenceFailed
                  (ascii "Durably discard stale partial: " ++ errno.text)))

/-! ## The download -/

inductive OpenStep
  | opening | inspect | lock
  deriving DecidableEq, Repr

structure DownloadIo where
  bundle : Option (BundleStep × Errno)
  discard : Option (DiscardStep × Errno)
  part : Option (OpenStep × Errno)
  reset : Option (ResetStep × Errno)
  space : SpaceAnswer
  first : AttemptIo
  second : AttemptIo
  verify : VerifyIo
  publish : Option (PublishStep × Errno)
  flush : Option Errno

/-- What `ota_download_bundle` did, and its result: the flag beside an error says
whether the transfer may be retried. -/
structure DownloadReply where
  acts : List Act
  result : Except (Bool × OtaError) Unit

/-- The label `done` without success. -/
def giveUp (flush : Option Errno) (retryable : Bool) (t : Transfer) (acts : List Act) :
    DownloadReply :=
  match flush with
  | some errno =>
      if t.received != 0 then
        ⟨acts, .error (false, (diskError t (ascii "Flush retained partial") errno).error)⟩
      else ⟨acts, .error (retryable, t.error)⟩
  | none => ⟨acts, .error (retryable, t.error)⟩

/-- The label `complete`, with the partial file as it is there. -/
def complete (sha256 : Bytes → Bytes) (m : OtaManifest) (io : DownloadIo) (data : Bytes)
    (t : Transfer) : DownloadReply :=
  let v := verify sha256 io.verify m.sha256 data t
  if !v.ok then giveUp io.flush false v.transfer v.acts
  else
    let p := publish io.publish v.transfer
    if p.ok then ⟨p.acts, .ok ()⟩ else giveUp io.flush false p.transfer p.acts

/-- The content of the partial file. -/
def Disk.partData (d : Disk) : Bytes := (d.part.map (·.data)).getD []

/-- The transfer for a partial file of some size: more than the bundle is thrown
away. -/
def startTransfer (fault : Option (ResetStep × Errno)) (size expected : Nat) : Called :=
  let start := Transfer.fresh 0 size expected
  if expected < size then
    let r := resetFile fault start
    if r.ok then { r with transfer := { r.transfer with partialSize := 0 } } else r
  else start.goesOn

/-- From the size of the partial file on. -/
def transferBundle (sha256 : Bytes → Bytes) (config : OtaConfig) (m : OtaManifest)
    (io : DownloadIo) (d : Disk) : DownloadReply :=
  let r := startTransfer io.reset d.partData.length m.size
  if !r.ok then giveUp io.flush false r.transfer r.acts
  else if r.transfer.partialSize == m.size then
    let c := complete sha256 m io (d.run r.acts).partData r.transfer
    { c with acts := r.acts ++ c.acts }
  else
    let s := spaceAvailable io.space config.reserveBytes r.transfer
    if !s.ok then giveUp io.flush false s.transfer r.acts
    else
      let q := requests config m io.first io.second s.transfer
      let acts := r.acts ++ q.acts
      match q.verdict with
      | .complete =>
          let c := complete sha256 m io (d.run acts).partData q.transfer
          { c with acts := acts ++ c.acts }
      | .done retryable => giveUp io.flush retryable q.transfer acts
      | .again => giveUp io.flush false q.transfer acts

/-- The opening of the partial file, and what follows. -/
def downloadPart (sha256 : Bytes → Bytes) (config : OtaConfig) (m : OtaManifest)
    (io : DownloadIo) (d : Disk) : DownloadReply :=
  let start := Transfer.fresh 0 0 m.size
  let created := if d.part.isNone then [Act.create] else []
  match io.part with
  | some (.opening, errno) =>
      giveUp io.flush false (diskError start (ascii "Open partial file") errno) []
  | some (.inspect, errno) =>
      giveUp io.flush false (diskError start (ascii "Open partial file") errno) created
  | fault =>
      if d.part.any (!·.regular) then
        giveUp io.flush false (start.fails .persistenceFailed
          (ascii "Partial path is not a private regular file")).transfer created
      else
        match fault with
        | some (_, errno) =>
            giveUp io.flush false (diskError start (ascii "Lock partial file") errno) created
        | none =>
            let r := transferBundle sha256 config m io (d.run created)
            { r with acts := created ++ r.acts }

/-- `ota_download_bundle`. -/
def otaDownloadBundle (sha256 : Bytes → Bytes) (config : OtaConfig) (m : OtaManifest)
    (io : DownloadIo) (d : Disk) : DownloadReply :=
  match otaManifestValidate m with
  | .error error => ⟨[], .error (false, error)⟩
  | .ok () =>
      match downloadPaths config with
      | .error error => ⟨[], .error (false, error)⟩
      | .ok () =>
          match validateBundlePath sha256 io.bundle m d.bundle with
          | .valid =>
              let (acts, result) := otaDownloadDiscardPartial config io.discard d.part
              ⟨acts, result.mapError fun error => (false, error)⟩
          | .missing => downloadPart sha256 config m io d
          | .invalid error =>
              if error.code == .downloadSizeMismatch || error.code == .downloadHashMismatch then
                downloadPart sha256 config m io d
              else ⟨[], .error (false, error)⟩

end EdgeGuard.Agent.Download
