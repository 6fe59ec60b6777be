import EdgeGuard.Agent.Model
import EdgeGuard.Base.Utf8
import Mathlib.Data.List.Nodup

/-!
# The identity of a bundle

What `rauc_adapter.c` reads from the shell output of `rauc info`: one assignment a line,
each value in the quotes of `g_shell_quote`.  The output is split into lines before
anything is unquoted, so a value with newlines supplies whole lines.

## Main results

* `quotedValue_iff` — `quoted_value` undoes `g_shell_quote`, and takes nothing else.
* `line_assigned` — a line that is taken for an assignment is one.
-/

namespace EdgeGuard.Agent.RaucIdentity

open EdgeGuard.Base.CText EdgeGuard.Base.Utf8 EdgeGuard.Agent.Model

/-! ## The reader -/

/-- The loops of `quoted_value` behind an opening apostrophe. -/
def quotedText : Bytes → Option Bytes
  | 0x27 :: [] => some []
  | 0x27 :: 0x5c :: 0x27 :: 0x27 :: rest => (quotedText rest).map (0x27 :: ·)
  | 0x27 :: _ => none
  | b :: rest => if isControl b then none else (quotedText rest).map (b :: ·)
  | [] => none

/-- What the text of an identity may be. -/
def identityText (decoded : Bytes) : Bool :=
  !decoded.isEmpty && decoded.length < otaTextCap && valid decoded

/-- `quoted_value`. -/
def quotedValue : Bytes → Option Bytes
  | 0x27 :: rest => (quotedText rest).filter identityText
  | _ => none

/-- `BundleIdentity`. -/
structure BundleIdentity where
  compatible : Option Bytes
  version : Option Bytes
  build : Option Bytes
  deriving DecidableEq, Repr

/-- `identity_value`; without a result it returns `FALSE`. -/
def identityValue (key : Bytes) (destination : Option Bytes) (line : Bytes) :
    Option (Option Bytes) :=
  if !(key ++ [0x3d]).isPrefixOf line then some destination
  else if destination.isSome then none
  else (quotedValue (line.drop (key.length + 1))).map some

def compatibleKey : Bytes := ascii "RAUC_MF_COMPATIBLE"
def versionKey : Bytes := ascii "RAUC_MF_VERSION"
def buildKey : Bytes := ascii "RAUC_MF_BUILD"

/-- One round of the loop of `bundle_identity_parse`. -/
def identityLine (identity : BundleIdentity) (line : Bytes) : Option BundleIdentity := do
  let compatible ← identityValue compatibleKey identity.compatible line
  let version ← identityValue versionKey identity.version line
  let build ← identityValue buildKey identity.build line
  some ⟨compatible, version, build⟩

/-- `g_strsplit` at newlines. -/
def strsplit (text : Bytes) : List Bytes := if text.isEmpty then [] else text.splitOn 0x0a

/-- `bundle_identity_parse`. -/
def bundleIdentityParse (output : Bytes) : Option BundleIdentity :=
  ((strsplit output).foldlM identityLine ⟨none, none, none⟩).filter fun identity =>
    identity.compatible.isSome && identity.version.isSome && identity.build.isSome

/-- `bundle_path`. -/
def bundlePath (bundle : Bytes) (code : OtaErrorCode) : Except OtaError Unit :=
  if bundle.head? == some 0x2f && 1 < bundle.length then .ok ()
  else .error (otaErrorSet code (ascii "Bundle must be an absolute file path"))

/-- `ota_rauc_verify`; `invoke` is what the command gives. -/
def otaRaucVerify (release : OtaRelease) (attempt : OtaPersistentState) (bundle : Bytes)
    (invoke : Except OtaError Bytes) : Except OtaError Unit := do
  if release.raucCompatible.isEmpty || otaTextCap ≤ release.raucCompatible.length then
    throw (otaErrorSet .localReleaseInvalid (ascii "Missing local RAUC compatible"))
  if attempt.attemptId.isEmpty || attempt.targetVersion.isEmpty || attempt.buildId.isEmpty ||
      otaTextCap ≤ attempt.targetVersion.length || otaTextCap ≤ attempt.buildId.length then
    throw (otaErrorSet .raucIdentityMismatch (ascii "Missing persisted candidate identity"))
  bundlePath bundle .raucVerifyFailed
  let output ← invoke
  match bundleIdentityParse output with
  | none => throw (otaErrorSet .raucVerifyFailed
      (ascii "Missing, duplicate or malformed required RAUC identity assignment"))
  | some identity =>
      if some release.raucCompatible != identity.compatible then
        throw (otaErrorSet .raucCompatMismatch (ascii "Bundle and local RAUC compatible differ"))
      if identity.version != some attempt.targetVersion || identity.build != some attempt.buildId then
        throw (otaErrorSet .raucIdentityMismatch
          (ascii "Signed bundle version/build differs from persisted attempt"))

/-! ## The writer -/

def escapeQuote (b : UInt8) : Bytes := if b == 0x27 then [0x27, 0x5c, 0x27, 0x27] else [b]

def escapeQuotes (value : Bytes) : Bytes := value.flatMap escapeQuote

/-- `g_shell_quote`. -/
def shellQuote (value : Bytes) : Bytes := 0x27 :: (escapeQuotes value ++ [0x27])

/-- A letter or an underscore, and then digits as well. -/
def isIdentifier (key : Bytes) : Bool :=
  key.head?.any (fun b => !isDigit b) && key.all fun b => isAlnum b || b == 0x5f

structure Assignment where
  key : Bytes
  value : Bytes
  identifier : isIdentifier key = true
  terminated : 0 ∉ value

def Assignment.line (a : Assignment) : Bytes := a.key ++ 0x3d :: shellQuote a.value

/-- The output for a list of assignments. -/
def printed (assignments : List Assignment) : Bytes :=
  assignments.flatMap fun a => a.line ++ [0x0a]

/-! ## Quotes -/

theorem escapeQuotes_cons (b : UInt8) (value : Bytes) :
    escapeQuotes (b :: value) = escapeQuote b ++ escapeQuotes value := rfl

theorem escapeQuotes_append (front back : Bytes) :
    escapeQuotes (front ++ back) = escapeQuotes front ++ escapeQuotes back :=
  List.flatMap_append

theorem quotedText_apostrophe (rest : Bytes) :
    quotedText (0x27 :: 0x5c :: 0x27 :: 0x27 :: rest) = (quotedText rest).map (0x27 :: ·) := rfl

theorem quotedText_plain {b : UInt8} (h : b ≠ 0x27) (rest : Bytes) :
    quotedText (b :: rest) = if isControl b then none else (quotedText rest).map (b :: ·) := by
  rw [quotedText.eq_def]
  split <;> simp_all

/-- What the shell quoting writes is read back when it holds no control character. -/
theorem quotedText_escapeQuotes (value rest : Bytes) :
    quotedText (escapeQuotes value ++ rest) =
      if controlFree value then (quotedText rest).map (value ++ ·) else none := by
  induction value with
  | nil => simp [escapeQuotes]
  | cons b value ih =>
      rw [escapeQuotes_cons, List.append_assoc]
      by_cases hquote : b = 0x27
      · subst hquote
        have hplain : isControl 0x27 = false := by decide
        show quotedText (0x27 :: 0x5c :: 0x27 :: 0x27 :: (escapeQuotes value ++ rest)) = _
        rw [quotedText_apostrophe, ih, controlFree_cons, hplain]
        cases controlFree value <;> cases quotedText rest <;> rfl
      · rw [escapeQuote, if_neg (by simpa using hquote), List.singleton_append,
          quotedText_plain hquote, ih, controlFree_cons]
        cases isControl b <;> cases controlFree value <;> cases quotedText rest <;> rfl

/-- The text of a value, its closing apostrophe included. -/
theorem quotedText_sound {text value : Bytes} (h : quotedText text = some value) :
    text = escapeQuotes value ++ [0x27] ∧ controlFree value = true := by
  fun_induction quotedText text generalizing value with
  | case1 =>
      cases h
      exact ⟨rfl, rfl⟩
  | case2 rest ih =>
      obtain ⟨behind, hbehind, rfl⟩ := Option.map_eq_some_iff.mp h
      obtain ⟨rfl, hplain⟩ := ih hbehind
      exact ⟨rfl, by rw [controlFree_cons, hplain]; rfl⟩
  | case3 => cases h
  | case4 => cases h
  | case5 b rest _ _ hquote hcontrol ih =>
      obtain ⟨behind, hbehind, rfl⟩ := Option.map_eq_some_iff.mp h
      obtain ⟨rfl, hplain⟩ := ih hbehind
      refine ⟨?_, ?_⟩
      · rw [escapeQuotes_cons, escapeQuote, if_neg (by simpa using hquote)]
        rfl
      · rw [controlFree_cons, hplain, Bool.eq_false_iff.mpr hcontrol]
        rfl
  | case6 => cases h

/-- The values that the reader gives back. -/
def identityOk (value : Bytes) : Bool := identityText value && controlFree value

/-- `quoted_value` undoes `g_shell_quote` and takes no other text. -/
theorem quotedValue_iff {text value : Bytes} :
    quotedValue text = some value ↔ identityOk value = true ∧ text = shellQuote value := by
  constructor
  · intro h
    unfold quotedValue at h
    split at h
    · obtain ⟨hrest, htext⟩ := Option.filter_eq_some_iff.mp h
      obtain ⟨rfl, hplain⟩ := quotedText_sound hrest
      exact ⟨by rw [identityOk, htext, hplain]; rfl, rfl⟩
    · cases h
  · rintro ⟨hok, rfl⟩
    obtain ⟨htext, hplain⟩ := Bool.and_eq_true_iff.mp hok
    show (quotedText (escapeQuotes value ++ [0x27])).filter identityText = some value
    rw [quotedText_escapeQuotes, if_pos hplain]
    refine Option.filter_eq_some_iff.mpr ⟨?_, htext⟩
    show some (value ++ []) = some value
    rw [List.append_nil]

/-- Text from the inside of a quoted value is no quoted value. -/
theorem quotedValue_inside (value : Bytes) (closed : Bool) :
    quotedValue (escapeQuotes value ++ if closed then [0x27] else []) = none := by
  cases value with
  | nil =>
      cases closed with
      | false => rfl
      | true => rfl
  | cons b value =>
      rw [escapeQuotes_cons, List.append_assoc]
      by_cases hquote : b = 0x27
      · subst hquote
        rfl
      · rw [escapeQuote, if_neg (by simpa using hquote), List.singleton_append]
        unfold quotedValue
        split
        · rename_i hhead
          exact absurd (List.cons.inj hhead).1 hquote
        · rfl

/-- Nor is a value whose closing apostrophe is cut off. -/
theorem quotedValue_unclosed (value : Bytes) :
    quotedValue (0x27 :: escapeQuotes value) = none := by
  have hopen := quotedText_escapeQuotes value []
  rw [List.append_nil] at hopen
  show (quotedText (escapeQuotes value)).filter identityText = none
  rw [hopen]
  cases controlFree value <;> rfl

/-! ## Lines -/

theorem newline_not_mem_escapeQuotes {value : Bytes} (h : 0x0a ∉ value) :
    0x0a ∉ escapeQuotes value := by
  intro hmem
  obtain ⟨b, hb, hin⟩ := List.mem_flatMap.mp hmem
  unfold escapeQuote at hin
  split at hin
  · revert hin
    decide
  · rw [List.mem_singleton.mp hin] at h
    exact h hb

theorem not_mem_of_identifier {key : Bytes} (h : isIdentifier key = true) {b : UInt8}
    (hb : (isAlnum b || b == 0x5f) = false) : b ∉ key := by
  intro hmem
  have hall := List.all_eq_true.mp (Bool.and_eq_true_iff.mp h).2 b hmem
  rw [hb] at hall
  cases hall

/-- The line assigns a value to the key. -/
def Assigns (key line value : Bytes) : Prop :=
  ∃ text, line = key ++ 0x3d :: text ∧ quotedValue text = some value

/-- What stands behind a text without an apostrophe is the inside of a value again. -/
theorem inside_split {front part tail text : Bytes} (hfront : 0x27 ∉ front)
    (htail : tail = [] ∨ tail = [0x27]) (h : escapeQuotes part ++ tail = front ++ text) :
    ∃ rest, text = escapeQuotes rest ++ tail := by
  induction front generalizing part with
  | nil => exact ⟨part, h.symm⟩
  | cons b front ih =>
      have hb : 0x27 ≠ b := fun heq => hfront (by simp [heq])
      cases part with
      | nil =>
          rcases htail with rfl | rfl
          · cases h
          · exact absurd (List.cons.inj h).1 hb
      | cons c part =>
          by_cases hquote : c = 0x27
          · subst hquote
            exact absurd (List.cons.inj h).1 hb
          · rw [escapeQuotes_cons, escapeQuote, if_neg (by simpa using hquote)] at h
            exact ih (fun hmem => hfront (by simp [hmem])) (List.cons.inj h).2

/-- No line inside a quoted value assigns a key. -/
theorem not_assigns_inside {key : Bytes} (hkey : isIdentifier key = true) (part : Bytes)
    (closed : Bool) (value : Bytes) :
    ¬ Assigns key (escapeQuotes part ++ if closed then [0x27] else []) value := by
  rintro ⟨text, hline, hvalue⟩
  have htail : (if closed then [0x27] else [] : Bytes) = [] ∨
      (if closed then [0x27] else [] : Bytes) = [0x27] := by
    cases closed with
    | false => exact .inl rfl
    | true => exact .inr rfl
  have hfront : 0x27 ∉ key ++ [0x3d] := by
    intro hmem
    rcases List.mem_append.mp hmem with hmem | hmem
    · exact not_mem_of_identifier hkey (by decide) hmem
    · revert hmem
      decide
  obtain ⟨rest, rfl⟩ := inside_split hfront htail (by rw [hline, List.append_assoc]; rfl)
  rw [quotedValue_inside] at hvalue
  cases hvalue

/-- The lines behind the first one of a value. -/
theorem lines_inside (value : Bytes) :
    ∀ line ∈ (escapeQuotes value ++ [0x27]).splitOn 0x0a,
      ∃ part, ∃ closed : Bool, line = escapeQuotes part ++ if closed then [0x27] else [] := by
  induction hlength : value.length using Nat.strongRecOn generalizing value with
  | ind n ih =>
      intro line hline
      by_cases hnewline : 0x0a ∈ value
      · obtain ⟨front, back, rfl, hfront⟩ := List.eq_append_cons_of_mem hnewline
        have hsplit : escapeQuotes (front ++ 0x0a :: back) ++ [0x27] =
            escapeQuotes front ++ 0x0a :: (escapeQuotes back ++ [0x27]) := by
          rw [escapeQuotes_append, List.append_assoc]
          rfl
        rw [hsplit, List.splitOn_append_cons_self_of_not_mem
          (newline_not_mem_escapeQuotes hfront)] at hline
        rcases List.mem_cons.mp hline with rfl | hline
        · exact ⟨front, false, (List.append_nil _).symm⟩
        · have hless : back.length < n := by
            rw [← hlength, List.length_append, List.length_cons]
            omega
          exact ih back.length hless back rfl line hline
      · have hplain : 0x0a ∉ escapeQuotes value ++ [0x27] := by
          intro hmem
          rcases List.mem_append.mp hmem with hmem | hmem
          · exact newline_not_mem_escapeQuotes hnewline hmem
          · revert hmem
            decide
        rw [List.splitOn_eq_singleton hplain] at hline
        exact ⟨value, true, List.mem_singleton.mp hline⟩

theorem newline_not_mem_line {a : Assignment} (h : 0x0a ∉ a.value) : 0x0a ∉ a.line := by
  intro hmem
  rcases List.mem_append.mp hmem with hmem | hmem
  · exact not_mem_of_identifier a.identifier (by decide) hmem
  · have hequals : (0x0a : UInt8) ≠ 0x3d := by decide
    have hquote : (0x0a : UInt8) ≠ 0x27 := by decide
    rcases List.mem_cons.mp hmem with heq | hmem
    · exact hequals heq
    · rcases List.mem_cons.mp hmem with heq | hmem
      · exact hquote heq
      · rcases List.mem_append.mp hmem with hmem | hmem
        · exact newline_not_mem_escapeQuotes h hmem
        · exact hquote (List.mem_singleton.mp hmem)

theorem equals_not_mem_identifier {key : Bytes} (h : isIdentifier key = true) : 0x3d ∉ key :=
  not_mem_of_identifier h (by decide)

/-- A line that is taken for an assignment is one, and its whole value is. -/
theorem line_assigned {a : Assignment} {key line value : Bytes} (hkey : isIdentifier key = true)
    (hline : line ∈ a.line.splitOn 0x0a) (h : Assigns key line value) :
    a.key = key ∧ a.value = value := by
  by_cases hnewline : 0x0a ∈ a.value
  · obtain ⟨front, back, hvalue, hfront⟩ := List.eq_append_cons_of_mem hnewline
    have hsplit : a.line =
        (a.key ++ 0x3d :: 0x27 :: escapeQuotes front) ++ 0x0a :: (escapeQuotes back ++ [0x27]) := by
      rw [Assignment.line, shellQuote, hvalue, escapeQuotes_append]
      simp only [List.append_assoc, List.cons_append]
      rfl
    rw [hsplit, List.splitOn_append_cons_self] at hline
    rcases List.mem_append.mp hline with hline | hline
    · have hplain : 0x0a ∉ a.key ++ 0x3d :: 0x27 :: escapeQuotes front := by
        have hfirst := newline_not_mem_line (a := ⟨a.key, front, a.identifier, fun hmem =>
          a.terminated (by rw [hvalue]; exact List.mem_append_left _ hmem)⟩) hfront
        intro hmem
        apply hfirst
        rw [Assignment.line, shellQuote]
        rw [← List.cons_append, ← List.cons_append, ← List.append_assoc]
        exact List.mem_append_left _ hmem
      rw [List.splitOn_eq_singleton hplain] at hline
      obtain ⟨text, htext, hquoted⟩ := h
      rw [List.mem_singleton.mp hline] at htext
      obtain ⟨-, rfl⟩ := append_cons_inj (equals_not_mem_identifier a.identifier)
        (equals_not_mem_identifier hkey) htext
      rw [quotedValue_unclosed] at hquoted
      cases hquoted
    · obtain ⟨part, closed, rfl⟩ := lines_inside back line hline
      exact absurd h (not_assigns_inside hkey part closed value)
  · rw [List.splitOn_eq_singleton (newline_not_mem_line hnewline)] at hline
    obtain ⟨text, htext, hquoted⟩ := h
    rw [List.mem_singleton.mp hline] at htext
    obtain ⟨hsame, rfl⟩ := append_cons_inj (equals_not_mem_identifier a.identifier)
      (equals_not_mem_identifier hkey) htext
    refine ⟨hsame, ?_⟩
    have hread : (quotedText (escapeQuotes a.value ++ [0x27])).filter identityText =
      some value := hquoted
    rw [quotedText_escapeQuotes] at hread
    by_cases hplain : controlFree a.value = true
    · rw [if_pos hplain] at hread
      have hvalue := (Option.filter_eq_some_iff.mp hread).1
      rw [← Option.some.inj hvalue]
      exact (List.append_nil _).symm
    · rw [if_neg hplain] at hread
      cases hread

theorem splitOn_printed (assignments : List Assignment) :
    (printed assignments).splitOn 0x0a =
      assignments.flatMap (fun a => a.line.splitOn 0x0a) ++ [[]] := by
  induction assignments with
  | nil => rfl
  | cons a assignments ih =>
      have hfirst : printed (a :: assignments) = a.line ++ 0x0a :: printed assignments := by
        rw [printed, List.flatMap_cons, List.append_assoc]
        rfl
      rw [hfirst, List.splitOn_append_cons_self, ih, List.flatMap_cons, List.append_assoc]

/-! ## The loop over the lines -/

theorem assigns_iff_prefix {key line : Bytes} :
    (key ++ [0x3d]).isPrefixOf line = true ↔ ∃ text, line = key ++ 0x3d :: text := by
  rw [List.isPrefixOf_iff_prefix]
  constructor
  · rintro ⟨text, rfl⟩
    exact ⟨text, by rw [List.append_assoc]; rfl⟩
  · rintro ⟨text, rfl⟩
    exact ⟨text, by rw [List.append_assoc]; rfl⟩

theorem identityValue_other {key line : Bytes} (h : ¬ ∃ text, line = key ++ 0x3d :: text)
    (destination : Option Bytes) : identityValue key destination line = some destination := by
  have hassigns : (key ++ [0x3d]).isPrefixOf line = false :=
    Bool.eq_false_iff.mpr (mt assigns_iff_prefix.mp h)
  rw [identityValue, hassigns]
  rfl

theorem identityValue_assignment (key text : Bytes) (destination : Option Bytes) :
    identityValue key destination (key ++ 0x3d :: text) =
      if destination.isSome then none else (quotedValue text).map some := by
  have hassigns := assigns_iff_prefix.mpr ⟨text, (rfl : key ++ 0x3d :: text = _)⟩
  have hdrop : (key ++ 0x3d :: text).drop (key.length + 1) = text := by
    rw [show key.length + 1 = (key ++ [0x3d]).length by simp,
      show key ++ 0x3d :: text = (key ++ [0x3d]) ++ text by simp, List.drop_left]
  rw [identityValue, if_neg (by simp [hassigns]), hdrop]

/-- What a line makes of a destination. -/
theorem identityValue_ok {key line : Bytes} {destination result : Option Bytes}
    (h : identityValue key destination line = some result) :
    result = destination ∨ ∃ value, Assigns key line value ∧ result = some value := by
  by_cases hline : ∃ text, line = key ++ 0x3d :: text
  · obtain ⟨text, rfl⟩ := hline
    rw [identityValue_assignment] at h
    split at h
    · cases h
    · obtain ⟨value, hvalue, rfl⟩ := Option.map_eq_some_iff.mp h
      exact .inr ⟨value, ⟨text, rfl, hvalue⟩, rfl⟩
  · rw [identityValue_other hline] at h
    exact .inl (Option.some.inj h).symm

/-- The value at the end comes from a line that assigns it. -/
theorem fold_assigned {key : Bytes} {lines : List Bytes} {destination result : Option Bytes}
    (h : lines.foldlM (identityValue key) destination = some result) :
    result = destination ∨ ∃ value, ∃ line ∈ lines, Assigns key line value ∧
      result = some value := by
  induction lines generalizing destination with
  | nil =>
      rw [List.foldlM_nil] at h
      exact .inl (Option.some.inj h).symm
  | cons line lines ih =>
      rw [List.foldlM_cons] at h
      obtain ⟨next, hnext, hrest⟩ := Option.bind_eq_some_iff.mp h
      rcases ih hrest with hsame | ⟨value, line', hmem, hvalue⟩
      · rcases identityValue_ok hnext with rfl | ⟨value, hline, hresult⟩
        · exact .inl hsame
        · exact .inr ⟨value, line, by simp, hline, hsame.trans hresult⟩
      · exact .inr ⟨value, line', by simp [hmem], hvalue⟩

theorem line_names {a : Assignment} {key : Bytes} (hkey : isIdentifier key = true) :
    (∃ text, a.line = key ++ 0x3d :: text) ↔ a.key = key := by
  constructor
  · rintro ⟨text, htext⟩
    exact (append_cons_inj (equals_not_mem_identifier a.identifier)
      (equals_not_mem_identifier hkey) htext).1
  · rintro rfl
    exact ⟨shellQuote a.value, rfl⟩

theorem fold_other {key : Bytes} (hkey : isIdentifier key = true) {assignments : List Assignment}
    (h : ∀ a ∈ assignments, a.key ≠ key) (destination : Option Bytes) :
    (assignments.map Assignment.line).foldlM (identityValue key) destination =
      some destination := by
  induction assignments with
  | nil => rfl
  | cons a assignments ih =>
      have hother := mt (line_names (a := a) hkey).mp (h a (by simp))
      rw [List.map_cons, List.foldlM_cons, identityValue_other hother]
      exact ih fun b hb => h b (by simp [hb])

/-- The line of a key among others is found. -/
theorem fold_complete {key : Bytes} (hkey : isIdentifier key = true)
    {assignments : List Assignment} (hdistinct : (assignments.map Assignment.key).Nodup)
    {a : Assignment} (ha : a ∈ assignments) (hname : a.key = key)
    (hok : identityOk a.value = true) :
    (assignments.map Assignment.line).foldlM (identityValue key) none = some (some a.value) := by
  induction assignments with
  | nil => cases ha
  | cons b assignments ih =>
      obtain ⟨hfresh, hrest⟩ := List.nodup_cons.mp hdistinct
      rw [List.map_cons, List.foldlM_cons]
      rcases List.mem_cons.mp ha with rfl | hmem
      · have hread : identityValue key none a.line = some (some a.value) := by
          subst hname
          rw [Assignment.line, identityValue_assignment, quotedValue_iff.mpr ⟨hok, rfl⟩]
          rfl
        rw [hread]
        refine fold_other hkey (fun c hc heq => hfresh ?_) _
        rw [hname, ← heq]
        exact List.mem_map_of_mem hc
      · have hother : b.key ≠ key := by
          intro heq
          apply hfresh
          rw [heq, ← hname]
          exact List.mem_map_of_mem hmem
        rw [identityValue_other (mt (line_names hkey).mp hother)]
        exact ih hrest hmem

/-- One line is read for the three keys alike. -/
theorem identityLine_iff {identity next : BundleIdentity} {line : Bytes} :
    identityLine identity line = some next ↔
      identityValue compatibleKey identity.compatible line = some next.compatible ∧
      identityValue versionKey identity.version line = some next.version ∧
      identityValue buildKey identity.build line = some next.build := by
  unfold identityLine
  cases identityValue compatibleKey identity.compatible line with
  | none => simp
  | some compatible =>
      cases identityValue versionKey identity.version line with
      | none => simp
      | some version =>
          cases identityValue buildKey identity.build line with
          | none => simp
          | some build =>
              obtain ⟨compatible', version', build'⟩ := next
              simp

/-- The three destinations do not depend on each other. -/
theorem fold_iff {lines : List Bytes} {identity last : BundleIdentity} :
    lines.foldlM identityLine identity = some last ↔
      lines.foldlM (identityValue compatibleKey) identity.compatible = some last.compatible ∧
      lines.foldlM (identityValue versionKey) identity.version = some last.version ∧
      lines.foldlM (identityValue buildKey) identity.build = some last.build := by
  induction lines generalizing identity with
  | nil =>
      obtain ⟨compatible, version, build⟩ := identity
      obtain ⟨compatible', version', build'⟩ := last
      simp
  | cons line lines ih =>
      simp only [List.foldlM_cons, Option.bind_eq_bind, Option.bind_eq_some_iff]
      constructor
      · rintro ⟨next, hline, hrest⟩
        obtain ⟨h1, h2, h3⟩ := identityLine_iff.mp hline
        obtain ⟨h4, h5, h6⟩ := ih.mp hrest
        exact ⟨⟨_, h1, h4⟩, ⟨_, h2, h5⟩, ⟨_, h3, h6⟩⟩
      · rintro ⟨⟨compatible, h1, h4⟩, ⟨version, h2, h5⟩, ⟨build, h3, h6⟩⟩
        exact ⟨⟨compatible, version, build⟩, identityLine_iff.mpr ⟨h1, h2, h3⟩,
          ih.mpr ⟨h4, h5, h6⟩⟩

/-! ## The identity of an output -/

/-- The key is assigned the value. -/
def Assigned (assignments : List Assignment) (key value : Bytes) : Prop :=
  ∃ a ∈ assignments, a.key = key ∧ a.value = value

theorem strsplit_mem {text line : Bytes} (h : line ∈ strsplit text) :
    line ∈ text.splitOn 0x0a := by
  unfold strsplit at h
  split at h
  · cases h
  · exact h

/-- What is found in the output was assigned there. -/
theorem fold_printed {key : Bytes} (hkey : isIdentifier key = true)
    {assignments : List Assignment} {value : Bytes}
    (h : (strsplit (printed assignments)).foldlM (identityValue key) none = some (some value)) :
    Assigned assignments key value := by
  rcases fold_assigned h with hnone | ⟨value', line, hmem, hline, heq⟩
  · cases hnone
  · obtain rfl := Option.some.inj heq
    have hlines := strsplit_mem hmem
    rw [splitOn_printed] at hlines
    rcases List.mem_append.mp hlines with hlines | hempty
    · obtain ⟨a, ha, hin⟩ := List.mem_flatMap.mp hlines
      exact ⟨a, ha, line_assigned hkey hin hline⟩
    · obtain ⟨text, htext, -⟩ := hline
      rw [List.mem_singleton.mp hempty] at htext
      simp at htext

/-- The output of assignments without newlines, line by line. -/
theorem strsplit_printed {assignments : List Assignment} (hne : assignments ≠ [])
    (h : ∀ a ∈ assignments, 0x0a ∉ a.value) :
    strsplit (printed assignments) = assignments.map Assignment.line ++ [[]] := by
  have hlines : assignments.flatMap (fun a => a.line.splitOn 0x0a) =
      assignments.map Assignment.line := by
    rw [List.map_eq_flatMap]
    refine List.flatMap_congr fun a ha => ?_
    exact List.splitOn_eq_singleton (newline_not_mem_line (h a ha))
  unfold strsplit
  cases assignments with
  | nil => exact absurd rfl hne
  | cons a assignments =>
      rw [if_neg, splitOn_printed, hlines]
      simp [printed, Assignment.line]

def identityKeys : List Bytes := [compatibleKey, versionKey, buildKey]

theorem identifier_of_identityKey : ∀ key ∈ identityKeys, isIdentifier key = true := by
  decide

/-- An identity that is parsed was printed. -/
theorem parse_sound {assignments : List Assignment} {identity : BundleIdentity}
    (h : bundleIdentityParse (printed assignments) = some identity) :
    ∃ compatible version build, identity = ⟨some compatible, some version, some build⟩ ∧
      Assigned assignments compatibleKey compatible ∧
      Assigned assignments versionKey version ∧ Assigned assignments buildKey build := by
  obtain ⟨hfold, hall⟩ := Option.filter_eq_some_iff.mp h
  obtain ⟨hcompatible, hversion, hbuild⟩ := fold_iff.mp hfold
  obtain ⟨compatible, version, build⟩ := identity
  simp only [Bool.and_eq_true, Option.isSome_iff_exists] at hall
  obtain ⟨⟨⟨c, rfl⟩, v, rfl⟩, b, rfl⟩ := hall
  exact ⟨c, v, b, rfl,
    fold_printed (identifier_of_identityKey _ (by simp [identityKeys])) hcompatible,
    fold_printed (identifier_of_identityKey _ (by simp [identityKeys])) hversion,
    fold_printed (identifier_of_identityKey _ (by simp [identityKeys])) hbuild⟩

theorem newline_not_mem_of_ok {value : Bytes} (h : identityOk value = true) : 0x0a ∉ value := by
  intro hmem
  have hplain := List.all_eq_true.mp (Bool.and_eq_true_iff.mp h).2 _ hmem
  revert hplain
  decide

/-- One destination at the end of an output without newlines in its values. -/
theorem fold_assignment {key : Bytes} (hkey : isIdentifier key = true)
    {assignments : List Assignment} (hdistinct : (assignments.map Assignment.key).Nodup)
    (hlines : ∀ a ∈ assignments, 0x0a ∉ a.value) {a : Assignment} (ha : a ∈ assignments)
    (hname : a.key = key) (hok : identityOk a.value = true) :
    (strsplit (printed assignments)).foldlM (identityValue key) none = some (some a.value) := by
  rw [strsplit_printed (List.ne_nil_of_mem ha) hlines, List.foldlM_append,
    fold_complete hkey hdistinct ha hname hok]
  have hempty : ¬ ∃ text, ([] : Bytes) = key ++ 0x3d :: text := by simp
  show identityValue key (some a.value) [] >>= pure = _
  rw [identityValue_other hempty]
  rfl

/-- A printed identity with valid values is parsed. -/
theorem parse_complete {assignments : List Assignment}
    (hdistinct : (assignments.map Assignment.key).Nodup)
    (hkeys : ∀ key ∈ identityKeys, ∃ value, Assigned assignments key value ∧
      identityOk value = true)
    (hothers : ∀ a ∈ assignments, a.key ∉ identityKeys → 0x0a ∉ a.value) :
    (bundleIdentityParse (printed assignments)).isSome = true := by
  have hlines : ∀ a ∈ assignments, 0x0a ∉ a.value := by
    intro a ha
    by_cases hmem : a.key ∈ identityKeys
    · obtain ⟨value, ⟨b, hb, hname, rfl⟩, hok⟩ := hkeys a.key hmem
      obtain rfl : b = a := List.inj_on_of_nodup_map hdistinct hb ha hname
      exact newline_not_mem_of_ok hok
    · exact hothers a ha hmem
  have hread : ∀ key ∈ identityKeys, ∃ value,
      (strsplit (printed assignments)).foldlM (identityValue key) none = some (some value) := by
    intro key hkey
    obtain ⟨value, ⟨a, ha, hname, rfl⟩, hok⟩ := hkeys key hkey
    exact ⟨a.value, fold_assignment (identifier_of_identityKey key hkey) hdistinct hlines ha
      hname hok⟩
  obtain ⟨compatible, hcompatible⟩ := hread compatibleKey (by simp [identityKeys])
  obtain ⟨version, hversion⟩ := hread versionKey (by simp [identityKeys])
  obtain ⟨build, hbuild⟩ := hread buildKey (by simp [identityKeys])
  have hfold : (strsplit (printed assignments)).foldlM identityLine ⟨none, none, none⟩ =
      some ⟨some compatible, some version, some build⟩ :=
    fold_iff.mpr ⟨hcompatible, hversion, hbuild⟩
  rw [bundleIdentityParse, hfold]
  rfl

/-- What `ota_rauc_verify` compares once the command gave an output. -/
theorem verify_ok {release : OtaRelease} {attempt : OtaPersistentState} {bundle : Bytes}
    {invoke : Except OtaError Bytes} (h : otaRaucVerify release attempt bundle invoke = .ok ()) :
    ∃ output identity, invoke = .ok output ∧ bundleIdentityParse output = some identity ∧
      identity.compatible = some release.raucCompatible ∧
      identity.version = some attempt.targetVersion ∧ identity.build = some attempt.buildId := by
  simp only [otaRaucVerify, bind, Except.bind, pure, Except.pure, throw, throwThe,
    MonadExceptOf.throw] at h
  split at h
  · cases h
  · split at h
    · cases h
    · split at h
      · cases h
      · cases invoke with
        | error e => cases h
        | ok output =>
            cases hparse : bundleIdentityParse output with
            | none =>
                simp only [hparse] at h
                cases h
            | some identity =>
                simp only [hparse] at h
                by_cases hcompatible : some release.raucCompatible = identity.compatible
                · by_cases hrest : identity.version = some attempt.targetVersion ∧
                      identity.build = some attempt.buildId
                  · exact ⟨output, identity, rfl, hparse, hcompatible.symm, hrest⟩
                  · simp [hcompatible, Classical.not_and_iff_not_or_not.mp hrest] at h
                · simp [hcompatible] at h

/-- A bundle passes only with the identity that its manifest assigns. -/
theorem verified_identity {release : OtaRelease} {attempt : OtaPersistentState} {bundle : Bytes}
    {assignments : List Assignment}
    (h : otaRaucVerify release attempt bundle (.ok (printed assignments)) = .ok ()) :
    Assigned assignments compatibleKey release.raucCompatible ∧
      Assigned assignments versionKey attempt.targetVersion ∧
      Assigned assignments buildKey attempt.buildId := by
  obtain ⟨output, identity, hinvoke, hparse, hc, hv, hb⟩ := verify_ok h
  obtain rfl := Except.ok.inj hinvoke
  obtain ⟨compatible, version, build, rfl, hcompatible, hversion, hbuild⟩ := parse_sound hparse
  obtain rfl := Option.some.inj hc
  obtain rfl := Option.some.inj hv
  obtain rfl := Option.some.inj hb
  exact ⟨hcompatible, hversion, hbuild⟩

/-- What is accepted is what was assigned, and every plain output is accepted. -/
theorem bundle_identity (assignments : List Assignment)
    (hdistinct : (assignments.map Assignment.key).Nodup) :
    (∀ identity, bundleIdentityParse (printed assignments) = some identity →
      ∃ compatible version build, identity = ⟨some compatible, some version, some build⟩ ∧
        Assigned assignments compatibleKey compatible ∧
        Assigned assignments versionKey version ∧ Assigned assignments buildKey build) ∧
    ((∀ key ∈ identityKeys, ∃ value, Assigned assignments key value ∧ identityOk value = true) →
      (∀ a ∈ assignments, a.key ∉ identityKeys → 0x0a ∉ a.value) →
      (bundleIdentityParse (printed assignments)).isSome = true) ∧
    ∀ text value, quotedValue text = some value ↔
      identityOk value = true ∧ text = shellQuote value :=
  ⟨fun _ h => parse_sound h, parse_complete hdistinct, fun _ _ => quotedValue_iff⟩

def sampleAssignments : List Assignment :=
  [⟨compatibleKey, ascii "EdgeGuard's board", by decide, by decide⟩,
    ⟨ascii "RAUC_MF_DESCRIPTION", ascii "x\nRAUC_MF_VERSION='9.9.9'\n", by decide, by decide⟩,
    ⟨versionKey, ascii "1.2.3", by decide, by decide⟩,
    ⟨buildKey, ascii "build-7", by decide, by decide⟩]

/-- A description that imitates a version makes the output unreadable; without its line
breaks it is harmless. -/
theorem bundle_identity_forged :
    bundleIdentityParse (printed sampleAssignments) = none ∧
      (bundleIdentityParse (printed (sampleAssignments.eraseIdx 1))).isSome = true := by
  refine ⟨by decide +kernel, (bundle_identity _ (by decide +kernel)).2.1 ?_ ?_⟩
  · intro key hkey
    have hnamed : ∃ a ∈ sampleAssignments.eraseIdx 1, a.key = key ∧ identityOk a.value = true := by
      simp only [identityKeys, List.mem_cons, List.not_mem_nil, or_false] at hkey
      rcases hkey with rfl | rfl | rfl
      · exact ⟨_, .head _, by decide +kernel, by decide +kernel⟩
      · exact ⟨_, .tail _ (.head _), by decide +kernel, by decide +kernel⟩
      · exact ⟨_, .tail _ (.tail _ (.head _)), by decide +kernel, by decide +kernel⟩
    obtain ⟨a, ha, hname, hok⟩ := hnamed
    exact ⟨a.value, ⟨a, ha, hname, rfl⟩, hok⟩
  · intro a ha hother
    have hall : (sampleAssignments.eraseIdx 1).all (fun a => !a.value.contains 0x0a) = true := by
      decide +kernel
    simpa using List.all_eq_true.mp hall a ha

end EdgeGuard.Agent.RaucIdentity
