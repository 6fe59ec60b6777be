import EdgeGuard.Base.Json

/-!
# Lexical guards in front of a JSON parser

Before a buffer reaches the JSON parser, the programs run one pass over its raw
bytes that bounds the nesting of brackets and refuses every number token other
than a nonnegative 64-bit integer without leading zeros.  The passes differ in
their limits, in whether brackets `[` `]` are allowed, in whether control bytes
inside strings are refused, and in the bytes that may follow a number.
`Rules` collects those differences and `scan` is the pass.

The C loops step back by one byte after a number and look at the byte again;
here the byte that ends a number is tested against the terminators and then
handled as any other byte outside a string.

## Main results

* `guard_generate` — a written tree within the limits passes the guard.
-/

namespace EdgeGuard.Base.JsonGuard

open EdgeGuard.Base.CText EdgeGuard.Base.Json

/-- The limits of one guard. -/
structure Rules where
  /-- Deepest nesting of brackets. -/
  maxDepth : Nat
  /-- Square brackets count as nesting; otherwise they are refused. -/
  arrays : Bool
  /-- Control bytes may stand inside a string. -/
  quotedControls : Bool
  /-- Largest integer. -/
  numberMax : Nat
  /-- Bytes that may follow an integer. -/
  terminators : Bytes

/-- Where the pass stands. -/
inductive Mode
  | text
  | quoted
  | escaped
  | number (value : Nat)

/-- A byte outside strings and numbers: the next mode and nesting, or refusal. -/
def punctuation (r : Rules) (depth : Nat) (b : UInt8) : Option (Mode × Nat) :=
  if b == 0x22 then some (.quoted, depth)
  else if b == 0x7b || (r.arrays && b == 0x5b) then
    if r.maxDepth < depth + 1 then none else some (.text, depth + 1)
  else if b == 0x7d || (r.arrays && b == 0x5d) then
    if depth == 0 then none else some (.text, depth - 1)
  else if b == 0x2d || b == 0x2b || b == 0x2e || b == 0x5b || b == 0x5d then none
  else some (.text, depth)

/-- The guard's pass over the bytes, from a mode and a nesting depth. -/
def scan (r : Rules) : Mode → Nat → Bytes → Bool
  | .text, depth, [] => depth == 0
  | .number _, depth, [] => depth == 0
  | .quoted, _, [] => false
  | .escaped, _, [] => false
  | .escaped, depth, _ :: rest => scan r .quoted depth rest
  | .quoted, depth, b :: rest =>
      if b == 0x5c then scan r .escaped depth rest
      else if b == 0x22 then scan r .text depth rest
      else if !r.quotedControls && b < 0x20 then false
      else scan r .quoted depth rest
  | .text, depth, b :: rest =>
      if isDigit b then
        -- a zero may not be followed by another digit
        if b == 0x30 && rest.head?.any isDigit then false
        else scan r (.number (digitOf b)) depth rest
      else
        match punctuation r depth b with
        | none => false
        | some (mode, depth) => scan r mode depth rest
  | .number value, depth, b :: rest =>
      if isDigit b then
        if (r.numberMax - digitOf b) / 10 < value then false
        else scan r (.number (value * 10 + digitOf b)) depth rest
      else if !r.terminators.contains b then false
      else
        match punctuation r depth b with
        | none => false
        | some (mode, depth) => scan r mode depth rest

/-- The scan passes over a quoted text. -/
theorem scan_quoted {r : Rules} {s : Bytes} (h : Written s) (depth : Nat)
    (rest : Bytes) :
    scan r .quoted depth (escape s ++ 0x22 :: rest) = scan r .text depth rest := by
  induction h with
  | nil => simp [scan]
  | @plain b s hb _ ih =>
      obtain ⟨h1, h2⟩ := beq_of_plain hb
      have hctl : ¬ b < 0x20 := by
        simp only [isPlain, isControl, Bool.and_eq_true, Bool.not_eq_true',
          Bool.or_eq_false_iff, decide_eq_false_iff_not] at hb
        exact hb.2.1
      rw [escape_plain_cons hb, List.cons_append, scan]
      simp [h1, h2, hctl, ih]
  | quote _ ih => simp [scan, ih]
  | backslash _ ih => simp [scan, ih]

/-- The whole pass over a buffer. -/
def guard (r : Rules) (data : Bytes) : Bool := scan r .text 0 data

/-! ## Trees within the limits -/

mutual

/-- The value, inside `depth` objects, keeps within the guard's limits. -/
def Within (r : Rules) : Nat → Value → Prop
  | _, .null => True
  | _, .bool _ => True
  | _, .int n => n.toNat ≤ r.numberMax
  | _, .double _ => False
  | _, .str _ => True
  | _, .arr _ => False
  | depth, .obj ms => depth + 1 ≤ r.maxDepth ∧ WithinMembers r (depth + 1) ms

def WithinMembers (r : Rules) : Nat → Members → Prop
  | _, .nil => True
  | depth, .cons _ v rest => Within r depth v ∧ WithinMembers r depth rest

end

/-- The bytes that end a member are among the terminators. -/
structure MemberEnds (r : Rules) : Prop where
  comma : r.terminators.contains 0x2c = true
  brace : r.terminators.contains 0x7d = true

/-! ## The pass over written text -/

variable {r : Rules}

theorem scan_quote {s : Bytes} (h : Written s) (depth : Nat) (rest : Bytes) :
    scan r .text depth (quote s ++ rest) = scan r .text depth rest := by
  simp only [quote, List.cons_append, List.append_assoc, List.nil_append]
  rw [scan]
  simp [isDigit, punctuation, scan_quoted h]

/-- The byte after a number is handled like any other, once it may follow. -/
theorem scan_number_end {c : UInt8} (hc : r.terminators.contains c = true)
    (hd : isDigit c = false) (value depth : Nat) (rest : Bytes) :
    scan r (.number value) depth (c :: rest) = scan r .text depth (c :: rest) := by
  rw [scan, scan]
  simp only [hd, hc, Bool.not_true, Bool.false_eq_true, if_false]

private theorem scan_number_digit {b : UInt8} (hb : isDigit b = true) {value : Nat}
    (h : ¬ (r.numberMax - digitOf b) / 10 < value) (depth : Nat) (rest : Bytes) :
    scan r (.number value) depth (b :: rest) =
      scan r (.number (value * 10 + digitOf b)) depth rest := by
  rw [scan, if_pos hb, if_neg h]

private theorem scan_first_digit {b : UInt8} (hb : isDigit b = true) {rest : Bytes}
    (hzero : (b == 0x30 && rest.head?.any isDigit) = false) (depth : Nat) :
    scan r .text depth (b :: rest) = scan r (.number (digitOf b)) depth rest := by
  rw [scan, if_pos hb, hzero]
  simp

private theorem scan_digits {c : UInt8} (hc : r.terminators.contains c = true)
    (hd : isDigit c = false) (depth : Nat) (rest : Bytes) (ds : Bytes)
    (hds : ∀ b ∈ ds, isDigit b = true) (value : Nat)
    (hmax : decimalValue value ds ≤ r.numberMax) :
    scan r (.number value) depth (ds ++ c :: rest) =
      scan r .text depth (c :: rest) := by
  induction ds generalizing value with
  | nil => exact scan_number_end hc hd value depth rest
  | cons b ds ih =>
      have hb := hds b (by simp)
      have hle := le_decimalValue ds (value * 10 + digitOf b)
      have hmax' : decimalValue (value * 10 + digitOf b) ds ≤ r.numberMax := hmax
      have hsmall : ¬ (r.numberMax - digitOf b) / 10 < value := by omega
      rw [List.cons_append, scan_number_digit hb hsmall]
      exact ih (fun x hx => hds x (by simp [hx])) _ hmax'

/-- The scan passes over a number within its bound. -/
theorem scan_decimal {c : UInt8} (hc : r.terminators.contains c = true)
    (hd : isDigit c = false) {n : Nat} (hn : n ≤ r.numberMax) (depth : Nat)
    (rest : Bytes) :
    scan r .text depth (decimal n ++ c :: rest) = scan r .text depth (c :: rest) := by
  have hval := decimalValue_decimal n
  have hds := isDigit_of_mem_decimal n
  cases hdec : decimal n with
  | nil => exact absurd hdec (decimal_ne_nil n)
  | cons b ds =>
      rw [hdec] at hval hds
      have hb := hds b (by simp)
      -- the token's own first byte: zero stands alone
      have hzero : (b == 0x30 && (ds ++ c :: rest).head?.any isDigit) = false := by
        cases hb0 : b == 0x30 with
        | false => rfl
        | true =>
            rw [beq_iff_eq.mp hb0] at hdec
            rw [decimal_leading n hdec]
            simp [hd]
      have hstart : decimalValue (digitOf b) ds ≤ r.numberMax := by
        have : decimalValue 0 (b :: ds) = decimalValue (digitOf b) ds := by
          simp [decimalValue]
        omega
      rw [List.cons_append, scan_first_digit hb hzero]
      exact scan_digits hc hd depth rest ds (fun x hx => hds x (by simp [hx])) _ hstart

/-- Bytes outside strings that only take the pass one step on. -/
private theorem scan_skip {b : UInt8} (hd : isDigit b = false) {depth : Nat}
    (hp : punctuation r depth b = some (.text, depth)) (rest : Bytes) :
    scan r .text depth (b :: rest) = scan r .text depth rest := by
  rw [scan, hp]
  simp [hd]

private theorem scan_colon (depth : Nat) (rest : Bytes) :
    scan r .text depth (0x3a :: rest) = scan r .text depth rest :=
  scan_skip (by decide) (by simp [punctuation]) rest

private theorem scan_comma (depth : Nat) (rest : Bytes) :
    scan r .text depth (0x2c :: rest) = scan r .text depth rest :=
  scan_skip (by decide) (by simp [punctuation]) rest

private theorem scan_open {depth : Nat} (h : depth + 1 ≤ r.maxDepth) (rest : Bytes) :
    scan r .text depth (0x7b :: rest) = scan r .text (depth + 1) rest := by
  rw [scan]
  simp [isDigit, punctuation, Nat.not_lt.mpr h]

private theorem scan_close (depth : Nat) (rest : Bytes) :
    scan r .text (depth + 1) (0x7d :: rest) = scan r .text depth rest := by
  rw [scan]
  simp [isDigit, punctuation]

private theorem scan_literal {s : Bytes}
    (h : s.all (fun b => 0x61 ≤ b && b ≤ 0x7a) = true) (depth : Nat) (rest : Bytes) :
    scan r .text depth (s ++ rest) = scan r .text depth rest := by
  induction s with
  | nil => rfl
  | cons b s ih =>
      simp only [List.all_cons, Bool.and_eq_true, decide_eq_true_eq] at h
      obtain ⟨⟨hlo, hhi⟩, h⟩ := h
      have hd : isDigit b = false := by
        unfold isDigit
        grind
      have hp : punctuation r depth b = some (.text, depth) := by
        unfold punctuation
        grind
      rw [List.cons_append, scan_skip hd hp]
      exact ih h

/-- The text behind a value starts with a byte that may end a number. -/
def Follows (r : Rules) (rest : Bytes) : Prop :=
  ∃ c tail, rest = c :: tail ∧ r.terminators.contains c = true ∧ isDigit c = false

private theorem follows_generateMembers (hr : MemberEnds r) (ms : Members)
    (rest : Bytes) : Follows r (generateMembers ms ++ rest) := by
  cases ms with
  | nil => exact ⟨0x7d, rest, rfl, hr.brace, by decide⟩
  | cons k v ms =>
      exact ⟨0x2c, quote k ++ 0x3a :: (generate v ++ generateMembers ms) ++ rest,
        by simp [generateMembers], hr.comma, by decide⟩

mutual

/-- The scan passes over what is generated, within its depth. -/
theorem scan_generate (hr : MemberEnds r) : ∀ (v : Value) (depth : Nat) (rest : Bytes),
    Writable v → Within r depth v → Follows r rest →
      scan r .text depth (generate v ++ rest) = scan r .text depth rest
  | .null, depth, rest, _, _, _ => scan_literal (by decide) depth rest
  | .bool true, depth, rest, _, _, _ => scan_literal (by decide) depth rest
  | .bool false, depth, rest, _, _, _ => scan_literal (by decide) depth rest
  | .int n, depth, _, hn, hmax, ⟨c, tail, rfl, hc, hd⟩ => by
      rw [generate, intText_of_nonneg hn]
      exact scan_decimal hc hd hmax depth tail
  | .str s, depth, rest, h, _, _ => scan_quote (TextOk.written h) depth rest
  | .obj ms, depth, rest, h, hw, _ => scan_generate_object hr ms depth rest h hw

theorem scan_generate_object (hr : MemberEnds r) :
    ∀ (ms : Members) (depth : Nat) (rest : Bytes),
      WritableMembers ms → Within r depth (.obj ms) →
        scan r .text depth (generate (.obj ms) ++ rest) = scan r .text depth rest
  | .nil, depth, rest, _, ⟨hdepth, _⟩ => by
      simp only [generate, List.cons_append, List.nil_append]
      rw [scan_open hdepth, scan_close]
  | .cons k v ms, depth, rest, ⟨hk, _, hv, hms⟩, ⟨hdepth, hwv, hwms⟩ => by
      simp only [generate, List.cons_append, List.append_assoc]
      rw [scan_open hdepth, scan_quote hk.written, scan_colon,
        scan_generate hr v (depth + 1) _ hv hwv (follows_generateMembers hr ms rest),
        scan_generateMembers hr ms depth rest hms hwms]

theorem scan_generateMembers (hr : MemberEnds r) :
    ∀ (ms : Members) (depth : Nat) (rest : Bytes),
      WritableMembers ms → WithinMembers r (depth + 1) ms →
        scan r .text (depth + 1) (generateMembers ms ++ rest) =
          scan r .text depth rest
  | .nil, depth, rest, _, _ => scan_close depth rest
  | .cons k v ms, depth, rest, ⟨hk, _, hv, hms⟩, ⟨hwv, hwms⟩ => by
      simp only [generateMembers, List.cons_append, List.append_assoc]
      rw [scan_comma, scan_quote hk.written, scan_colon,
        scan_generate hr v (depth + 1) _ hv hwv (follows_generateMembers hr ms rest),
        scan_generateMembers hr ms depth rest hms hwms]

end

/-- A written object within the limits passes the guard. -/
theorem guard_generate (hr : MemberEnds r) {ms : Members} (h : WritableMembers ms)
    (hw : Within r 0 (.obj ms)) : guard r (generate (.obj ms)) = true := by
  have := scan_generate_object hr ms 0 [] h hw
  rw [List.append_nil] at this
  rw [guard, this, scan]
  rfl

end EdgeGuard.Base.JsonGuard
