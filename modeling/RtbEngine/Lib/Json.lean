import Mathlib.Algebra.Field.Rat

/-!
# JSON texts

A text is a list of bytes in UTF-8. A machine reads it into tokens, one byte
at a time, and a value has one list of tokens; a text reads as a value when
its tokens are the value's.

* `run_append` — reading is compositional;
* `Reads.unique` — a text reads as one value at most;
* `run_string_silent`, `clean_iff` — what may stand between two quotes, and
  when it stands for itself.
-/

namespace RtbEngine.Lib.Json

abbrev Text := List UInt8

/-! ## UTF-8 -/

/-- Between characters, or inside one with `left + 1` bytes to come; the
second byte is bounded further behind some first ones. -/
inductive Utf8 where
  | start
  | tail (left : Nat)
  | afterE0
  | afterED
  | afterF0
  | afterF4
  deriving DecidableEq

def Utf8.first (c : UInt8) : Option Utf8 :=
  if c < 0x80 then some .start
  else if 0xC2 ≤ c ∧ c ≤ 0xDF then some (.tail 0)
  else if c = 0xE0 then some .afterE0
  else if c = 0xED then some .afterED
  else if 0xE1 ≤ c ∧ c ≤ 0xEF then some (.tail 1)
  else if c = 0xF0 then some .afterF0
  else if 0xF1 ≤ c ∧ c ≤ 0xF3 then some (.tail 2)
  else if c = 0xF4 then some .afterF4
  else none

def within (low high c : UInt8) (next : Utf8) : Option Utf8 :=
  if low ≤ c ∧ c ≤ high then some next else none

def Utf8.step : Utf8 → UInt8 → Option Utf8
  | .start, c => first c
  | .tail 0, c => within 0x80 0xBF c .start
  | .tail (left + 1), c => within 0x80 0xBF c (.tail left)
  | .afterE0, c => within 0xA0 0xBF c (.tail 0)
  | .afterED, c => within 0x80 0x9F c (.tail 0)
  | .afterF0, c => within 0x90 0xBF c (.tail 1)
  | .afterF4, c => within 0x80 0x8F c (.tail 1)

def Utf8.run : Utf8 → Text → Option Utf8
  | u, [] => some u
  | u, c :: cs => (u.step c).bind fun u => u.run cs

def validUtf8 (text : Text) : Bool := decide (Utf8.start.run text = some .start)

/-! ## Strings -/

/-- A byte of a string, or the code unit of a `\u` escape. -/
inductive Piece where
  | byte (b : UInt8)
  | unit (u : Nat)

def isDigit (c : UInt8) : Bool := 48 ≤ c && c ≤ 57

def isHex (c : UInt8) : Bool := isDigit c || (65 ≤ c && c ≤ 70) || (97 ≤ c && c ≤ 102)

def hexValue (c : UInt8) : Nat :=
  if c ≤ 57 then c.toNat - 48 else if c ≤ 70 then c.toNat - 55 else c.toNat - 87

def isEscape (c : UInt8) : Bool :=
  c = 34 || c = 92 || c = 47 || c = 98 || c = 102 || c = 110 || c = 114 || c = 116

def escapeByte (c : UInt8) : UInt8 :=
  if c = 98 then 8 else if c = 102 then 12 else if c = 110 then 10
  else if c = 114 then 13 else if c = 116 then 9 else c

def pieces : Text → List Piece
  | [] => []
  | c :: rest =>
      if c = 92 then
        match rest with
        | [] => []
        | e :: rest =>
            if e = 117 then
              match rest with
              | a :: b :: c :: d :: rest =>
                  .unit (((hexValue a * 16 + hexValue b) * 16 + hexValue c) * 16 + hexValue d) ::
                    pieces rest
              | _ => []
            else .byte (escapeByte e) :: pieces rest
      else .byte c :: pieces rest

/-- The bytes of a code point. -/
def encodePoint (n : Nat) : Text :=
  if n < 0x80 then [UInt8.ofNat n]
  else if n < 0x800 then [UInt8.ofNat (0xC0 + n / 64), UInt8.ofNat (0x80 + n % 64)]
  else if n < 0x10000 then
    [UInt8.ofNat (0xE0 + n / 4096), UInt8.ofNat (0x80 + n / 64 % 64), UInt8.ofNat (0x80 + n % 64)]
  else
    [UInt8.ofNat (0xF0 + n / 262144), UInt8.ofNat (0x80 + n / 4096 % 64),
      UInt8.ofNat (0x80 + n / 64 % 64), UInt8.ofNat (0x80 + n % 64)]

/-- Two units that are halves of a code point go together. -/
def encode : List Piece → Text
  | [] => []
  | .byte b :: rest => b :: encode rest
  | .unit u :: .unit v :: rest =>
      if 0xD800 ≤ u ∧ u < 0xDC00 ∧ 0xDC00 ≤ v ∧ v < 0xE000 then
        encodePoint (0x10000 + (u - 0xD800) * 1024 + (v - 0xDC00)) ++ encode rest
      else encodePoint u ++ encode (.unit v :: rest)
  | .unit u :: rest => encodePoint u ++ encode rest

/-- What stands between two quotes, without the escapes. -/
def unescape (raw : Text) : Text := encode (pieces raw)

/-! ## Numbers -/

def natValue (digits : Text) : Nat := digits.foldl (fun v d => 10 * v + (d.toNat - 48)) 0

def unsigned (text : Text) : Text := if text.head? = some 45 then text.tail else text

def isExponent : Text → Bool
  | [] => true
  | c :: rest =>
      let digits := if rest.head? = some 45 ∨ rest.head? = some 43 then rest.tail else rest
      (c = 101 || c = 69) && !digits.isEmpty && digits.all isDigit

def isFraction : Text → Bool
  | 46 :: rest => !(rest.takeWhile isDigit).isEmpty && isExponent (rest.dropWhile isDigit)
  | rest => isExponent rest

/-- No zero in front of other digits, digits on both sides of the point. -/
def isNumber (text : Text) : Bool :=
  let whole := (unsigned text).takeWhile isDigit
  !whole.isEmpty && (whole == [48] || whole.head? != some 48) &&
    isFraction ((unsigned text).dropWhile isDigit)

def exponentValue : Text → ℚ
  | [] => 1
  | _ :: rest =>
      if rest.head? = some 45 then 1 / 10 ^ natValue rest.tail
      else if rest.head? = some 43 then 10 ^ natValue rest.tail
      else 10 ^ natValue rest

def fractionValue (whole : Nat) : Text → ℚ
  | 46 :: rest =>
      let digits := rest.takeWhile isDigit
      (whole + natValue digits / 10 ^ digits.length) * exponentValue (rest.dropWhile isDigit)
  | rest => whole * exponentValue rest

def numberValue (text : Text) : ℚ :=
  let size := fractionValue (natValue ((unsigned text).takeWhile isDigit))
    ((unsigned text).dropWhile isDigit)
  if text.head? = some 45 then -size else size

/-! ## Tokens -/

inductive Token where
  | openBrace
  | closeBrace
  | openBracket
  | closeBracket
  | colon
  | comma
  | null
  | bool (b : Bool)
  | num (q : ℚ)
  | str (s : Text)
  deriving DecidableEq

/-- Inside a string: at a character or inside one, behind a backslash, or with
`left + 1` hexadecimal digits to come. -/
inductive Inside where
  | char (utf8 : Utf8)
  | escape
  | hex (left : Nat)
  deriving DecidableEq

inductive State where
  | between
  | string (raw : Text) (inside : Inside)
  | number (text : Text)
  | word (text : Text)
  deriving DecidableEq

/-- The state before the first byte of a string. -/
def State.opened : State := .string [] (.char .start)

def stepBetween (c : UInt8) : Option (State × List Token) :=
  if c = 32 ∨ c = 9 ∨ c = 10 ∨ c = 13 then some (.between, [])
  else if c = 34 then some (.opened, [])
  else if c = 123 then some (.between, [.openBrace])
  else if c = 125 then some (.between, [.closeBrace])
  else if c = 91 then some (.between, [.openBracket])
  else if c = 93 then some (.between, [.closeBracket])
  else if c = 58 then some (.between, [.colon])
  else if c = 44 then some (.between, [.comma])
  else if c = 45 ∨ isDigit c = true then some (.number [c], [])
  else if 97 ≤ c ∧ c ≤ 122 then some (.word [c], [])
  else none

def Inside.step : Inside → UInt8 → Option Inside
  | .char .start, c =>
      if c < 32 then none else if c = 92 then some .escape else (Utf8.first c).map .char
  | .char utf8, c => (utf8.step c).map .char
  | .escape, c =>
      if c = 117 then some (.hex 3) else if isEscape c then some (.char .start) else none
  | .hex left, c =>
      if isHex c then some (match left with | 0 => .char .start | n + 1 => .hex n) else none

def stepString (raw : Text) (inside : Inside) (c : UInt8) : Option (State × List Token) :=
  if inside = .char .start ∧ c = 34 then some (.between, [.str (unescape raw)])
  else (inside.step c).map fun inside => (.string (raw ++ [c]) inside, [])

def isNumberByte (c : UInt8) : Bool :=
  isDigit c || c = 45 || c = 43 || c = 46 || c = 101 || c = 69

def closeNumber (text : Text) : Option (List Token) :=
  if isNumber text then some [.num (numberValue text)] else none

def closeWord (text : Text) : Option (List Token) :=
  if text = [110, 117, 108, 108] then some [.null]
  else if text = [116, 114, 117, 101] then some [.bool true]
  else if text = [102, 97, 108, 115, 101] then some [.bool false]
  else none

def prepend (out : List Token) (r : State × List Token) : State × List Token := (r.1, out ++ r.2)

/-- What was read is over with `c`, which is read as well. -/
def stepBehind (closed : Option (List Token)) (c : UInt8) : Option (State × List Token) :=
  closed.bind fun out => (stepBetween c).map (prepend out)

def step : State → UInt8 → Option (State × List Token)
  | .between, c => stepBetween c
  | .string raw inside, c => stepString raw inside c
  | .number text, c =>
      if isNumberByte c then some (.number (text ++ [c]), []) else stepBehind (closeNumber text) c
  | .word text, c =>
      if 97 ≤ c ∧ c ≤ 122 then some (.word (text ++ [c]), []) else stepBehind (closeWord text) c

def run : State → Text → Option (State × List Token)
  | q, [] => some (q, [])
  | q, c :: cs => (step q c).bind fun r => (run r.1 cs).map (prepend r.2)

def finish : State → Option (List Token)
  | .between => some []
  | .string _ _ => none
  | .number text => closeNumber text
  | .word text => closeWord text

def lex (text : Text) : Option (List Token) :=
  (run .between text).bind fun r => (finish r.1).map fun more => r.2 ++ more

/-! ## Values -/

inductive Value where
  | null
  | bool (b : Bool)
  | num (q : ℚ)
  | str (s : Text)
  | arr (items : List Value)
  | obj (members : List (Text × Value))

mutual

/-- The tokens of a value. -/
def Value.tokens : Value → List Token
  | .null => [.null]
  | .bool b => [.bool b]
  | .num q => [.num q]
  | .str s => [.str s]
  | .arr [] => [.openBracket, .closeBracket]
  | .arr (v :: items) => .openBracket :: (v.tokens ++ moreItems items)
  | .obj [] => [.openBrace, .closeBrace]
  | .obj ((name, v) :: members) =>
      .openBrace :: .str name :: .colon :: (v.tokens ++ moreMembers members)

def moreItems : List Value → List Token
  | [] => [.closeBracket]
  | v :: items => .comma :: (v.tokens ++ moreItems items)

def moreMembers : List (Text × Value) → List Token
  | [] => [.closeBrace]
  | (name, v) :: members => .comma :: .str name :: .colon :: (v.tokens ++ moreMembers members)

end

/-- `text` is a JSON text of the value `v`. -/
def Reads (text : Text) (v : Value) : Prop := lex text = some v.tokens

/-! ## Reading in parts -/

theorem prepend_prepend (out more : List Token) (r : State × List Token) :
    prepend out (prepend more r) = prepend (out ++ more) r := by
  unfold prepend
  rw [List.append_assoc]

/-- The machine reads one part after the other. -/
theorem run_append (q : State) (a b : Text) :
    run q (a ++ b) = (run q a).bind fun r => (run r.1 b).map (prepend r.2) := by
  induction a generalizing q with
  | nil => exact Option.map_id'.symm
  | cons c a ih =>
      rw [List.cons_append, run, run, Option.bind_assoc]
      congr 1
      funext r
      rw [ih, Option.map_bind, Option.bind_map]
      congr 1
      funext r1
      simp only [Function.comp, Option.map_map]
      congr 1
      funext r2
      exact prepend_prepend _ _ _

theorem run_trans {q q1 q2 : State} {a b : Text} {out more : List Token}
    (ha : run q a = some (q1, out)) (hb : run q1 b = some (q2, more)) :
    run q (a ++ b) = some (q2, out ++ more) := by
  rw [run_append, ha, Option.bind_some]
  simp only
  rw [hb]
  rfl

/-- Both parts are read if the whole is. -/
theorem run_append_some {q q2 : State} {a b : Text} {out : List Token}
    (h : run q (a ++ b) = some (q2, out)) : ∃ q1 out1 out2, run q a = some (q1, out1) ∧
      run q1 b = some (q2, out2) ∧ out = out1 ++ out2 := by
  rw [run_append, Option.bind_eq_some_iff] at h
  obtain ⟨⟨q1, out1⟩, ha, h⟩ := h
  obtain ⟨⟨q3, out2⟩, hb, h⟩ := Option.map_eq_some_iff.mp h
  cases h
  exact ⟨q1, out1, out2, ha, hb, rfl⟩

theorem run_append_cancel {q q1 q2 : State} {a b : Text} {out1 out : List Token}
    (ha : run q a = some (q1, out1)) (h : run q (a ++ b) = some (q2, out)) :
    ∃ more, run q1 b = some (q2, more) ∧ out = out1 ++ more := by
  obtain ⟨q1', out1', more, ha', hb, heq⟩ := run_append_some h
  rw [ha] at ha'
  cases ha'
  exact ⟨more, hb, heq⟩

theorem lex_of_run {text : Text} {out : List Token} (h : run .between text = some (.between, out)) :
    lex text = some out := by
  unfold lex
  rw [h]
  simp only [Option.bind_some, finish, Option.map_some, List.append_nil]

/-! ## Inside a string -/

/-- A string that emits nothing is still open. -/
theorem run_string_silent {raw cs : Text} {inside : Inside} {q : State}
    (h : run (.string raw inside) cs = some (q, [])) : ∃ i, q = .string (raw ++ cs) i := by
  induction cs generalizing raw inside with
  | nil =>
      cases h
      exact ⟨inside, by rw [List.append_nil]⟩
  | cons c cs ih =>
      rw [run, step, stepString, Option.bind_eq_some_iff] at h
      obtain ⟨⟨q1, out1⟩, hstep, h⟩ := h
      obtain ⟨⟨q2, out2⟩, hrun, h⟩ := Option.map_eq_some_iff.mp h
      simp only [prepend, Prod.mk.injEq, List.append_eq_nil_iff] at h
      obtain ⟨rfl, rfl, rfl⟩ := h
      split at hstep
      · -- the quote would have ended it
        cases hstep
      · obtain ⟨i, -, hi⟩ := Option.map_eq_some_iff.mp hstep
        cases hi
        obtain ⟨j, rfl⟩ := ih hrun
        exact ⟨j, by rw [List.append_assoc]; rfl⟩

/-- What may stand between two quotes. -/
def isStringBody (text : Text) : Bool :=
  decide (run .opened text = some (.string text (.char .start), []))

/-- A string body is read up to the quote behind it. -/
theorem run_body {text : Text} (h : isStringBody text = true) :
    run .opened (text ++ [34]) = some (.between, [.str (unescape text)]) :=
  run_trans (of_decide_eq_true h) rfl

/-- No byte is special, and the characters are whole. -/
def isClean (text : Text) : Bool :=
  (text.all fun c => 32 ≤ c && c != 34 && c != 92) && validUtf8 text

theorem step_char_of_clean {raw : Text} {utf8 : Utf8} {c : UInt8} (h32 : 32 ≤ c) (h34 : c ≠ 34)
    (h92 : c ≠ 92) : step (.string raw (.char utf8)) c =
      (utf8.step c).map fun utf8 => (.string (raw ++ [c]) (.char utf8), []) := by
  have hquote : ¬ (Inside.char utf8 = .char .start ∧ c = 34) := fun h => h34 h.2
  rw [step, stepString, if_neg hquote]
  cases utf8 with
  | start =>
      rw [Inside.step, if_neg (UInt8.not_lt.mpr h32), if_neg h92]
      exact Option.map_map _ _ _
  | _ => exact Option.map_map _ _ _

/-- Without special bytes the machine only follows the characters. -/
theorem run_char_of_clean {raw text : Text} {utf8 : Utf8}
    (h : (text.all fun c => 32 ≤ c && c != 34 && c != 92) = true) :
    run (.string raw (.char utf8)) text =
      (utf8.run text).map fun utf8 => (.string (raw ++ text) (.char utf8), []) := by
  induction text generalizing raw utf8 with
  | nil =>
      rw [List.append_nil]
      rfl
  | cons c text ih =>
      rw [List.all_cons, Bool.and_eq_true] at h
      have hc := h.1
      simp only [Bool.and_eq_true, decide_eq_true_eq, bne_iff_ne] at hc
      rw [run, step_char_of_clean hc.1.1 hc.1.2 hc.2, Utf8.run]
      cases hstep : utf8.step c with
      | none => rfl
      | some next =>
          simp only [Option.map_some, Option.bind_some]
          rw [ih h.2, Option.map_map, List.append_assoc]
          rfl

/-- ASCII is UTF-8. -/
theorem isClean_of_ascii {text : Text}
    (h : ∀ c ∈ text, 32 ≤ c ∧ c < 0x80 ∧ c ≠ 34 ∧ c ≠ 92) : isClean text = true := by
  have hutf8 : Utf8.start.run text = some .start := by
    induction text with
    | nil => rfl
    | cons c text ih =>
        have hfirst : Utf8.start.step c = some .start := if_pos (h c List.mem_cons_self).2.1
        rw [Utf8.run, hfirst, Option.bind_some]
        exact ih fun d hd => h d (List.mem_cons_of_mem _ hd)
  rw [isClean, validUtf8, hutf8, decide_eq_true rfl, Bool.and_true, List.all_eq_true]
  intro c hc
  obtain ⟨h32, -, h34, h92⟩ := h c hc
  simp only [Bool.and_eq_true, decide_eq_true_eq, bne_iff_ne]
  exact ⟨⟨h32, h34⟩, h92⟩

theorem isStringBody_of_clean {text : Text} (h : isClean text = true) : isStringBody text = true := by
  rw [isClean, Bool.and_eq_true, validUtf8, decide_eq_true_eq] at h
  rw [isStringBody, decide_eq_true_eq, State.opened, run_char_of_clean h.1, h.2]
  rfl

theorem le_of_within {low high c : UInt8} {next u : Utf8} (hlow : 0x80 ≤ low)
    (h : within low high c next = some u) : 0x80 ≤ c := by
  unfold within at h
  split at h
  · rename_i hc
    exact UInt8.le_trans hlow hc.1
  · cases h

/-- The bytes inside a character are not ASCII. -/
theorem Utf8.start_or_high {u u' : Utf8} {c : UInt8} (h : u.step c = some u') :
    u = .start ∨ 0x80 ≤ c := by
  rcases u with _ | (_ | left) | _ | _ | _ | _
  · exact .inl rfl
  all_goals exact .inr (le_of_within (by decide) h)

/-- Without escapes, each byte of a string that is still open was allowed
where it stands. -/
theorem clean_of_run {raw text : Text} {utf8 u : Utf8} {raw' : Text}
    (h : run (.string raw (.char utf8)) text = some (.string raw' (.char u), []))
    (hescape : 92 ∉ text) :
    (text.all fun c => 32 ≤ c && c != 34 && c != 92) = true ∧ utf8.run text = some u := by
  induction text generalizing raw utf8 with
  | nil =>
      cases h
      exact ⟨rfl, rfl⟩
  | cons c text ih =>
      rw [List.mem_cons, not_or] at hescape
      have hc92 : c ≠ 92 := Ne.symm hescape.1
      rw [run, step, stepString, Option.bind_eq_some_iff] at h
      obtain ⟨⟨q1, out1⟩, hstep, h⟩ := h
      obtain ⟨⟨q2, out2⟩, hrun, h⟩ := Option.map_eq_some_iff.mp h
      simp only [prepend, Prod.mk.injEq, List.append_eq_nil_iff] at h
      obtain ⟨rfl, rfl, rfl⟩ := h
      split at hstep
      · cases hstep
      · rename_i hquote
        obtain ⟨i, hi, hq⟩ := Option.map_eq_some_iff.mp hstep
        cases hq
        -- the machine stays at characters
        obtain ⟨next, hnext, rfl, h32⟩ : ∃ next, utf8.step c = some next ∧ i = .char next ∧
            (utf8 = .start → 32 ≤ c) := by
          cases utf8 with
          | start =>
              rw [Inside.step] at hi
              split at hi
              · cases hi
              · rename_i hc
                obtain ⟨next, hnext, rfl⟩ := Option.map_eq_some_iff.mp hi
                exact ⟨next, hnext, rfl, fun _ => UInt8.not_lt.mp hc⟩
          | _ =>
              obtain ⟨next, hnext, rfl⟩ := Option.map_eq_some_iff.mp hi
              exact ⟨next, hnext, rfl, nofun⟩
        obtain ⟨hall, hu⟩ := ih hrun hescape.2
        have hallowed : 32 ≤ c ∧ c ≠ 34 := by
          rcases Utf8.start_or_high hnext with hstart | hc
          · exact ⟨h32 hstart, fun h34 => hquote ⟨by rw [hstart], h34⟩⟩
          · refine ⟨UInt8.le_trans (by decide) hc, ?_⟩
            rintro rfl
            exact absurd hc (by decide)
        refine ⟨?_, ?_⟩
        · rw [List.all_cons, hall, Bool.and_true]
          simp only [Bool.and_eq_true, decide_eq_true_eq, bne_iff_ne]
          exact ⟨hallowed, hc92⟩
        · rw [Utf8.run, hnext]
          exact hu

theorem clean_of_body {text : Text} (h : isStringBody text = true) (hescape : 92 ∉ text) :
    isClean text = true := by
  obtain ⟨hall, hutf8⟩ := @clean_of_run [] text .start .start text (of_decide_eq_true h) hescape
  rw [isClean, hall, validUtf8, hutf8]
  rfl

/-- A quote in front of what no string holds is the end of a string. -/
theorem run_quote {tail rest : Text} {q q2 : State} {out : List Token}
    (htail : ∀ raw, run (.string raw (.char .start)) tail = none)
    (h : run q (34 :: (tail ++ rest)) = some (q2, out)) :
    ∃ raw more, q = .string raw (.char .start) ∧ run .between (tail ++ rest) = some (q2, more) ∧
      out = .str (unescape raw) :: more := by
  rw [run, Option.bind_eq_some_iff] at h
  obtain ⟨⟨q1, out1⟩, hstep, h⟩ := h
  obtain ⟨⟨q3, more⟩, hrun, h⟩ := Option.map_eq_some_iff.mp h
  cases h
  -- otherwise a string is open behind the quote
  have hopen : ∀ raw, q1 ≠ .string raw (.char .start) := by
    rintro raw rfl
    obtain ⟨_, _, _, hnone, -⟩ := run_append_some hrun
    rw [htail raw] at hnone
    cases hnone
  have hbehind : ∀ closed, stepBehind closed 34 ≠ some (q1, out1) := by
    intro closed hclosed
    obtain ⟨_, -, hq⟩ := Option.bind_eq_some_iff.mp hclosed
    cases hq
    exact hopen [] rfl
  cases q with
  | between =>
      cases hstep
      exact absurd rfl (hopen [])
  | string raw inside =>
      by_cases hinside : inside = .char .start
      · subst hinside
        cases hstep
        exact ⟨raw, more, rfl, hrun, rfl⟩
      · rw [step, stepString, if_neg fun hc => hinside hc.1] at hstep
        obtain ⟨i, hi, hq⟩ := Option.map_eq_some_iff.mp hstep
        cases hq
        cases inside with
        | char utf8 =>
            have hi' : (utf8.step 34).map Inside.char = some i := by
              cases utf8 with
              | start => exact absurd rfl hinside
              | _ => exact hi
            obtain ⟨next, hnext, -⟩ := Option.map_eq_some_iff.mp hi'
            rcases Utf8.start_or_high hnext with rfl | hhigh
            · exact absurd rfl hinside
            · exact absurd hhigh (by decide)
        | escape =>
            cases hi
            exact absurd rfl (hopen _)
        | hex left => cases hi
  | number text => exact absurd hstep (hbehind _)
  | word text => exact absurd hstep (hbehind _)

/-- What was read between two quotes, if it was read to the end. If nothing
was emitted before the second one, it is a string body. -/
theorem run_between_quotes {text tail rest : Text} {q : State} {out : List Token}
    (htail : ∀ raw, run (.string raw (.char .start)) tail = none)
    (h : run .opened (text ++ 34 :: (tail ++ rest)) = some (q, out)) :
    ∃ raw silent more, out = silent ++ .str (unescape raw) :: more ∧
      run .between (tail ++ rest) = some (q, more) ∧
      (silent = [] → isStringBody text = true ∧ raw = text) := by
  obtain ⟨q1, silent, out2, htext, hquote, rfl⟩ := run_append_some h
  obtain ⟨raw, more, rfl, hmore, rfl⟩ := run_quote htail hquote
  refine ⟨raw, silent, more, rfl, hmore, ?_⟩
  rintro rfl
  obtain ⟨i, hi⟩ := run_string_silent htext
  cases hi
  exact ⟨decide_eq_true htext, rfl⟩

/-! ## Escapes -/

theorem pieces_of_no_escape {raw : Text} (h : 92 ∉ raw) : pieces raw = raw.map .byte := by
  induction raw with
  | nil => rfl
  | cons c raw ih =>
      rw [List.mem_cons, not_or] at h
      unfold pieces
      rw [if_neg (Ne.symm h.1), ih h.2]
      rfl

theorem encode_bytes (text : Text) : encode (text.map .byte) = text := by
  induction text with
  | nil => rfl
  | cons c text ih =>
      rw [List.map_cons, encode, ih]

theorem unescape_of_no_escape {raw : Text} (h : 92 ∉ raw) : unescape raw = raw := by
  rw [unescape, pieces_of_no_escape h, encode_bytes]

/-- The most bytes a piece comes to. -/
def Piece.weight : Piece → Nat
  | .byte _ => 1
  | .unit _ => 4

theorem length_encodePoint_le (n : Nat) : (encodePoint n).length ≤ 4 := by
  unfold encodePoint
  repeat' split
  all_goals simp

theorem length_encode_le (ps : List Piece) : (encode ps).length ≤ (ps.map Piece.weight).sum := by
  induction ps using encode.induct with
  | case1 => exact Nat.le_refl 0
  | case2 b rest ih =>
      rw [encode, List.map_cons, List.sum_cons, List.length_cons]
      show _ ≤ 1 + _
      omega
  | case3 u v rest hpair ih =>
      have hle := length_encodePoint_le (0x10000 + (u - 0xD800) * 1024 + (v - 0xDC00))
      rw [encode, if_pos hpair, List.length_append, List.map_cons, List.map_cons, List.sum_cons,
        List.sum_cons]
      show _ ≤ 4 + (4 + _)
      omega
  | case4 u v rest hpair ih =>
      have hle := length_encodePoint_le u
      rw [encode, if_neg hpair, List.length_append, List.map_cons, List.sum_cons]
      show _ ≤ 4 + _
      omega
  | case5 u rest hnot ih =>
      have hle := length_encodePoint_le u
      rw [encode, List.length_append, List.map_cons, List.sum_cons]
      · show _ ≤ 4 + _
        omega
      · exact hnot

/-- An escape is longer than what it stands for. -/
theorem weight_pieces (raw : Text) :
    ((pieces raw).map Piece.weight).sum ≤ raw.length ∧
      (92 ∈ raw → ((pieces raw).map Piece.weight).sum < raw.length) := by
  induction raw using pieces.induct with
  | case1 => exact ⟨Nat.le_refl 0, nofun⟩
  | case2 => exact ⟨Nat.zero_le 1, fun _ => Nat.zero_lt_one⟩
  | case3 a b c d rest ih =>
      have hpieces : pieces (92 :: 117 :: a :: b :: c :: d :: rest) =
          .unit (((hexValue a * 16 + hexValue b) * 16 + hexValue c) * 16 + hexValue d) ::
            pieces rest := rfl
      rw [hpieces, List.map_cons, List.sum_cons]
      simp only [Piece.weight, List.length_cons]
      exact ⟨by omega, fun _ => by omega⟩
  | case4 rest hshort =>
      have hpieces : pieces (92 :: 117 :: rest) = [] := by
        rw [pieces.eq_def]
        simp only [if_pos]
      rw [hpieces]
      exact ⟨Nat.zero_le _, fun _ => Nat.succ_pos _⟩
  | case5 e rest he ih =>
      have hpieces : pieces (92 :: e :: rest) = .byte (escapeByte e) :: pieces rest := by
        rw [pieces.eq_def]
        simp only [if_pos, if_neg he]
      rw [hpieces, List.map_cons, List.sum_cons]
      simp only [Piece.weight, List.length_cons]
      exact ⟨by omega, fun _ => by omega⟩
  | case6 c rest hc ih =>
      have hpieces : pieces (c :: rest) = .byte c :: pieces rest := by
        rw [pieces.eq_def]
        simp only [if_neg hc]
      rw [hpieces, List.map_cons, List.sum_cons]
      simp only [Piece.weight, List.length_cons, List.mem_cons]
      refine ⟨by omega, ?_⟩
      rintro (heq | hin)
      · exact absurd heq.symm hc
      · have hlt := ih.2 hin
        omega

theorem length_unescape_lt {raw : Text} (h : 92 ∈ raw) : (unescape raw).length < raw.length :=
  Nat.lt_of_le_of_lt (length_encode_le _) ((weight_pieces raw).2 h)

/-- **A body that reads as itself** is clean. -/
theorem clean_iff {text : Text} :
    isClean text = true ↔ isStringBody text = true ∧ unescape text = text := by
  constructor
  · intro h
    refine ⟨isStringBody_of_clean h, unescape_of_no_escape fun hin => ?_⟩
    rw [isClean, Bool.and_eq_true, List.all_eq_true] at h
    have hc := h.1 92 hin
    cases hc
  · rintro ⟨hbody, heq⟩
    refine clean_of_body hbody fun hin => ?_
    have hlt := length_unescape_lt hin
    rw [heq] at hlt
    exact Nat.lt_irrefl _ hlt

/-! ## Numbers among other bytes -/

/-- A number is read up to the byte behind it. -/
theorem run_number {text cs : Text} (hbytes : ∀ c ∈ text, isNumberByte c = true) :
    ∀ front, run (.number front) (text ++ cs) = run (.number (front ++ text)) cs := by
  induction text with
  | nil =>
      intro front
      rw [List.nil_append, List.append_nil]
  | cons c text ih =>
      intro front
      rw [List.cons_append, run, step, if_pos (hbytes c List.mem_cons_self), Option.bind_some]
      simp only
      rw [ih (fun d hd => hbytes d (List.mem_cons_of_mem _ hd)), List.append_assoc]
      exact Option.map_id'

theorem run_number_behind {text : Text} {c : UInt8} {cs : Text} (hnumber : isNumber text = true)
    (hc : isNumberByte c = false) :
    run (.number text) (c :: cs) = (run .between (c :: cs)).map (prepend [.num (numberValue text)]) := by
  have hstep : step (.number text) c =
      (stepBetween c).map (prepend [.num (numberValue text)]) := by
    rw [step, hc, if_neg (by decide), stepBehind, closeNumber, if_pos hnumber, Option.bind_some]
  rw [run, run, hstep]
  show _ = ((stepBetween c).bind _).map _
  rw [Option.bind_map, Option.map_bind]
  congr 1
  funext r
  simp only [Function.comp, Option.map_map]
  congr 1

theorem stepBetween_number {c : UInt8} (h : c = 45 ∨ isDigit c = true) :
    stepBetween c = some (.number [c], []) := by
  have hne : ∀ b : UInt8, b ≠ 45 → isDigit b = false → c ≠ b := by
    rintro b hb hdigit rfl
    rcases h with h | h
    · exact hb h
    · rw [hdigit] at h
      cases h
  unfold stepBetween
  simp only [hne 32 (by decide) rfl, hne 9 (by decide) rfl, hne 10 (by decide) rfl,
    hne 13 (by decide) rfl, hne 34 (by decide) rfl, hne 123 (by decide) rfl,
    hne 125 (by decide) rfl, hne 91 (by decide) rfl, hne 93 (by decide) rfl,
    hne 58 (by decide) rfl, hne 44 (by decide) rfl, or_self, if_false, if_pos h]

/-- What may stand for a number. -/
structure NumberText (text : Text) : Prop where
  number : isNumber text = true
  bytes : ∀ c ∈ text, isNumberByte c = true
  first : ∀ c, text.head? = some c → c = 45 ∨ isDigit c = true

theorem NumberText.run {text : Text} (h : NumberText text) {c : UInt8} {cs : Text}
    (hc : isNumberByte c = false) :
    run .between (text ++ c :: cs) =
      (run .between (c :: cs)).map (prepend [.num (numberValue text)]) := by
  cases text with
  | nil => cases h.number
  | cons d text =>
      have hstep : step .between d = some (.number [d], []) := stepBetween_number (h.first d rfl)
      rw [List.cons_append, Json.run, hstep, Option.bind_some]
      simp only
      rw [run_number (fun b hb => h.bytes b (List.mem_cons_of_mem _ hb))]
      have hbehind := @run_number_behind (d :: text) c cs h.number hc
      rw [List.singleton_append, hbehind]
      exact Option.map_id'

/-- The digits in front of the point. -/
structure WholeText (text : Text) : Prop where
  ne_nil : text ≠ []
  digits : ∀ c ∈ text, isDigit c = true
  leading : text = [48] ∨ text.head? ≠ some 48

section

variable {digits rest : Text} (h : WholeText digits)
  (hrest : ∀ c, rest.head? = some c → isDigit c = false)
include h hrest

theorem WholeText.takeWhile : (digits ++ rest).takeWhile isDigit = digits := by
  rw [List.takeWhile_append_of_pos h.digits]
  cases rest with
  | nil => exact List.append_nil _
  | cons c rest =>
      rw [List.takeWhile_cons_of_neg (by rw [hrest c rfl]; decide), List.append_nil]

theorem WholeText.dropWhile : (digits ++ rest).dropWhile isDigit = rest := by
  rw [List.dropWhile_append_of_pos h.digits]
  cases rest with
  | nil => rfl
  | cons c rest => rw [List.dropWhile_cons_of_neg (by rw [hrest c rfl]; decide)]

omit hrest in
theorem WholeText.head_ne : (digits ++ rest).head? ≠ some 45 := by
  obtain ⟨c, tail, rfl⟩ := List.exists_cons_of_ne_nil h.ne_nil
  intro hhead
  have hc := h.digits c List.mem_cons_self
  rw [List.cons_append, List.head?_cons, Option.some.injEq] at hhead
  rw [hhead] at hc
  cases hc

/-- What is behind the digits decides, with a sign in front of them or not. -/
theorem WholeText.isNumber : Json.isNumber (digits ++ rest) = isFraction rest ∧
    Json.isNumber (45 :: (digits ++ rest)) = isFraction rest := by
  have hempty : digits.isEmpty = false := List.isEmpty_eq_false_iff.mpr h.ne_nil
  have hleading : (digits == [48] || digits.head? != some 48) = true := by
    rcases h.leading with heq | hne
    · rw [heq]
      rfl
    · rw [bne_iff_ne.mpr hne, Bool.or_true]
  have hplain : unsigned (digits ++ rest) = digits ++ rest := if_neg h.head_ne
  have hsigned : unsigned (45 :: (digits ++ rest)) = digits ++ rest := rfl
  unfold Json.isNumber
  rw [hplain, hsigned, h.takeWhile hrest, h.dropWhile hrest]
  simp only [hempty, hleading, Bool.not_false, Bool.true_and, and_self]

theorem WholeText.numberValue :
    Json.numberValue (digits ++ rest) = fractionValue (natValue digits) rest ∧
      Json.numberValue (45 :: (digits ++ rest)) = -fractionValue (natValue digits) rest := by
  have hplain : unsigned (digits ++ rest) = digits ++ rest := if_neg h.head_ne
  have hsigned : unsigned (45 :: (digits ++ rest)) = digits ++ rest := rfl
  unfold Json.numberValue
  rw [hplain, hsigned, h.takeWhile hrest, h.dropWhile hrest, if_neg h.head_ne,
    if_pos (List.head?_cons)]
  exact ⟨rfl, rfl⟩

end

theorem isNumberByte_of_isDigit {c : UInt8} (h : isDigit c = true) : isNumberByte c = true := by
  unfold isNumberByte
  rw [h]
  rfl

/-- Digits, with a fraction behind them and a sign in front or not. -/
theorem WholeText.numberText {digits rest : Text} (h : WholeText digits)
    (hrest : ∀ c, rest.head? = some c → isDigit c = false)
    (hbytes : ∀ c ∈ rest, isNumberByte c = true) (hfraction : isFraction rest = true) :
    NumberText (digits ++ rest) ∧ NumberText (45 :: (digits ++ rest)) := by
  have hall : ∀ c ∈ digits ++ rest, isNumberByte c = true := by
    intro c hc
    rcases List.mem_append.mp hc with hc | hc
    · exact isNumberByte_of_isDigit (h.digits c hc)
    · exact hbytes c hc
  obtain ⟨hplain, hsigned⟩ := h.isNumber hrest
  refine ⟨⟨hplain.trans hfraction, hall, ?_⟩, ⟨hsigned.trans hfraction, ?_, ?_⟩⟩
  · intro c hc
    obtain ⟨d, tail, rfl⟩ := List.exists_cons_of_ne_nil h.ne_nil
    cases hc
    exact .inr (h.digits c List.mem_cons_self)
  · intro c hc
    rcases List.mem_cons.mp hc with rfl | hc
    · rfl
    · exact hall c hc
  · intro c hc
    cases hc
    exact .inl rfl

/-! ## One value at most -/

/-- No value starts with the end of a list. -/
theorem tokens_head (v : Value) : ∀ ts, v.tokens ≠ .closeBracket :: ts := by
  intro ts h
  rcases v with _ | b | q | s | (_ | ⟨w, items⟩) | (_ | ⟨⟨name, w⟩, members⟩) <;>
    (rw [Value.tokens] at h; cases h)

theorem tokens_ne_nil (v : Value) : v.tokens ≠ [] := by
  rcases v with _ | b | q | s | (_ | ⟨w, items⟩) | (_ | ⟨⟨name, w⟩, members⟩) <;>
    (rw [Value.tokens]; exact List.cons_ne_nil _ _)

mutual

theorem tokens_inj (v v' : Value) (r r' : List Token) (h : v.tokens ++ r = v'.tokens ++ r') :
    v = v' ∧ r = r' := by
  rcases v with _ | b | q | s | (_ | ⟨w, items⟩) | (_ | ⟨⟨name, w⟩, members⟩) <;>
    rcases v' with _ | b' | q' | s' | (_ | ⟨w', items'⟩) | (_ | ⟨⟨name', w'⟩, members'⟩) <;>
    simp only [Value.tokens, List.cons_append, List.nil_append, List.append_assoc, List.cons.injEq,
      reduceCtorEq, false_and, true_and, Token.bool.injEq, Token.num.injEq, Token.str.injEq] at h
  · exact ⟨rfl, h⟩
  · exact ⟨by rw [h.1], h.2⟩
  · exact ⟨by rw [h.1], h.2⟩
  · exact ⟨by rw [h.1], h.2⟩
  · exact ⟨rfl, h⟩
  · -- an empty list and one that is not
    obtain ⟨t, ts, hts⟩ := List.exists_cons_of_ne_nil (tokens_ne_nil w')
    rw [hts] at h
    cases h
    exact absurd hts (tokens_head w' ts)
  · obtain ⟨t, ts, hts⟩ := List.exists_cons_of_ne_nil (tokens_ne_nil w)
    rw [hts] at h
    cases h
    exact absurd hts (tokens_head w ts)
  · obtain ⟨hw, hrest⟩ := tokens_inj w w' _ _ h
    obtain ⟨hitems, hr⟩ := moreItems_inj items items' r r' hrest
    rw [hw, hitems]
    exact ⟨rfl, hr⟩
  · exact ⟨rfl, h⟩
  · obtain ⟨hname, h⟩ := h
    obtain ⟨hw, hrest⟩ := tokens_inj w w' _ _ h
    obtain ⟨hmembers, hr⟩ := moreMembers_inj members members' r r' hrest
    rw [hname, hw, hmembers]
    exact ⟨rfl, hr⟩

theorem moreItems_inj (l l' : List Value) (r r' : List Token)
    (h : moreItems l ++ r = moreItems l' ++ r') : l = l' ∧ r = r' := by
  rcases l with _ | ⟨w, items⟩ <;> rcases l' with _ | ⟨w', items'⟩ <;>
    simp only [moreItems, List.cons_append, List.nil_append, List.append_assoc, List.cons.injEq,
      reduceCtorEq, false_and, true_and] at h
  · exact ⟨rfl, h⟩
  · obtain ⟨hw, hrest⟩ := tokens_inj w w' _ _ h
    obtain ⟨hitems, hr⟩ := moreItems_inj items items' r r' hrest
    rw [hw, hitems]
    exact ⟨rfl, hr⟩

theorem moreMembers_inj (l l' : List (Text × Value)) (r r' : List Token)
    (h : moreMembers l ++ r = moreMembers l' ++ r') : l = l' ∧ r = r' := by
  rcases l with _ | ⟨⟨name, w⟩, members⟩ <;> rcases l' with _ | ⟨⟨name', w'⟩, members'⟩ <;>
    simp only [moreMembers, List.cons_append, List.nil_append, List.append_assoc, List.cons.injEq,
      reduceCtorEq, false_and, true_and, Token.str.injEq] at h
  · exact ⟨rfl, h⟩
  · obtain ⟨hname, h⟩ := h
    obtain ⟨hw, hrest⟩ := tokens_inj w w' _ _ h
    obtain ⟨hmembers, hr⟩ := moreMembers_inj members members' r r' hrest
    rw [hname, hw, hmembers]
    exact ⟨rfl, hr⟩

end

/-- **A text reads as one value at most.** -/
theorem Reads.unique {text : Text} {v v' : Value} (h : Reads text v) (h' : Reads text v') :
    v = v' := by
  have heq : v.tokens = v'.tokens := Option.some.inj (h.symm.trans h')
  exact (tokens_inj v v' [] [] (by rw [heq])).1

end RtbEngine.Lib.Json
