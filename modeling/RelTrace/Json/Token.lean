import RelTrace.Json.Fault
import RelTrace.Json.Scaling
import RelTrace.Query.Span

/-!
# Tokens of JSON texts

A JSON text is cut into punctuation, literals, numbers and strings. The first piece that is none of
these ends the tokens as a flaw.

## Main definitions

* `Json.Token`: the pieces.
* `Json.tokens`: the pieces of a text.
-/

namespace RelTrace.Json

/-- A piece of a JSON text. -/
inductive Token where
  | openList
  | closeList
  | openObject
  | closeObject
  | comma
  | colon
  | null
  | bool (b : Bool)
  /-- A number, or nothing if it is too large. -/
  | number (n : Option Number)
  /-- A string, or nothing if it holds half of a surrogate pair. -/
  | string (s : Option String)
  /-- A piece that is not JSON; it may have begun like a string. -/
  | flaw (quoted : Bool) (f : Flaw)

/-- The white space of JSON. -/
def isSpace (c : Char) : Bool := c == ' ' || c == '\t' || c == '\n' || c == '\r'

/-- The result of scanning for one piece: the piece and what follows, or a flaw. -/
inductive Scan (α : Type) where
  | found (a : α) (rest : List Char)
  | flawed (f : Flaw)

namespace Scan

/-- What follows the piece; after a flaw nothing is looked at. -/
def rest {α : Type} : Scan α → List Char
  | found _ rest => rest
  | flawed _ => []

/-- Puts a character in front of the characters found. -/
def push (c : Char) : Scan (Option (List Char)) → Scan (Option (List Char))
  | found cs rest => found (cs.map (c :: ·)) rest
  | flawed f => flawed f

/-- Notes that the characters found begin with half of a surrogate pair. Reading fails there, while
skipping goes on. -/
def pushHalf : Scan (Option (List Char)) → Scan (Option (List Char))
  | found _ rest => found none rest
  | flawed f => flawed ⟨.malformed, f.onSkip⟩

@[simp] theorem rest_found {α : Type} (a : α) (cs : List Char) : (found a cs).rest = cs := rfl

@[simp] theorem rest_flawed {α : Type} (f : Flaw) : (flawed f : Scan α).rest = [] := rfl

@[simp] theorem rest_push (c : Char) (s : Scan (Option (List Char))) :
    (s.push c).rest = s.rest := by cases s <;> rfl

@[simp] theorem rest_pushHalf (s : Scan (Option (List Char))) : s.pushHalf.rest = s.rest := by
  cases s <;> rfl

end Scan

/-- The value of a hexadecimal digit. -/
def hexDigit? (c : Char) : Option Nat :=
  if c.isDigit then some (c.toNat - 48)
  else if 'a' ≤ c ∧ c ≤ 'f' then some (c.toNat - 87)
  else if 'A' ≤ c ∧ c ≤ 'F' then some (c.toNat - 55)
  else none

/-- The value of four hexadecimal digits. -/
def hexValue? (a b c d : Char) : Option Nat :=
  match hexDigit? a, hexDigit? b, hexDigit? c, hexDigit? d with
  | some a, some b, some c, some d => some (((a * 16 + b) * 16 + c) * 16 + d)
  | _, _, _, _ => none

/-- The fault of four characters that are not hexadecimal digits. Fewer than four bytes mean that
the text has ended. -/
def hexFault (cs : List Char) : Fault := if byteLength cs < 4 then .truncated else .malformed

/-- The first half of a surrogate pair. -/
def isHighSurrogate (n : Nat) : Bool := 0xd800 ≤ n && n ≤ 0xdbff

/-- The second half of a surrogate pair. -/
def isLowSurrogate (n : Nat) : Bool := 0xdc00 ≤ n && n ≤ 0xdfff

/-- The character of a surrogate pair. -/
def fromSurrogates (high low : Nat) : Char :=
  Char.ofNat ((high - 0xd800) * 0x400 + (low - 0xdc00) + 0x10000)

/-- The character of a one-letter escape. -/
def unescape? : Char → Option Char
  | '"' => some '"'
  | '\\' => some '\\'
  | '/' => some '/'
  | 'b' => some '\x08'
  | 'f' => some '\x0c'
  | 'n' => some '\n'
  | 'r' => some '\r'
  | 't' => some '\t'
  | _ => none

/-- The characters of a string after its opening quotation mark. -/
def scanString : List Char → Scan (Option (List Char))
  | [] => .flawed (.both .truncated)
  | '"' :: rest => .found (some []) rest
  | ['\\'] => .flawed (.both .truncated)
  | '\\' :: 'u' :: a :: b :: c :: d :: rest =>
    match hexValue? a b c d with
    | none => .flawed (.both (hexFault (a :: b :: c :: d :: rest)))
    | some high =>
      if isHighSurrogate high then
        match rest with
        | [] | ['\\'] => .flawed (.both .truncated)
        | '\\' :: 'u' :: a :: b :: c :: d :: rest =>
          match hexValue? a b c d with
          | none => .flawed (.both (hexFault (a :: b :: c :: d :: rest)))
          | some low =>
            if isLowSurrogate low then (scanString rest).push (fromSurrogates high low)
            else (scanString ('\\' :: 'u' :: a :: b :: c :: d :: rest)).pushHalf
        | '\\' :: 'u' :: rest => .flawed (.both (hexFault rest))
        | rest => (scanString rest).pushHalf
      else if isLowSurrogate high then (scanString rest).pushHalf
      else (scanString rest).push (Char.ofNat high)
  | '\\' :: 'u' :: rest => .flawed (.both (hexFault rest))
  | '\\' :: c :: rest =>
    match unescape? c with
    | some c => (scanString rest).push c
    | none => .flawed (.both .malformed)
  | c :: rest =>
    if c.toNat < 0x20 then .flawed (.both .malformed) else (scanString rest).push c
termination_by cs => cs.length

/-- The exponent after the letter that announces it, read from its sign on. -/
def scanExponent (cs : List Char) : Scan Int :=
  let (negative, cs) := takeSign cs
  match cs.takeWhile Char.isDigit with
  | [] => if cs.isEmpty then .flawed .cutNumber else .flawed (.both .malformed)
  | ds => .found (signed negative (digitsValue ds)) (cs.dropWhile Char.isDigit)

/-- The digits after a point, if there is one. -/
def scanFraction : List Char → Scan (List Char)
  | '.' :: cs =>
    match cs.takeWhile Char.isDigit with
    | [] => if cs.isEmpty then .flawed .cutNumber else .flawed (.both .malformed)
    | ds => .found ds (cs.dropWhile Char.isDigit)
  | cs => .found [] cs

/-- The digits before the point. A zero stands alone. -/
def scanWhole (cs : List Char) : Scan (List Char) :=
  match cs.takeWhile Char.isDigit with
  | [] => if cs.isEmpty then .flawed .cutNumber else .flawed (.both .malformed)
  | '0' :: _ :: _ => .flawed (.both .malformed)
  | ds => .found ds (cs.dropWhile Char.isDigit)

/-- A number after its sign. -/
def scanNumber (negative : Bool) (cs : List Char) : Scan (Option Number) :=
  match scanWhole cs with
  | .flawed f => .flawed f
  | .found whole cs =>
    match scanFraction cs with
    | .flawed f => .flawed f
    | .found fraction cs =>
      let exponent : Scan Int :=
        match cs with
        | 'e' :: cs | 'E' :: cs => scanExponent cs
        | cs => .found 0 cs
      match exponent with
      | .flawed f => .flawed f
      | .found e rest => .found (readNumber? negative whole fraction e) rest

/-- The rest of a literal word. -/
def scanWord : List Char → List Char → Scan Unit
  | [], cs => .found () cs
  | _ :: _, [] => .flawed (.both .truncated)
  | w :: ws, c :: cs => if w = c then scanWord ws cs else .flawed (.both .malformed)

/-- The token that a scan gives, and what follows it. -/
def Scan.token {α : Type} (quoted : Bool) (make : α → Token) (s : Scan α) : Token × List Char :=
  match s with
  | found a _ => (make a, s.rest)
  | flawed f => (.flaw quoted f, s.rest)

/-- The token that starts with a character. -/
def tokenAt (c : Char) (cs : List Char) : Token × List Char :=
  match c with
  | '[' => (.openList, cs)
  | ']' => (.closeList, cs)
  | '\x7b' => (.openObject, cs)
  | '\x7d' => (.closeObject, cs)
  | ',' => (.comma, cs)
  | ':' => (.colon, cs)
  | '"' => (scanString cs).token true fun s => .string (s.map String.ofList)
  | 'n' => (scanWord ['u', 'l', 'l'] cs).token false fun _ => .null
  | 't' => (scanWord ['r', 'u', 'e'] cs).token false fun _ => .bool true
  | 'f' => (scanWord ['a', 'l', 's', 'e'] cs).token false fun _ => .bool false
  | '-' => (scanNumber true cs).token false .number
  | c =>
    if c.isDigit then (scanNumber false (c :: cs)).token false .number
    else (.flaw false (.both .malformed), [])

theorem length_dropWhile_le (p : Char → Bool) (cs : List Char) :
    (cs.dropWhile p).length ≤ cs.length := (List.dropWhile_sublist p).length_le

theorem length_takeSign_le (cs : List Char) : (takeSign cs).2.length ≤ cs.length := by
  unfold takeSign; split <;> simp

theorem length_rest_scanString_le (cs : List Char) :
    (scanString cs).rest.length ≤ cs.length := by
  fun_induction scanString cs <;> simp_all <;> omega

theorem length_rest_scanWord_le (ws cs : List Char) : (scanWord ws cs).rest.length ≤ cs.length := by
  fun_induction scanWord ws cs <;> simp_all
  omega

theorem length_rest_scanExponent_le (cs : List Char) :
    (scanExponent cs).rest.length ≤ cs.length := by
  have sign := length_takeSign_le cs
  have drop := length_dropWhile_le Char.isDigit (takeSign cs).2
  unfold scanExponent
  grind [Scan.rest]

theorem length_rest_scanFraction_le (cs : List Char) :
    (scanFraction cs).rest.length ≤ cs.length := by
  unfold scanFraction
  grind [Scan.rest, length_dropWhile_le]

theorem length_rest_scanWhole_le (cs : List Char) :
    (scanWhole cs).rest.length ≤ cs.length - 1 := by
  unfold scanWhole
  cases cs with
  | nil => simp
  | cons c cs =>
    have drop := length_dropWhile_le Char.isDigit cs
    by_cases digit : c.isDigit
    · grind [Scan.rest, List.dropWhile_cons]
    · simp [digit]

theorem length_rest_scanNumber_le (negative : Bool) (cs : List Char) :
    (scanNumber negative cs).rest.length ≤ cs.length - 1 := by
  have whole := length_rest_scanWhole_le cs
  unfold scanNumber
  grind [Scan.rest, length_rest_scanFraction_le, length_rest_scanExponent_le]

@[simp] theorem Scan.snd_token {α : Type} (quoted : Bool) (make : α → Token) (s : Scan α) :
    (s.token quoted make).2 = s.rest := by cases s <;> rfl

theorem length_tokenAt_le (c : Char) (cs : List Char) : (tokenAt c cs).2.length ≤ cs.length := by
  have string := length_rest_scanString_le cs
  have number := length_rest_scanNumber_le
  have word := fun ws => length_rest_scanWord_le ws cs
  unfold tokenAt
  split
  case h_11 => have := number true cs; simp; omega
  case h_12 => have := number false (c :: cs); split <;> simp_all
  all_goals simp [string, word]

/-- The tokens of a text. -/
def tokens : List Char → List Token
  | [] => []
  | c :: cs =>
    if isSpace c then tokens cs else (tokenAt c cs).1 :: tokens (tokenAt c cs).2
termination_by cs => cs.length
decreasing_by
  · simp
  · have := length_tokenAt_le c cs; simp; omega

end RelTrace.Json
