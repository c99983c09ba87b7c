import LayerQuota.Number.Decimal
import LayerQuota.Json.Value
/-!
# Reading JSON

One grammar with a few settings: whether an escape may name an unpaired surrogate, whether an object
keeps all members of a repeated key, how deep containers may nest and how long the whole part of a
number may be. A fault keeps the number of characters that were left when it was found, from
which its line and column follow. Besides the standard grammar the names `NaN`, `Infinity` and
`-Infinity` are numbers.
-/

namespace LayerQuota.Json

open LayerQuota.Number

structure Rules where
  unpaired : Bool
  repeats : Bool
  depth : Nat
  /-- How many characters the sign and the digits before the point may have together, whatever
  follows them. -/
  wholeLength : Option Nat
deriving Repr

def Rules.lenient : Rules := ⟨true, false, 990, none⟩

def Rules.strict : Rules := ⟨false, true, 200, some digitLimit⟩

inductive Problem
  | noValue
  | noPropertyName
  | noColon
  | noComma
  | unterminated
  | controlCharacter
  | badEscape
  | badUnicodeEscape
  | unpairedSurrogate
  | extraData
  | byteOrderMark
  | tooDeep (container : String)
  | tooLong (numeral : TooLong)
deriving DecidableEq, Repr

/-- A problem, and how many characters were left where it lies. -/
structure Fault where
  problem : Problem
  left : Nat
deriving DecidableEq, Repr

def isSpace (c : Char) : Bool := c == ' ' || c == '\t' || c == '\n' || c == '\r'

def skipSpace (cs : List Char) : List Char := cs.dropWhile isSpace

def hexFour? (a b c d : Char) : Option Nat := do
  let a ← Text.hexValue? a
  let b ← Text.hexValue? b
  let c ← Text.hexValue? c
  let d ← Text.hexValue? d
  return ((a * 16 + b) * 16 + c) * 16 + d

def escape? (c : Char) : Option Nat :=
  match c with
  | '"' => some 34
  | '\\' => some 92
  | '/' => some 47
  | 'b' => some 8
  | 'f' => some 12
  | 'n' => some 10
  | 'r' => some 13
  | 't' => some 9
  | _ => none

def isHighSurrogate (n : Nat) : Bool := 0xD800 ≤ n && n < 0xDC00

def isLowSurrogate (n : Nat) : Bool := 0xDC00 ≤ n && n < 0xE000

def joinSurrogates (high low : Nat) : Nat := 0x10000 + (high - 0xD800) * 0x400 + (low - 0xDC00)

/-- The low surrogate whose escape a text starts with, and the text after it, of which there has to
be some. -/
def lowSurrogate? : List Char → Option (Nat × List Char)
  | '\\' :: 'u' :: a :: b :: c :: d :: e :: rest =>
    match hexFour? a b c d with
    | some n => if isLowSurrogate n then some (n, e :: rest) else none
    | none => none
  | _ => none

/-- Reads a string from behind its opening quote. `opening` characters were left at the quote. -/
def readString (rules : Rules) (opening : Nat) :
    Nat → List Char → Except Fault (List Nat × List Char)
  | 0, _ => .error ⟨.unterminated, opening⟩
  | _ + 1, [] => .error ⟨.unterminated, opening⟩
  | _ + 1, '"' :: rest => .ok ([], rest)
  | _ + 1, ['\\'] => .error ⟨.unterminated, opening⟩
  | fuel + 1, '\\' :: 'u' :: rest =>
    let wrong : Fault := ⟨.badUnicodeEscape, rest.length + 1⟩
    match rest with
    | a :: b :: c :: d :: e :: rest =>
      match hexFour? a b c d with
      | none => .error wrong
      | some n =>
        let single (n : Nat) :=
          match readString rules opening fuel (e :: rest) with
          | .ok (ns, r) => .ok (n :: ns, r)
          | .error f => .error f
        if isHighSurrogate n then
          match lowSurrogate? (e :: rest) with
          | some (m, rest) =>
            match readString rules opening fuel rest with
            | .ok (ns, r) => .ok (joinSurrogates n m :: ns, r)
            | .error f => .error f
          | none => if rules.unpaired then single n else .error ⟨.unpairedSurrogate, wrong.left⟩
        else if isLowSurrogate n && !rules.unpaired then .error ⟨.unpairedSurrogate, wrong.left⟩
        else single n
    | _ => .error wrong
  | fuel + 1, '\\' :: c :: rest =>
    match escape? c with
    | none => .error ⟨.badEscape, rest.length + 2⟩
    | some n =>
      match readString rules opening fuel rest with
      | .ok (ns, r) => .ok (n :: ns, r)
      | .error f => .error f
  | fuel + 1, c :: rest =>
    if c < ' ' then .error ⟨.controlCharacter, rest.length + 1⟩
    else
      match readString rules opening fuel rest with
      | .ok (ns, r) => .ok (c.toNat :: ns, r)
      | .error f => .error f

/-- The digits after a point, and the text after them; the text as it is where no digit follows a
point. -/
def readFraction : List Char → List Nat × List Char
  | '.' :: rest =>
    match spanAsciiDigits rest with
    | ([], _) => ([], '.' :: rest)
    | r => r
  | cs => ([], cs)

def readExponentDigits (negative : Bool) (cs : List Char) : Option (Int × List Char) :=
  match spanAsciiDigits cs with
  | ([], _) => none
  | (ds, rest) => some (if negative then -(ofDigits ds : Int) else ofDigits ds, rest)

/-- The exponent that a text starts with, if it starts with one. -/
def readExponent? : List Char → Option (Int × List Char)
  | c :: rest =>
    if c = 'e' ∨ c = 'E' then
      match rest with
      | '-' :: rest => readExponentDigits true rest
      | '+' :: rest => readExponentDigits false rest
      | rest => readExponentDigits false rest
    else none
  | [] => none

/-- The digits before the point: a single zero, or a run that starts with another digit. -/
def readWhole : List Char → List Nat × List Char
  | '0' :: rest => ([0], rest)
  | cs => spanAsciiDigits cs

def readNumber (rules : Rules) (cs : List Char) : Except Fault (Value × List Char) :=
  let (negative, body) := match cs with
    | '-' :: rest => (true, rest)
    | _ => (false, cs)
  match readWhole body with
  | ([], _) => .error ⟨.noValue, cs.length⟩
  | (whole, rest) =>
    if rules.wholeLength.any (· < cs.length - rest.length) then
      .error ⟨.tooLong ⟨whole.length⟩, cs.length⟩
    else
      let (fraction, rest) := readFraction rest
      match fraction, readExponent? rest with
      | [], none =>
        match convert whole with
        | .ok n => .ok (.int (if negative then -(n : Int) else n), rest)
        | .error t => .error ⟨.tooLong t, cs.length⟩
      | fraction, some (e, rest) =>
        .ok (.float (.ofDecimal negative (ofDigits (whole ++ fraction)) (e - fraction.length)), rest)
      | fraction, none =>
        .ok (.float (.ofDecimal negative (ofDigits (whole ++ fraction)) (-fraction.length)), rest)

mutual

/-- Reads a value. `fuel` bounds the work by the length of the text, `depth` is the number of
containers that may still be opened. -/
def readValue (rules : Rules) : Nat → Nat → List Char → Except Fault (Value × List Char)
  | 0, _, cs => .error ⟨.noValue, cs.length⟩
  | fuel + 1, depth, cs =>
    match cs with
    | '"' :: rest =>
      match readString rules cs.length (fuel + 1) rest with
      | .ok (ns, r) => .ok (.str ⟨ns⟩, r)
      | .error f => .error f
    | '{' :: rest =>
      match skipSpace rest with
      | '}' :: rest => .ok (.object [], rest)
      | inner =>
        match depth with
        | 0 => .error ⟨.tooDeep "object", cs.length⟩
        | depth + 1 =>
          match readMembers rules fuel depth inner with
          | .ok (ms, r) => .ok (.object (if rules.repeats then ms else uniqueMembers ms), r)
          | .error f => .error f
    | '[' :: rest =>
      match skipSpace rest with
      | ']' :: rest => .ok (.array [], rest)
      | inner =>
        match depth with
        | 0 => .error ⟨.tooDeep "array", cs.length⟩
        | depth + 1 =>
          match readItems rules fuel depth inner with
          | .ok (vs, r) => .ok (.array vs, r)
          | .error f => .error f
    | 'n' :: 'u' :: 'l' :: 'l' :: rest => .ok (.null, rest)
    | 't' :: 'r' :: 'u' :: 'e' :: rest => .ok (.bool true, rest)
    | 'f' :: 'a' :: 'l' :: 's' :: 'e' :: rest => .ok (.bool false, rest)
    | 'N' :: 'a' :: 'N' :: rest => .ok (.float .nan, rest)
    | 'I' :: 'n' :: 'f' :: 'i' :: 'n' :: 'i' :: 't' :: 'y' :: rest =>
      .ok (.float (.infinite false), rest)
    | '-' :: 'I' :: 'n' :: 'f' :: 'i' :: 'n' :: 'i' :: 't' :: 'y' :: rest =>
      .ok (.float (.infinite true), rest)
    | cs => readNumber rules cs

def readMembers (rules : Rules) :
    Nat → Nat → List Char → Except Fault (List (Str × Value) × List Char)
  | 0, _, cs => .error ⟨.noPropertyName, cs.length⟩
  | fuel + 1, depth, cs =>
    match cs with
    | '"' :: rest =>
      match readString rules cs.length (fuel + 1) rest with
      | .error f => .error f
      | .ok (key, rest) =>
        match skipSpace rest with
        | ':' :: rest =>
          match readValue rules fuel depth (skipSpace rest) with
          | .error f => .error f
          | .ok (v, rest) =>
            match skipSpace rest with
            | '}' :: rest => .ok ([(⟨key⟩, v)], rest)
            | ',' :: rest =>
              match readMembers rules fuel depth (skipSpace rest) with
              | .ok (ms, r) => .ok ((⟨key⟩, v) :: ms, r)
              | .error f => .error f
            | rest => .error ⟨.noComma, rest.length⟩
        | rest => .error ⟨.noColon, rest.length⟩
    | cs => .error ⟨.noPropertyName, cs.length⟩

def readItems (rules : Rules) :
    Nat → Nat → List Char → Except Fault (List Value × List Char)
  | 0, _, cs => .error ⟨.noValue, cs.length⟩
  | fuel + 1, depth, cs =>
    match readValue rules fuel depth cs with
    | .error f => .error f
    | .ok (v, rest) =>
      match skipSpace rest with
      | ']' :: rest => .ok ([v], rest)
      | ',' :: rest =>
        match readItems rules fuel depth (skipSpace rest) with
        | .ok (vs, r) => .ok (v :: vs, r)
        | .error f => .error f
      | rest => .error ⟨.noComma, rest.length⟩

end

/-- Reads a whole document. -/
def readChars (rules : Rules) (cs : List Char) : Except Fault Value :=
  match cs with
  | '\uFEFF' :: _ => .error ⟨.byteOrderMark, cs.length⟩
  | _ =>
    match readValue rules (cs.length + 1) rules.depth (skipSpace cs) with
    | .error f => .error f
    | .ok (v, rest) =>
      match skipSpace rest with
      | [] => .ok v
      | rest => .error ⟨.extraData, rest.length⟩

def read (rules : Rules) (s : String) : Except Fault Value := readChars rules s.toList

def Problem.message : Problem → String
  | .noValue => "Expecting value"
  | .noPropertyName => "Expecting property name enclosed in double quotes"
  | .noColon => "Expecting ':' delimiter"
  | .noComma => "Expecting ',' delimiter"
  | .unterminated => "Unterminated string starting at"
  | .controlCharacter => "Invalid control character at"
  | .badEscape => "Invalid \\escape"
  | .badUnicodeEscape => "Invalid \\uXXXX escape"
  | .unpairedSurrogate => "Unpaired surrogate"
  | .extraData => "Extra data"
  | .byteOrderMark => "Unexpected UTF-8 BOM (decode using utf-8-sig)"
  | .tooDeep container =>
    s!"maximum recursion depth exceeded while decoding a JSON {container} from a unicode string"
  | .tooLong t => t.message

/-- A fault with its place in the text: the line and column from one, the offset from zero. -/
def Fault.message (f : Fault) (text : String) : String :=
  let cs := text.toList
  let offset := cs.length - f.left
  let before := cs.take offset
  let line := before.count '\n' + 1
  let column := (before.reverse.takeWhile (· ≠ '\n')).length + 1
  s!"{f.problem.message}: line {line} column {column} (char {offset})"

end LayerQuota.Json
