import LayerQuota.Json.Reader
import LayerQuota.Number.Decimal
import LayerQuota.Text.Blank
import LayerQuota.Validation.Basic
/-!
# Values of fields

What a JSON value counts as where a text, an integer or a number is wanted. Integers and numbers
are also taken from booleans, from each other where nothing is lost, and from texts that spell
them.
-/

namespace LayerQuota.Field

open LayerQuota.Number LayerQuota.Json

def string : Value → Checked Str
  | .str s => .valid s
  | v => .fail .text v

/-- A field that wants a text. Unpaired surrogates in it are replaced. -/
def text (v : Value) : Checked String := (string v).map Str.text

def wellFormed {α : Type} (s : Str) (check : String → Checked α) : Checked α :=
  match s.toString? with
  | some t => check t
  | none => .fail .wellFormedText (.str s)

/-- The sign in front of a numeral, and what follows it. -/
def spanSign : List Char → Bool × List Char
  | '-' :: rest => (true, rest)
  | '+' :: rest => (false, rest)
  | cs => (false, cs)

/-- A numeral without its fraction, where that is at least one zero and nothing else. -/
def dropZeroFraction (cs : List Char) : List Char :=
  match cs.dropWhile (· != '.') with
  | '.' :: '0' :: rest => if rest.all (· == '0') then cs.takeWhile (· != '.') else cs
  | _ => cs

/-- A numeral behind its first zero, without the zeros and underscores that follow it. A numeral of
nothing else keeps its last character, and a sign may follow them. -/
def afterZeros : Char → List Char → Option (List Char)
  | last, [] => some [last]
  | _, c :: rest =>
    if c = '0' ∨ c = '_' then afterZeros c rest
    else if c = '-' ∨ isAsciiDigit c then some (c :: rest)
    else none

def dropZeros : List Char → Option (List Char)
  | [] => none
  | c :: rest =>
    if c = '0' then afterZeros c rest
    else if c = '-' ∨ isAsciiDigit c then some (c :: rest)
    else none

/-- A text without the single underscores inside it; none if it has no underscore, or one at an
end or beside another. -/
def withoutUnderscores? (cs : List Char) : Option (List Char) :=
  let rec doubled : List Char → Bool
    | '_' :: '_' :: _ => true
    | _ :: rest => doubled rest
    | [] => false
  if cs.head? == some '_' || cs.getLast? == some '_' || !cs.contains '_' || doubled cs then none
  else some (cs.filter (· != '_'))

/-- The integer that a numeral spells which starts with no zero, unless it is zero, and has no sign
but a minus. It was made of the text `s`. -/
def plainInteger (s : String) (cs : List Char) : Checked Int :=
  let (negative, body) := match cs with
    | '-' :: rest => (true, rest)
    | _ => (false, cs)
  let (digits, rest) := readWhole body
  if digitLimit < cs.length - rest.length then .fail .integerSize (.text s)
  else if digits.isEmpty || !rest.isEmpty then .fail .integerText (.text s)
  else
    let n := ofDigits digits
    .valid (if negative then -(n : Int) else n)

/-- The integer that a text spells. Blanks around it, a plus sign, zeros in front, a fraction of
zeros and underscores between digits are taken away first. -/
def integerText (s : String) : Checked Int :=
  let cs := Text.trimList Text.isWhiteSpace s.toList
  let (negative, body) := spanSign cs
  if cs.head? == some '+' && body.head? == some '-' then .fail .integerText (.text s)
  else
    match dropZeros (dropZeroFraction body) with
    | none => .fail .integerText (.text s)
    | some cs =>
      let cs := (withoutUnderscores? cs).getD cs
      plainInteger s (if negative then '-' :: cs else cs)

/-- The integer that a floating-point number is, if it fits 64 bits. -/
def integerNumber (x : Binary64) : Checked Int :=
  match x.truncate? with
  | none => .fail .finite (.float x)
  | some n =>
    if !x.isWhole then .fail .whole (.float x)
    else if -0x8000000000000000 < n ∧ n < 0x8000000000000000 then .valid n
    else .fail .integerSize (.float x)

def integer : Value → Checked Int
  | .int n => .valid n
  | .bool b => .valid (if b then 1 else 0)
  | .float x => integerNumber x
  | .str s => wellFormed s integerText
  | v => .fail .integer v

/-- The letters of a text in lower case, where they are ASCII. -/
def asciiLower (cs : List Char) : String := String.ofList (cs.map Char.toLower)

/-- The exponent part of a numeral, which may be absent. -/
def exponentPart : List Char → Option Int
  | [] => some 0
  | c :: rest =>
    if c = 'e' ∨ c = 'E' then
      let (negative, ds) := spanSign rest
      if !ds.isEmpty && ds.all isAsciiDigit then
        let n := ofDigits (ds.map asciiDigit)
        some (if negative then -(n : Int) else n)
      else none
    else none

/-- The number that a text without blanks spells: a decimal numeral that has a digit on one side of
the point, or a name of infinity or of no number. -/
def numeral? (cs : List Char) : Option Binary64 :=
  let (negative, body) := spanSign cs
  let name := asciiLower body
  if name == "inf" || name == "infinity" then some (.infinite negative)
  else if name == "nan" then some .nan
  else
    let (whole, rest) := spanAsciiDigits body
    let (fraction, rest) := match rest with
      | '.' :: rest => spanAsciiDigits rest
      | rest => ([], rest)
    if whole.isEmpty && fraction.isEmpty then none
    else
      (exponentPart rest).map fun e =>
        .ofDecimal negative (ofDigits (whole ++ fraction)) (e - fraction.length)

def numberText (s : String) : Checked Binary64 :=
  match numeral? (Text.trimList Text.isWhiteSpace s.toList) with
  | some x => .valid x
  | none =>
    match (withoutUnderscores? s.toList).bind numeral? with
    | some x => .valid x
    | none => .fail .numberText (.text s)

def number : Value → Checked Binary64
  | .float x => .valid x
  | .int n =>
    match Binary64.ofInt n with
    | .finite s m e => .valid (.finite s m e)
    | _ => .fail .number (.int n)
  | .bool b => .valid (.ofInt (if b then 1 else 0))
  | .str s => wellFormed s numberText
  | v => .fail .number v

def optional {α : Type} (check : Value → Checked α) : Value → Checked (Option α)
  | .null => .valid none
  | v => (check v).map some

/-- The value of a key, which must be there. -/
def required {α : Type} (doc : Value) (key : String) (check : Value → Checked α) : Checked α :=
  Checked.under key <|
    match doc.get? key with
    | some v => check v
    | none => .fail .missing doc

/-- The value of a key, or a default where the key is missing. -/
def defaulted {α : Type} (doc : Value) (key : String) (value : α) (check : Value → Checked α) :
    Checked α :=
  match doc.get? key with
  | some v => (check v).under key
  | none => .valid value

end LayerQuota.Field
