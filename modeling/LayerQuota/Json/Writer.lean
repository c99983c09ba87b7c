import LayerQuota.Number.Shortest
import LayerQuota.Text.Quoted
import LayerQuota.Json.Value
/-!
# Writing JSON

Three forms: the indented dump and the compact line, which both keep to ASCII, and the text that a
value takes inside a message. The dump keeps the order of members, the compact line sorts them by
key.
-/

namespace LayerQuota.Json

open LayerQuota.Text

def units (n : Nat) : List Nat :=
  if n < 0x10000 then [n]
  else [0xD800 + (n - 0x10000) / 0x400, 0xDC00 + (n - 0x10000) % 0x400]

/-- The letter that stands for a code point after a backslash. -/
def shortEscape? (n : Nat) : Option Char :=
  if n == 34 then some '"'
  else if n == 92 then some '\\'
  else if n == 8 then some 'b'
  else if n == 12 then some 'f'
  else if n == 10 then some 'n'
  else if n == 13 then some 'r'
  else if n == 9 then some 't'
  else none

def asciiPoint (n : Nat) : List Char :=
  match shortEscape? n with
  | some c => ['\\', c]
  | none =>
    if 32 ≤ n ∧ n ≤ 126 then [Char.ofNat n]
    else (units n).flatMap fun u => '\\' :: 'u' :: hexDigits 4 u

/-- A string in ASCII with its quotes. -/
def asciiString (s : Str) : List Char := '"' :: (s.points.flatMap asciiPoint ++ ['"'])

def floatText (x : Number.Binary64) : String :=
  match x with
  | .nan => "NaN"
  | .infinite s => if s then "-Infinity" else "Infinity"
  | x => x.text

def scalarText : Value → List Char
  | .null => "null".toList
  | .bool b => (if b then "true" else "false").toList
  | .int n => (toString n).toList
  | .float x => (floatText x).toList
  | .str s => asciiString s
  | .array _ => []
  | .object _ => []

/-- A line end and two spaces for each level. -/
def newline (level : Nat) : List Char := '\n' :: List.replicate (2 * level) ' '

mutual

def dumpValue (level : Nat) : Value → List Char
  | .array [] => ['[', ']']
  | .array (v :: vs) =>
    '[' :: (newline (level + 1) ++ dumpValue (level + 1) v ++ dumpItems (level + 1) vs ++
      newline level ++ [']'])
  | .object [] => ['\x7b', '\x7d']
  | .object ((k, v) :: ms) =>
    '\x7b' :: (newline (level + 1) ++ asciiString k ++ [':', ' '] ++ dumpValue (level + 1) v ++
      dumpMembers (level + 1) ms ++ newline level ++ ['\x7d'])
  | v => scalarText v

def dumpItems (level : Nat) : List Value → List Char
  | [] => []
  | v :: vs => ',' :: (newline level ++ dumpValue level v ++ dumpItems level vs)

def dumpMembers (level : Nat) : List (Str × Value) → List Char
  | [] => []
  | (k, v) :: ms =>
    ',' :: (newline level ++ asciiString k ++ [':', ' '] ++ dumpValue level v ++
      dumpMembers level ms)

end

/-- The indented dump of a value. -/
def dump (v : Value) : String := String.ofList (dumpValue 0 v)

mutual

/-- A value on one line, without blanks. -/
def compactValue : Value → List Char
  | .array [] => ['[', ']']
  | .array (v :: vs) => '[' :: (compactValue v ++ compactItems vs ++ [']'])
  | .object ms =>
    let parts := (compactMembers ms).mergeSort fun a b => !decide (b.1.points < a.1.points)
    '\x7b' :: ((parts.map (·.2)).intersperse [','] |>.flatten) ++ ['\x7d']
  | v => scalarText v

def compactItems : List Value → List Char
  | [] => []
  | v :: vs => ',' :: (compactValue v ++ compactItems vs)

/-- Each member with its key, to be put in order. -/
def compactMembers : List (Str × Value) → List (Str × List Char)
  | [] => []
  | (k, v) :: ms => (k, asciiString k ++ ':' :: compactValue v) :: compactMembers ms

end

/-- A value on one line, its keys sorted. -/
def compact (v : Value) : String := String.ofList (compactValue v)

mutual

def literal : Value → List Char
  | .null => "None".toList
  | .bool b => (if b then "True" else "False").toList
  | .int n => (toString n).toList
  | .float x => x.text.toList
  | .str s => (quotePoints s.points).toList
  | .array [] => ['[', ']']
  | .array (v :: vs) => '[' :: (literal v ++ literalItems vs ++ [']'])
  | .object [] => ['\x7b', '\x7d']
  | .object ((k, v) :: ms) =>
    '\x7b' :: ((quotePoints k.points).toList ++ ':' :: ' ' :: literal v ++ literalMembers ms ++
      ['\x7d'])

def literalItems : List Value → List Char
  | [] => []
  | v :: vs => ',' :: ' ' :: (literal v ++ literalItems vs)

def literalMembers : List (Str × Value) → List Char
  | [] => []
  | (k, v) :: ms =>
    ',' :: ' ' :: ((quotePoints k.points).toList ++ ':' :: ' ' :: literal v ++ literalMembers ms)

end

/-- The text of a value in a message: a text stands as it is, without quotes. -/
def Value.display : Value → String
  | .str s =>
    match s.toString? with
    | some t => t
    | none => quotePoints s.points
  | v => String.ofList (literal v)

end LayerQuota.Json
