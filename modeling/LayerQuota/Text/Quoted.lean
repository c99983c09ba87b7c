import LayerQuota.Text.Printable
/-!
# Quoted text

A text inside a message stands in single quotes, or in double quotes when it holds a single quote
and no double one. The quote and the backslash are escaped by a backslash, the line ends and the
tab by their letters, and every code point without a printed form by its number in hexadecimal
digits. Code points are plain numbers here, since a text that was read from a document may hold
unpaired surrogates.
-/

namespace LayerQuota.Text

def hexDigit (n : Nat) : Char := Char.ofNat (if n < 10 then 48 + n else 87 + n)

/-- The lowest `width` hexadecimal digits of a number. -/
def hexDigits : Nat → Nat → List Char
  | 0, _ => []
  | width + 1, n => hexDigits width (n / 16) ++ [hexDigit (n % 16)]

/-- A code point that stands for a character. -/
def isScalar (n : Nat) : Bool := n < 0xD800 || (0xDFFF < n && n < 0x110000)

/-- One code point between the quotes `q`. -/
def quotePoint (q : Char) (n : Nat) : List Char :=
  if n == q.toNat || n == 92 then ['\\', Char.ofNat n]
  else if n == 10 then ['\\', 'n']
  else if n == 13 then ['\\', 'r']
  else if n == 9 then ['\\', 't']
  else if isScalar n && isPrintable (Char.ofNat n) then [Char.ofNat n]
  else if n < 0x100 then '\\' :: 'x' :: hexDigits 2 n
  else if n < 0x10000 then '\\' :: 'u' :: hexDigits 4 n
  else '\\' :: 'U' :: hexDigits 8 n

def quoteFor (points : List Nat) : Char :=
  if points.contains 39 && !points.contains 34 then '"' else '\''

def quotePoints (points : List Nat) : String :=
  let q := quoteFor points
  String.ofList (q :: (points.flatMap (quotePoint q) ++ [q]))

def quote (s : String) : String := quotePoints (s.toList.map Char.toNat)

end LayerQuota.Text
