import LayerQuota.Text.Digit
/-!
# Decimal numerals

A run of decimal digits has a value by place, whatever scripts its digits come from. A numeral of
more than `digitLimit` digits is refused before it is converted.
-/

namespace LayerQuota.Number

/-- The longest run of digits that is converted to an integer. -/
def digitLimit : Nat := 4300

/-- The value of a run of digits, the most significant first. -/
def ofDigits (ds : List Nat) : Nat := ds.foldl (fun n d => 10 * n + d) 0

/-- The decimal digits at the start of a text, with their values, and the text after them. -/
def spanDigits (cs : List Char) : List Nat × List Char :=
  (cs.takeWhile Text.isDigit |>.filterMap Text.digit?, cs.dropWhile Text.isDigit)

/-- A digit from `0` to `9`. -/
def isAsciiDigit (c : Char) : Bool := '0' ≤ c && c ≤ '9'

/-- The value of a digit from `0` to `9`. -/
def asciiDigit (c : Char) : Nat := c.toNat - 48

/-- The digits from `0` to `9` at the start of a text, with their values, and the text after
them. -/
def spanAsciiDigits (cs : List Char) : List Nat × List Char :=
  (cs.takeWhile isAsciiDigit |>.map asciiDigit, cs.dropWhile isAsciiDigit)

/-- A numeral with too many digits to convert, by the number of its digits. -/
structure TooLong where
  digits : Nat
deriving DecidableEq, Repr

def TooLong.message (t : TooLong) : String :=
  s!"Exceeds the limit ({digitLimit} digits) for integer string conversion: value has {t.digits} digits; use sys.set_int_max_str_digits() to increase the limit"

/-- The value of a run of digits, if it is not too long. -/
def convert (ds : List Nat) : Except TooLong Nat :=
  if ds.length ≤ digitLimit then .ok (ofDigits ds) else .error ⟨ds.length⟩

end LayerQuota.Number
