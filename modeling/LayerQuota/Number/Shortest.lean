import LayerQuota.Number.Binary64
/-!
# The shortest decimal text

A finite number is written with the fewest digits that read back as that number, and of those
with the digits nearest to it. `Binary64.shortest` finds the digits: for a growing number of
digits it tests the two neighbours of the number on that decimal grid against the interval of
rationals that round to the number. `Binary64.text` places the point: positional from 10⁻⁴ up to
10¹⁶, with an exponent of two digits or more elsewhere.
-/

namespace LayerQuota.Number

namespace Binary64

/-- The least `k` with `num / den < 10^k`, searched near the binary logarithm. -/
def decimalExponent (num den : Nat) : Int :=
  let guess : Int := (((Nat.log2 num : Int) - (Nat.log2 den : Int) - 1) * 30103) / 100000
  let fits (k : Int) : Bool := let (n, d) := scaleDecimal num den k; n < d
  match [guess - 1, guess, guess + 1, guess + 2].find? fits with
  | some k => k
  | none => guess + 3

/-- Does `x / y` lie between `low / den` and `high / den`, ends included or not? -/
def isBetween (low high den : Nat) (ends : Bool) (x y : Nat) : Bool :=
  if ends then low * y ≤ x * den && x * den ≤ high * y
  else low * y < x * den && x * den < high * y

/-- The digits of `n` places before and after the point at `k` that fall into the interval, the
nearer of the two neighbours if both do, and of two equally near the even one. -/
def candidate? (num den low high : Nat) (ends : Bool) (k : Int) (n : Nat) : Option (Nat × Int) :=
  let unit : Int := k - n
  let (a, b) := scaleDecimal num den unit
  let below := a / b
  let inside (x : Nat) : Bool :=
    let (p, q) := scaleDecimal x 1 (-unit)
    isBetween low high den ends p q
  match inside below, inside (below + 1) with
  | true, true => some (divideEven a b, unit)
  | true, false => some (below, unit)
  | false, true => some (below + 1, unit)
  | false, false => none

/-- The shortest digits of a positive finite number, as an integer and a power of ten. -/
def shortest (m : Nat) (e : Int) : Nat × Int :=
  let (num, den) := if e < 0 then (4 * m, 4 * Nat.pow 2 (-e).toNat) else (4 * m * Nat.pow 2 e.toNat, 4)
  let half := if e < 0 then 2 else 2 * Nat.pow 2 e.toNat
  let below := if m = Nat.pow 2 52 && minExponent < e then half / 2 else half
  let k := decimalExponent num den
  match (List.range 17).findSome? fun n =>
    candidate? num den (num - below) (num + half) (m % 2 == 0) k (n + 1) with
  | some r => r
  | none => (m, 0)

/-- An integer without the zeros at its end, and their number added to the power of ten. -/
def dropZeros : Nat → Nat → Int → Nat × Int
  | 0, n, k => (n, k)
  | fuel + 1, n, k => if n ≠ 0 && n % 10 == 0 then dropZeros fuel (n / 10) (k + 1) else (n, k)

def exponentText (k : Int) : String :=
  let digits := toString k.natAbs
  (if k < 0 then "-" else "+") ++ (if digits.length < 2 then "0" ++ digits else digits)

/-- Digits with the point after the first `k` of them, for any `k`. -/
def placePoint (ds : List Char) (k : Int) : String :=
  let n := ds.length
  let zeros (j : Nat) : List Char := List.replicate j '0'
  if k ≤ 0 then String.ofList ('0' :: '.' :: (zeros (-k).toNat ++ ds))
  else if (n : Int) ≤ k then String.ofList (ds ++ zeros (k.toNat - n) ++ ['.', '0'])
  else String.ofList (ds.take k.toNat ++ '.' :: ds.drop k.toNat)

/-- The text of a positive number from its digits: positional where the first digit stands between
10⁻⁴ and 10¹⁵. -/
def digitsText (n : Nat) (unit : Int) : String :=
  let (n, unit) := dropZeros 20 n unit
  let ds := (toString n).toList
  let k : Int := ds.length + unit
  if -4 < k && k ≤ 16 then placePoint ds k
  else
    let mantissa := match ds with
      | [] => []
      | [d] => [d]
      | d :: rest => d :: '.' :: rest
    String.ofList mantissa ++ "e" ++ exponentText (k - 1)

def text : Binary64 → String
  | .nan => "nan"
  | .infinite s => if s then "-inf" else "inf"
  | .finite s m e =>
    let sign := if s then "-" else ""
    if m = 0 then sign ++ "0.0"
    else
      let (n, unit) := shortest m e
      sign ++ digitsText n unit

/-- The text of a number with one digit after the point, a half rounded to the even digit. -/
def textOneDecimal : Binary64 → String
  | .nan => "nan"
  | .infinite s => if s then "-inf" else "inf"
  | .finite s m e =>
    let (n, d) := scaleBinary (10 * m) 1 (-e)
    let tenths := divideEven n d
    (if s then "-" else "") ++ s!"{tenths / 10}.{tenths % 10}"

end Binary64

end LayerQuota.Number
