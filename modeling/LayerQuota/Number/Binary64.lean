/-!
# Binary floating point

A number of 64 bits is a sign, a significand below 2⁵³ and a power of two, or an infinity, or no
number at all. `Binary64.ofRatio` and `Binary64.ofDecimal` round a positive rational to the nearest
such number, a tie to the even significand; all arithmetic is on integers.
-/

namespace LayerQuota.Number

/-- `finite s m e` stands for ± m · 2^e. -/
inductive Binary64
  | nan
  | infinite (negative : Bool)
  | finite (negative : Bool) (significand : Nat) (exponent : Int)
deriving DecidableEq, Repr

/-- The quotient nearest to `num / den`, a tie to the even one. -/
def divideEven (num den : Nat) : Nat :=
  let q := num / den
  let r := num % den
  if 2 * r < den then q
  else if den < 2 * r then q + 1
  else q + q % 2

/-- The pair of integers whose quotient is `num / den · 2^(-e)`. -/
def scaleBinary (num den : Nat) (e : Int) : Nat × Nat :=
  if e < 0 then (num * Nat.pow 2 (-e).toNat, den) else (num, den * Nat.pow 2 e.toNat)

/-- The pair of integers whose quotient is `num / den · 10^(-k)`. -/
def scaleDecimal (num den : Nat) (k : Int) : Nat × Nat :=
  if k < 0 then (num * Nat.pow 10 (-k).toNat, den) else (num, den * Nat.pow 10 k.toNat)

namespace Binary64

def minExponent : Int := -1074

def maxExponent : Int := 971

def zero (negative : Bool) : Binary64 := .finite negative 0 minExponent

/-- The exponent at which `num / den` has a whole part of 53 bits. -/
def exponentOf (num den : Nat) : Int :=
  let q : Int := (Nat.log2 num : Int) - (Nat.log2 den : Int)
  let (n, d) := scaleBinary num den (q - 53)
  if n / d < Nat.pow 2 53 then q - 53 else q - 52

/-- The number nearest to ± `num / den`. -/
def ofRatio (negative : Bool) (num den : Nat) : Binary64 :=
  if num = 0 then zero negative
  else
    let e := max (exponentOf num den) minExponent
    let (n, d) := scaleBinary num den e
    let m := divideEven n d
    let (m, e) := if m = Nat.pow 2 53 then (Nat.pow 2 52, e + 1) else (m, e)
    if maxExponent < e then .infinite negative else .finite negative m e

/-- The number nearest to ± `digits · 10^exponent`. Exponents whose result is infinite or zero at
sight are not expanded. -/
def ofDecimal (negative : Bool) (digits : Nat) (exponent : Int) : Binary64 :=
  if digits = 0 then zero negative
  else if 400 < exponent then .infinite negative
  else if 3 * exponent + Nat.log2 digits + 1 < -1080 then zero negative
  else
    let (n, d) := scaleDecimal digits 1 (-exponent)
    ofRatio negative n d

def ofInt (n : Int) : Binary64 := ofRatio (n < 0) n.natAbs 1

def scale (x : Binary64) (factor : Nat) : Binary64 :=
  match x with
  | .finite s m e =>
    let (n, d) := scaleBinary (m * factor) 1 (-e)
    ofRatio s n d
  | x => x

def isWhole : Binary64 → Bool
  | .finite _ m e => 0 ≤ e || m % Nat.pow 2 (-e).toNat == 0
  | _ => false

/-- The integer part of a finite number, toward zero. -/
def truncate? : Binary64 → Option Int
  | .finite s m e =>
    let n : Nat := if e < 0 then m / Nat.pow 2 (-e).toNat else m * Nat.pow 2 e.toNat
    some (if s then -(n : Int) else n)
  | _ => none

/-- At least zero; zero of either sign is, and no number is not. -/
def isNonnegative : Binary64 → Bool
  | .nan => false
  | .infinite s => !s
  | .finite s m _ => !s || m == 0

end Binary64

end LayerQuota.Number
