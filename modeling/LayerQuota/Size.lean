import LayerQuota.Number.Decimal
import LayerQuota.Text.Blank
import LayerQuota.Text.Quoted
/-!
# Sizes

A size is a numeral with at most one unit letter after it, blanks around it apart: `10g` is ten
times 1024³ bytes. The digits may be of any script and the letter of either case; the Kelvin sign
is an upper-case k.
-/

namespace LayerQuota

inductive SizeError
  | malformed (text : String)
  | tooLong (numeral : Number.TooLong)
deriving DecidableEq, Repr

/-- What is said of a sequence of code points that has not the form of a size. -/
def SizeError.malformedMessage (points : List Nat) : String :=
  s!"invalid size: {Text.quotePoints points}"

def SizeError.message : SizeError → String
  | .malformed s => malformedMessage (s.toList.map Char.toNat)
  | .tooLong t => t.message

namespace Size

def unit? (c : Char) : Option Nat :=
  match c with
  | 'k' | 'K' | '\u212A' => some 1
  | 'm' | 'M' => some 2
  | 'g' | 'G' => some 3
  | 't' | 'T' => some 4
  | 'p' | 'P' => some 5
  | 'e' | 'E' => some 6
  | _ => none

def split? (cs : List Char) : Option (List Nat × Nat) :=
  match Number.spanDigits cs with
  | ([], _) => none
  | (ds, []) => some (ds, 0)
  | (ds, [c]) => (unit? c).map (ds, ·)
  | _ => none

def parse (s : String) : Except SizeError Nat :=
  match split? (Text.trimList Text.isBlank s.toList) with
  | none => .error (.malformed s)
  | some (ds, j) =>
    match Number.convert ds with
    | .ok n => .ok (n * Nat.pow 1024 j)
    | .error t => .error (.tooLong t)

end Size

end LayerQuota
