import LayerQuota.Text.Digit
import LayerQuota.Text.Utf8
/-!
# Percent signs

In an address a percent sign with two hexadecimal digits stands for a byte, and the bytes of the
whole are then read in some encoding. What the encoding cannot read becomes `U+FFFD`.
-/

namespace LayerQuota.Text

/-- The bytes of a text in which percent signs stand before the numbers of bytes. -/
def percentBytes : List Char → List UInt8
  | '%' :: a :: b :: rest =>
    match hexValue? a, hexValue? b with
    | some x, some y => UInt8.ofNat (16 * x + y) :: percentBytes rest
    | _, _ => 37 :: percentBytes (a :: b :: rest)
  | c :: rest => String.utf8EncodeChar c ++ percentBytes rest
  | [] => []
termination_by cs => cs.length

/-- The character of a complete sequence: what its first byte holds beyond the mark of the length,
and six bits of each byte that follows. -/
def sequenceChar (first : Nat) (others : List Nat) : Char :=
  let mark := match others.length with
    | 0 => 0
    | 1 => 0xC0
    | 2 => 0xE0
    | _ => 0xF0
  Char.ofNat (others.foldl (fun n b => 64 * n + b % 64) (first - mark))

/-- The text of bytes in UTF-8. `fuel` bounds the number of characters. -/
def lossyUtf8 : Nat → List UInt8 → List Char
  | 0, _ => []
  | _ + 1, [] => []
  | fuel + 1, b :: rest =>
    match following? b.toNat with
    | none => '\uFFFD' :: lossyUtf8 fuel rest
    | some n =>
      let others := (rest.take n).map UInt8.toNat
      match brokenAfter b.toNat 1 n others with
      | some (_, length) => '\uFFFD' :: lossyUtf8 fuel (rest.drop (length - 1))
      | none => sequenceChar b.toNat others :: lossyUtf8 fuel (rest.drop n)

inductive Encoding
  | ascii
  | latin
  | utf8
deriving DecidableEq, Repr

def Encoding.ofName? (name : String) : Option Encoding :=
  match name with
  | "ascii" => some .ascii
  | "us-ascii" => some .ascii
  | "iso-8859-1" => some .latin
  | "utf-8" => some .utf8
  | _ => none

def Encoding.decode (e : Encoding) (bytes : List UInt8) : List Char :=
  match e with
  | .ascii => bytes.map fun b => if b < 128 then Char.ofNat b.toNat else '\uFFFD'
  | .latin => bytes.map fun b => Char.ofNat b.toNat
  | .utf8 => lossyUtf8 bytes.length bytes

def unpercent (e : Encoding) (cs : List Char) : List Char := e.decode (percentBytes cs)

end LayerQuota.Text
