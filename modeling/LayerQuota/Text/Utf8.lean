import LayerQuota.Text.Quoted
/-!
# UTF-8

Bytes are decoded as a whole. Where they are malformed, the first fault is named by the bytes that
belong to it: a byte that starts nothing, a sequence that another byte breaks off, or one that the
end of the data cuts.
-/

namespace LayerQuota.Text

inductive ByteFault
  | invalidStart
  | invalidContinuation
  | endOfData
deriving DecidableEq, Repr

/-- A fault with the place of its first byte, that byte, and how many bytes belong to it. -/
structure Malformed where
  fault : ByteFault
  start : Nat
  byte : Nat
  length : Nat
deriving DecidableEq, Repr

def secondRange (first : Nat) : Nat × Nat :=
  if first == 0xE0 then (0xA0, 0xBF)
  else if first == 0xED then (0x80, 0x9F)
  else if first == 0xF0 then (0x90, 0xBF)
  else if first == 0xF4 then (0x80, 0x8F)
  else (0x80, 0xBF)

def following? (first : Nat) : Option Nat :=
  if first < 0x80 then some 0
  else if first < 0xC2 then none
  else if first < 0xE0 then some 1
  else if first < 0xF0 then some 2
  else if first < 0xF5 then some 3
  else none

/-- The number of bytes of a broken sequence, the first one counted in, or none if the bytes
complete it. `seen` bytes are already in order, `wanted` are still due. -/
def brokenAfter (first : Nat) : Nat → Nat → List Nat → Option (ByteFault × Nat)
  | _, 0, _ => none
  | seen, _ + 1, [] => some (.endOfData, seen)
  | seen, wanted + 1, b :: rest =>
    let (low, high) := if seen == 1 then secondRange first else (0x80, 0xBF)
    if low ≤ b && b ≤ high then brokenAfter first (seen + 1) wanted rest
    else some (.invalidContinuation, seen)

/-- The first fault of a byte sequence that starts at `pos`. -/
def firstFault : Nat → Nat → List Nat → Option Malformed
  | 0, _, _ => none
  | _ + 1, _, [] => none
  | fuel + 1, pos, b :: rest =>
    match following? b with
    | none => some ⟨.invalidStart, pos, b, 1⟩
    | some n =>
      match brokenAfter b 1 n rest with
      | some (fault, length) => some ⟨fault, pos, b, length⟩
      | none => firstFault fuel (pos + n + 1) (rest.drop n)

def decodeUtf8 (bytes : ByteArray) : Except Malformed String :=
  match String.fromUTF8? bytes with
  | some s => .ok s
  | none =>
    match firstFault (bytes.size + 1) 0 (bytes.toList.map UInt8.toNat) with
    | some m => .error m
    | none => .error ⟨.endOfData, 0, 0, bytes.size⟩

def ByteFault.message : ByteFault → String
  | .invalidStart => "invalid start byte"
  | .invalidContinuation => "invalid continuation byte"
  | .endOfData => "unexpected end of data"

def Malformed.message (m : Malformed) : String :=
  let place :=
    if m.length == 1 then s!"byte 0x{String.ofList (hexDigits 2 m.byte)} in position {m.start}"
    else s!"bytes in position {m.start}-{m.start + m.length - 1}"
  s!"'utf-8' codec can't decode {place}: {m.fault.message}"

/-- A text in which every line end is a line feed. -/
def unifyLines : List Char → List Char
  | '\r' :: '\n' :: rest => '\n' :: unifyLines rest
  | '\r' :: rest => '\n' :: unifyLines rest
  | c :: rest => c :: unifyLines rest
  | [] => []

def isBlankBytes (bytes : ByteArray) : Bool :=
  bytes.toList.all fun b => b == 32 || (9 ≤ b && b ≤ 13)

end LayerQuota.Text
