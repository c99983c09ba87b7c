import LayerQuota.Number.Binary64
/-!
# JSON documents

Members of an object keep their order, and a key that is repeated has the last of its values;
`uniqueMembers` leaves each key once. A string is a sequence of code points, because an escape in a
document can name an unpaired surrogate; `Str.toString?` gives the text where it is one.
-/

namespace LayerQuota.Json

structure Str where
  points : List Nat
deriving DecidableEq, Repr

def Str.ofString (s : String) : Str := ⟨s.toList.map Char.toNat⟩

/-- The code point of a character, and nothing for a surrogate. -/
def charOf? (n : Nat) : Option Char :=
  if n < 0xD800 || (0xDFFF < n && n < 0x110000) then some (Char.ofNat n) else none

def Str.toString? (s : Str) : Option String := (s.points.mapM charOf?).map String.ofList

/-- The text of a string, in which `U+FFFD` stands `width` times for each unpaired surrogate. -/
def Str.replaced (width : Nat) (s : Str) : String :=
  String.ofList <| s.points.flatMap fun n =>
    match charOf? n with
    | some c => [c]
    | none => List.replicate width '\uFFFD'

/-- The text of a string, in which `U+FFFD` stands for each unpaired surrogate. -/
def Str.text (s : Str) : String := s.replaced 1

instance : Coe String Str := ⟨Str.ofString⟩

inductive Value
  | null
  | bool (b : Bool)
  | int (n : Int)
  | float (x : Number.Binary64)
  | str (s : Str)
  | array (items : List Value)
  | object (members : List (Str × Value))
deriving Repr, Inhabited

/-- The integer that a number or a truth value is worth; none for any other value and for a number
with a fraction. -/
def Value.integer? : Value → Option Int
  | .bool b => some (if b then 1 else 0)
  | .int n => some n
  | .float x => if x.isWhole then x.truncate? else none
  | _ => none

/-- The value of a key among members; the last one where a key is repeated. -/
def getMember (k : Str) : List (Str × Value) → Option Value
  | [] => none
  | (l, v) :: rest =>
    match getMember k rest with
    | some w => some w
    | none => if k = l then some v else none

/-- Equality of values that hold no others. Numbers are compared by what they are worth, a truth
value as one or zero; no number equals none, not even itself. -/
def Value.sameScalar (a b : Value) : Bool :=
  match a, b with
  | .null, .null => true
  | .str a, .str b => a == b
  | .float .nan, _ => false
  | .float a, .float b => a == b || (Value.float a).integer? == some 0 && (Value.float b).integer? == some 0
  | a, b => a.integer?.isSome && a.integer? == b.integer?

mutual

/-- Equality of documents. The members of objects may come in any order. -/
def Value.same : Value → Value → Bool
  | .array as, .array bs => Value.sameItems as bs
  | .object as, .object bs => as.length == bs.length && Value.sameMembers as bs
  | a, b => Value.sameScalar a b

def Value.sameItems : List Value → List Value → Bool
  | [], [] => true
  | a :: as, b :: bs => Value.same a b && Value.sameItems as bs
  | _, _ => false

def Value.sameMembers : List (Str × Value) → List (Str × Value) → Bool
  | [], _ => true
  | (k, a) :: as, bs =>
    (match getMember k bs with
      | some b => Value.same a b
      | none => false) && Value.sameMembers as bs

end

instance : BEq Value := ⟨Value.same⟩

def Value.text (s : String) : Value := .str (Str.ofString s)

def Value.text? : Value → Option String
  | .str s => s.toString?
  | _ => none

/-- Sets the value of a key: in its place if the key is there, else at the end. -/
def setMember {α : Type} (k : Str) (v : α) : List (Str × α) → List (Str × α)
  | [] => [(k, v)]
  | (l, w) :: rest => if k = l then (l, v) :: rest else (l, w) :: setMember k v rest

/-- Each key once, where it first came, with the last of its values. -/
def uniqueMembers {α : Type} (ms : List (Str × α)) : List (Str × α) :=
  ms.foldl (fun acc m => setMember m.1 m.2 acc) []

/-- The value of a key; none if it is missing or the document is no object. -/
def Value.get? (v : Value) (k : String) : Option Value :=
  match v with
  | .object ms => getMember (Str.ofString k) ms
  | _ => none

def Value.kind : Value → String
  | .null => "NoneType"
  | .bool _ => "bool"
  | .int _ => "int"
  | .float _ => "float"
  | .str _ => "str"
  | .array _ => "list"
  | .object _ => "dict"

/-- An empty or zero value counts as false, any other as true. -/
def Value.truth : Value → Bool
  | .null => false
  | .bool b => b
  | .int n => n != 0
  | .float (.finite _ m _) => m != 0
  | .float _ => true
  | .str s => !s.points.isEmpty
  | .array items => !items.isEmpty
  | .object ms => !ms.isEmpty

end LayerQuota.Json
