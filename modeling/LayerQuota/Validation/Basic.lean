import LayerQuota.Json.Writer
/-!
# Validation

A document is checked field by field, and every field that fails is reported, in the order of the
fields. `Checked` is a value or the violations that were found; `Checked.ap` joins the violations
of two independent checks.
-/

namespace LayerQuota

/-- How a document came to be checked: as a value read before, or while its text is read. The two
differ in the words for a value of the wrong shape. -/
inductive Intake
  | value
  | text
deriving DecidableEq, Repr

inductive Rule
  | missing
  | text
  | wellFormedText
  | minLength (n : Nat)
  | integer
  | integerText
  | integerSize
  | whole
  | finite
  | number
  | numberText
  | above (n : Int)
  | atLeast (n : Int)
  | atMost (n : Int)
  | array (intake : Intake)
  | object (intake : Intake)
  | record (name : String) (intake : Intake)
  | choice (names : List String)
  | condition (message : String)
  | document
deriving DecidableEq, Repr

def Rule.name : Rule → String
  | .missing => "missing"
  | .text => "string_type"
  | .wellFormedText => "string_unicode"
  | .minLength _ => "string_too_short"
  | .integer => "int_type"
  | .integerText => "int_parsing"
  | .integerSize => "int_parsing_size"
  | .whole => "int_from_float"
  | .finite => "finite_number"
  | .number => "float_type"
  | .numberText => "float_parsing"
  | .above _ => "greater_than"
  | .atLeast _ => "greater_than_equal"
  | .atMost _ => "less_than_equal"
  | .array _ => "list_type"
  | .object _ => "dict_type"
  | .record _ _ => "model_type"
  | .choice _ => "enum"
  | .condition _ => "value_error"
  | .document => "json_invalid"

/-- Names in quotes, the last one set off by "or". -/
def orList : List String → String
  | [] => ""
  | [a] => s!"'{a}'"
  | [a, b] => s!"'{a}' or '{b}'"
  | a :: rest => s!"'{a}', " ++ orList rest

/-- What is said of a violation. A text that is no document at all has a message of its own, which
is not kept. -/
def Rule.message? : Rule → Option String
  | .missing => some "Field required"
  | .text => some "Input should be a valid string"
  | .wellFormedText =>
    some "Input should be a valid string, unable to parse raw data as a unicode string"
  | .minLength n =>
    let plural := if n = 1 then "" else "s"
    some s!"String should have at least {n} character{plural}"
  | .integer => some "Input should be a valid integer"
  | .integerText =>
    some "Input should be a valid integer, unable to parse string as an integer"
  | .integerSize =>
    some "Unable to parse input string as an integer, exceeded maximum size"
  | .whole => some "Input should be a valid integer, got a number with a fractional part"
  | .finite => some "Input should be a finite number"
  | .number => some "Input should be a valid number"
  | .numberText =>
    some "Input should be a valid number, unable to parse string as a number"
  | .above n => some s!"Input should be greater than {n}"
  | .atLeast n => some s!"Input should be greater than or equal to {n}"
  | .atMost n => some s!"Input should be less than or equal to {n}"
  | .array .text => some "Input should be a valid array"
  | .array .value => some "Input should be a valid list"
  | .object .text => some "Input should be an object"
  | .object .value => some "Input should be a valid dictionary"
  | .record _ .text => some "Input should be an object"
  | .record name .value => some s!"Input should be a valid dictionary or instance of {name}"
  | .choice names => some s!"Input should be {orList names}"
  | .condition m => some s!"Value error, {m}"
  | .document => none

/-- A violated rule, the way from the document to the value that violates it, and that value. Where
a member is missing it is the object that lacks it; a text that is no document has no value. -/
structure Violation where
  path : List String
  rule : Rule
  input : Option Json.Value
deriving Repr

namespace Violation

/-- The longest beginning of a text that takes so many bytes at most. -/
def firstBytes : Nat → List Char → List Char
  | _, [] => []
  | n, c :: cs => if c.utf8Size ≤ n then c :: firstBytes (n - c.utf8Size) cs else []

/-- A text of more than 50 bytes keeps what fits into 25 bytes at its beginning and into 24 at its
end. -/
def shortened (cs : List Char) : List Char :=
  if cs.foldl (fun n c => n + c.utf8Size) 0 ≤ 50 then cs
  else firstBytes 25 cs ++ "...".toList ++ (firstBytes 24 cs.reverse).reverse

/-- A step of a path. One that has a point in it is set off. -/
def stepText (step : String) : String :=
  if step.toList.contains '.' then "`" ++ step ++ "`" else step

def inputText : Option Json.Value → String
  | some v => s!", input_value={String.ofList (shortened (Json.literal v))}, input_type={v.kind}"
  | none => ""

/-- What an error says of a violation: its place on a line of its own, unless it is the document
itself, then the rule and the value that stood there. A link to an explanation, which may stand
behind it, is left out. -/
def text (v : Violation) : String :=
  let place := if v.path.isEmpty then "" else ".".intercalate (v.path.map stepText) ++ "\n"
  let said := v.rule.message?.getD ""
  s!"{place}  {said} [type={v.rule.name}{inputText v.input}]"

end Violation

/-- A value, or what stood against it. -/
inductive Checked (α : Type)
  | valid (value : α)
  | invalid (violations : List Violation)
deriving Repr

namespace Checked

def map {α β : Type} (f : α → β) : Checked α → Checked β
  | .valid a => .valid (f a)
  | .invalid vs => .invalid vs

def ap {α β : Type} (f : Checked (α → β)) (x : Checked α) : Checked β :=
  match f, x with
  | .valid f, .valid a => .valid (f a)
  | .valid _, .invalid vs => .invalid vs
  | .invalid us, .valid _ => .invalid us
  | .invalid us, .invalid vs => .invalid (us ++ vs)

def andThen {α β : Type} (x : Checked α) (f : α → Checked β) : Checked β :=
  match x with
  | .valid a => f a
  | .invalid vs => .invalid vs

/-- One violation, by the value itself. -/
def fail {α : Type} (rule : Rule) (v : Json.Value) : Checked α := .invalid [⟨[], rule, some v⟩]

/-- What should be a document is none. -/
def unreadable {α : Type} : Checked α := .invalid [⟨[], .document, none⟩]

/-- Puts a step in front of the path of every violation. -/
def under {α : Type} (step : String) : Checked α → Checked α
  | .valid a => .valid a
  | .invalid vs => .invalid (vs.map fun v => { v with path := step :: v.path })

/-- Holds what a value was read as to one more rule. -/
def ensure {α : Type} (p : α → Bool) (rule : Rule) (v : Json.Value) (x : Checked α) : Checked α :=
  x.andThen fun a => if p a then .valid a else fail rule v

/-- Checks all items of a list, each under its index from `start` on. -/
def each {α β : Type} (check : α → Checked β) : Nat → List α → Checked (List β)
  | _, [] => .valid []
  | start, a :: rest =>
    ((check a).under (toString start) |>.map fun b bs => b :: bs).ap (each check (start + 1) rest)

end Checked

end LayerQuota
