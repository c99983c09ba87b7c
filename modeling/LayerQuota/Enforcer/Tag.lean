import LayerQuota.Number.Decimal
import LayerQuota.Text.Blank
/-!
# Reading a tag

The inspection tool reports the project ID of a directory as `projid = N` among other text. The
first place that has this form counts, with all the digits that stand there.
-/

namespace LayerQuota.Tag

def word : List Char := "projid".toList

/-- The digits of the number that a text starts with, behind the word and an equals sign that may
have blanks on both sides. -/
def digitsAt? (cs : List Char) : Option (List Nat) :=
  if word.isPrefixOf cs then
    match (cs.drop word.length).dropWhile Text.isBlank with
    | '=' :: rest =>
      match Number.spanDigits (rest.dropWhile Text.isBlank) with
      | ([], _) => none
      | (ds, _) => some ds
    | _ => none
  else none

def digits? : List Char → Option (List Nat)
  | [] => none
  | c :: rest =>
    match digitsAt? (c :: rest) with
    | some ds => some ds
    | none => digits? rest

/-- The project ID that a text reports, if it reports one. -/
def parse (s : String) : Except Number.TooLong (Option Nat) :=
  match digits? s.toList with
  | none => .ok none
  | some ds => (Number.convert ds).map some

end LayerQuota.Tag
