import LayerQuota.Validation.Field
/-!
# Mounts

The root file system of a container is reported as a list of mounts. Its writable layer is named
by an option `upperdir=`, which may stand anywhere among the options.
-/

namespace LayerQuota

structure Mount where
  type : String
  source : String
  options : List String
deriving DecidableEq, Repr

namespace Mount

open LayerQuota.Json

def listOf {α : Type} (intake : Intake) (check : Value → Checked α) (v : Value) :
    Checked (List α) :=
  match v with
  | .array items => Checked.each check 0 items
  | v => .fail (.array intake) v

def check (intake : Intake) (v : Value) : Checked Mount :=
  match v with
  | .object _ =>
    (((Field.required v "type" Field.text).map Mount.mk).ap
      (Field.defaulted v "source" "" Field.text)).ap
      (Field.defaulted v "options" [] (listOf intake Field.text))
  | v => .fail (.record "Mount" intake) v

def upperdirMark : List Char := "upperdir=".toList

/-- The value of an option that names a writable layer, if it is not empty. -/
def optionUpperdir? (option : String) : Option String :=
  if upperdirMark.isPrefixOf option.toList then
    match option.toList.drop upperdirMark.length with
    | [] => none
    | cs => some (String.ofList cs)
  else none

/-- The writable layer that the first option naming one gives, in the order of mounts and of their
options. -/
def upperdir? (mounts : List Mount) : Option String :=
  mounts.findSome? fun m => m.options.findSome? optionUpperdir?

end Mount

end LayerQuota
