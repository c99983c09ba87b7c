import LayerQuota.Container.Event
import LayerQuota.Container.Layer
/-!
# What the runtime reports

The runtime answers in JSON documents. An inspection of a container names its storage driver and
the directories of its layers; a notice says that something happened to an object. Members may be
missing, and a missing one counts like one that is empty.
-/

namespace LayerQuota

open LayerQuota.Json

/-- The value of a member, null if it is missing. Only objects have members. -/
def member (v : Value) (k : String) : Except Failure Value :=
  match v with
  | .object _ => .ok ((v.get? k).getD .null)
  | _ => .error (.noMember v.kind "get")

/-- The first of two values that is not empty, or the second. -/
def orElse (v w : Value) : Value := if v.truth then v else w

namespace Inspection

def driver (attrs : Value) : Except Failure Value :=
  (member attrs "GraphDriver").map (orElse · (.object []))

def layers (driver : Value) : Except Failure Value :=
  (member driver "Data").map (orElse · (.object []))

/-- The directories that become mount options, by their members, in order. -/
def optionNames : List (String × String) :=
  [("LowerDir", "lowerdir"), ("UpperDir", "upperdir"), ("WorkDir", "workdir")]

def options (layers : Value) : List (String × String) → Except Failure (List String)
  | [] => .ok []
  | (k, o) :: rest => do
    let v ← member layers k
    let more ← options layers rest
    return if v.truth then s!"{o}={v.display}" :: more else more

/-- The mounts of a root file system: one that names all directories, or none. -/
def mounts (attrs : Value) : Except Failure (List Mount) := do
  let d ← driver attrs
  let ls ← layers d
  match ← options ls optionNames with
  | [] => return []
  | os =>
    let name ← member d "Name"
    match (Field.text (orElse name (.text "overlay"))).under "type" with
    | .valid type => return [⟨type, "overlay", os⟩]
    | .invalid vs => .error (.invalid vs)

/-- The writable layer that an inspection names, if it names one. -/
def upperdir? (attrs : Value) : Except Failure (Option Layer) := do
  let d ← driver attrs
  let ls ← layers d
  let v ← member ls "UpperDir"
  return if v.truth then some v else none

end Inspection

namespace Notice

def kindOf? (action : Value) : Except Failure (Option EventKind) :=
  match action with
  | .array _ | .object _ => .error (.notHashable action.kind)
  | v =>
    .ok <| match v.text? with
    | some "start" => some .create
    | some "die" => some .delete
    | _ => none

def container (notice : Value) : Except Failure Value := do
  let actor ← member notice "Actor"
  let id ← member (orElse actor (.object [])) "ID"
  if id.truth then return id
  let id ← member notice "id"
  if id.truth then return id
  member notice "ID"

/-- The event that a notice stands for: the start or the end of a container that it names. -/
def event? (notice : Value) : Except Failure (Option (EventKind × Value)) := do
  let type ← member notice "Type"
  if type.text? ≠ some "container" then return none
  let action ← member notice "Action"
  let status ← member notice "status"
  match ← kindOf? (orElse action (orElse status (.text ""))) with
  | none => return none
  | some kind =>
    let id ← container notice
    return if id.truth then some (kind, id) else none

end Notice

end LayerQuota
