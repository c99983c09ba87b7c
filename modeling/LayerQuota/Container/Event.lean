import LayerQuota.Container.Mount
/-!
# Container events

A container is created, with the mounts of its root file system, or deleted.
-/

namespace LayerQuota

inductive EventKind
  | create
  | delete
deriving DecidableEq, Repr

def EventKind.name : EventKind → String
  | .create => "create"
  | .delete => "delete"

structure Event where
  kind : EventKind
  container : String
  rootfs : List Mount
deriving DecidableEq, Repr

namespace Event

open LayerQuota.Json

def kindField (v : Value) : Checked EventKind :=
  let choice : Rule := .choice ["create", "delete"]
  match v with
  | .str s =>
    Field.wellFormed s fun
      | "create" => .valid .create
      | "delete" => .valid .delete
      | _ => .fail choice v
  | v => .fail choice v

/-- The event of its parts, the mounts given as they are. -/
def make (kind : EventKind) (container : Value) (rootfs : List Mount) : Checked Event :=
  ((Field.text container).under "container_id").map fun c => ⟨kind, c, rootfs⟩

/-- The event of its parts, the mounts being checked already. -/
def ofParts (kind container : Value) (rootfs : List Mount) : Checked Event :=
  ((((kindField kind).under "kind").map Event.mk).ap
    ((Field.text container).under "container_id")).map fun event => event rootfs

def check (intake : Intake) (v : Value) : Checked Event :=
  match v with
  | .object _ =>
    (((Field.required v "kind" kindField).map Event.mk).ap
      (Field.required v "container_id" Field.text)).ap
      (Field.defaulted v "rootfs" [] (Mount.listOf intake (Mount.check intake)))
  | v => .fail (.record "ContainerEvent" intake) v

end Event

end LayerQuota
