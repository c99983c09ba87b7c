import LayerQuota.Config
/-!
# Entries

An entry says which project ID a container holds and which directory carries it. A table is a list
of entries in the order in which their containers were first recorded, no container twice.
-/

namespace LayerQuota

/-- One quota that is in force. -/
structure Entry where
  container : String
  projectId : Int
  upperdir : String
deriving DecidableEq, Repr

namespace Entry

/-- An integer that a file system can record as a project ID, zero included. -/
def recordableId (v : Json.Value) : Checked Int := Config.between 0 maxProjectId v

def make (container projectId upperdir : Json.Value) : Checked Entry :=
  ((((Field.text container).under "container_id").map Entry.mk).ap
    ((recordableId projectId).under "project_id")).ap
    ((Field.text upperdir).under "upperdir")

def check (intake : Intake) (v : Json.Value) : Checked Entry :=
  match v with
  | .object _ =>
    (((Field.required v "container_id" Field.text).map Entry.mk).ap
      (Field.required v "project_id" recordableId)).ap
      (Field.required v "upperdir" Field.text)
  | v => .fail (.record "Entry" intake) v

end Entry

/-- Entries in the order of their first record. -/
abbrev Table := List Entry

namespace Table

def get? (t : Table) (container : String) : Option Entry := t.find? (·.container == container)

/-- The table with an entry put in: in the place of the container's entry, or at the end. -/
def put (t : Table) (e : Entry) : Table :=
  match t with
  | [] => [e]
  | f :: rest => if f.container = e.container then e :: rest else f :: Table.put rest e

def remove (t : Table) (container : String) : Table := t.filter (·.container != container)

end Table

end LayerQuota
