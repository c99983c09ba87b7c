import LayerQuota.Container.Layer
/-!
# Quotas in memory

Tags and limits are kept in two tables instead of a file system, every call is recorded, and
failures can be ordered for an operation, either for all its calls or for those about one
directory or project.
-/

namespace LayerQuota

inductive QuotaOp
  | tag
  | setLimit
  | readTag
deriving DecidableEq, Repr

def QuotaOp.name : QuotaOp → String
  | .tag => "tag"
  | .setLimit => "set_limit"
  | .readTag => "read_tag"

inductive QuotaCall
  | tag (dir : Layer) (id : Int)
  | setLimit (id : Int) (soft hard : String)
  | readTag (dir : Layer)

def QuotaCall.op : QuotaCall → QuotaOp
  | .tag .. => .tag
  | .setLimit .. => .setLimit
  | .readTag .. => .readTag

def QuotaCall.subject : QuotaCall → Json.Value
  | .tag dir _ => dir
  | .setLimit id _ _ => .int id
  | .readTag dir => dir

/-- Tables of tags and limits, the calls so far, and the failures that are ordered. An order with
no subject is for all calls of its operation. -/
structure Memory where
  tags : List (Layer × Int)
  limits : List (Int × String × String)
  calls : List QuotaCall
  orders : List (String × Json.Value)

/-- Sets the value of a key: in its place, or at the end. -/
def assign {α β : Type} [BEq α] (k : α) (v : β) : List (α × β) → List (α × β)
  | [] => [(k, v)]
  | (l, w) :: rest => if k == l then (l, v) :: rest else (l, w) :: assign k v rest

namespace Memory

/-- Nothing tagged, limited, called or ordered. -/
def empty : Memory := ⟨[], [], [], []⟩

def failOn (m : Memory) (op : String) (subject : Json.Value) : Memory :=
  { m with orders := assign op subject m.orders }

def clearFailures (m : Memory) : Memory := { m with orders := [] }

/-- Records a call, and fails it if that is ordered. -/
def enter (m : Memory) (call : QuotaCall) : Except Failure Unit × Memory :=
  let m := { m with calls := m.calls ++ [call] }
  let name := call.op.name
  match m.orders.lookup name with
  | none => (.ok (), m)
  | some subject =>
    if subject == .null || subject == call.subject then
      (.error (.enforcement s!"mock {name} failure" [name, call.subject.display] ""), m)
    else (.ok (), m)

def tag (m : Memory) (dir : Layer) (id : Int) : Except Failure Unit × Memory :=
  match m.enter (.tag dir id) with
  | (.error f, m) => (.error f, m)
  | (.ok _, m) =>
    match dir.key with
    | .error f => (.error f, m)
    | .ok dir => (.ok (), { m with tags := assign dir id m.tags })

/-- Sets the limits of a project; zero for both clears them. -/
def setLimit (m : Memory) (id : Int) (soft hard : String) : Except Failure Unit × Memory :=
  match m.enter (.setLimit id soft hard) with
  | (.error f, m) => (.error f, m)
  | (.ok _, m) =>
    if soft == "0" && hard == "0" then
      (.ok (), { m with limits := m.limits.filter (·.1 != id) })
    else (.ok (), { m with limits := assign id (soft, hard) m.limits })

def readTag (m : Memory) (dir : Layer) : Except Failure Int × Memory :=
  match m.enter (.readTag dir) with
  | (.error f, m) => (.error f, m)
  | (.ok _, m) =>
    match dir.key with
    | .error f => (.error f, m)
    | .ok dir =>
      match m.tags.lookup dir with
      | some id => (.ok id, m)
      | none => (.error (.enforcement s!"projid not found for {dir.label}" [] ""), m)

def callsNamed (m : Memory) (op : String) : List QuotaCall :=
  m.calls.filter fun c => c.op.name == op

end Memory

end LayerQuota
