import LayerQuota.Daemon.Basic
import LayerQuota.Outside.Station
/-!
# The stream of events

Notices of the runtime become events: the start of a container with the mounts that an inspection
shows, the end of one without. Other notices are passed over. A stream that ends or breaks is a
lost connection, unless it was closed before; then it ends quietly.
-/

namespace LayerQuota

inductive Pulled
  | notice (v : Json.Value)
  | nothing
  | ended
  | broken (f : Failure)

namespace EventStream

variable {τ : Type}

/-- The start of a container's name in messages, as far as the name has parts. -/
def shortId (container : Json.Value) : Except Failure String :=
  match container with
  | .str s => .ok (Json.Value.display (.str ⟨s.points.take 12⟩))
  | .array items => .ok (Json.Value.display (.array (items.take 12)))
  | .object _ => .error (.notHashable "slice")
  | v => .error (.notIndexable v.kind)

/-- The mounts of a container that started. If it cannot be looked up, there are none, and the
journal says so. -/
def mounts (o : Outside τ) (container : Json.Value) (st : Station τ) :
    Except Failure (List Mount) × Station τ :=
  match st.inspect o container with
  | (.ok attrs, st) => (Inspection.mounts attrs, st)
  | (.error (.lookup m), st) =>
    match shortId container with
    | .ok name =>
      (.ok [], st.log ⟨.warning, s!"Could not inspect started container {name}: {m}"⟩)
    | .error f => (.error f, st)
  | (.error f, st) => (.error f, st)

def event (kind : EventKind) (container : Json.Value) (rootfs : List Mount) :
    Except Failure (Option Event) :=
  match Event.make kind container rootfs with
  | .valid e => .ok (some e)
  | .invalid vs => .error (.invalid vs)

/-- The event that a notice becomes, if it becomes one. -/
def eventOf (o : Outside τ) (notice : Json.Value) (st : Station τ) :
    Except Failure (Option Event) × Station τ :=
  match Notice.event? notice with
  | .error f => (.error f, st)
  | .ok none => (.ok none, st)
  | .ok (some (.delete, container)) => (event .delete container [], st)
  | .ok (some (.create, container)) =>
    match mounts o container st with
    | (.error f, st) => (.error f, st)
    | (.ok rootfs, st) => (event .create container rootfs, st)

/-- How a stream ends: quietly if it was closed, else as a loss of the connection. -/
def finish (st : Station τ) (stream : Nat) (message : String) :
    Except Failure (Option (Event × Nat)) :=
  if st.isClosed stream then .ok none else .error (.stream message)

/-- The next event of a stream from a position on. `fuel` bounds how many notices are passed
over. -/
def next (o : Outside τ) (pull : Nat → Nat → Daemon (Station τ) → Pulled × Daemon (Station τ))
    (stream : Nat) : Nat → Nat → Daemon (Station τ) →
      Except Failure (Option (Event × Nat)) × Daemon (Station τ)
  | 0, _, d => (.error .unfinished, d)
  | fuel + 1, position, d =>
    match pull stream position d with
    | (.nothing, d) => next o pull stream fuel (position + 1) d
    | (.ended, d) => (finish d.outside stream "docker event stream ended", d)
    | (.broken (.runtime m), d) =>
      (finish d.outside stream s!"docker event stream failed: {m}", d)
    | (.broken f, d) => (.error f, d)
    | (.notice v, d) =>
      match eventOf o v d.outside with
      | (.error f, st) => (.error f, { d with outside := st })
      | (.ok none, st) => next o pull stream fuel (position + 1) { d with outside := st }
      | (.ok (some e), st) => (.ok (some (e, position + 1)), { d with outside := st })

end EventStream

namespace Station

variable {τ : Type}

def host (o : Outside τ) : Host (Station τ) where
  log l st := st.log l
  save path text st := callFile o .save (o.save path text) st
  read path st := callFile o .read (o.read path) st
  cancelled st := st.scope.cancelled
  tag dir id st := callLogged o .tag (o.tag dir id) st
  setLimit id soft hard st := callLogged o .setLimit (o.setLimit id soft hard) st
  readTag dir st := callLogged o .readTag (o.readTag dir) st
  isPresent dir st := call o .isPresent (o.isPresent dir) st
  list st := st.list o
  resolve c st := st.resolve o (.text c)
  connect st := st.connect o
  disconnect st := st.disconnect o
  subscribe st := st.subscribe o
  closeStream stream st := st.closeStream o stream
  onCancel stream st := st.onCancel o stream
  unregister token st := st.unregister token

end Station

end LayerQuota
