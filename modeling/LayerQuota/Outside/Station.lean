import LayerQuota.CancelScope
import LayerQuota.Enforcer.Command
import LayerQuota.Outside.Inspection
import LayerQuota.Outside.Basic
/-!
# The station

The station is what the daemon keeps between itself and the outside: the gateway to the runtime with
its client, the streams it has closed, the cancellation scope, and the journal. A signal cancels the
scope, which closes the streams that are registered there; a call that is under way goes on.

The gateway turns failures of the runtime's client into losses of the connection, or, where one
container is looked up, into a failure of that look-up. Other failures pass through.
-/

namespace LayerQuota

/-- The gateway: where the runtime is, how long it may take, and the client that is open. -/
structure Gateway where
  address : String
  timeout : Seconds
  client : Option Nat
deriving DecidableEq, Repr

inductive Callback
  | closeStream (stream : Nat)
  | stopServer
deriving DecidableEq, Repr

structure Station (τ : Type) where
  gateway : Gateway
  scope : CancelScope Callback
  closed : List Nat
  serverStopped : Bool
  threshold : Nat
  journal : List Line
  outside : τ

namespace Station

variable {τ α : Type}

/-! ### Journal and signals -/

/-- Writes a line of the journal, unless it is below the threshold. -/
def log (l : Line) (st : Station τ) : Station τ :=
  if st.threshold ≤ l.level.rank then { st with journal := st.journal ++ [l] } else st

def logAll (ls : List Line) (st : Station τ) : Station τ := ls.foldl (fun st l => st.log l) st

/-- Polls for a signal and leaves it alone: the scope is cancelled already. -/
def passSignal (o : Outside τ) (m : Moment) (st : Station τ) : Station τ :=
  { st with outside := (o.interrupt m st.outside).2 }

def callWith (signal : Moment → Station τ → Station τ) (c : Call)
    (f : τ → Except Failure α × τ) (st : Station τ) : Except Failure α × Station τ :=
  let st := signal (.before c) st
  let (r, w) := f st.outside
  (r, signal (.after c r.isOk) { st with outside := w })

/-- Closes a stream; a failure of that is reported and not fatal. -/
def closeStreamWith (signal : Moment → Station τ → Station τ) (o : Outside τ) (stream : Nat)
    (st : Station τ) : Station τ :=
  match callWith signal .closeStream (o.closeStream stream)
      { st with closed := stream :: st.closed } with
  | (.ok _, st) => st
  | (.error f, st) => st.log ⟨.debug, s!"Closing docker event stream failed: {f.message}"⟩

def runCallback (o : Outside τ) (st : Station τ) : Callback → Station τ
  | .closeStream stream => closeStreamWith (passSignal o) o stream st
  | .stopServer => { st with serverStopped := true }

def cancel (o : Outside τ) (st : Station τ) : Station τ :=
  let (due, scope) := st.scope.trip
  due.foldl (runCallback o) { st with scope }

/-- Polls for a signal, which cancels the scope. -/
def takeSignal (o : Outside τ) (m : Moment) (st : Station τ) : Station τ :=
  let (arrived, w) := o.interrupt m st.outside
  let st := { st with outside := w }
  if arrived then st.cancel o else st

def call (o : Outside τ) (c : Call) (f : τ → Except Failure α × τ) (st : Station τ) :
    Except Failure α × Station τ := callWith (takeSignal o) c f st

def callLogged (o : Outside τ) (c : Call) (f : τ → Reply α × τ) (st : Station τ) :
    Except Failure α × Station τ :=
  let st := takeSignal o (.before c) st
  let ((r, lines), w) := f st.outside
  let st := takeSignal o (.after c r.isOk) { st with outside := w }
  (r, st.logAll lines)

def callFile (o : Outside τ) (c : Call) (f : τ → Except OsFault α × τ) (st : Station τ) :
    Except OsFault α × Station τ :=
  let st := takeSignal o (.before c) st
  let (r, w) := f st.outside
  (r, takeSignal o (.after c r.isOk) { st with outside := w })

/-! ### Streams and the scope -/

def closeStream (o : Outside τ) (stream : Nat) (st : Station τ) : Station τ :=
  closeStreamWith (takeSignal o) o stream st

def isClosed (st : Station τ) (stream : Nat) : Bool := st.closed.contains stream

/-- Has a stream closed when the scope is cancelled, or at once if it is. -/
def onCancel (o : Outside τ) (stream : Nat) (st : Station τ) : Option Nat × Station τ :=
  match st.scope.register (.closeStream stream) with
  | (some token, scope) => (some token, { st with scope })
  | (none, scope) => (none, closeStream o stream { st with scope })

def unregister (token : Nat) (st : Station τ) : Station τ :=
  { st with scope := st.scope.unregister token }

/-! ### The gateway -/

def client (st : Station τ) : Except Failure Nat :=
  match st.gateway.client with
  | some c => .ok c
  | none => .error (.stream "not connected to docker")

def rephrase (f : String → Failure) : Except Failure α → Except Failure α
  | .error (.runtime m) => .error (f m)
  | r => r

def onClient (o : Outside τ) (c : Call) (f : Nat → τ → Except Failure α × τ) (st : Station τ) :
    Except Failure α × Station τ :=
  match st.client with
  | .ok n => call o c (f n) st
  | .error e => (.error e, st)

/-- The whole seconds of a time-out. -/
def wholeSeconds : Seconds → Except Failure Int
  | .whole n => .ok n
  | .real x =>
    match x, x.truncate? with
    | _, some n => .ok n
    | .nan, none => .error .noInteger
    | _, none => .error .infiniteInteger

/-- Closes the client that is open; a failure of that is reported and not fatal. -/
def disconnect (o : Outside τ) (st : Station τ) : Station τ :=
  match st.gateway.client with
  | none => st
  | some n =>
    let st := match call o .closeClient (o.closeClient n) st with
      | (.ok _, st) => st
      | (.error f, st) => st.log ⟨.debug, s!"Closing docker client failed: {f.message}"⟩
    { st with gateway.client := none }

/-- Makes a client and asks for a sign of life. -/
def openClient (o : Outside τ) (st : Station τ) : Except Failure Nat × Station τ :=
  match wholeSeconds st.gateway.timeout with
  | .error f => (.error f, st)
  | .ok seconds =>
    match call o .makeClient (o.makeClient st.gateway.address seconds) st with
    | (.error f, st) => (.error f, st)
    | (.ok n, st) =>
      match call o .ping (o.ping n) st with
      | (.error f, st) => (.error f, st)
      | (.ok _, st) => (.ok n, st)

def connect (o : Outside τ) (st : Station τ) : Except Failure Unit × Station τ :=
  let address := st.gateway.address
  match openClient o (st.disconnect o) with
  | (.error (.runtime m), st) =>
    (.error (.stream s!"cannot connect to docker at {address}: {m}"), st)
  | (.error f, st) => (.error f, st)
  | (.ok n, st) =>
    let st := { st with gateway.client := some n }
    (.ok (), st.log ⟨.info, s!"Connected to docker at {address}"⟩)

def list (o : Outside τ) (st : Station τ) : Except Failure (List String) × Station τ :=
  let (r, st) := onClient o .list o.list st
  (rephrase (fun m => .stream s!"docker list containers failed: {m}") r, st)

def inspect (o : Outside τ) (container : Json.Value) (st : Station τ) :
    Except Failure Json.Value × Station τ :=
  let (r, st) := onClient o .inspect (o.inspect · container) st
  (rephrase (fun m => .lookup s!"docker inspect {container.display} failed: {m}") r, st)

def resolve (o : Outside τ) (container : Json.Value) (st : Station τ) :
    Except Failure Layer × Station τ :=
  match inspect o container st with
  | (.error f, st) => (.error f, st)
  | (.ok attrs, st) =>
    match Inspection.upperdir? attrs with
    | .error f => (.error f, st)
    | .ok (some dir) => (.ok dir, st)
    | .ok none => (.error (.lookup s!"upperdir not found for container {container.display}"), st)

/-- The directory under which the runtime keeps its data, if the runtime does not say. -/
def defaultDataRoot : String := "/var/lib/docker"

def dataRoot (o : Outside τ) (st : Station τ) : Except Failure Layer × Station τ :=
  match onClient o .info o.info st with
  | (.error (.runtime m), st) =>
    (.ok (Layer.ofPath defaultDataRoot),
      st.log ⟨.warning, s!"Could not get Docker data root: {m}"⟩)
  | (.error f, st) => (.error f, st)
  | (.ok doc, st) =>
    ((member doc "DockerRootDir").map (orElse · (Layer.ofPath defaultDataRoot)), st)

def subscribe (o : Outside τ) (st : Station τ) : Except Failure Nat × Station τ :=
  let (r, st) := onClient o .events o.events st
  (rephrase (fun m => .stream s!"docker events subscription failed: {m}") r, st)

end Station

end LayerQuota
