import LayerQuota.Daemon.Events
import LayerQuota.Daemon.Reconcile
/-!
# The connection to the runtime

A connection subscribes to events, reconciles, and then handles events until the stream ends. Since
the subscription comes first, what happens during the reconciliation is not lost. A connection that
is lost is made again after a delay, until the scope is cancelled or too many connections failed in
a row; a connection that came to listening starts the count anew. `run` ends in any case with no
connection and in the phase `stopped`.
-/

namespace LayerQuota.Host

variable {σ : Type}

/-- Enters a phase. -/
def enter (h : Host σ) (p : Phase) : Act σ Unit := do
  if (← Act.core).phase = p then return
  Act.modifyCore fun c => { c with phase := p }
  h.note .debug s!"Handler state -> {p.name}"

/-- Handles the events of a stream from a position on. `fuel` bounds their number. -/
def receive (h : Host σ) (w : Waits σ) (stream : Nat) : Nat → Nat → Act σ Unit
  | 0, _ => throw .unfinished
  | fuel + 1, position => do
    match ← Act.ofStep (w.next stream position) with
    | none =>
      unless ← h.isCancelled do throw (.stream "event stream ended")
    | some (e, position) =>
      h.handleEvent e
      unless ← h.isCancelled do h.receive w stream fuel position

def listen (h : Host σ) (w : Waits σ) (fuel stream : Nat) : Act σ Unit := do
  h.enter .reconciling
  let _ ← h.reconcile
  if ← h.isCancelled then return
  h.enter .listening
  Act.modifyCore fun c => { c with failures := 0 }
  h.note .info "Listening for container events..."
  h.receive w stream fuel 0

/-- Opens a connection and a stream of events. A failure of the daemon's own kinds counts as a loss
of the connection. -/
def openStream (h : Host σ) : Act σ Nat := do
  match ← Act.attempt (do Act.call h.connect; Act.call h.subscribe) with
  | .ok stream => return stream
  | .error f =>
    if f.isOwn then
      Act.effect h.disconnect
      throw (.stream f.message)
    else throw f

/-- One connection from its opening to its end. -/
def connection (h : Host σ) (w : Waits σ) (fuel : Nat) : Act σ Unit := do
  h.enter .connecting
  let stream ← h.openStream
  let token ← Act.ask (h.onCancel stream)
  let r ← Act.attempt (h.listen w fuel stream)
  match token with
  | some t => Act.effect (h.unregister t)
  | none => pure ()
  Act.effect (h.closeStream stream)
  Act.effect h.disconnect
  Act.ofExcept r

def gaveUp (c : Core) : Option Int :=
  match c.settings.maxReconnects with
  | some n => if n < c.failures then some n else none
  | none => none

/-- What follows the loss of a connection: does the daemon connect again? -/
def retry (h : Host σ) (w : Waits σ) (message : String) : Act σ Bool := do
  if ← h.isCancelled then return false
  Act.modifyCore fun c => { c with failures := c.failures + 1 }
  h.enter .disconnected
  let core ← Act.core
  match gaveUp core with
  | some n =>
    h.note .error s!"Giving up after {n} reconnect attempts: {message}"
    throw (.stream message)
  | none =>
    let delay := core.settings.reconnectDelay
    h.note .error s!"Event listener failed, retrying in {delay.textOneDecimal}s: {message}"
    if ← Act.ofStep (w.sleep delay) then
      Act.modifyCore fun c => { c with reconnects := c.reconnects + 1 }
      return true
    else return false

/-- Connections one after the other. `fuel` bounds the number of connections, and of the events in
each. -/
def connections (h : Host σ) (w : Waits σ) (fuel : Nat) : Nat → Act σ Unit
  | 0 => throw .unfinished
  | n + 1 => do
    if ← h.isCancelled then return
    match ← Act.attempt (h.connection w fuel) with
    | .ok _ => h.connections w fuel n
    | .error (.stream m) => if ← h.retry w m then h.connections w fuel n
    | .error f => throw f

/-- Runs the daemon until it is cancelled or gives up. -/
def run (h : Host σ) (w : Waits σ) (fuel : Nat) : Act σ Unit := do
  Act.modifyCore fun c => { c with failures := 0 }
  let r ← Act.attempt (h.connections w fuel fuel)
  Act.effect h.disconnect
  h.enter .stopped
  h.note .info "Quota handler stopped"
  Act.ofExcept r

end LayerQuota.Host
