import LayerQuota.Container.Event
import LayerQuota.Container.Layer
import LayerQuota.State.Store
/-!
# The daemon and its host

The daemon's own state is its `Core`. All else — the container runtime, the quota tools, the
files, the clock, the journal, the cancellation scope — lies behind a `Host`, a record of calls on
a state that the daemon does not look into. A `Host` may answer any call with any result or
failure, and may be cancelled by any call. Operations of the daemon are `Act`s: they change the
state also where they fail.
-/

namespace LayerQuota

/-! ### State -/

inductive Phase
  | disconnected
  | connecting
  | reconciling
  | listening
  | stopped
deriving DecidableEq, Repr

def Phase.name : Phase → String
  | .disconnected => "disconnected"
  | .connecting => "connecting"
  | .reconciling => "reconciling"
  | .listening => "listening"
  | .stopped => "stopped"

/-- What a reconciliation found: how many containers run, for how many of them the ID was reserved
again, the quota was created, the directory is not there yet, or something failed, and which
recorded containers do not run. -/
structure Report where
  live : Nat
  restored : Nat
  created : Nat
  skipped : Nat
  failed : Nat
  stale : List String
deriving DecidableEq, Repr

/-- A reconciliation of `live` containers that has found nothing yet. -/
def Report.opening (live : Nat) : Report := ⟨live, 0, 0, 0, 0, []⟩

/-- What the daemon is set to do. -/
structure Settings where
  softLimit : String
  hardLimit : String
  reconnectDelay : Number.Binary64
  maxReconnects : Option Int
deriving DecidableEq, Repr

/-- The daemon's own state. `failures` counts the connections that failed in a row. -/
structure Core where
  settings : Settings
  pool : Pool
  store : Store
  phase : Phase
  lastReport : Option Report
  handled : Nat
  failed : Nat
  reconnects : Nat
  failures : Nat
deriving DecidableEq, Repr

/-- A daemon that was not started yet. -/
def Core.opening (settings : Settings) (pool : Pool) (store : Store) : Core :=
  ⟨settings, pool, store, .disconnected, none, 0, 0, 0, 0⟩

structure Daemon (σ : Type) where
  core : Core
  outside : σ

/-! ### Host -/

/-- The calls that the daemon makes. -/
structure Host (σ : Type) extends Disk σ where
  /-- Is the scope cancelled? -/
  cancelled : σ → Bool
  tag : Layer → Int → σ → Except Failure Unit × σ
  setLimit : Int → String → String → σ → Except Failure Unit × σ
  readTag : Layer → σ → Except Failure Int × σ
  isPresent : Layer → σ → Except Failure Bool × σ
  list : σ → Except Failure (List String) × σ
  resolve : String → σ → Except Failure Layer × σ
  connect : σ → Except Failure Unit × σ
  disconnect : σ → σ
  /-- Subscribes to container events: the number of the new stream. -/
  subscribe : σ → Except Failure Nat × σ
  closeStream : Nat → σ → σ
  /-- Has a stream closed when the scope is cancelled: the token to take that back, or none if the
  scope is cancelled already and the stream was closed at once. -/
  onCancel : Nat → σ → Option Nat × σ
  unregister : Nat → σ → σ

/-- The calls in which the daemon waits. While it does, anything may happen to it. -/
structure Waits (σ : Type) where
  /-- The next event of a stream from a position on, with the position after it; none if the stream
  was closed. -/
  next : Nat → Nat → Daemon σ → Except Failure (Option (Event × Nat)) × Daemon σ
  /-- Lets some seconds pass. Did all of them pass? -/
  sleep : Number.Binary64 → Daemon σ → Except Failure Bool × Daemon σ

/-! ### Acts -/

/-- An operation of the daemon. -/
abbrev Act (σ : Type) := ExceptT Failure (StateM (Daemon σ))

namespace Act

variable {σ α : Type}

/-- An act given by what it does to the daemon. -/
def ofStep (f : Daemon σ → Except Failure α × Daemon σ) : Act σ α := ExceptT.mk fun d => f d

/-- What an act does to the daemon. -/
def run (x : Act σ α) (d : Daemon σ) : Except Failure α × Daemon σ := (ExceptT.run x) d

def call (f : σ → Except Failure α × σ) : Act σ α :=
  ofStep fun d =>
    let (r, w) := f d.outside
    (r, { d with outside := w })

def ask (f : σ → α × σ) : Act σ α :=
  call fun w =>
    let (a, w) := f w
    (.ok a, w)

def effect (f : σ → σ) : Act σ Unit := call fun w => (.ok (), f w)

def core : Act σ Core := ofStep fun d => (.ok d.core, d)

def modifyCore (f : Core → Core) : Act σ Unit :=
  ofStep fun d => (.ok (), { d with core := f d.core })

/-- A result as an act. -/
def ofExcept (r : Except Failure α) : Act σ α := ofStep fun d => (r, d)

/-- An act whose failure is a result. -/
def attempt (x : Act σ α) : Act σ (Except Failure α) :=
  ofStep fun d =>
    let (r, d) := run x d
    (.ok r, d)

end Act

namespace Host

variable {σ : Type}

def note (h : Host σ) (level : Level) (message : String) : Act σ Unit :=
  Act.effect (h.log ⟨level, message⟩)

def isCancelled (h : Host σ) : Act σ Bool := Act.ask fun w => (h.cancelled w, w)

/-- Fails if the scope is cancelled. -/
def checkpoint (h : Host σ) : Act σ Unit := do
  if ← h.isCancelled then throw .cancelled

def markUsed (_ : Host σ) (id : Int) : Act σ Unit := do
  match (← Act.core).pool.markUsed id with
  | .ok pool => Act.modifyCore fun c => { c with pool }
  | .error e => throw (.pool e)

def release (_ : Host σ) (id : Int) : Act σ Unit :=
  Act.modifyCore fun c => { c with pool := c.pool.release id }

/-- Takes the least free ID of the pool. -/
def allocate (_ : Host σ) : Act σ Int := do
  match (← Act.core).pool.allocate with
  | .ok (id, pool) => Act.modifyCore fun c => { c with pool }; return id
  | .error e => throw (.pool e)

def onStore (h : Host σ) (f : Disk σ → Store → σ → Except Failure Unit × Store × σ) : Act σ Unit :=
  Act.ofStep fun d =>
    let (r, store, w) := f h.toDisk d.core.store d.outside
    (r, { core := { d.core with store }, outside := w })

def entry? (_ : Host σ) (container : String) : Act σ (Option Entry) := do
  return (← Act.core).store.table.get? container

end Host

end LayerQuota
