import LayerQuota.CommandLine
import LayerQuota.Daemon.Connection
import LayerQuota.MountTable
import LayerQuota.Outside.EventStream
/-!
# Launching the service

The service reads its configuration, prepares the daemon, opens the status service if one is
configured, looks once at the mount that holds the runtime's data, and runs the daemon until a
signal ends it. It ends with an exit code: failures of its own kinds are reported in the journal and
end it with one, what else is raised passes through.
-/

namespace LayerQuota

/-- All that a launched service meets outside. The quota tools are commands here. -/
structure Surroundings (τ : Type) extends Outside τ where
  execute : List String → Seconds → τ → Outcome × τ
  partitions : τ → List Partition × τ
  /-- Opens the status service at a host and a socket number, with the key it asks for. -/
  serve : String → Int → Option String → τ → Except OsFault Unit × τ
  pull : Nat → Nat → Daemon (Station τ) → Pulled × Daemon (Station τ)
  patience : Nat

inductive Signal
  | interrupt
  | terminate
deriving DecidableEq, Repr

def Signal.name : Signal → String
  | .interrupt => "SIGINT"
  | .terminate => "SIGTERM"

def Station.receive {τ : Type} (o : Outside τ) (s : Signal) (st : Station τ) : Station τ :=
  (st.log ⟨.info, s!"Received {s.name}, shutting down"⟩).cancel o

namespace Surroundings

variable {τ : Type}

/-- Runs a command and reads its outcome. -/
def command {α : Type} (s : Surroundings τ) (t : Tools) (words : List String)
    (read : Outcome → Reply α) (w : τ) : Reply α × τ :=
  let (o, w) := s.execute words t.timeout w
  (read o, w)

def equipped (s : Surroundings τ) (t : Tools) : Outside τ :=
  { s.toOutside with
    tag := fun dir id => s.command t (t.tagCommand dir id) (t.tagged dir id)
    setLimit := fun id soft hard =>
      s.command t (t.limitCommand id soft hard) (t.limited id soft hard)
    readTag := fun dir => s.command t (t.statCommand dir) fun o => (t.reported dir o, []) }

def nap (seconds : Number.Binary64) (d : Daemon (Station τ)) :
    Except Failure Bool × Daemon (Station τ) :=
  ((d.outside.scope.wait seconds).map (!·), d)

def waits (s : Surroundings τ) (o : Outside τ) : Waits (Station τ) where
  next stream := EventStream.next o s.pull stream s.patience
  sleep := nap

end Surroundings

namespace Launch

variable {τ : Type}

def opening (outside : τ) : Station τ :=
  ⟨⟨"", .whole 0, none⟩, .fresh, [], false, Threshold.initial, [], outside⟩

def configure (s : Surroundings τ) (path : String) (st : Station τ) :
    Except Failure Config × Station τ :=
  let st := { st with threshold := Level.info.rank }.log ⟨.info, "rootfs-quota is starting..."⟩
  let (content, outside) := s.read path st.outside
  let (r, lines) := Config.load path content
  (r, { st with outside }.logAll lines)

def tools (c : Config) : Tools := ⟨c.quotaTool, c.ioTool, .real c.toolTimeout⟩

def settings (c : Config) : Settings :=
  ⟨c.softLimit, c.hardLimit, c.reconnectDelay, c.maxReconnects⟩

/-- Prepares the daemon: loads its store and makes its pool. -/
def prepare (o : Outside τ) (c : Config) (st : Station τ) : Except Failure Core × Station τ :=
  let st := { st with gateway := ⟨c.runtimeSocket, .real c.runtimeTimeout, none⟩ }
  match (Store.atPath c.stateFile).load (Station.host o).toDisk st with
  | (.error f, _, st) => (.error f, st)
  | (.ok _, store, st) =>
    match Pool.create c.leastId c.greatestId with
    | .error e => (.error (.pool e), st)
    | .ok pool => (.ok (Core.opening (settings c) pool store), st)

/-- Opens the status service, if one is configured. It is stopped when the scope is cancelled. -/
def openStatus (s : Surroundings τ) (c : Config) (st : Station τ) :
    Except OsFault Unit × Station τ :=
  match c.statusPort with
  | none => (.ok (), st)
  | some number =>
    match s.serve c.statusHost number c.apiKey st.outside with
    | (.error f, outside) =>
      (.error f, { st with outside }.log
        ⟨.error, s!"Failed to start status API on {c.statusHost}:{number}: {f.message}"⟩)
    | (.ok _, outside) =>
      let (_, scope) := st.scope.register .stopServer
      (.ok (), { st with outside, scope }.log
        ⟨.info, s!"Status API listening on http://{c.statusHost}:{number}"⟩)

/-- Connects and holds the mount table against the directory of the runtime's data. -/
def inspectMount (s : Surroundings τ) (o : Outside τ) (st : Station τ) :
    Except Failure Unit × Station τ :=
  match st.connect o with
  | (.error f, st) => (.error f, st)
  | (.ok _, st) =>
    match st.dataRoot o with
    | (.error f, st) => (.error f, st)
    | (.ok dir, st) =>
      let (table, outside) := s.partitions st.outside
      let st := { st with outside }
      match MountTable.check table dir with
      | .error f => (.error f, st)
      | .ok (_, lines) => (.ok (), st.logAll lines)

/-- Looks at the mount of the runtime's data. A failure of the daemon's own kinds is reported and
not fatal, and in any case no connection stays open. -/
def checkMount (s : Surroundings τ) (o : Outside τ) (st : Station τ) :
    Except Failure Unit × Station τ :=
  match inspectMount s o st with
  | (.ok _, st) => (.ok (), st.disconnect o)
  | (.error f, st) =>
    if f.isOwn then
      let st := st.log
        ⟨.warning, s!"Could not check the runtime data root mount: {f.message}"⟩
      (.ok (), st.disconnect o)
    else (.error f, st.disconnect o)

def serve (s : Surroundings τ) (o : Outside τ) (fuel : Nat) (core : Core) (st : Station τ) :
    Except Failure Int × Station τ :=
  let (r, d) := ((Station.host o).run (s.waits o) fuel).run ⟨core, st⟩
  match r with
  | .ok _ => (.ok 0, d.outside.log ⟨.info, "rootfs-quota shut down gracefully"⟩)
  | .error (.stream m) => (.ok 1, d.outside.log ⟨.error, s!"Service exited with error: {m}"⟩)
  | .error f => (.error f, d.outside)

/-- Serves by a configuration. -/
def serveBy (s : Surroundings τ) (fuel : Nat) (c : Config) (st : Station τ) :
    Except Failure Int × Station τ :=
  let o := s.equipped (tools c)
  match prepare o c st with
  | (.error f, st) =>
    if f.isOwn || f.isBadValue then
      (.ok 1, st.log ⟨.error, s!"Failed to initialize: {f.message}"⟩)
    else (.error f, st)
  | (.ok core, st) =>
    match openStatus s c st with
    | (.error _, st) => (.ok 1, st)
    | (.ok _, st) =>
      match checkMount s o st with
      | (.error f, st) => (.error f, st)
      | (.ok _, st) => serve s o fuel core st

/-- Starts the service with the configuration at a path: its exit code. -/
def start (s : Surroundings τ) (fuel : Nat) (path : String) (st : Station τ) :
    Except Failure Int × Station τ :=
  match configure s path st with
  | (.error f, st) =>
    if f.isOwn then
      (.ok 1, st.log ⟨.error, s!"Failed to load configuration: {f.message}"⟩)
    else (.error f, st)
  | (.ok c, st) => serveBy s fuel c { st with threshold := c.level.rank }

/-- How a launch ends: with a code of the service, or with one for its command line. -/
inductive Exit
  | served (code : Int)
  | explained (code : Int)
deriving DecidableEq, Repr

def Exit.code : Exit → Int
  | .served n => n
  | .explained n => n

def perform (s : Surroundings τ) (fuel : Nat) (args : List String) (st : Station τ) :
    Except Failure Exit × Station τ :=
  match CommandLine.parse args with
  | .help => (.ok (.explained 0), st)
  | .misuse => (.ok (.explained 2), st)
  | .start path =>
    let (r, st) := start s fuel path st
    (r.map .served, st)

end Launch

end LayerQuota
