import LayerQuota.Daemon.Connection
import LayerQuota.Rehearsal.Pool
import LayerQuota.Rehearsal.World
import LayerQuota.Status.Service
/-!
# Rehearsing the daemon

A script drives a daemon in a rehearsed world: it hands it events, lets it reconcile and run, and
changes the world under it. The same acts may stand on the streams that the daemon reads and in
the naps during which it sleeps, so a running daemon meets them in the middle of its work. Quotas
are kept in memory, directories are there as the script says, and no time passes in a nap. The
fiftieth nap cancels the daemon, so that every rehearsal ends.
-/

namespace LayerQuota.Rehearsal

open LayerQuota.Json LayerQuota.Number

inductive DaemonAct
  | create (container mounts : Value)
  | delete (container : Value)
  | event (kind container mounts : Value)
  | reconcile
  | run
  | status
  | connect
  | disconnect
  | start (container : String) (attrs : Value)
  | stop (container : String)
  | forget (container : String)
  | inspectFault (container : String) (fault : Option Failure)
  | makeDirectory (dir : Layer)
  | removeDirectory (dir : Layer)
  | failOn (op : String) (subject : Value)
  | clearFailures
  | setTag (dir : Layer) (id : Int)
  | failSaves (faults : SaveFaults)
  | cancel
  | closeStream
  | pool (act : PoolAct)
  | put (container projectId upperdir : Value)
  | request (key : Option String) (r : Status.Request)

def flawKind : Status.RequestFlaw → String
  | .host (.label _) => "UnicodeError"
  | _ => "ValueError"

inductive DaemonAnswer
  | nothing
  | entry (e : Entry)
  | freed (id : Option Int)
  | document (v : Value)
  | pool (a : PoolAnswer)
  | response (r : Status.Response)

/-- What a rehearsal keeps beside engine and files: the quotas, the directories that are there, the
naps so far, and what happens in the naps to come. -/
structure Bench where
  memory : Memory
  present : List Layer
  naps : List Binary64
  nextNaps : List (List DaemonAct)

abbrev DaemonStage := Staged DaemonAct Bench

namespace DaemonStage

/-- A call on the quotas in memory, which leave nothing in the journal. -/
def onMemory {β : Type} (f : Memory → Except Failure β × Memory) (b : Bench) : Reply β × Bench :=
  let (r, memory) := f b.memory
  ((r, []), { b with memory })

def quotas : Quotas Bench where
  tag dir id := onMemory fun m => m.tag dir id
  setLimit id soft hard := onMemory fun m => m.setLimit id soft hard
  readTag dir := onMemory fun m => m.readTag dir
  isPresent dir _ b := dir.key.map b.present.contains

def calls : Outside (World DaemonAct Bench) := World.outside quotas

def host : Host (Station (World DaemonAct Bench)) := Station.host calls

structure Setting where
  statePath : String
  range : Int × Int
  settings : Settings
  address : String
  connected : Bool
  world : World DaemonAct Bench

/-- A daemon at the start of its rehearsal, or what kept it from starting, with the journal. -/
def opening (s : Setting) : Except (Failure × List Line) DaemonStage :=
  let gateway : Gateway := ⟨s.address, .real (.ofInt 10), none⟩
  let station : Station (World DaemonAct Bench) := ⟨gateway, .fresh, [], false, 0, [], s.world⟩
  match (Store.atPath s.statePath).load host.toDisk station with
  | (.error f, _, st) => .error (f, st.journal)
  | (.ok _, store, st) =>
    match Pool.create s.range.1 s.range.2 with
    | .error e => .error (.pool e, st.journal)
    | .ok pool =>
      let start (st : Station (World DaemonAct Bench)) : DaemonStage :=
        ⟨Core.opening s.settings pool store, { st with journal := [] }⟩
      if s.connected then
        match st.connect calls with
        | (.ok _, st) => .ok (start st)
        | (.error f, st) => .error (f, st.journal)
      else .ok (start st)

def napLimit : Nat := 50

/-- A nap: its acts are performed, and it is whole unless the daemon is cancelled. -/
def nap (perform : DaemonAct → DaemonStage → Except Failure DaemonAnswer × DaemonStage)
    (seconds : Binary64) (d : DaemonStage) : Except Failure Bool × DaemonStage :=
  let acts := d.outside.outside.own.nextNaps.headD []
  let d := d.onOwn fun b =>
    { b with naps := b.naps ++ [seconds], nextNaps := b.nextNaps.tail }
  match Staged.performAll perform acts d with
  | (.error f, d) => (.error f, d)
  | (.ok _, d) =>
    let d := if napLimit ≤ d.outside.outside.own.naps.length then
        { d with outside := d.outside.cancel calls }
      else d
    (.ok !d.outside.scope.cancelled, d)

/-- A daemon waits in a rehearsal: it reads streams and naps. -/
def waits (perform : DaemonAct → DaemonStage → Except Failure DaemonAnswer × DaemonStage) :
    Waits (Station (World DaemonAct Bench)) where
  next := Staged.next quotas perform
  sleep := nap perform

def operate {β : Type} (x : Act (Station (World DaemonAct Bench)) β) (answer : β → DaemonAnswer)
    (d : DaemonStage) : Except Failure DaemonAnswer × DaemonStage :=
  let (r, d) := x.run d
  (r.map answer, d)

def accepted {α : Type} : Checked α → Except Failure α
  | .valid a => .ok a
  | .invalid vs => .error (.invalid vs)

/-- What a value holds one after the other: its items, its keys, or its characters. -/
def elements : Value → Except Failure (List Value)
  | .array items => .ok items
  | .object members => .ok (members.map fun m => .str m.1)
  | .str s => .ok (s.points.map fun n => .str ⟨[n]⟩)
  | v => .error (.foreign "TypeError" s!"'{v.kind}' object is not iterable")

/-- The event of three values. Its mounts are checked one by one before the rest of it. -/
def eventOf (kind container mounts : Value) : Except Failure Event := do
  let items ← elements mounts
  let rootfs ← items.mapM fun m => accepted (Mount.check .value m)
  accepted (Event.ofParts kind container rootfs)

def put (container projectId upperdir : Value) : Act (Station (World DaemonAct Bench)) Unit := do
  match Entry.make container projectId upperdir with
  | .invalid vs => throw (.invalid vs)
  | .valid e => host.onStore fun disk store => store.put disk e

/-- The end of a container that no text names: the runtime cannot know it. -/
def deleteUnknown (container : Value) : Act (Station (World DaemonAct Bench)) (Option Int) := do
  host.checkpoint
  let _ ← Act.call (Station.resolve calls container)
  return none

def fuelOf (d : DaemonStage) : Nat :=
  let w := d.outside.outside
  w.engine.streams.foldl (fun n s => n + s.length + 1) (napLimit + 2)

/-- Performs an act. `depth` bounds how deep acts stand within acts. -/
def perform : Nat → DaemonAct → DaemonStage → Except Failure DaemonAnswer × DaemonStage
  | 0, _, d => (.error .unfinished, d)
  | depth + 1, act, d =>
    match act with
    | .create c ms =>
      match eventOf (.text "create") c ms with
      | .error f => (.error f, d)
      | .ok e => d.operate (host.handleCreate e) .entry
    | .delete c =>
      match c.text? with
      | some name => d.operate (host.handleDelete name) .freed
      | none => d.operate (deleteUnknown c) .freed
    | .event kind c ms =>
      match eventOf kind c ms with
      | .error f => (.error f, d)
      | .ok e => d.operate (host.handleEvent e) fun _ => .nothing
    | .reconcile => d.operate host.reconcile fun r => .document r.document
    | .run => d.operate (host.run (waits (perform depth)) d.fuelOf) fun _ => .nothing
    | .status => (.ok (.document d.core.status), d)
    | .connect =>
      let (r, d) := d.onStation (Station.connect calls)
      (r.map fun _ => .nothing, d)
    | .disconnect => (.ok .nothing, { d with outside := d.outside.disconnect calls })
    | .start c attrs => (.ok .nothing, d.onEngine (Engine.start c attrs))
    | .stop c => (.ok .nothing, d.onEngine (Engine.stop c))
    | .forget c => (.ok .nothing, d.onEngine (Engine.forget c))
    | .inspectFault c f => (.ok .nothing, d.onEngine (Engine.setInspectFault c f))
    | .makeDirectory dir => (.ok .nothing, d.onOwn fun b => { b with present := dir :: b.present })
    | .removeDirectory dir =>
      (.ok .nothing, d.onOwn fun b => { b with present := b.present.filter (· != dir) })
    | .failOn op subject =>
      (.ok .nothing, d.onOwn fun b => { b with memory := b.memory.failOn op subject })
    | .clearFailures =>
      (.ok .nothing, d.onOwn fun b => { b with memory := b.memory.clearFailures })
    | .setTag dir id =>
      (.ok .nothing, d.onOwn fun b => { b with memory.tags := assign dir id b.memory.tags })
    | .failSaves faults => (.ok .nothing, d.onWorld fun w => { w with volume.faults := faults })
    | .cancel => (.ok .nothing, { d with outside := d.outside.cancel calls })
    | .closeStream =>
      let last := d.outside.outside.engine.opened.length - 1
      (.ok .nothing, { d with outside := d.outside.closeStream calls last })
    | .pool act =>
      let (r, pool) := act.perform d.core.pool
      (r.map .pool, { d with core := { d.core with pool } })
    | .put c i u => d.operate (put c i u) fun _ => .nothing
    | .request key r =>
      match r.flaw? with
      | some f => (.error (.foreign (flawKind f) f.message), d)
      | none => (.ok (.response (Status.respond d.core key r)), d)

end DaemonStage

end LayerQuota.Rehearsal
