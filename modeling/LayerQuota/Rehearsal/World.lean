import LayerQuota.Rehearsal.Engine
import LayerQuota.Rehearsal.Store
import LayerQuota.Outside.EventStream
/-!
# Rehearsing the outside

A world is a rehearsed engine, a volume, and what else a rehearsal keeps for itself, such as its
quota tools. Alarms cancel the daemon when a certain moment comes for a certain time.
-/

namespace LayerQuota.Rehearsal

/-- A world whose streams perform acts of type `α`, with a part of type `κ` of its own. -/
structure World (α κ : Type) where
  engine : Engine α
  volume : Volume
  own : κ
  alarms : List (Moment × Nat)
  passed : List Moment

structure Quotas (κ : Type) where
  tag : Layer → Int → κ → Reply Unit × κ
  setLimit : Int → String → String → κ → Reply Unit × κ
  readTag : Layer → κ → Reply Int × κ
  isPresent : Layer → FileSystem → κ → Except Failure Bool

namespace World

variable {α κ β : Type}

def onEngine (f : Engine α → β × Engine α) (w : World α κ) : β × World α κ :=
  let (b, engine) := f w.engine
  (b, { w with engine })

def onOwn (f : κ → β × κ) (w : World α κ) : β × World α κ :=
  let (b, own) := f w.own
  (b, { w with own })

/-- A moment comes; an alarm may be set for it. -/
def arrive (m : Moment) (w : World α κ) : Bool × World α κ :=
  let passed := m :: w.passed
  (w.alarms.contains (m, passed.count m), { w with passed })

/-- The calls that leave the process, in a world. -/
def outside (q : Quotas κ) : Outside (World α κ) where
  interrupt := arrive
  makeClient address timeout := onEngine (Engine.makeClient address timeout)
  ping _ := onEngine (Engine.enter .ping)
  closeClient _ := onEngine (Engine.enter .closeClient)
  list _ := onEngine Engine.list
  inspect _ container := onEngine (Engine.inspect container)
  info _ := onEngine (Engine.enterFor .info (·.info))
  events _ := onEngine Engine.openStream
  closeStream stream := onEngine (Engine.closeStream stream)
  tag dir id := onOwn (q.tag dir id)
  setLimit id soft hard := onOwn (q.setLimit id soft hard)
  readTag dir := onOwn (q.readTag dir)
  isPresent dir w := (q.isPresent dir w.volume.files w.own, w)
  read path w := (w.volume.files.read path, w)
  save path text w :=
    let (r, volume) := w.volume.save path text
    (r, { w with volume })

end World

abbrev Staged (α κ : Type) := Daemon (Station (World α κ))

namespace Staged

variable {α κ β : Type}

def onWorld (f : World α κ → World α κ) (d : Staged α κ) : Staged α κ :=
  { d with outside.outside := f d.outside.outside }

def onEngine (f : Engine α → Engine α) (d : Staged α κ) : Staged α κ :=
  d.onWorld fun w => { w with engine := f w.engine }

def onOwn (f : κ → κ) (d : Staged α κ) : Staged α κ := d.onWorld fun w => { w with own := f w.own }

def onStation (f : Station (World α κ) → β × Station (World α κ)) (d : Staged α κ) :
    β × Staged α κ :=
  let (b, outside) := f d.outside
  (b, { d with outside })

/-- Performs acts up to the first that fails. -/
def performAll (perform : α → Staged α κ → Except Failure β × Staged α κ) :
    List α → Staged α κ → Except Failure Unit × Staged α κ
  | [], d => (.ok (), d)
  | act :: rest, d =>
    match perform act d with
    | (.ok _, d) => performAll perform rest d
    | (.error f, d) => (.error f, d)

/-- What comes next on a stream, the acts on it being performed. -/
def pull (perform : α → Staged α κ → Except Failure β × Staged α κ) (stream position : Nat)
    (d : Staged α κ) : Pulled × Staged α κ :=
  match d.outside.outside.engine.item? stream position with
  | none => (.ended, d)
  | some (.notice v) => (.notice v, d)
  | some (.acts acts fault) =>
    match performAll perform acts d with
    | (.error f, d) => (.broken f, d)
    | (.ok _, d) =>
      match fault with
      | some f => (.broken f, d)
      | none => (.nothing, d)

def next (q : Quotas κ) (perform : α → Staged α κ → Except Failure β × Staged α κ)
    (stream position : Nat) (d : Staged α κ) :
    Except Failure (Option (Event × Nat)) × Staged α κ :=
  EventStream.next (World.outside q) (pull perform) stream
    (d.outside.outside.engine.streamLength stream + 1) position d

end Staged

end LayerQuota.Rehearsal
