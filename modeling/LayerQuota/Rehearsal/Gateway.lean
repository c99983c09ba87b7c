import LayerQuota.Rehearsal.World
/-!
# Rehearsing the gateway

A script opens and closes the connection to a rehearsed engine, asks it about containers, and
reads streams of events, which it knows by names. No quota is enforced.
-/

namespace LayerQuota.Rehearsal

inductive GatewayAct
  | connect
  | disconnect
  | list
  | dataRoot
  | resolve (container : Json.Value)
  | inspect (container : Json.Value)
  | subscribe (name : String)
  | closeStream (name : String)
  | read (name : String) (limit : Option Nat)
  | stop (container : String)
  | start (container : String) (attrs : Json.Value)

inductive GatewayAnswer
  | nothing
  | names (ns : List String)
  | layer (dir : Layer)
  | document (v : Json.Value)
  | events (es : List Event) (stoppedBy : Option Failure)

/-- A gateway under rehearsal; its own part is the stream that each name stands for. -/
abbrev GatewayStage := Staged GatewayAct (List (String × Nat))

namespace GatewayStage

def quotas : Quotas (List (String × Nat)) where
  tag _ _ w := ((.ok (), []), w)
  setLimit _ _ _ w := ((.ok (), []), w)
  readTag _ w := ((.ok 0, []), w)
  isPresent _ _ _ := .ok false

def calls : Outside (World GatewayAct (List (String × Nat))) := World.outside quotas

def idle : Core := Core.opening ⟨"", "", .ofInt 0, none⟩ ⟨1, 2, []⟩ (Store.atPath "")

def opening (gateway : Gateway) (engine : Engine GatewayAct) : GatewayStage :=
  ⟨idle, ⟨gateway, .fresh, [], false, 0, [], ⟨engine, ⟨.empty, []⟩, [], [], []⟩⟩⟩

def stream (d : GatewayStage) (name : String) : Nat :=
  (d.outside.outside.own.lookup name).getD d.outside.outside.engine.opened.length

/-- Reads events with `next` until it gives none or `limit` is reached. -/
def readEvents (next : Nat → GatewayStage → Except Failure (Option (Event × Nat)) × GatewayStage)
    (limit : Option Nat) :
    Nat → Nat → List Event → GatewayStage → GatewayAnswer × GatewayStage
  | 0, _, seen, d => (.events seen (some .unfinished), d)
  | fuel + 1, position, seen, d =>
    match next position d with
    | (.error f, d) => (.events seen (some f), d)
    | (.ok none, d) => (.events seen none, d)
    | (.ok (some (e, position)), d) =>
      let seen := seen ++ [e]
      match limit with
      | some n =>
        if n ≤ seen.length then (.events seen none, d)
        else readEvents next limit fuel position seen d
      | none => readEvents next limit fuel position seen d

def answer {β : Type} (f : β → GatewayAnswer) (r : Except Failure β × GatewayStage) :
    Except Failure GatewayAnswer × GatewayStage := (r.1.map f, r.2)

/-- Performs an act. `depth` bounds how deep streams are read within streams. -/
def perform : Nat → GatewayAct → GatewayStage → Except Failure GatewayAnswer × GatewayStage
  | 0, _, d => (.error .unfinished, d)
  | depth + 1, act, d =>
    match act with
    | .connect => answer (fun _ => .nothing) (d.onStation (Station.connect calls))
    | .disconnect => (.ok .nothing, { d with outside := d.outside.disconnect calls })
    | .list => answer .names (d.onStation (Station.list calls))
    | .dataRoot => answer .layer (d.onStation (Station.dataRoot calls))
    | .resolve c => answer .layer (d.onStation (Station.resolve calls c))
    | .inspect c => answer .document (d.onStation (Station.inspect calls c))
    | .subscribe name =>
      match d.onStation (Station.subscribe calls) with
      | (.ok n, d) => (.ok .nothing, d.onOwn (assign name n))
      | (.error f, d) => (.error f, d)
    | .closeStream name =>
      (.ok .nothing, { d with outside := d.outside.closeStream calls (d.stream name) })
    | .read name limit =>
      let n := d.stream name
      let next := Staged.next quotas (perform depth) n
      let (a, d) :=
        readEvents next limit (d.outside.outside.engine.streamLength n + 1) 0 [] d
      (.ok a, d)
    | .stop c => (.ok .nothing, d.onEngine (Engine.stop c))
    | .start c attrs => (.ok .nothing, d.onEngine (Engine.start c attrs))

end GatewayStage

end LayerQuota.Rehearsal
