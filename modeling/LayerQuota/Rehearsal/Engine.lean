import LayerQuota.Enforcer.Memory
import LayerQuota.Outside.Basic
/-!
# Rehearsing the engine

A rehearsed engine has containers that run and containers that are stopped, each with its
inspection. It has a list of streams to open, one after the other, and faults that its calls meet.
A stream is a list of items: a notice, or acts to be performed by whoever reads it. A stream that
was closed ends before its next item, wherever its reader stands.
-/

namespace LayerQuota.Rehearsal

open LayerQuota.Json

/-- One item of a stream: a notice, or acts and the fault that follows them. -/
inductive StreamItem (α : Type)
  | notice (v : Value)
  | acts (acts : List α) (fault : Option Failure)

structure OpenStream (α : Type) where
  items : List (StreamItem α)
  closed : Bool

/-- An engine whose streams perform acts of type `α`. -/
structure Engine (α : Type) where
  running : List (String × Value)
  stopped : List (String × Value)
  info : Value
  /-- What the next calls of a kind meet, none standing for success. -/
  faults : List (Call × List (Option Failure))
  inspectFaults : List (String × Failure)
  /-- The streams that are still to be opened. -/
  streams : List (List (StreamItem α))
  opened : List (OpenStream α)
  clients : List (String × Int)
  made : List Call

/-- An inspection that names the directories of a layered file system, the writable one among
them. -/
def layeredInspection (upperdir : String) : Value :=
  let dirs := [("LowerDir", "/lower"), ("UpperDir", upperdir), ("WorkDir", "/work")]
  .object [(Str.ofString "GraphDriver", .object [(Str.ofString "Name", .text "overlay2"),
    (Str.ofString "Data", .object (dirs.map fun d => (Str.ofString d.1, .text d.2)))])]

def standardInfo : Value := .object [(Str.ofString "DockerRootDir", .text "/var/lib/docker")]

namespace Engine

variable {α : Type}

def quiet : Engine α := ⟨[], [], standardInfo, [], [], [], [], [], []⟩

def timesMade (r : Engine α) (c : Call) : Nat := r.made.count c

/-! ### Calls -/

/-- Makes a call, which may meet a fault. -/
def enter (c : Call) (r : Engine α) : Except Failure Unit × Engine α :=
  let r := { r with made := r.made ++ [c] }
  match r.faults.lookup c with
  | some (some f :: rest) => (.error f, { r with faults := assign c rest r.faults })
  | some (none :: rest) => (.ok (), { r with faults := assign c rest r.faults })
  | _ => (.ok (), r)

def enterFor {β : Type} (c : Call) (answer : Engine α → β) (r : Engine α) :
    Except Failure β × Engine α :=
  let (e, r) := r.enter c
  (e.map fun _ => answer r, r)

def makeClient (address : String) (timeout : Int) (r : Engine α) :
    Except Failure Nat × Engine α :=
  enterFor .makeClient (fun r => r.clients.length)
    { r with clients := r.clients ++ [(address, timeout)] }

def list (r : Engine α) : Except Failure (List String) × Engine α :=
  enterFor .list (fun r => r.running.map (·.1)) r

def lookup (r : Engine α) (container : Value) : Except Failure Value :=
  match container with
  | .array _ | .object _ => .error (.notHashable container.kind)
  | v =>
    let name := v.text?.getD ""
    let unknown := Failure.runtime s!"No such container: {v.display}"
    match v.text?, r.inspectFaults.lookup name, r.running.lookup name, r.stopped.lookup name with
    | none, _, _, _ => .error unknown
    | some _, some f, _, _ => .error f
    | some _, none, some attrs, _ => .ok attrs
    | some _, none, none, some attrs => .ok attrs
    | some _, none, none, none => .error unknown

def inspect (container : Value) (r : Engine α) : Except Failure Value × Engine α :=
  match r.enter .inspect with
  | (.error f, r) => (.error f, r)
  | (.ok _, r) => (r.lookup container, r)

/-- Opens the next stream, or one without items if none is left. -/
def openStream (r : Engine α) : Except Failure Nat × Engine α :=
  match r.enter .events with
  | (.error f, r) => (.error f, r)
  | (.ok _, r) =>
    (.ok r.opened.length,
      { r with streams := r.streams.tail, opened := r.opened ++ [⟨r.streams.headD [], false⟩] })

/-- Closes a stream, also where that fails. -/
def closeStream (stream : Nat) (r : Engine α) : Except Failure Unit × Engine α :=
  enter .closeStream { r with opened := r.opened.modify stream ({ · with closed := true }) }

/-- The item of a stream at a position, unless the stream ends there. -/
def item? (r : Engine α) (stream position : Nat) : Option (StreamItem α) :=
  match r.opened[stream]? with
  | some s => if s.closed then none else s.items[position]?
  | none => none

def streamLength (r : Engine α) (stream : Nat) : Nat :=
  match r.opened[stream]? with
  | some s => s.items.length
  | none => 0

/-! ### What happens to containers -/

/-- Starts a container. One that runs keeps its place. -/
def start (container : String) (attrs : Value) (r : Engine α) : Engine α :=
  { r with
    running := assign container attrs r.running
    stopped := r.stopped.filter (·.1 != container) }

def stop (container : String) (r : Engine α) : Engine α :=
  match r.running.lookup container with
  | none => r
  | some attrs =>
    { r with
      running := r.running.filter (·.1 != container)
      stopped := assign container attrs r.stopped }

def forget (container : String) (r : Engine α) : Engine α :=
  { r with
    running := r.running.filter (·.1 != container)
    stopped := r.stopped.filter (·.1 != container) }

/-- Has the inspection of a container fail from now on, or succeed again. -/
def setInspectFault (container : String) (fault : Option Failure) (r : Engine α) : Engine α :=
  match fault with
  | some f => { r with inspectFaults := assign container f r.inspectFaults }
  | none => { r with inspectFaults := r.inspectFaults.filter (·.1 != container) }

end Engine

end LayerQuota.Rehearsal
