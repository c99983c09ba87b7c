import LayerQuota.CancelScope
import LayerQuota.Journal
/-!
# Rehearsing a scope

A script registers callbacks on a cancellation scope, takes them back, cancels and waits. A callback
is started under the number of its registration and then performs a script of its own. What happens
is kept as a list of events.
-/

namespace LayerQuota.Rehearsal

open LayerQuota.Number

inductive ScopeAct
  | onCancel (name : String) (acts : List ScopeAct)
  | unregister (name : String)
  | cancel
  | isCancelled
  | wait (seconds : Binary64)
  | sleep (seconds : Binary64)
  | countPending
  | fail (message : String)
deriving Inhabited

mutual

/-- How deep the callbacks that an act registers register one another. -/
def ScopeAct.depth : ScopeAct → Nat
  | .onCancel _ acts => depthAll acts + 1
  | _ => 0

def ScopeAct.depthAll : List ScopeAct → Nat
  | [] => 0
  | act :: rest => max act.depth (depthAll rest)

end

inductive ScopeAnswer
  | nothing
  | flag (b : Bool)
  | count (n : Nat)

structure ScopeCallback where
  number : Nat
  name : String
  acts : List ScopeAct

inductive ScopeEvent
  | registered (number : Nat)
  | unregistered (number : Nat)
  | cancelled
  | started (number : Nat) (name : String)
  /-- An act ended, with so many callbacks pending. -/
  | performed (pending : Nat)
deriving DecidableEq, Repr

/-- What a registration gives: its number, and whether its callback was kept for later. -/
structure ScopeHandle where
  number : Nat
  isKept : Bool

/-- A scope under rehearsal: what happened, and the handle that the last registration of each name
gave. -/
structure ScopeStage where
  scope : CancelScope ScopeCallback
  events : List ScopeEvent
  handles : List (String × ScopeHandle)
  journal : List Line

namespace ScopeStage

def opening : ScopeStage := ⟨.fresh, [], [], []⟩

def noting (st : ScopeStage) (e : ScopeEvent) : ScopeStage := { st with events := st.events ++ [e] }

def holding (st : ScopeStage) (name : String) (handle : ScopeHandle) : ScopeStage :=
  { st with handles := (name, handle) :: st.handles }

/-- The names of the callbacks that were started. -/
def ran (st : ScopeStage) : List String :=
  st.events.filterMap fun
    | .started _ name => some name
    | _ => none

section Run

variable (run : ScopeCallback → ScopeStage → Except Failure Unit × ScopeStage)

/-- Runs all callbacks that are due; one that fails is reported and keeps no other from running. -/
def callAll : List ScopeCallback → ScopeStage → ScopeStage
  | [], st => st
  | callback :: rest, st =>
    match run callback st with
    | (.ok _, st) => callAll rest st
    | (.error f, st) =>
      let line : Line :=
        ⟨.warning, s!"Cancel callback <callback {callback.name}> failed: {f.message}"⟩
      callAll rest { st with journal := st.journal ++ [line] }

/-- Registers a callback, which is run at once where the scope is cancelled already. -/
def register (name : String) (acts : List ScopeAct) (st : ScopeStage) :
    Except Failure ScopeAnswer × ScopeStage :=
  let number := st.scope.nextToken
  let callback : ScopeCallback := ⟨number, name, acts⟩
  let (token, scope) := st.scope.register callback
  let st := { st with scope }.noting (.registered number)
  match token with
  | some _ => (.ok .nothing, st.holding name ⟨number, true⟩)
  | none =>
    match run callback st with
    | (.ok _, st) => (.ok .nothing, st.holding name ⟨number, false⟩)
    | (.error f, st) => (.error f, st)

def unregister (name : String) (st : ScopeStage) : ScopeStage :=
  match st.handles.lookup name with
  | some ⟨number, isKept⟩ =>
    let scope := if isKept then st.scope.unregister number else st.scope
    { st with scope }.noting (.unregistered number)
  | none => st

def cancel (st : ScopeStage) : ScopeStage :=
  let (due, scope) := st.scope.trip
  callAll run due ({ st with scope }.noting .cancelled)

def carryOut (act : ScopeAct) (st : ScopeStage) : Except Failure ScopeAnswer × ScopeStage :=
  match act with
  | .onCancel name acts => st.register run name acts
  | .unregister name => (.ok .nothing, st.unregister name)
  | .cancel => (.ok .nothing, st.cancel run)
  | .isCancelled => (.ok (.flag st.scope.cancelled), st)
  | .wait x => ((st.scope.wait x).map .flag, st)
  | .sleep x => ((st.scope.wait x).map fun b => .flag !b, st)
  | .countPending => (.ok (.count st.scope.pending.length), st)
  | .fail m => (.error (.foreign "RuntimeError" m), st)

/-- Performs an act to its end. -/
def performWith (act : ScopeAct) (st : ScopeStage) : Except Failure ScopeAnswer × ScopeStage :=
  let (r, st) := carryOut run act st
  (r, st.noting (.performed st.scope.pending.length))

def performAll : List ScopeAct → ScopeStage → Except Failure Unit × ScopeStage
  | [], st => (.ok (), st)
  | act :: rest, st =>
    match performWith run act st with
    | (.ok _, st) => performAll rest st
    | (.error f, st) => (.error f, st)

end Run

/-- Starts a callback and performs its script. `fuel` bounds how deep callbacks start one
another. -/
def call : Nat → ScopeCallback → ScopeStage → Except Failure Unit × ScopeStage
  | 0, _, st => (.error .unfinished, st)
  | fuel + 1, callback, st =>
    performAll (call fuel) callback.acts (st.noting (.started callback.number callback.name))

/-- How deep the callbacks that are pending register one another. -/
def depth (st : ScopeStage) : Nat :=
  (st.scope.pending.map fun p => ScopeAct.depthAll p.2.acts).foldr max 0

/-- Performs an act. Callbacks start one another as deep as they are nested in their scripts. -/
def perform (act : ScopeAct) (st : ScopeStage) : Except Failure ScopeAnswer × ScopeStage :=
  performWith (call (max act.depth st.depth + 1)) act st

/-- Performs a program; an act that fails keeps no other from its turn. -/
def rehearse (acts : List ScopeAct) : ScopeStage :=
  acts.foldl (fun st act => (perform act st).2) opening

end ScopeStage

end LayerQuota.Rehearsal
