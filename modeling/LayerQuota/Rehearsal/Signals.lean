import LayerQuota.Enforcer.Memory
import LayerQuota.Rehearsal.Scope
/-!
# A scope among signals

A thread performs a program on a cancellation scope, one single step of an operation after the
other. Before each step a signal may arrive; its handler cancels the scope on the same thread, and what was
interrupted waits below it until it has ended. The scope's lock is of no avail against that: the
thread may hold it already, and then takes it once more.
-/

namespace LayerQuota.Rehearsal

/-- What a registration that has its token does next. The counter is raised by reading it once more
and writing back its successor. -/
inductive RegisterPoint
  | readCounter
  | raiseCounter (counter : Nat)
  | insert
  | test
  | pop
  | unlock (missed : Bool)
  | call
  | bind (isKept : Bool)

inductive UnregisterPoint
  | lock
  | pop
  | unlock

inductive CancelPoint
  | lock
  | test
  | set
  | snapshot
  | clear (due : List ScopeCallback)
  | unlock (due : List ScopeCallback)
  | deliver (due : List ScopeCallback)
  /-- A callback runs. If it fails, that is reported here and the others follow. -/
  | guard (name : String) (due : List ScopeCallback)

/-- An operation under way, by what it does next. -/
inductive ScopeFrame
  | lock (name : String) (acts : List ScopeAct)
  | readToken (name : String) (acts : List ScopeAct)
  | registering (callback : ScopeCallback) (token : Nat) (next : RegisterPoint)
  | unregistering (number token : Nat) (next : UnregisterPoint)
  | cancelling (next : CancelPoint)
  | script (acts : List ScopeAct)

/-- What a registration gives: its number, and the token that its callback was kept under. -/
structure TokenHandle where
  number : Nat
  token : Option Nat

/-- A thread on a scope: what happened, the operations under way with the innermost in front, and
the rest of its program. -/
structure ScopeThread where
  scope : CancelScope ScopeCallback
  registered : Nat
  events : List ScopeEvent
  handles : List (String × TokenHandle)
  journal : List Line
  frames : List ScopeFrame
  program : List ScopeAct

/-- What fails in a callback ends it, with the registrations that called it, up to the cancellation
that started it; what fails elsewhere ends the program's act. -/
def unwind (f : Failure) : List ScopeFrame → List Line × List ScopeFrame
  | [] => ([], [])
  | .cancelling (.guard name due) :: below =>
    ([⟨.warning, s!"Cancel callback <callback {name}> failed: {f.message}"⟩],
      .cancelling (.deliver due) :: below)
  | _ :: below => unwind f below

namespace ScopeThread

def opening (program : List ScopeAct) : ScopeThread := ⟨.fresh, 0, [], [], [], [], program⟩

def noting (m : ScopeThread) (e : ScopeEvent) : ScopeThread := { m with events := m.events ++ [e] }

def push (m : ScopeThread) (frame : ScopeFrame) : ScopeThread :=
  { m with frames := frame :: m.frames }

def fail (m : ScopeThread) (f : Failure) : ScopeThread :=
  let (lines, frames) := unwind f m.frames
  { m with journal := m.journal ++ lines, frames }

/-- Begins an act, above the operations that are under way. -/
def beginAct (m : ScopeThread) : ScopeAct → ScopeThread
  | .onCancel name acts => m.push (.lock name acts)
  | .unregister name =>
    match m.handles.lookup name with
    | some ⟨number, some token⟩ => m.push (.unregistering number token .lock)
    | some ⟨number, none⟩ => m.noting (.unregistered number)
    | none => m
  | .cancel => m.push (.cancelling .lock)
  | .isCancelled | .countPending => m
  | .wait x | .sleep x =>
    match m.scope.wait x with
    | .ok _ => m
    | .error f => m.fail f
  | .fail message => m.fail (.foreign "RuntimeError" message)

/-- Starts a callback above the operation that calls it. -/
def start (m : ScopeThread) (c : ScopeCallback) : ScopeThread :=
  (m.noting (.started c.number c.name)).push (.script c.acts)

section Step

variable (m : ScopeThread)

/-- A registration's next step. `m` has the operations below it only. -/
def stepRegister (c : ScopeCallback) (token : Nat) : RegisterPoint → ScopeThread
  | .readCounter => m.push (.registering c token (.raiseCounter m.scope.nextToken))
  | .raiseCounter counter =>
    { m with scope := { m.scope with nextToken := counter + 1 } }.push
      (.registering c token .insert)
  | .insert =>
    { m with scope := { m.scope with pending := assign token c m.scope.pending } }.push
      (.registering c token .test)
  | .test =>
    if m.scope.cancelled then m.push (.registering c token .pop)
    else m.push (.registering c token (.unlock false))
  | .pop =>
    { m with scope := m.scope.unregister token }.push
      (.registering c token (.unlock (m.scope.pending.any (·.1 == token))))
  | .unlock missed =>
    if missed then m.push (.registering c token .call)
    else m.push (.registering c token (.bind true))
  | .call => (m.push (.registering c token (.bind false))).start c
  | .bind isKept =>
    { m with
      handles := (c.name, ⟨c.number, if isKept then some token else none⟩) :: m.handles }

def stepUnregister (number token : Nat) : UnregisterPoint → ScopeThread
  | .lock => m.push (.unregistering number token .pop)
  | .pop =>
    ({ m with scope := m.scope.unregister token }.noting (.unregistered number)).push
      (.unregistering number token .unlock)
  | .unlock => m

/-- A cancellation's next step. A scope that was cancelled before hands over nothing. -/
def stepCancel : CancelPoint → ScopeThread
  | .lock => m.push (.cancelling .test)
  | .test =>
    if m.scope.cancelled then (m.noting .cancelled).push (.cancelling (.unlock []))
    else m.push (.cancelling .set)
  | .set =>
    ({ m with scope := { m.scope with cancelled := true } }.noting .cancelled).push
      (.cancelling .snapshot)
  | .snapshot => m.push (.cancelling (.clear (m.scope.pending.map (·.2))))
  | .clear due =>
    { m with scope := { m.scope with pending := [] } }.push (.cancelling (.unlock due))
  | .unlock due => m.push (.cancelling (.deliver due))
  | .deliver [] => m
  | .deliver (c :: due) => (m.push (.cancelling (.guard c.name due))).start c
  | .guard _ due => m.push (.cancelling (.deliver due))

def stepFrame : ScopeFrame → ScopeThread
  | .lock name acts => m.push (.readToken name acts)
  | .readToken name acts =>
    ({ m with registered := m.registered + 1 }.noting (.registered m.registered)).push
      (.registering ⟨m.registered, name, acts⟩ m.scope.nextToken .readCounter)
  | .registering c token next => m.stepRegister c token next
  | .unregistering number token next => m.stepUnregister number token next
  | .cancelling next => m.stepCancel next
  | .script [] => m
  | .script (act :: acts) => (m.push (.script acts)).beginAct act

/-- The next single step. A thread that is under no operation begins the next act of its program. -/
def step : ScopeThread :=
  match m.frames, m.program with
  | frame :: below, _ => { m with frames := below }.stepFrame frame
  | [], act :: rest => { m with program := rest }.beginAct act
  | [], [] => m

end Step

/-- A signal arrives: its handler cancels the scope, above whatever is under way. -/
def signal (m : ScopeThread) : ScopeThread := m.push (.cancelling .lock)

inductive Turn
  | step
  | signal

def take (m : ScopeThread) : Turn → ScopeThread
  | .step => m.step
  | .signal => m.signal

def run (m : ScopeThread) (turns : List Turn) : ScopeThread := turns.foldl take m

end ScopeThread

end LayerQuota.Rehearsal
