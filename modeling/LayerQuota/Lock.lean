/-!
# The reader–writer lock

Many readers or one writer hold the lock. A thread that cannot enter sleeps; whoever leaves the
lock free wakes all sleepers, and each of them tests its condition again when it comes to run. A
writer that waits keeps later readers out.
-/

namespace LayerQuota

inductive Access
  | read
  | write
deriving DecidableEq, Repr

/-- Where a thread stands. A sleeper that was woken has not yet tested its condition again. -/
inductive Stand
  | asleep (access : Access) (woken : Bool)
  | inside (access : Access)
deriving DecidableEq, Repr

/-- The lock's own counters, and the threads that hold it or sleep, in the order in which they came
to their place. -/
structure Lock where
  readers : Nat
  writer : Bool
  writersWaiting : Nat
  threads : List (String × Stand)
deriving DecidableEq, Repr

namespace Lock

def free : Lock := ⟨0, false, 0, []⟩

def admits (l : Lock) : Access → Bool
  | .read => !l.writer && l.writersWaiting == 0
  | .write => !l.writer && l.readers == 0

def without (l : Lock) (t : String) : Lock :=
  { l with threads := l.threads.filter (·.1 != t) }

/-- Puts a thread at a place, behind all others. -/
def place (l : Lock) (t : String) (s : Stand) : Lock :=
  { l.without t with threads := (l.without t).threads ++ [(t, s)] }

/-- A thread tests its condition: it enters, or sleeps until it is woken. -/
def test (l : Lock) (t : String) (a : Access) : Lock :=
  if l.admits a then
    match a with
    | .read => { l with readers := l.readers + 1 }.place t (.inside .read)
    | .write =>
      { l with writer := true, writersWaiting := l.writersWaiting - 1 }.place t (.inside .write)
  else l.place t (.asleep a false)

def request (l : Lock) (t : String) (a : Access) : Lock :=
  match a with
  | .read => l.test t .read
  | .write => { l with writersWaiting := l.writersWaiting + 1 }.test t .write

def wakeAll (l : Lock) : Lock :=
  { l with threads := l.threads.map fun (t, s) =>
      match s with
      | .asleep a _ => (t, .asleep a true)
      | s => (t, s) }

/-- A thread leaves the lock. The last reader and every writer wake the sleepers. -/
def release (l : Lock) (t : String) : Lock :=
  match l.threads.lookup t with
  | some (.inside .read) =>
    let l := { l.without t with readers := l.readers - 1 }
    if l.readers == 0 then l.wakeAll else l
  | some (.inside .write) => ({ l.without t with writer := false }).wakeAll
  | _ => l

def nextWoken? (l : Lock) : Option (String × Access) :=
  l.threads.findSome? fun (t, s) =>
    match s with
    | .asleep a true => some (t, a)
    | _ => none

/-- Lets woken threads test their condition, one after the other, until none is left. -/
def settle : Nat → Lock → Lock
  | 0, l => l
  | n + 1, l =>
    match l.nextWoken? with
    | some (t, a) => settle n (l.test t a)
    | none => l

def holding (l : Lock) : List String :=
  l.threads.filterMap fun (t, s) =>
    match s with
    | .inside _ => some t
    | _ => none

def waiting (l : Lock) : List String :=
  l.threads.filterMap fun (t, s) =>
    match s with
    | .asleep _ _ => some t
    | _ => none

end Lock

end LayerQuota
