/-!
# The pool of project IDs

A pool hands out the IDs of a fixed range, the lowest free one first. An ID is in use from its
allocation, or from the mark that reserves it, until its release. The set in use is a list without
repetition and never leaves the range.
-/

namespace LayerQuota

inductive PoolError
  | emptyRange (least greatest : Int)
  | outsideRange (id least greatest : Int)
  | exhausted (least greatest : Int)
deriving DecidableEq, Repr

def PoolError.message : PoolError → String
  | .emptyRange a b => s!"invalid project ID range: min={a}, max={b}"
  | .outsideRange n a b => s!"project ID {n} outside configured range [{a}, {b}]"
  | .exhausted a b => s!"no available project ID in [{a}, {b}]"

/-- A pool: its range, and the IDs in use. -/
structure Pool where
  least : Int
  greatest : Int
  used : List Int
deriving DecidableEq, Repr

namespace Pool

/-- A pool over a range of at least two positive IDs, none of them in use. -/
def create (least greatest : Int) : Except PoolError Pool :=
  if least ≤ 0 ∨ greatest ≤ least then .error (.emptyRange least greatest)
  else .ok ⟨least, greatest, []⟩

/-- Does the range hold an ID? -/
def inRange (p : Pool) (id : Int) : Bool := p.least ≤ id && id ≤ p.greatest

def isUsed (p : Pool) (id : Int) : Bool := p.used.contains id

/-- The first free ID among `count` from `id` on. -/
def firstFree (p : Pool) : Nat → Int → Option Int
  | 0, _ => none
  | count + 1, id => if p.isUsed id then p.firstFree count (id + 1) else some id

def capacity (p : Pool) : Int := p.greatest - p.least + 1

def freeCount (p : Pool) : Int := p.capacity - p.used.length

/-- The least free ID. One more candidate than there are IDs in use is enough to find it. -/
def leastFree (p : Pool) : Option Int :=
  p.firstFree (min p.capacity.toNat (p.used.length + 1)) p.least

def insert (p : Pool) (id : Int) : Pool :=
  if p.isUsed id then p else { p with used := id :: p.used }

/-- Takes the least free ID. -/
def allocate (p : Pool) : Except PoolError (Int × Pool) :=
  match p.leastFree with
  | some id => .ok (id, p.insert id)
  | none => .error (.exhausted p.least p.greatest)

/-- Frees an ID; one that is free stays so. -/
def release (p : Pool) (id : Int) : Pool := { p with used := p.used.filter (· != id) }

/-- Reserves an ID of the range. -/
def markUsed (p : Pool) (id : Int) : Except PoolError Pool :=
  if p.inRange id then .ok (p.insert id)
  else .error (.outsideRange id p.least p.greatest)

/-- The IDs in use, in ascending order. -/
def inUse (p : Pool) : List Int := p.used.mergeSort fun a b => a ≤ b

end Pool

end LayerQuota
