import LayerQuota.Failure
import LayerQuota.Number.Binary64
/-!
# Cancellation

A scope can be cancelled once. Until then it keeps callbacks, each under a token, in the order of
their registration; cancelling hands them over and keeps none. A callback that is registered later
is due at once. Whoever waits on a scope is woken when it is cancelled.
-/

namespace LayerQuota

/-- A scope whose callbacks are described by values of `κ`. -/
structure CancelScope (κ : Type) where
  cancelled : Bool
  nextToken : Nat
  pending : List (Nat × κ)

namespace CancelScope

variable {κ : Type}

def fresh : CancelScope κ := ⟨false, 0, []⟩

/-- Cancels the scope: the callbacks that are due now, and the scope without them. A scope that is
cancelled already has none. -/
def trip (s : CancelScope κ) : List κ × CancelScope κ :=
  if s.cancelled then ([], s)
  else (s.pending.map (·.2), { s with cancelled := true, pending := [] })

/-- Registers a callback: the token it is kept under, or none if it is due at once. -/
def register (s : CancelScope κ) (callback : κ) : Option Nat × CancelScope κ :=
  let next := s.nextToken + 1
  if s.cancelled then (none, { s with nextToken := next })
  else
    (some s.nextToken,
      { s with nextToken := next, pending := s.pending ++ [(s.nextToken, callback)] })

/-- Takes a callback back, if it is still kept. -/
def unregister (s : CancelScope κ) (token : Nat) : CancelScope κ :=
  { s with pending := s.pending.filter (·.1 != token) }

/-- The clock counts nanoseconds in 64 bits, of which one is the sign. -/
def clockLimit : Int := 0x8000000000000000

def canWait (seconds : Number.Binary64) : Bool :=
  match seconds.scale 1000000000 with
  | .infinite negative => negative
  | nanoseconds => nanoseconds.truncate?.all (· < clockLimit)

/-- A wait that nothing interrupts: was the scope cancelled, or did the time pass? -/
def wait (s : CancelScope κ) (seconds : Number.Binary64) : Except Failure Bool :=
  if s.cancelled then .ok true
  else if canWait seconds then .ok false
  else .error .tooLongWait

end CancelScope

end LayerQuota
