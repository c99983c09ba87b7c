import LayerQuota.Failure
/-!
# Rehearsing a pool

A script takes, reserves and frees IDs of a pool, and asks it what is in use.
-/

namespace LayerQuota.Rehearsal

inductive PoolAct
  | allocate
  | release (id : Int)
  | markUsed (id : Int)
  | isUsed (id : Int)
  | inUse
  | capacity
  | freeCount

inductive PoolAnswer
  | nothing
  | number (n : Int)
  | flag (b : Bool)
  | numbers (ns : List Int)

def PoolAct.perform (p : Pool) : PoolAct → Except Failure PoolAnswer × Pool
  | .allocate =>
    match p.allocate with
    | .ok (id, p) => (.ok (.number id), p)
    | .error e => (.error (.pool e), p)
  | .release id => (.ok .nothing, p.release id)
  | .markUsed id =>
    match p.markUsed id with
    | .ok p => (.ok .nothing, p)
    | .error e => (.error (.pool e), p)
  | .isUsed id => (.ok (.flag (p.isUsed id)), p)
  | .inUse => (.ok (.numbers p.inUse), p)
  | .capacity => (.ok (.number p.capacity), p)
  | .freeCount => (.ok (.number p.freeCount), p)

end LayerQuota.Rehearsal
