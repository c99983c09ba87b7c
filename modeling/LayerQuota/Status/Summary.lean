import LayerQuota.Daemon.Basic
/-!
# The daemon's status

What the daemon shows of itself: its phase, how full its pool is, how many entries it has, what it
counted, and its last reconciliation. All of it is read from the daemon's own state and changes
nothing.
-/

namespace LayerQuota

open LayerQuota.Json

def Json.record (ms : List (String × Value)) : Value :=
  .object (ms.map fun m => (Str.ofString m.1, m.2))

def Report.document (r : Report) : Value :=
  Json.record [("live", .int r.live), ("restored", .int r.restored), ("created", .int r.created),
    ("skipped", .int r.skipped), ("failed", .int r.failed),
    ("stale", .array (r.stale.map Value.text))]

def Entry.document (e : Entry) : Value :=
  Json.record [("container_id", .text e.container), ("project_id", .int e.projectId),
    ("upperdir", .text e.upperdir)]

def Pool.document (p : Pool) : Value :=
  Json.record [("min_id", .int p.least), ("max_id", .int p.greatest),
    ("capacity", .int p.capacity), ("used", .int (p.capacity - p.freeCount)),
    ("free", .int p.freeCount)]

def Core.status (c : Core) : Value :=
  Json.record [("state", .text c.phase.name), ("pool", c.pool.document),
    ("entries", .int c.store.table.length), ("events_handled", .int c.handled),
    ("events_failed", .int c.failed), ("reconnects", .int c.reconnects),
    ("last_reconcile", match c.lastReport with
      | some r => r.document
      | none => .null)]

end LayerQuota
