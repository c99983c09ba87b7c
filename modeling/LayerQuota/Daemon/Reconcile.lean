import LayerQuota.Daemon.Create
/-!
# Reconciliation

After every connection the record is held against the containers that run. First every recorded ID
is reserved, whether its container runs or not; then every running container gets the quota that it
lacks. What fails for one container is reported and does not keep the others from their turn.
-/

namespace LayerQuota.Host

variable {σ : Type}

/-- Reserves the IDs of all entries that were recorded. -/
def reserveAll (h : Host σ) : Table → Act σ Unit
  | [] => return ()
  | e :: rest => do
    match ← Act.attempt (h.markUsed e.projectId) with
    | .ok _ => pure ()
    | .error f =>
      h.note .error s!"Recorded entry container={e.container} is invalid: {f.message}"
    h.reserveAll rest

/-- What becomes of a container: the report with it counted, and whether the pass goes on. -/
abbrev Verdict := Report × Bool

/-- A running container that has an entry. -/
def restore (h : Host σ) (e : Entry) (dir : Layer) (r : Report) : Act σ Verdict := do
  match ← Act.attempt (h.markUsed e.projectId) with
  | .error _ => return ({ r with failed := r.failed + 1 }, true)
  | .ok _ =>
    unless isLayerOf e dir do
      h.note .warning (s!"container={e.container} recorded upperdir {e.upperdir} differs from " ++
        s!"runtime upperdir {dir.label}")
    return ({ r with restored := r.restored + 1 }, true)

/-- A running container that has no entry. -/
def supply (h : Host σ) (container : String) (dir : Layer) (r : Report) : Act σ Verdict := do
  match ← Act.attempt (h.create container dir) with
  | .ok _ => return ({ r with created := r.created + 1 }, true)
  | .error .cancelled => return (r, false)
  | .error f =>
    if f.isOwn then
      h.note .error (s!"Failed to restore quota for container={container} " ++
        s!"upperdir={dir.label}: {f.message}")
      return ({ r with failed := r.failed + 1 }, true)
    else throw f

/-- A running container with its directory. -/
def settle (h : Host σ) (container : String) (dir : Layer) (r : Report) : Act σ Verdict := do
  if ← Act.call (h.isPresent dir) then
    match ← h.entry? container with
    | some e => h.restore e dir r
    | none => h.supply container dir r
  else
    h.note .debug s!"Skipping container={container}: upperdir {dir.label} does not exist yet"
    return ({ r with skipped := r.skipped + 1 }, true)

/-- A running container. -/
def visit (h : Host σ) (container : String) (r : Report) : Act σ Verdict := do
  if ← h.isCancelled then
    h.note .info "Reconciliation interrupted by shutdown"
    return (r, false)
  match ← Act.attempt (Act.call (h.resolve container)) with
  | .ok dir => h.settle container dir r
  | .error (.lookup m) =>
    h.note .warning s!"Skipping container={container}: {m}"
    return ({ r with failed := r.failed + 1 }, true)
  | .error f => throw f

def visitAll (h : Host σ) : List String → Report → Act σ Report
  | [], r => return r
  | c :: rest, r => do
    match ← h.visit c r with
    | (r, true) => h.visitAll rest r
    | (r, false) => return r

/-- The recorded containers that do not run, in ascending order. -/
def staleOf (t : Table) (live : List String) : List String :=
  ((t.map (·.container)).filter fun c => !live.contains c).mergeSort fun a b => a ≤ b

def shortName (c : String) : String := String.ofList (c.toList.take 12)

def conclude (h : Host σ) (live : List String) (r : Report) : Act σ Report := do
  let stale := staleOf (← Act.core).store.table live
  let r := { r with stale }
  unless stale.isEmpty do
    h.note .warning (s!"{stale.length} recorded entries have no running container and stay " ++
      "reserved until deleted: " ++ ", ".intercalate (stale.map shortName))
  h.note .info (s!"Reconciled: live={r.live} restored={r.restored} created={r.created} " ++
    s!"skipped={r.skipped} failed={r.failed} stale={stale.length}")
  Act.modifyCore fun c => { c with lastReport := some r }
  return r

/-- One pass of reconciliation. -/
def reconcile (h : Host σ) : Act σ Report := do
  h.reserveAll (← Act.core).store.table
  let live ← Act.call h.list
  let r ← h.visitAll live (Report.opening live.length)
  h.conclude live r

end LayerQuota.Host
