import LayerQuota.Daemon.Basic
/-!
# Deleting a quota

When a container ends, its limits are cleared, its entry is removed, and its ID is freed, in this
order, so that an ID is forgotten before it can be used again. Where the directory is still there,
the ID that it carries is held against the record: the two must not differ, and an ID that is known
from the directory alone is used only if it is of the range and no entry has it.
-/

namespace LayerQuota.Host

variable {σ : Type}

def noLimit : String := "0"

/-- The ID of a directory without a record, if it may be cleared: one of the range that no entry
has. -/
def adopt (h : Host σ) (container : String) (dir : Layer) (found : Int) : Act σ (Option Int) := do
  let core ← Act.core
  if !core.pool.inRange found then
    h.note .warning (s!"container={container} upperdir={dir.label} carries projid={found} " ++
      "outside our range; leaving it alone")
    return none
  match core.store.table.find? (·.projectId == found) with
  | some owner =>
    h.note .warning (s!"container={container} upperdir={dir.label} carries stale " ++
      s!"projid={found} now owned by container={owner.container}; leaving it alone")
    return none
  | none =>
    h.note .info
      s!"container={container} not recorded, using projid={found} read from {dir.label}"
    return some found

def judge (h : Host σ) (container : String) (dir : Layer) (recorded : Option Int) (found : Int) :
    Act σ (Option Int) := do
  match recorded with
  | none =>
    if found = 0 then
      h.note .info s!"container={container} upperdir={dir.label} has no project quota"
      return none
    h.adopt container dir found
  | some id =>
    if found = 0 ∨ found = id then return some id
    throw (.inconsistent container id found)

def idToClear (h : Host σ) (container : String) (dir : Layer) (recorded : Option Int) :
    Act σ (Option Int) := do
  match ← Act.attempt (Act.call (h.readTag dir)) with
  | .ok found => h.judge container dir recorded found
  | .error f =>
    match f, recorded with
    | .enforcement .., some id =>
      h.note .warning
        s!"Could not read projid of {dir.label}, using recorded projid={id}: {f.message}"
      return some id
    | _, _ => throw f

/-- Clears the limits of a project; a failure is reported and not fatal. -/
def clearLimit (h : Host σ) (container : String) (dir : Layer) (id : Int) : Act σ Unit := do
  match ← Act.attempt (Act.call (h.setLimit id noLimit noLimit)) with
  | .ok _ => return ()
  | .error f =>
    match f with
    | .enforcement .. =>
      h.note .error (s!"Failed to clear limit for container={container} projid={id} " ++
        s!"upperdir={dir.label}: {f.message}")
    | f => throw f

/-- Removes the entry and frees the ID. -/
def forget (h : Host σ) (container : String) (dir : Layer) (id : Int) : Act σ Int := do
  h.onStore fun disk store => store.remove disk container
  h.release id
  h.note .info s!"Quota removed: container={container} projid={id} upperdir={dir.label}"
  return id

/-- Handles the end of a container: the ID that was freed, if any was. -/
def handleDelete (h : Host σ) (container : String) : Act σ (Option Int) := do
  h.checkpoint
  let dir ← Act.call (h.resolve container)
  let recorded := (← h.entry? container).map (·.projectId)
  if ← Act.call (h.isPresent dir) then
    match ← h.idToClear container dir recorded with
    | none => return none
    | some id =>
      h.clearLimit container dir id
      return some (← h.forget container dir id)
  else
    match recorded with
    | none =>
      h.note .info s!"No quota recorded for container={container} (upperdir {dir.label} gone)"
      return none
    | some id => return some (← h.forget container dir id)

end LayerQuota.Host
