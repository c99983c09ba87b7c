import LayerQuota.Daemon.Create
import LayerQuota.Daemon.Delete
/-!
# Handling events

Each event is applied by itself. Whatever fails is reported and counted, and never keeps the next
event from its turn; an event that shutdown overtakes is dropped and not counted.
-/

namespace LayerQuota.Host

variable {σ : Type}

def applyEvent (h : Host σ) (e : Event) : Act σ Unit := do
  match e.kind with
  | .create => let _ ← h.handleCreate e
  | .delete => let _ ← h.handleDelete e.container

def countFailed : Act σ Unit := Act.modifyCore fun c => { c with failed := c.failed + 1 }

def handleEvent (h : Host σ) (e : Event) : Act σ Unit := do
  match ← Act.attempt (h.applyEvent e) with
  | .ok _ => Act.modifyCore fun c => { c with handled := c.handled + 1 }
  | .error .cancelled =>
    h.note .info
      s!"Dropped {e.kind.name} event for container={e.container}: shutting down"
  | .error f =>
    countFailed
    if f.isOwn then
      h.note .error
        s!"Failed to handle {e.kind.name} event for container={e.container}: {f.message}"
    else
      h.note .error
        s!"Unexpected error handling {e.kind.name} event for container={e.container}"

end LayerQuota.Host
