import LayerQuota.Daemon.Basic
/-!
# Creating a quota

A container that started gets an ID of its own: the least free one is taken, its directory is
tagged, the limits are set, and the entry is recorded, in this order. A failure before the record
frees the ID again; a failure to record keeps it, since the directory carries it. A container that
has an entry keeps it, whatever directory is named now.
-/

namespace LayerQuota.Host

variable {σ : Type}

/-- Tags the directory and sets the limits, unless the scope is cancelled in between. -/
def enforce (h : Host σ) (dir : Layer) (id : Int) : Act σ Unit := do
  h.checkpoint
  Act.call (h.tag dir id)
  h.checkpoint
  let settings := (← Act.core).settings
  Act.call (h.setLimit id settings.softLimit settings.hardLimit)

/-- Does a failure of the enforcement free the ID? -/
def freesId : Failure → Bool
  | .enforcement .. => true
  | .cancelled => true
  | _ => false

/-- Enforces a quota under a new ID, which is freed again where that fails. -/
def assign (h : Host σ) (dir : Layer) : Act σ Int := do
  h.checkpoint
  let id ← h.allocate
  match ← Act.attempt (h.enforce dir id) with
  | .ok _ => return id
  | .error f =>
    if freesId f then h.release id
    throw f

/-- Records a quota that is enforced. -/
def record (h : Host σ) (container : String) (dir : Layer) (id : Int) : Act σ Entry := do
  match Entry.make (.text container) (.int id) dir with
  | .invalid vs => throw (.invalid vs)
  | .valid e =>
    match ← Act.attempt (h.onStore fun disk store => store.put disk e) with
    | .ok _ =>
      let settings := (← Act.core).settings
      h.note .info (s!"Quota set: container={container} projid={id} upperdir={dir.label} " ++
        s!"bsoft={settings.softLimit} bhard={settings.hardLimit}")
      return e
    | .error f =>
      if f.isUnsaved then
        h.note .error
          s!"Quota applied but not recorded: container={container} projid={id} upperdir={dir.label}"
      throw f

def isLayerOf (e : Entry) (dir : Layer) : Bool := dir.text? == some e.upperdir

/-- Reserves the ID of an entry that exists again. -/
def reassert (h : Host σ) (e : Entry) (dir : Layer) : Act σ Entry := do
  h.markUsed e.projectId
  unless isLayerOf e dir do
    h.note .warning (s!"container={e.container} already has projid={e.projectId} on " ++
      s!"{e.upperdir}; ignoring new upperdir {dir.label}")
  return e

/-- The quota of a container with a directory: the one it has, or a new one. -/
def create (h : Host σ) (container : String) (dir : Layer) : Act σ Entry := do
  match ← h.entry? container with
  | some e => h.reassert e dir
  | none =>
    let id ← h.assign dir
    h.record container dir id

/-- Handles the creation of a container. Where its mounts name no directory, the runtime is
asked. -/
def handleCreate (h : Host σ) (e : Event) : Act σ Entry := do
  match Mount.upperdir? e.rootfs with
  | some path => h.create e.container (Layer.ofPath path)
  | none =>
    let dir ← Act.call (h.resolve e.container)
    h.create e.container dir

end LayerQuota.Host
