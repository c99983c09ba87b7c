import LayerQuota.State.Document
/-!
# The state store

The store keeps the table of entries in memory and writes the whole document at every change. A
change that was not written is taken back: after `put` the table is as it was, after `remove` it
holds the same entries with the one that was to go at its end.
-/

namespace LayerQuota

/-- What the store needs from outside: a journal, and a place for its document. The place writes a
text whole or not at all. -/
structure Disk (σ : Type) where
  log : Line → σ → σ
  save : String → String → σ → Except OsFault Unit × σ
  read : String → σ → Except OsFault ByteArray × σ

/-- A store: the path of its document, and its table. -/
structure Store where
  path : String
  table : Table
deriving DecidableEq, Repr

namespace Store

variable {σ : Type}

def atPath (path : String) : Store := ⟨path, []⟩

/-- Writes a table. A path that can name no file is a bad argument rather than a failure to
write. -/
def save (d : Disk σ) (s : Store) (t : Table) (w : σ) : Except Failure Unit × σ :=
  match d.save s.path (Document.render t) w with
  | (.ok _, w) => (.ok (), w)
  | (.error .embeddedNull, w) => (.error (.os .embeddedNull), w)
  | (.error f, w) =>
    (.error (.unsaved s.path f),
      d.log ⟨.error, s!"Failed to write state file {s.path}: {f.message}"⟩ w)

def put (d : Disk σ) (s : Store) (e : Entry) (w : σ) : Except Failure Unit × Store × σ :=
  let t := s.table.put e
  match save d s t w with
  | (.ok _, w) => (.ok (), { s with table := t }, w)
  | (.error f, w) => (.error f, if f.isUnsaved then s else { s with table := t }, w)

/-- Deletes the entry of a container. Where there is none, nothing is written. -/
def remove (d : Disk σ) (s : Store) (container : String) (w : σ) :
    Except Failure Unit × Store × σ :=
  match s.table.get? container with
  | none => (.ok (), s, w)
  | some e =>
    let t := s.table.remove container
    match save d s t w with
    | (.ok _, w) => (.ok (), { s with table := t }, w)
    | (.error f, w) => (.error f, { s with table := if f.isUnsaved then t ++ [e] else t }, w)

/-- The first entry whose project ID another one before it has, with the container of that one. -/
def sharedId? : List (Int × String) → Table → Option (Int × String × String)
  | _, [] => none
  | seen, e :: rest =>
    match seen.lookup e.projectId with
    | some other => some (e.projectId, other, e.container)
    | none => sharedId? ((e.projectId, e.container) :: seen) rest

/-- The table of a document that can be used. -/
def accept (bytes : ByteArray) : Except StateCause Table :=
  match Document.ofBytes bytes with
  | .invalid vs => .error (.violations vs)
  | .valid t =>
    match sharedId? [] t with
    | some (id, a, b) => .error (.sharedId id a b)
    | none => .ok t

/-- Reads the document. A missing one is created empty, a blank one counts as empty, and one that
cannot be used leaves the store as it was. -/
def load (d : Disk σ) (s : Store) (w : σ) : Except Failure Unit × Store × σ :=
  match d.read s.path w with
  | (.error .embeddedNull, w) => (.error (.os .embeddedNull), s, w)
  | (.error f, w) =>
    if f.isMissing then
      let w := d.log ⟨.info, s!"State file {s.path} not found, creating an empty one"⟩ w
      let s := { s with table := [] }
      match save d s [] w with
      | (r, w) => (r, s, w)
    else (.error (.corrupt s.path (.unreadable f)), s, w)
  | (.ok bytes, w) =>
    if Text.isBlankBytes bytes then (.ok (), { s with table := [] }, w)
    else
      match accept bytes with
      | .error c => (.error (.corrupt s.path c), s, w)
      | .ok t =>
        (.ok (), { s with table := t },
          d.log ⟨.info, s!"Loaded {t.length} entries from {s.path}"⟩ w)

end Store

end LayerQuota
