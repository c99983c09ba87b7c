import LayerQuota.State.Save
import LayerQuota.State.Store
/-!
# Rehearsing a store

A store works on a file system of its own. A script changes it, reads it, makes calls of a save
fail, and writes or deletes the document behind the store's back.
-/

namespace LayerQuota.Rehearsal

/-- A file system with the calls that fail at present. -/
structure Volume where
  files : FileSystem
  faults : SaveFaults

def Volume.save (v : Volume) (path text : String) : Except OsFault Unit × Volume :=
  let (r, files) := Save.run v.faults v.files path text.toUTF8
  (r, { v with files })

/-- A volume and the journal. -/
structure DiskStage where
  volume : Volume
  journal : List Line

def DiskStage.disk : Disk DiskStage where
  log l w := { w with journal := w.journal ++ [l] }
  save path text w :=
    let (r, volume) := w.volume.save path text
    (r, { w with volume })
  read path w := (w.volume.files.read path, w)

inductive StoreAct
  | load
  | reopen
  | put (container projectId upperdir : Json.Value)
  | remove (container : String)
  | get (container : String)
  | snapshot (name : String)
  | drain (name : String)
  | count
  | failCalls (faults : SaveFaults)
  | writeFile (content : ByteArray)
  | deleteFile
  | mode
  | listDirectory

inductive StoreAnswer
  | nothing
  | entry (e : Option Entry)
  | count (n : Nat)
  | names (ns : List String)
  | mode (n : Nat)

/-- A store under rehearsal, with the snapshots that were taken of it. -/
structure StoreStage where
  store : Store
  stage : DiskStage
  snapshots : List (String × List String)

namespace StoreStage

/-- The way to the document, if there is one. -/
def way? (st : StoreStage) : Option Way := (st.stage.volume.files.resolve st.store.path).toOption

def keep (st : StoreStage) (r : Except Failure Unit × Store × DiskStage) :
    Except Failure StoreAnswer × StoreStage :=
  (r.1.map fun _ => .nothing, { st with store := r.2.1, stage := r.2.2 })

/-- Changes the files behind the store's back. -/
def onFiles (st : StoreStage) (f : FileSystem → FileSystem) : StoreStage :=
  { st with stage.volume.files := f st.stage.volume.files }

def perform (act : StoreAct) (st : StoreStage) : Except Failure StoreAnswer × StoreStage :=
  match act with
  | .load => st.keep (st.store.load DiskStage.disk st.stage)
  | .reopen => st.keep ((Store.atPath st.store.path).load DiskStage.disk st.stage)
  | .put c i u =>
    match Entry.make c i u with
    | .invalid vs => (.error (.invalid vs), st)
    | .valid e => st.keep (st.store.put DiskStage.disk e st.stage)
  | .remove c => st.keep (st.store.remove DiskStage.disk c st.stage)
  | .get c => (.ok (.entry (st.store.table.get? c)), st)
  | .snapshot name =>
    (.ok .nothing,
      { st with snapshots := (name, st.store.table.map (·.container)) :: st.snapshots })
  | .drain name =>
    (.ok (.names ((st.snapshots.lookup name).getD [])),
      { st with snapshots := (name, []) :: st.snapshots })
  | .count => (.ok (.count st.store.table.length), st)
  | .failCalls faults => (.ok .nothing, { st with stage.volume.faults := faults })
  | .writeFile content =>
    (.ok .nothing, st.onFiles fun fs => fs.write st.store.path content 0o644)
  | .deleteFile => (.ok .nothing, st.onFiles fun fs => (st.way?.map fs.erase).getD fs)
  | .mode =>
    match st.way?.bind st.stage.volume.files.get? with
    | some (.file _ m) => (.ok (.mode m), st)
    | _ => (.error (.os (.noSuchFile [st.store.path])), st)
  | .listDirectory => (.ok (.names (st.stage.volume.files.list (Save.directory st.store.path))), st)

end StoreStage

end LayerQuota.Rehearsal
