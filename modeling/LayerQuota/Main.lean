import LayerQuota.Launch
import LayerQuota.State.Save
/-!
# At a terminal

The command line launches the service on copies of its configuration and its state, and keeps the
state that it leaves. From here no runtime can be reached: the first attempt to connect is
reported, the second one ends the service like a signal. So a launch shows whether configuration
and state can be used.
-/

namespace LayerQuota.Terminal

/-- Copies of the files that the service reads, and how often it tried to connect. -/
structure Desk where
  files : FileSystem
  attempts : Nat

def unreachable {α : Type} (d : Desk) : Except Failure α × Desk :=
  (.error (.runtime "no runtime can be reached from here"), d)

def withoutTool {α : Type} (d : Desk) : Reply α × Desk :=
  ((.error (.enforcement "no tool can be started from here" [] ""), []), d)

def missing : OsFault := .plain "not available from here"

def surroundings : Surroundings Desk where
  interrupt m d :=
    match m with
    | .before .makeClient => (1 ≤ d.attempts, { d with attempts := d.attempts + 1 })
    | _ => (false, d)
  makeClient _ _ := unreachable
  ping _ := unreachable
  closeClient _ := unreachable
  list _ := unreachable
  inspect _ _ := unreachable
  info _ := unreachable
  events _ := unreachable
  closeStream _ := unreachable
  tag _ _ := withoutTool
  setLimit _ _ _ := withoutTool
  readTag _ := withoutTool
  isPresent dir d := (.ok (match dir.text? with
    | some path => d.files.exists? path
    | none => false), d)
  read path d := (d.files.read path, d)
  save path text d :=
    let (r, files) := Save.run [] d.files path text.toUTF8
    (r, { d with files })
  execute _ _ d := (.notStarted missing, d)
  partitions d := ([], d)
  serve _ _ _ d := (.error missing, d)
  pull _ _ d := (.ended, d)
  patience := 0

def fuel : Nat := 3

def usage : String := "usage: rootfs-quota [-h] [--config CONFIG]"

/-- The path of the state file that the configuration among some files names. -/
def statePath? (files : FileSystem) (configPath : String) : Option String :=
  match (Config.load configPath (files.read configPath)).1 with
  | .ok c => some c.stateFile
  | .error _ => none

/-- Copies a file, if it can be read. -/
def copyIn (path : String) (files : FileSystem) : IO FileSystem := do
  try
    return files.write path (← IO.FS.readBinFile path) 0o644
  catch _ => return files

def desk (configPath : String) : IO Desk := do
  let files ← copyIn configPath .empty
  match statePath? files configPath with
  | some path => return ⟨← copyIn path files, 0⟩
  | none => return ⟨files, 0⟩

def keep (path : String) (files : FileSystem) : IO Unit := do
  match files.read path with
  | .ok content =>
    IO.FS.createDirAll (Save.directory path).path
    IO.FS.writeBinFile path content
  | .error _ => return ()

def serve (configPath : String) : IO UInt32 := do
  let d ← desk configPath
  let (r, st) := Launch.start surroundings fuel configPath (Launch.opening d)
  for l in st.journal do
    IO.eprintln l.text
  if let some path := statePath? d.files configPath then
    keep path st.outside.files
  match r with
  | .ok code => return code.toNat.toUInt32
  | .error f =>
    IO.eprintln f.message
    return 1

end LayerQuota.Terminal

open LayerQuota in
def main (args : List String) : IO UInt32 := do
  match CommandLine.parse args with
  | .help =>
    IO.println Terminal.usage
    return 0
  | .misuse =>
    IO.eprintln Terminal.usage
    return 2
  | .start path => Terminal.serve path
