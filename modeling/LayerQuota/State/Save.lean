import LayerQuota.FileSystem
/-!
# Replacing a file

A file is replaced by writing its new content to a temporary file beside it and renaming that over
the old one. Every step can fail. If one does, the file keeps its old content and the temporary
file is taken away again. The directory is found by the text of the path and made where it is
missing, while renaming follows the path itself.
-/

namespace LayerQuota

inductive SaveCall
  | makeDirectories
  | create
  | write
  | sync
  | setMode
  | rename
  | unlink
deriving DecidableEq, Repr

/-- The calls that fail, and how. -/
abbrev SaveFaults := List (SaveCall × OsFault)

inductive SaveStep
  | makeDirectories (dir : Way)
  | create (temp : Way)
  | write (temp : Way) (content : ByteArray)
  | sync
  | setMode (temp : Way) (mode : Nat)
  | rename (temp : Way) (path : String)

namespace SaveStep

def unlessFaulty (faults : SaveFaults) (call : SaveCall) (r : Except OsFault FileSystem) :
    Except OsFault FileSystem :=
  match faults.lookup call with
  | some f => .error f
  | none => r

/-- The file system after a step. -/
def apply (faults : SaveFaults) (fs : FileSystem) : SaveStep → Except OsFault FileSystem
  | .makeDirectories dir => unlessFaulty faults .makeDirectories (fs.makeDirectories dir)
  | .create temp => unlessFaulty faults .create (.ok (fs.set temp (.file .empty 0o600)))
  | .write temp content => unlessFaulty faults .write (.ok (fs.set temp (.file content 0o600)))
  | .sync => unlessFaulty faults .sync (.ok fs)
  | .setMode temp mode =>
    unlessFaulty faults .setMode <| .ok <|
      match fs.get? temp with
      | some (.file c _) => fs.set temp (.file c mode)
      | _ => fs
  | .rename temp path => unlessFaulty faults .rename (fs.rename temp path)

end SaveStep

namespace Save

def tempName (n : Nat) : String := s!".state-{n}.tmp"

/-- The first number from `n` on whose temporary name is free in a directory. -/
def freeNumber (fs : FileSystem) (dir : Way) : Nat → Nat → Nat
  | 0, n => n
  | fuel + 1, n =>
    if (fs.get? (dir ++ [tempName n])).isSome then freeNumber fs dir fuel (n + 1) else n

/-- A way to a temporary file that does not exist yet, in a directory. -/
def tempWay (fs : FileSystem) (dir : Way) : Way :=
  dir ++ [tempName (freeNumber fs dir (fs.nodes.length + 1) 0)]

/-- The directory of a path, read by its text. -/
def directory (path : String) : Way := (Way.ofPath path).dropLast

def steps (temp : Way) (path : String) (content : ByteArray) : List SaveStep :=
  [.makeDirectories (directory path), .create temp, .write temp content, .sync,
    .setMode temp 0o644, .rename temp path]

/-- Runs steps up to the first that fails. -/
def runSteps (faults : SaveFaults) (fs : FileSystem) :
    List SaveStep → Except OsFault Unit × FileSystem
  | [] => (.ok (), fs)
  | s :: rest =>
    match s.apply faults fs with
    | .ok fs => runSteps faults fs rest
    | .error f => (.error f, fs)

/-- Takes a temporary file away, unless that is made to fail. -/
def cleanUp (faults : SaveFaults) (fs : FileSystem) (temp : Way) : FileSystem :=
  match faults.lookup .unlink with
  | some _ => fs
  | none => fs.erase temp

/-- Replaces the content of a file. -/
def run (faults : SaveFaults) (fs : FileSystem) (path : String) (content : ByteArray) :
    Except OsFault Unit × FileSystem :=
  let temp := tempWay fs (directory path)
  match runSteps faults fs (steps temp path content) with
  | (.ok _, fs) => (.ok (), fs)
  | (.error f, fs) => (.error f, cleanUp faults fs temp)

end Save

end LayerQuota
