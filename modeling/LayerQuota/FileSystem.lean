import LayerQuota.OsFault
/-!
# Files and directories

A file system is a table of directories and files by their way from the root. A path is followed
part by part: whatever another part follows, a dot or the end of a trailing slash included, has to
be a directory, and two dots go up from where the path has led so far. `Way.ofPath` reads a path by
its text alone instead, which agrees with following it only where every part exists.
-/

namespace LayerQuota

inductive Node
  | directory
  | file (content : ByteArray) (mode : Nat)

/-- A way from the root, the names from the top down. The root itself is the empty way. -/
abbrev Way := List String

namespace Way

def splitSlashes : List Char → List (List Char)
  | [] => [[]]
  | '/' :: rest => [] :: splitSlashes rest
  | c :: rest =>
    match splitSlashes rest with
    | [] => [[c]]
    | part :: parts => (c :: part) :: parts

/-- The parts of a path between slashes. Two slashes in a row and one at an end leave an empty
part. -/
def parts (path : String) : List String := (splitSlashes path.toList).map String.ofList

/-- Does a part stay where it is? -/
def stays (part : String) : Bool := part == "" || part == "."

def goesUp (part : String) : Bool := part == ".."

def step (way : Way) (part : String) : Way :=
  if stays part then way else if goesUp part then way.dropLast else way ++ [part]

def ofPath (path : String) : Way := (parts path).foldl step []

def path (way : Way) : String := "/" ++ "/".intercalate way

end Way

inductive DeadEnd
  | missing
  | blocked
  /-- A name on it is too long, or the whole of it. -/
  | tooLong
  | cutOff
deriving DecidableEq, Repr

namespace DeadEnd

/-- The fault of a call about some names, one of which leads to no place. -/
def fault (names : List String) : DeadEnd → OsFault
  | .missing => .noSuchFile names
  | .blocked => .notDirectory names
  | .tooLong => .nameTooLong names
  | .cutOff => .embeddedNull

def nameLimit : Nat := 255

def pathLimit : Nat := 4095

def ofPath? (path : String) : Option DeadEnd :=
  if path.toList.contains '\u0000' then some .cutOff
  else if path.isEmpty then some .missing
  else if pathLimit < path.utf8ByteSize then some .tooLong
  else none

end DeadEnd

/-- All nodes but the root. -/
structure FileSystem where
  nodes : List (Way × Node)

namespace FileSystem

def empty : FileSystem := ⟨[]⟩

/-- What stands at the end of a way. -/
def get? (fs : FileSystem) (way : Way) : Option Node :=
  if way = [] then some .directory else fs.nodes.lookup way

def set (fs : FileSystem) (way : Way) (n : Node) : FileSystem :=
  ⟨(way, n) :: fs.nodes.filter (·.1 != way)⟩

def erase (fs : FileSystem) (way : Way) : FileSystem := ⟨fs.nodes.filter (·.1 != way)⟩

def isDirectory (fs : FileSystem) (way : Way) : Bool :=
  match fs.get? way with
  | some .directory => true
  | _ => false

def follow (fs : FileSystem) (way : Way) : List String → Except DeadEnd Way
  | [] => .ok way
  | part :: rest =>
    if !fs.isDirectory way then .error .blocked
    else if Way.stays part then fs.follow way rest
    else if Way.goesUp part then fs.follow way.dropLast rest
    else if DeadEnd.nameLimit < part.utf8ByteSize then .error .tooLong
    else if (fs.get? (way ++ [part])).isNone then .error .missing
    else fs.follow (way ++ [part]) rest

/-- The place that a path leads to. -/
def resolve (fs : FileSystem) (path : String) : Except DeadEnd Way :=
  match DeadEnd.ofPath? path with
  | some d => .error d
  | none => fs.follow [] (Way.parts path)

def exists? (fs : FileSystem) (path : String) : Bool := (fs.resolve path).toBool

def read (fs : FileSystem) (path : String) : Except OsFault ByteArray :=
  match fs.resolve path with
  | .error d => .error (d.fault [path])
  | .ok way =>
    match fs.get? way with
    | some (.file c _) => .ok c
    | _ => .error (.isDirectory [path])

/-- Makes the directories of a way that are missing, from the top down. -/
def makeWay (fs : FileSystem) (done : Way) : List String → Except OsFault FileSystem
  | [] => .ok fs
  | name :: rest =>
    let way := done ++ [name]
    match fs.get? way with
    | some .directory => fs.makeWay way rest
    | some (.file ..) =>
      match rest with
      | [] => .error (.fileExists [way.path])
      | next :: _ => .error (.notDirectory [(way ++ [next]).path])
    | none =>
      match DeadEnd.ofPath? way.path with
      | some d => .error (d.fault [way.path])
      | none =>
        if DeadEnd.nameLimit < name.utf8ByteSize then .error (.nameTooLong [way.path])
        else (fs.set way .directory).makeWay way rest

/-- Makes a directory and those above it, where they are missing. -/
def makeDirectories (fs : FileSystem) (way : Way) : Except OsFault FileSystem := fs.makeWay [] way

/-- Renames a file to a path. The place may hold another file but no directory, and neither a dot
nor a slash may end the path, since only directories are named so. -/
def rename (fs : FileSystem) (source : Way) (path : String) : Except OsFault FileSystem :=
  let names := [source.path, path]
  let backward := (Way.parts path).reverse
  match DeadEnd.ofPath? path, fs.get? source, backward.dropWhile (· == "") with
  | some d, _, _ => .error (d.fault names)
  | none, none, _ => .error (.noSuchFile names)
  | none, some _, [] => .error (.busy names)
  | none, some n, name :: above =>
    match fs.follow [] (above.reverse ++ [""]) with
    | .error d => .error (d.fault names)
    | .ok dir =>
      let place := dir ++ [name]
      if Way.stays name || Way.goesUp name then .error (.busy names)
      else if DeadEnd.nameLimit < name.utf8ByteSize then .error (.nameTooLong names)
      else if backward.head? == some "" then .error (.notDirectory names)
      else if fs.isDirectory place then .error (.isDirectory names)
      else .ok ((fs.erase source).set place n)

/-- Follows parts from the end of a way and makes directories of those that are missing. -/
def makeAlong (fs : FileSystem) (way : Way) : List String → FileSystem × Way
  | [] => (fs, way)
  | part :: rest =>
    let way := way.step part
    if (fs.get? way).isSome then fs.makeAlong way rest
    else (fs.set way .directory).makeAlong way rest

/-- Writes a file, with the directories that its path goes through. -/
def write (fs : FileSystem) (path : String) (content : ByteArray) (mode : Nat) : FileSystem :=
  match (Way.parts path).reverse with
  | [] => fs
  | name :: above =>
    let (fs, dir) := fs.makeAlong [] above.reverse
    fs.set (dir ++ [name]) (.file content mode)

/-- The names in a directory, sorted. -/
def list (fs : FileSystem) (way : Way) : List String :=
  (fs.nodes.filterMap fun (w, _) =>
    match w.getLast? with
    | some name => if w.dropLast = way then some name else none
    | none => none).mergeSort fun a b => a ≤ b

end FileSystem

end LayerQuota
