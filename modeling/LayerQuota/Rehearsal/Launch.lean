import LayerQuota.Launch
import LayerQuota.Rehearsal.Tools
import LayerQuota.Rehearsal.World
/-!
# Rehearsing a launch

The service is launched with a command line in a rehearsed world. Rules say how commands end, the
status service is only noted, directories are those of the volume, and signals arrive from the
streams.
-/

namespace LayerQuota.Rehearsal

/-- Where the status service was opened, and the key it asks for. -/
structure StatusAddress where
  host : String
  number : Int
  key : Option String

structure Workshop where
  rules : List (String × Outcome)
  commands : List (List String × Seconds)
  partitions : List Partition
  serveFault : Option OsFault
  status : Option StatusAddress

namespace Workshop

/-- Does a text stand somewhere in another one? -/
def occurs (part : List Char) : List Char → Bool
  | [] => part.isEmpty
  | c :: rest => part.isPrefixOf (c :: rest) || occurs part rest

/-- How a command ends: by the first rule whose text it holds, or well and without output. -/
def outcome (w : Workshop) (command : List String) : Outcome :=
  let line := (" ".intercalate command).toList
  match w.rules.find? fun r => occurs r.1.toList line with
  | some (_, o) => named command o
  | none => .exited 0 "" ""

def execute (command : List String) (timeout : Seconds) (w : Workshop) : Outcome × Workshop :=
  (w.outcome command, { w with commands := w.commands ++ [(command, timeout)] })

def serve (host : String) (number : Int) (key : Option String) (w : Workshop) :
    Except OsFault Unit × Workshop :=
  match w.serveFault with
  | some f => (.error f, w)
  | none => (.ok (), { w with status := some ⟨host, number, key⟩ })

/-- Is a directory there? A number stands for a stream that is open, as the first three are. -/
def isPresent (dir : Layer) (files : FileSystem) : Except Failure Bool :=
  match dir, dir.text? with
  | _, some path => .ok (files.exists? path)
  | .int n, none => .ok (0 ≤ n && n ≤ 2)
  | .bool _, none => .ok true
  | v, none =>
    .error (.foreign "TypeError"
      s!"stat: path should be string, bytes, os.PathLike or integer, not {v.kind}")

def quotas : Quotas Workshop where
  tag _ _ w := ((.ok (), []), w)
  setLimit _ _ _ w := ((.ok (), []), w)
  readTag _ w := ((.ok 0, []), w)
  isPresent dir files _ := isPresent dir files

def calls : Outside (World Signal Workshop) := World.outside quotas

def signal (s : Signal) (d : Staged Signal Workshop) :
    Except Failure Unit × Staged Signal Workshop :=
  (.ok (), { d with outside := d.outside.receive calls s })

/-- What a rehearsed launch meets, with a bound for the notices that one stream passes over. -/
def surroundings (patience : Nat) : Surroundings (World Signal Workshop) :=
  { calls with
    execute := fun command timeout => World.onOwn (execute command timeout)
    partitions := fun w => (w.own.partitions, w)
    serve := fun host number key => World.onOwn (serve host number key)
    pull := Staged.pull signal
    patience }

def launch (patience : Nat) (args : List String) (w : World Signal Workshop) :
    Except Failure Launch.Exit × Station (World Signal Workshop) :=
  Launch.perform (surroundings patience) patience args (Launch.opening w)

end Workshop

end LayerQuota.Rehearsal
