import LayerQuota.Container.Layer
import LayerQuota.Enforcer.Tag
import LayerQuota.Journal
/-!
# Quota tools

Quotas are enforced by two tools. One tags a directory tree with a project ID and limits the blocks
of a project, the other reports the ID of a directory. Each operation is one command and the
reading of its outcome.
-/

namespace LayerQuota

inductive Seconds
  | whole (n : Int)
  | real (x : Number.Binary64)
deriving DecidableEq, Repr

def Seconds.text : Seconds → String
  | .whole n => toString n
  | .real x => x.text

/-- The tools, and how long each may run. -/
structure Tools where
  quotaTool : String
  ioTool : String
  timeout : Seconds
deriving DecidableEq, Repr

inductive Outcome
  | exited (code : Int) (stdout stderr : String)
  | timedOut
  | notStarted (fault : OsFault)
deriving DecidableEq, Repr

namespace Tools

def standard : Tools := ⟨"xfs_quota", "xfs_io", .real (.ofInt 30)⟩

def tagCommand (t : Tools) (dir : Layer) (id : Int) : List String :=
  [t.quotaTool, "-x", "-c", s!"project -s -p {dir.label} {id}"]

def limitCommand (t : Tools) (id : Int) (soft hard : String) : List String :=
  [t.quotaTool, "-x", "-c", s!"limit -p bsoft={soft} bhard={hard} {id}"]

def statCommand (t : Tools) (dir : Layer) : List String :=
  [t.ioTool, "-r", "-c", "stat", dir.label]

/-- What a command wrote, unless it failed. -/
def output (t : Tools) (command : List String) (o : Outcome) : Except Failure String :=
  let tool := command.headD ""
  match o with
  | .timedOut =>
    .error (.enforcement s!"{tool} timed out after {t.timeout.text}s" command "")
  | .notStarted f => .error (.enforcement s!"failed to execute {tool}: {f.message}" command "")
  | .exited code stdout stderr =>
    if code ≠ 0 then
      .error (.enforcement s!"{tool} exited with {code}" command (stdout ++ stderr))
    else .ok stdout

/-- The outcome of tagging, and its line in the journal. -/
def tagged (t : Tools) (dir : Layer) (id : Int) (o : Outcome) : Except Failure Unit × List Line :=
  match t.output (t.tagCommand dir id) o with
  | .error f => (.error f, [])
  | .ok _ => (.ok (), [⟨.debug, s!"Tagged {dir.label} with projid={id}"⟩])

/-- The outcome of setting limits, and its line in the journal. -/
def limited (t : Tools) (id : Int) (soft hard : String) (o : Outcome) :
    Except Failure Unit × List Line :=
  match t.output (t.limitCommand id soft hard) o with
  | .error f => (.error f, [])
  | .ok _ => (.ok (), [⟨.debug, s!"Set limit projid={id} bsoft={soft} bhard={hard}"⟩])

def reported (t : Tools) (dir : Layer) (o : Outcome) : Except Failure Int :=
  match t.output (t.statCommand dir) o with
  | .error f => .error f
  | .ok stdout =>
    match Tag.parse stdout with
    | .error e => .error (.tooLong e)
    | .ok none =>
      .error (.enforcement s!"projid not found in {t.ioTool} output for {dir.label}" [] stdout)
    | .ok (some n) => .ok n

end Tools

end LayerQuota
