import LayerQuota.Enforcer.Command
/-!
# Rehearsing the quota tools

Each act is an operation with the outcome that its command is to have. The stage keeps the commands
and the journal.
-/

namespace LayerQuota.Rehearsal

def named (command : List String) : Outcome → Outcome
  | .notStarted (.system code text []) => .notStarted (.system code text [command.headD ""])
  | o => o

inductive ToolAct
  | tag (dir : Layer) (id : Int)
  | setLimit (id : Int) (soft hard : String)
  | readTag (dir : Layer)

def ToolAct.command (t : Tools) : ToolAct → List String
  | .tag dir id => t.tagCommand dir id
  | .setLimit id soft hard => t.limitCommand id soft hard
  | .readTag dir => t.statCommand dir

/-- What an operation gives, and its lines in the journal. -/
def ToolAct.perform (t : Tools) (o : Outcome) (act : ToolAct) :
    Except Failure (Option Int) × List Line :=
  let o := named (act.command t) o
  match act with
  | .tag dir id =>
    let (r, lines) := t.tagged dir id o
    (r.map fun _ => none, lines)
  | .setLimit id soft hard =>
    let (r, lines) := t.limited id soft hard o
    (r.map fun _ => none, lines)
  | .readTag dir => ((t.reported dir o).map some, [])

end LayerQuota.Rehearsal
