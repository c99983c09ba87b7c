import LayerQuota.OsFault
import LayerQuota.Pool
import LayerQuota.Size
import LayerQuota.Text.Utf8
import LayerQuota.Validation.Basic
/-!
# Failures

Every way in which an operation of the daemon can fail, by its cause. The daemon handles its own
causes one by one; what a component outside it raises of its own accord is `foreign`.
-/

namespace LayerQuota

inductive ConfigCause
  | unreadable (fault : OsFault)
  | unparsable (message : String)
  | violations (found : List Violation)
deriving Repr

inductive StateCause
  | unreadable (fault : OsFault)
  | violations (found : List Violation)
  | sharedId (id : Int) (first second : String)
deriving Repr

inductive Failure
  | config (path : String) (cause : ConfigCause)
  | pool (cause : PoolError)
  /-- A quota tool failed: what happened, its command, and what it wrote. -/
  | enforcement (summary : String) (command : List String) (output : String)
  | unsaved (path : String) (fault : OsFault)
  | inconsistent (container : String) (recorded found : Int)
  | corrupt (path : String) (cause : StateCause)
  | stream (message : String)
  | lookup (message : String)
  | cancelled
  | invalid (found : List Violation)
  | size (cause : SizeError)
  | tooLong (numeral : Number.TooLong)
  /-- A document nests too deep, in a container of a kind. -/
  | tooDeep (container : String)
  | bytes (cause : Text.Malformed)
  | unknownLevel (name : String)
  | noMember (kind name : String)
  | notHashable (kind : String)
  | notIndexable (kind : String)
  | noInteger
  | infiniteInteger
  | tooLongWait
  /-- The work was broken off before its end, since it took more rounds than it was given. -/
  | unfinished
  | os (fault : OsFault)
  /-- The runtime's client, or the connection under it, failed. -/
  | runtime (message : String)
  | foreign (kind message : String)
deriving Repr

namespace Failure

def countText (found : List Violation) (kind : String) : String :=
  let plural := if found.length = 1 then "" else "s"
  s!"{found.length} validation error{plural} for {kind}"

/-- The number of violations, and then one after the other. -/
def reportText (found : List Violation) (kind : String) : String :=
  "\n".intercalate (countText found kind :: found.map Violation.text)

def message : Failure → String
  | .config path (.unreadable f) => s!"failed to read config file {path}: {f.message}"
  | .config path (.unparsable m) => s!"failed to parse config file {path}: {m}"
  | .config path (.violations vs) =>
    s!"invalid config file {path}: " ++ reportText vs "QuotaConfig"
  | .pool c => c.message
  | .enforcement summary _ output =>
    let said := Text.trim output
    if said.isEmpty then summary else s!"{summary}: {said}"
  | .unsaved path f => s!"failed to write state file {path}: {f.message}"
  | .inconsistent c r f => s!"container {c}: project ID mismatch (state={r}, xfs={f})"
  | .corrupt path (.unreadable f) => s!"corrupt state file {path}: {f.message}"
  | .corrupt path (.violations vs) =>
    s!"corrupt state file {path}: " ++ reportText vs "StateDocument"
  | .corrupt path (.sharedId id a b) =>
    s!"corrupt state file {path}: project ID {id} assigned to both {a} and {b}"
  | .stream m => m
  | .lookup m => m
  | .cancelled => "shutdown requested"
  | .invalid vs => countText vs "the document"
  | .size c => c.message
  | .tooLong t => t.message
  | .tooDeep container =>
    s!"maximum recursion depth exceeded while decoding a JSON {container} from a unicode string"
  | .bytes m => m.message
  | .unknownLevel name => s!"Unknown level: {Text.quote name}"
  | .noMember kind name => s!"'{kind}' object has no attribute '{name}'"
  | .notHashable kind => s!"unhashable type: '{kind}'"
  | .notIndexable kind => s!"'{kind}' object is not subscriptable"
  | .noInteger => "cannot convert float NaN to integer"
  | .infiniteInteger => "cannot convert float infinity to integer"
  | .tooLongWait => "timestamp too large to convert to C _PyTime_t"
  | .unfinished => "not finished"
  | .os f => f.message
  | .runtime m => m
  | .foreign _ m => m

def isOwn : Failure → Bool
  | .config .. | .pool (.exhausted ..) | .enforcement .. | .unsaved .. | .inconsistent ..
  | .corrupt .. | .stream _ | .lookup _ | .cancelled => true
  | _ => false

/-- A value of the wrong kind for its use: a bad argument rather than a failed operation. -/
def isBadValue : Failure → Bool
  | .pool (.emptyRange ..) | .pool (.outsideRange ..) | .size _ | .tooLong _ | .bytes _
  | .unknownLevel _ | .noInteger | .invalid _ | .os .embeddedNull => true
  | _ => false

def isUnsaved : Failure → Bool
  | .unsaved .. => true
  | _ => false

end Failure

end LayerQuota
