import LayerQuota.Failure
import LayerQuota.Json.Value
import LayerQuota.Text.Upper
/-!
# The journal

The daemon reports what it does in lines of five levels. A threshold keeps the lines below it out
of the journal; it is set by the name of a level.
-/

namespace LayerQuota

inductive Level
  | debug
  | info
  | warning
  | error
  | critical
deriving DecidableEq, Repr

namespace Level

/-- All levels, the least first. -/
def all : List Level := [.debug, .info, .warning, .error, .critical]

def name : Level → String
  | .debug => "DEBUG"
  | .info => "INFO"
  | .warning => "WARNING"
  | .error => "ERROR"
  | .critical => "CRITICAL"

def rank : Level → Nat
  | .debug => 10
  | .info => 20
  | .warning => 30
  | .error => 40
  | .critical => 50

def ofName? (s : String) : Option Level := all.find? fun l => l.name == s

end Level

structure Line where
  level : Level
  message : String
deriving DecidableEq, Repr

def Line.text (l : Line) : String := s!"{l.level.name} {l.message}"

namespace Threshold

def initial : Nat := 30

/-- The threshold of a name. Besides the five levels, two have a second name, and one name lets
everything pass. -/
def ofName? (s : String) : Option Nat :=
  if s == "NOTSET" then some 0
  else if s == "WARN" then some 30
  else if s == "FATAL" then some 50
  else (Level.ofName? s).map Level.rank

def parse (s : String) : Except Failure Nat :=
  let name := Text.upper s
  match ofName? name with
  | some n => .ok n
  | none => .error (.unknownLevel name)

end Threshold

/-- The journal as it is set up: how many outlets it has, and its threshold. -/
structure Outlets where
  count : Nat
  threshold : Nat
deriving DecidableEq, Repr

/-- Replaces the outlets by one and sets the threshold. A name that is not known leaves the
threshold as it was. -/
def Outlets.configure (o : Outlets) (name : String) : Except Failure Unit × Outlets :=
  match Threshold.parse name with
  | .ok n => (.ok (), { count := 1, threshold := n })
  | .error f => (.error f, { o with count := 1 })

/-- Configures the outlets by a reported name, null standing for the usual one. What is no text has
no upper case, which shows only after the outlets were replaced. -/
def Outlets.configureBy (o : Outlets) (name : Json.Value) : Except Failure Unit × Outlets :=
  match name, name.text? with
  | .null, _ => o.configure "INFO"
  | _, some s => o.configure s
  | v, none => (.error (.noMember v.kind "upper"), { o with count := 1 })

end LayerQuota
