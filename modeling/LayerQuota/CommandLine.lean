import LayerQuota.Config
import LayerQuota.Text.Digit
/-!
# The command line

The service has one option that takes a value, the path of its configuration, and one that asks for
help. A long option may be cut short as long as only one is meant, and its value may follow it or
be joined to it by an equals sign. Everything else on the command line is a mistake, which counts
only if no request for help stands before its end.
-/

namespace LayerQuota

inductive Invocation
  | start (configPath : String)
  | help
  | misuse
deriving DecidableEq, Repr

namespace CommandLine

inductive Choice
  | help
  | config
deriving DecidableEq, Repr

def names : List (String × Choice) := [("-h", .help), ("--help", .help), ("--config", .config)]

/-- What a word is by its form. A value may be joined to an option by an equals sign. `letters` is
the option for help in its short form, with what follows its letter. -/
inductive Word
  | plain (text : String)
  | separator
  | option (o : Choice) (value : Option String)
  | letters (rest : List Char)
  | unknown
  | ambiguous
deriving DecidableEq, Repr

/-- Is a text a negative number? A line break at its end does not matter. -/
def isNegativeNumber (cs : List Char) : Bool :=
  let cs := if cs.getLast? == some '\n' then cs.dropLast else cs
  match cs with
  | '-' :: ds =>
    match ds.dropWhile Text.isDigit with
    | [] => !ds.isEmpty
    | '.' :: places => !places.isEmpty && places.all Text.isDigit
    | _ => false
  | _ => false

/-- A text before and behind its first equals sign, if it has one. -/
def splitEquals (cs : List Char) : String × Option String :=
  let name := cs.takeWhile (· != '=')
  match cs.dropWhile (· != '=') with
  | [] => (String.ofList name, none)
  | _ :: value => (String.ofList name, some (String.ofList value))

def stray (text : String) : Word :=
  let cs := text.toList
  if isNegativeNumber cs || cs.contains ' ' then .plain text else .unknown

def joined (name : String) (o : Choice) (value : Option String) : Word :=
  match value with
  | some v => if name == "-h" then .letters ('=' :: v.toList) else .option o (some v)
  | none => .option o none

def word (text : String) : Word :=
  let (name, value) := splitEquals text.toList
  match text.toList with
  | ['-', '-'] => .separator
  | '-' :: c :: rest =>
    match names.lookup text, names.lookup name with
    | some o, _ => .option o none
    | none, some o => joined name o value
    | none, none =>
      if c = '-' then
        match names.filter fun n => name.toList.isPrefixOf n.1.toList with
        | [(_, o)] => .option o value
        | [] => stray text
        | _ => .ambiguous
      else if c = 'h' then .letters rest
      else stray text
  | _ => .plain text

/-- Do the letters behind that of the option for help still ask for help? They do if all of them are
the same letter again, of which there is one at least behind an equals sign. -/
def askForHelp : List Char → Bool
  | '=' :: rest => !rest.isEmpty && rest.all (· == 'h')
  | rest => rest.all (· == 'h')

/-- Reads words one after the other, with the path that was given so far and whether a mistake was
seen. A separator that is joined to an option is no value, which leaves the path empty. -/
def read (path : String) (mistaken : Bool) : List Word → Invocation
  | [] => if mistaken then .misuse else .start path
  | .option .help none :: _ => .help
  | .option .help (some _) :: _ => .misuse
  | .letters cs :: _ => if askForHelp cs then .help else .misuse
  | .option .config (some v) :: rest => read (if v == "--" then "" else v) mistaken rest
  | .option .config none :: .plain v :: rest => read v mistaken rest
  | .option .config none :: _ => .misuse
  | .separator :: _ => .misuse
  | .plain _ :: rest => read path true rest
  | .unknown :: rest => read path true rest
  | .ambiguous :: _ => .misuse

def hasAmbiguous (words : List Word) : Bool :=
  (words.takeWhile (· != .separator)).contains .ambiguous

/-- What a command line asks for. An empty path stands for the standard one. -/
def parse (args : List String) : Invocation :=
  let words := args.map word
  if hasAmbiguous words then .misuse
  else
    match read Config.defaultPath false words with
    | .start "" => .start Config.defaultPath
    | i => i

end CommandLine

end LayerQuota
