import LayerQuota.Text.Quoted
/-!
# Faults of the operating system

A call fails with a number, a text and the file names it was about, or with a bare message. One
fault comes before every call: the system ends a path at a NUL, so one that holds a NUL names no
file, and it is not even asked.
-/

namespace LayerQuota

inductive OsFault
  | system (code : Int) (text : String) (names : List String)
  | plain (message : String)
  | embeddedNull
deriving DecidableEq, Repr

namespace OsFault

/-- What is said of a fault. -/
def message : OsFault → String
  | .plain m => m
  | .embeddedNull => "embedded null byte"
  | .system code text names =>
    let about := names.map Text.quote
    s!"[Errno {code}] {text}" ++
      (if about.isEmpty then "" else ": " ++ " -> ".intercalate about)

/-- Nothing has that name. -/
def noSuchFile (names : List String) : OsFault := .system 2 "No such file or directory" names

/-- The place is in use by the system itself. -/
def busy (names : List String) : OsFault := .system 16 "Device or resource busy" names

def fileExists (names : List String) : OsFault := .system 17 "File exists" names

def notDirectory (names : List String) : OsFault := .system 20 "Not a directory" names

def isDirectory (names : List String) : OsFault := .system 21 "Is a directory" names

def nameTooLong (names : List String) : OsFault := .system 36 "File name too long" names

def isMissing : OsFault → Bool
  | .system 2 _ _ => true
  | _ => false

end OsFault

end LayerQuota
