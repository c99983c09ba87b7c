import LayerQuota.Container.Layer
import LayerQuota.Journal
/-!
# The mount table

Project quotas are enforced only on a file system of type xfs that is mounted with them. The mount
of a path is the partition whose mount point is its longest ancestor, and the first of those in the
table that are equally long.
-/

namespace LayerQuota

structure Partition where
  device : String
  mountPoint : String
  fsType : String
  options : String
deriving DecidableEq, Repr

namespace MountTable

/-- Is `point` the path itself or a directory above it? -/
def isAncestor (point path : String) : Bool :=
  let dir := if point.toList.getLast? == some '/' then point.toList else point.toList ++ ['/']
  path == point || dir.isPrefixOf path.toList

/-- The partition with the longest mount point above a path, `best` being the one found so far. -/
def search (path : String) (best : Option Partition) : List Partition → Option Partition
  | [] => best
  | p :: rest =>
    if isAncestor p.mountPoint path then
      match best with
      | none => search path (some p) rest
      | some b =>
        search path (if b.mountPoint.length < p.mountPoint.length then some p else some b) rest
    else search path best rest

def find? (table : List Partition) (path : String) : Option Partition := search path none table

/-- The partition that a reported directory lies on. What is no text can be compared with no mount
point. -/
def findLayer (table : List Partition) (dir : Layer) : Except Failure (Option Partition) :=
  match dir.text?, table with
  | some path, table => .ok (find? table path)
  | none, [] => .ok none
  | none, _ => .error (.noMember dir.kind "startswith")

def quotaOptions : List String := ["prjquota", "pquota", "pqnoenforce"]

def splitCommas : List Char → List (List Char)
  | [] => [[]]
  | ',' :: rest => [] :: splitCommas rest
  | c :: rest =>
    match splitCommas rest with
    | [] => [[c]]
    | part :: parts => (c :: part) :: parts

def hasQuotaOption (p : Partition) : Bool :=
  quotaOptions.any fun o => (splitCommas p.options.toList).contains o.toList

/-- What to say of the partition of a path, if project quotas are not enforced there. -/
def warning? (shown : String) : Option Partition → Option String
  | none =>
    some s!"Could not find the mount for {shown}; project quota may not be enforced"
  | some p =>
    if p.fsType ≠ "xfs" then
      some (s!"{shown} is on {p.mountPoint} ({p.fsType}), not xfs; " ++
        "project quota will not be enforced")
    else if hasQuotaOption p then none
    else
      some (s!"{p.mountPoint} ({p.device}) is mounted without prjquota; " ++
        "project quota will not be enforced")

/-- Are project quotas enforced where a directory lies? If not, the journal says why. -/
def check (table : List Partition) (dir : Layer) : Except Failure (Bool × List Line) :=
  (findLayer table dir).map fun p =>
    match warning? dir.label p with
    | none => (true, [])
    | some m => (false, [⟨.warning, m⟩])

end MountTable

end LayerQuota
