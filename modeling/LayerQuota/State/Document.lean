import LayerQuota.State.Entry
/-!
# The state document

A table is kept as one JSON document with a member for each container. `Document.render` writes it
and `Document.ofBytes` reads it back; reading refuses a document in which a key and the container
of its entry differ.
-/

namespace LayerQuota.Document

open LayerQuota.Json LayerQuota.Text

/-! ### Checking -/

structure Member where
  container : Str
  entry : Entry
deriving Repr

def checkMember (intake : Intake) (v : Value) : Checked Member :=
  (Entry.check intake v).map fun e =>
    match v.get? "container_id" with
    | some (.str s) => ⟨s, e⟩
    | _ => ⟨Str.ofString e.container, e⟩

/-- The entries under their keys. In the path of a violation `U+FFFD` stands three times for an
unpaired surrogate of a key, once for each byte that it would take. -/
def checkMembers (intake : Intake) : List (Str × Value) → Checked (List (Str × Member))
  | [] => .valid []
  | (k, v) :: rest =>
    (((checkMember intake v).under (k.replaced 3)).map fun m ms => (k, m) :: ms).ap
      (checkMembers intake rest)

def mismatch? (ms : List (Str × Member)) : Option (Str × Member) :=
  ms.find? fun p => p.1 != p.2.container

/-- The table that a value holds. Of a key that is repeated, the last entry is kept at the place of
the first, but all of them have to be valid. -/
def check (intake : Intake) (v : Value) : Checked Table :=
  match v with
  | .object _ =>
    (Field.defaulted v "entries" [] fun w =>
      match w with
      | .object ms => (checkMembers intake ms).map uniqueMembers
      | w => .fail (.object intake) w).andThen fun ms =>
    match mismatch? ms with
    | some (k, m) =>
      .fail (.condition
        s!"entry key {quotePoints k.points} does not match container_id {quotePoints m.container.points}") v
    | none => .valid (ms.map (·.2.entry))
  | v => .fail (.record "StateDocument" intake) v

def ofText {α : Type} (checkValue : Value → Checked α) (s : String) : Checked α :=
  match Json.read .strict s with
  | .ok v => checkValue v
  | .error _ => .unreadable

def ofBytes (bytes : ByteArray) : Checked Table :=
  match decodeUtf8 bytes with
  | .ok s => ofText (check .text) s
  | .error _ => .unreadable

/-! ### Rendering -/

/-- One character of a string. Characters beyond ASCII stand for themselves. -/
def escapeChar (c : Char) : List Char :=
  match shortEscape? c.toNat with
  | some l => ['\\', l]
  | none => if c < ' ' then '\\' :: 'u' :: hexDigits 4 c.toNat else [c]

def stringChars (s : String) : List Char := '"' :: (s.toList.flatMap escapeChar ++ ['"'])

def entryChars (e : Entry) : List Char :=
  newline 2 ++ stringChars e.container ++ ": \x7b".toList ++
    newline 3 ++ "\"container_id\": ".toList ++ stringChars e.container ++ [','] ++
    newline 3 ++ "\"project_id\": ".toList ++ (toString e.projectId).toList ++ [','] ++
    newline 3 ++ "\"upperdir\": ".toList ++ stringChars e.upperdir ++
    newline 2 ++ ['\x7d']

def moreEntries : Table → List Char
  | [] => []
  | e :: rest => ',' :: (entryChars e ++ moreEntries rest)

def entriesChars : Table → List Char
  | [] => ['\x7b', '\x7d']
  | e :: rest => '\x7b' :: (entryChars e ++ moreEntries rest ++ newline 1 ++ ['\x7d'])

def chars (t : Table) : List Char :=
  '\x7b' :: (newline 1 ++ "\"entries\": ".toList ++ entriesChars t ++ newline 0 ++ ['\x7d'])

def render (t : Table) : String := String.ofList (chars t)

end LayerQuota.Document
