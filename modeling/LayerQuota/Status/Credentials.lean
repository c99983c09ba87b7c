import LayerQuota.Text.Blank
import LayerQuota.Text.Percent
/-!
# Credentials

A request may name a user and a password in its `Authorization` header. The scheme Basic carries
both in base64, divided by the first colon; any other scheme may give them as parameters. A Basic
header that cannot be decoded counts as none, unless it is not even ASCII, which no comparison
survives.
-/

namespace LayerQuota

/-- The user and the password of a request, as far as it names them. -/
structure Credentials where
  user : Option String
  password : Option String
deriving DecidableEq, Repr

namespace Credentials

/-! ### Base64 -/

def sextet? (c : Char) : Option Nat :=
  if 'A' ≤ c ∧ c ≤ 'Z' then some (c.toNat - 65)
  else if 'a' ≤ c ∧ c ≤ 'z' then some (c.toNat - 71)
  else if '0' ≤ c ∧ c ≤ '9' then some (c.toNat + 4)
  else if c = '+' then some 62
  else if c = '/' then some 63
  else none

/-- Does nothing but padding follow a group of `n` letters, as much as completes it? -/
def isPadding (n : Nat) (cs : List Char) : Bool :=
  if n ≤ 1 then n == 0 && cs.all (· == '=') else cs == List.replicate (4 - n) '='

def groupBytes : List Nat → List UInt8
  | [a, b, c, d] =>
    [UInt8.ofNat (4 * a + b / 16), UInt8.ofNat (b % 16 * 16 + c / 4), UInt8.ofNat (c % 4 * 64 + d)]
  | [a, b, c] => [UInt8.ofNat (4 * a + b / 16), UInt8.ofNat (b % 16 * 16 + c / 4)]
  | [a, b] => [UInt8.ofNat (4 * a + b / 16)]
  | _ => []

/-- The bytes of base64 text, `group` being the letters of the group that is under way. -/
def decodeGroups (group : List Nat) : List Char → Option (List UInt8)
  | [] => if group.isEmpty then some [] else none
  | c :: rest =>
    if c = '=' then
      if isPadding group.length (c :: rest) then some (groupBytes group) else none
    else
      match sextet? c with
      | none => none
      | some n =>
        let group := group ++ [n]
        if group.length == 4 then (decodeGroups [] rest).map (groupBytes group ++ ·)
        else decodeGroups group rest

/-- The bytes of base64 text, which does not begin with padding. -/
def decodeBase64 (cs : List Char) : Option ByteArray :=
  match cs with
  | '=' :: _ => none
  | cs => (decodeGroups [] cs).map fun bs => ⟨bs.toArray⟩

/-! ### Headers -/

/-- A text up to the first place of a character, and what follows that. -/
def splitAt (p : Char → Bool) (cs : List Char) : List Char × List Char :=
  (cs.takeWhile fun c => !p c, (cs.dropWhile fun c => !p c).drop 1)

def ofBasic (cs : List Char) : Option Credentials :=
  match decodeBase64 cs with
  | none => none
  | some bytes =>
    match Text.decodeUtf8 bytes with
    | .error _ => none
    | .ok s =>
      let (user, password) := splitAt (· == ':') s.toList
      some ⟨some (String.ofList user), some (String.ofList password)⟩

def isPad (c : Char) : Bool := c == ' ' || c == '\t'

/-- Where a reader of parameters stands: outside quotes, inside them, or behind a backslash in
them. -/
inductive Quoting
  | outside
  | inside
  | escaped

/-- The parts of a list between commas outside quotes, quotes and backslashes kept; `part` is the
one under way, reversed. A list has no parts where a quote stays open. -/
def splitParameters (q : Quoting) (part : List Char) : List Char → Option (List (List Char))
  | [] =>
    match q with
    | .outside => some [part.reverse]
    | _ => none
  | c :: rest =>
    match q with
    | .escaped => splitParameters .inside (c :: part) rest
    | .inside =>
      let q := if c = '\\' then .escaped else if c = '"' then .outside else .inside
      splitParameters q (c :: part) rest
    | .outside =>
      if c = ',' then (splitParameters .outside [] rest).map (part.reverse :: ·)
      else splitParameters (if c = '"' then .inside else .outside) (c :: part) rest

def unescape : List Char → List Char
  | '\\' :: c :: rest => c :: unescape rest
  | c :: rest => c :: unescape rest
  | [] => []

def unquote (cs : List Char) : List Char :=
  if 2 ≤ cs.length && cs.head? == some '"' && cs.getLast? == some '"' then
    unescape cs.tail.dropLast
  else cs

def isTokenChar (c : Char) : Bool := c.isAlphanum || "_!#$%&'*+-.^`|~".toList.contains c

/-- The name of the encoding and the word of a value that begins with both, an apostrophe after the
name and another one before the word. What stands between them is a language. -/
def encodedWord? (cs : List Char) : Option (List Char × List Char) :=
  let isPlain := fun c => isTokenChar c && c != '\''
  match cs.dropWhile isPlain with
  | '\'' :: rest =>
    match rest.dropWhile isPlain with
    | '\'' :: word =>
      match word.takeWhile isTokenChar with
      | [] => none
      | word => some (cs.takeWhile isPlain, word)
    | _ => none
  | _ => none

def extendedValue (cs : List Char) : List Char :=
  match encodedWord? cs with
  | none => cs
  | some (name, word) =>
    match Text.Encoding.ofName? (String.ofList (name.map Char.toLower)) with
    | some e => Text.unpercent e word
    | none => word

/-- The name and the value of a parameter; nothing for a part without a name. A star at the end of
the name says that the value names its encoding. -/
def parameter? (part : List Char) : Option (String × Option String) :=
  let part := unquote (Text.trimList isPad part)
  let name := Text.trimList isPad (part.takeWhile (· != '='))
  if name.isEmpty then none
  else if part.contains '=' then
    let value := Text.trimList isPad (splitAt (· == '=') part).2
    if name.getLast? == some '*' then
      some (String.ofList name.dropLast, some (String.ofList (unquote (extendedValue value))))
    else some (String.ofList name, some (String.ofList (unquote value)))
  else some (String.ofList name, none)

def parameters (cs : List Char) : List (String × Option String) :=
  ((splitParameters .outside [] cs).getD []).filterMap parameter?

def lookup (ps : List (String × Option String)) (name : String) : Option String :=
  (ps.reverse.lookup name).join

/-- Does a text hold parameters? An equals sign at its end makes none. -/
def hasParameters (cs : List Char) : Bool := (cs.reverse.dropWhile (· == '=')).contains '='

end Credentials

inductive Claim
  | absent
  | named (credentials : Credentials)
  | unreadable
deriving DecidableEq, Repr

def isAscii (s : String) : Bool := s.toList.all fun c => c.toNat < 128

namespace Credentials

def ofScheme (scheme : String) (rest : List Char) : Claim :=
  if scheme == "basic" then
    if !isAscii (String.ofList rest) then .unreadable
    else
      match ofBasic rest with
      | some c => .named c
      | none => .absent
  else if hasParameters rest then
    let ps := parameters rest
    .named ⟨lookup ps "username", lookup ps "password"⟩
  else .named ⟨none, none⟩

/-- What a header claims. Its scheme ends at the first space. -/
def ofHeader (header : Option String) : Claim :=
  match header with
  | none => .absent
  | some h =>
    if h.isEmpty then .absent
    else
      let (scheme, rest) := splitAt (· == ' ') h.toList
      ofScheme (String.ofList (scheme.map Char.toLower)) (Text.trimList isPad rest)

end Credentials

/-! ### The key -/

inductive Admission
  | admitted
  | unidentified
  | refused
  | failed
deriving DecidableEq, Repr

def keyUser : String := "api"

/-- Holds a claim against a key; only ASCII texts can be compared. A service without a key, or with
an empty one, is open. -/
def admission (key : Option String) (claim : Claim) : Admission :=
  match key with
  | none => .admitted
  | some key =>
    if key.isEmpty then .admitted
    else
      match claim with
      | .absent => .unidentified
      | .unreadable => .failed
      | .named c =>
        if c.user ≠ some keyUser then .refused
        else
          let password := c.password.getD ""
          if !isAscii password || !isAscii key then .failed
          else if password = key then .admitted
          else .refused

end LayerQuota
