import LayerQuota.Text.Digit
import LayerQuota.Text.Quoted
/-!
# Hosts

The host of an address is a name or a numeric address, with a user in front of an at sign and, behind
a colon, the number under which the service listens. A long numeric address, whose own parts are
divided by colons, stands in brackets. Two things can be wrong with a host: its form, which shows
when the address is taken apart, and its name or its number, which shows when it is to be reached.
-/

namespace LayerQuota.Status

inductive HostFlaw
  | unbalanced
  | strange
  | short
  | unnumbered (text : String)
  | disguised (host : String)
  /-- A part of the name, the last one or not, that is empty or too long. -/
  | label (last : Bool)
  | numberText (text : String)
  | numberRange
deriving DecidableEq, Repr

def HostFlaw.message : HostFlaw → String
  | .unbalanced => "Invalid IPv6 URL"
  | .strange => "IPvFuture address is invalid"
  | .short => "An IPv4 address cannot be in brackets"
  | .unnumbered t => s!"{Text.quote t} does not appear to be an IPv4 or IPv6 address"
  | .disguised h => s!"netloc '{h}' contains invalid characters under NFKC normalization"
  | .label last =>
    "encoding with 'idna' codec failed (UnicodeError: label " ++
      (if last then "too long)" else "empty or too long)")
  | .numberText t => s!"Port could not be cast to integer value as {Text.quote t}"
  | .numberRange => "Port out of range 0-65535"

/-! ### Numeric addresses -/

def pieces (isSeparator : Char → Bool) : List Char → List (List Char)
  | [] => [[]]
  | c :: rest =>
    match isSeparator c, pieces isSeparator rest with
    | true, ps => [] :: ps
    | false, p :: ps => (c :: p) :: ps
    | false, [] => [[c]]

def decimal (cs : List Char) : Nat := cs.foldl (fun n c => 10 * n + (c.toNat - 48)) 0

def isOctet (cs : List Char) : Bool :=
  !cs.isEmpty && cs.all Char.isDigit && cs.length ≤ 3 && (cs.head? != some '0' || cs.length == 1) &&
    decimal cs < 256

/-- A short address: four octets between dots. -/
def isShort (cs : List Char) : Bool :=
  let ps := pieces (· == '.') cs
  ps.length == 4 && ps.all isOctet

def isHextet (cs : List Char) : Bool :=
  !cs.isEmpty && cs.length ≤ 4 && cs.all fun c => (Text.hexValue? c).isSome

/-- Are these eight hextets, or fewer with a gap among them? An empty piece at an end is a part of a
gap there. -/
def areHextets (ps : List (List Char)) : Bool :=
  let gaps := ps.tail.dropLast.countP List.isEmpty
  if gaps = 0 then ps.length == 8 && ps.all isHextet
  else
    let high := ps.head?.toList ++ ps.tail.takeWhile (!·.isEmpty)
    let low := (ps.tail.dropWhile (!·.isEmpty)).tail
    let high := if high == [[]] then [] else high
    let low := if low == [[]] then [] else low
    gaps == 1 && high.length + low.length < 8 && high.all isHextet && low.all isHextet

/-- A long address: hextets between colons, the last two of which may be written as a short address,
and perhaps the name of a zone behind a percent sign. -/
def isLong (cs : List Char) : Bool :=
  let zone := cs.dropWhile (· != '%')
  let ps := pieces (· == ':') (cs.takeWhile (· != '%'))
  let last := ps.getLast?.getD []
  let zoned := zone.isEmpty || (1 < zone.length && !zone.tail.contains '%')
  zoned && 3 ≤ ps.length &&
    if last.contains '.' then isShort last && areHextets (ps.dropLast ++ [['0'], ['0']])
    else areHextets ps

/-- An address of a form to come: a version in hexadecimal digits and a dot before the address. -/
def isStrange (cs : List Char) : Bool :=
  let version := cs.tail.takeWhile fun c => (Text.hexValue? c).isSome
  match cs.tail.drop version.length with
  | '.' :: _ :: _ => !version.isEmpty
  | _ => false

/-! ### The form of a host -/

/-- Letters that stand for one of the characters by which an address is divided, or for several of
which one is such a character. -/
def disguises : List Char :=
  ['\u2047', '\u2048', '\u2049', '\u2100', '\u2101', '\u2105', '\u2106', '\u2A74', '\uFE13',
    '\uFE16', '\uFE55', '\uFE56', '\uFE5F', '\uFE6B', '\uFF03', '\uFF0F', '\uFF1A', '\uFF1F',
    '\uFF20']

def bracketFlaw? (cs : List Char) : Option HostFlaw :=
  if cs.head? == some 'v' then if isStrange cs then none else some .strange
  else if isShort cs then some .short
  else if isLong cs then none
  else some (.unnumbered (String.ofList cs))

def formFlaw? (host : List Char) : Option HostFlaw :=
  let inBrackets := ((host.dropWhile (· != '[')).drop 1).takeWhile (· != ']')
  let flaw :=
    match host.contains '[', host.contains ']' with
    | true, true => bracketFlaw? inBrackets
    | false, false => none
    | _, _ => some .unbalanced
  match flaw with
  | some f => some f
  | none =>
    if host.any disguises.contains then some (.disguised (String.ofList host)) else none

/-! ### Name and number -/

/-- The name of a host and the text of its number, without brackets and user. -/
def nameAndNumber (host : List Char) : List Char × List Char :=
  let place := (host.reverse.takeWhile (· != '@')).reverse
  match place.dropWhile (· != '[') with
  | _ :: rest =>
    (rest.takeWhile (· != ']'), ((rest.dropWhile (· != ']')).dropWhile (· != ':')).drop 1)
  | [] => (place.takeWhile (· != ':'), (place.dropWhile (· != ':')).drop 1)

def isDot (c : Char) : Bool := c == '.' || c == '\u3002' || c == '\uFF0E' || c == '\uFF61'

def labelLimit : Nat := 63

/-- What is wrong with the parts of a name, of which only the last may be empty. -/
def labelFlaw? (name : List Char) : Option HostFlaw :=
  let plain := name.all fun c => c.toNat < 128
  let labels := pieces (if plain then (· == '.') else isDot) name
  if labels.dropLast.any fun l => l.isEmpty || labelLimit < l.length then some (.label false)
  else if labels.getLast?.any (labelLimit < ·.length) then some (.label plain)
  else none

def greatestNumber : Nat := 65535

/-- What is wrong with the text of a number; none is as good as one. -/
def numberFlaw? (text : List Char) : Option HostFlaw :=
  if text.isEmpty then none
  else if !text.all Char.isDigit then some (.numberText (String.ofList text))
  else if greatestNumber < decimal text then some .numberRange
  else none

def reachFlaw? (host : List Char) : Option HostFlaw :=
  let (name, number) := nameAndNumber host
  let flaw := if name.isEmpty then none else labelFlaw? name
  match flaw with
  | some f => some f
  | none => numberFlaw? number

end LayerQuota.Status
