import LayerQuota.Status.Credentials
import LayerQuota.Status.Host
import LayerQuota.Status.Summary
/-!
# The status service

A read-only service over HTTP: a greeting, a sign of life, the status, and the recorded quotas. All
but the greeting ask for the key if one is set. Each page answers GET, HEAD and OPTIONS.
-/

namespace LayerQuota.Status

open LayerQuota.Json

/-! ### Requests and responses -/

structure Request where
  method : String
  path : String
  authorization : Option String
deriving DecidableEq, Repr

/-- A response: its code, the type of its body, the body where it is text of the service's own, and
the methods it names as allowed. -/
structure Response where
  code : Nat
  type : String
  body : Option String
  allow : Option (List String)
deriving DecidableEq, Repr

def methods : List String := ["GET", "HEAD", "OPTIONS"]

def json (code : Nat) (v : Value) : Response :=
  ⟨code, "application/json", some (Json.compact v ++ "\n"), none⟩

def message (code : Nat) (text : String) : Response := json code (Json.record [("msg", .text text)])

def page (code : Nat) : Response := ⟨code, "text/html", none, none⟩

/-- A response with the methods that are allowed. -/
def allowing (code : Nat) : Response := ⟨code, "text/html", none, some methods⟩

/-! ### Paths -/

def before (c : Char) (cs : List Char) : List Char := cs.takeWhile (· != c)

def isSchemeChar (c : Char) : Bool := c.isAlphanum || c == '+' || c == '-' || c == '.'

/-- An address without its scheme, which begins with a letter and ends at a colon. -/
def dropScheme (cs : List Char) : List Char :=
  match cs.dropWhile isSchemeChar with
  | ':' :: rest => if cs.head?.any Char.isAlpha then rest else cs
  | _ => cs

structure Address where
  host : List Char
  path : List Char
  query : List Char
deriving DecidableEq, Repr

/-- An address taken apart. Blanks and control characters in front do not count, nor do tabs and line
ends anywhere; scheme and fragment are left out. -/
def Address.ofChars (cs : List Char) : Address :=
  let cs := (cs.dropWhile (· ≤ ' ')).filter fun c => c != '\t' && c != '\r' && c != '\n'
  let inHost := fun c => c != '/' && c != '?' && c != '#'
  let (host, rest) := match dropScheme cs with
    | '/' :: '/' :: rest => (rest.takeWhile inHost, rest.dropWhile inHost)
    | cs => ([], cs)
  let rest := before '#' rest
  ⟨host, before '?' rest, (rest.dropWhile (· != '?')).drop 1⟩

def Address.rest (a : Address) : List Char :=
  if a.query.isEmpty then a.path else a.path ++ '?' :: a.query

/-- An address taken apart once to find the host, and what is left of it once more to find the path,
which matters if that looks like an address again. -/
def addresses (text : String) : List Address :=
  let outer := Address.ofChars text.toList
  [outer, Address.ofChars outer.rest]

def pathOf (text : String) : List Char := ((addresses text).getLast?.map Address.path).getD []

inductive RequestFlaw
  | host (flaw : HostFlaw)
  | lineEnd
deriving DecidableEq, Repr

def RequestFlaw.message : RequestFlaw → String
  | .host f => f.message
  | .lineEnd => "Header values must not contain newline characters."

/-- What keeps a request from being sent, its hosts before its header. -/
def Request.flaw? (r : Request) : Option RequestFlaw :=
  let hosts := (addresses r.path).map Address.host
  match hosts.findSome? formFlaw?, hosts.head?.bind reachFlaw? with
  | some f, _ => some (.host f)
  | none, some f => some (.host f)
  | none, none =>
    if (r.authorization.getD "").toList.any fun c => c == '\n' || c == '\r' then some .lineEnd
    else none

/-- The path that an address names, decoded, with one slash in front; an empty one has none. -/
def decodedPath (address : String) : List Char :=
  match Text.unpercent .utf8 (pathOf address) with
  | [] => []
  | cs => '/' :: cs.dropWhile (· == '/')

/-! ### Pages -/

/-- The pages of the service. `asset` is any file below the directory for files, which is empty; the
name of a file is one line. -/
inductive Page
  | greeting
  | ping
  | status
  | quotas
  | quota (container : String)
  | asset
deriving DecidableEq, Repr

def behind? (start : String) (cs : List Char) : Option (List Char) :=
  if start.toList.isPrefixOf cs then some (cs.drop start.length) else none

def page? (cs : List Char) : Option Page :=
  let path := String.ofList cs
  if path == "/" then some .greeting
  else if path == "/remote-api/ping" then some .ping
  else if path == "/remote-api/status" then some .status
  else if path == "/remote-api/quotas/containers" then some .quotas
  else
    match behind? "/remote-api/quotas/containers/" cs, behind? "/static/" cs with
    | some [], _ => none
    | some c, _ => if c.contains '/' then none else some (.quota (String.ofList c))
    | none, some (c :: name) => if c = '/' || name.contains '\n' then none else some .asset
    | none, _ => none

def mergeSlashes : List Char → List Char
  | '/' :: '/' :: rest => '/' :: mergeSlashes rest
  | c :: rest => c :: mergeSlashes rest
  | [] => []

/-- The recorded quotas by their IDs. -/
def quotas (c : Core) : Value :=
  .array ((c.store.table.mergeSort fun a b => a.projectId ≤ b.projectId).map Entry.document)

def view (c : Core) : Page → Response
  | .greeting => ⟨200, "text/plain", some "rootfs-quota", none⟩
  | .ping => message 200 "pong"
  | .status => json 200 c.status
  | .quotas => json 200 (quotas c)
  | .quota container =>
    match c.store.table.get? container with
    | some e => json 200 e.document
    | none =>
      json 404 (Json.record [("msg", .text "container not found"), ("detail", .text container)])
  | .asset => page 404

def needsKey : Page → Bool
  | .greeting => false
  | .asset => false
  | _ => true

def answer (c : Core) (key : Option String) (claim : Claim) (p : Page) :
    Response :=
  if needsKey p then
    match admission key claim with
    | .admitted => view c p
    | .unidentified => message 401 "api key required"
    | .refused => message 403 "invalid api key"
    | .failed => page 500
  else view c p

def headOf (r : Response) : Response := { r with body := r.body.map fun _ => "" }

def respondAt (c : Core) (key : Option String) (r : Request) (method : String) (p : Page) :
    Response :=
  if method == "OPTIONS" then allowing 200
  else if method == "GET" then answer c key (Credentials.ofHeader r.authorization) p
  else if method == "HEAD" then headOf (answer c key (Credentials.ofHeader r.authorization) p)
  else allowing 405

/-- The response to a request. A path with repeated slashes is sent to the page that it means, and
an empty one to the greeting. -/
def respond (c : Core) (key : Option String) (r : Request) : Response :=
  let method := String.ofList (r.method.toList.map Char.toUpper)
  let path := decodedPath r.path
  if path.isEmpty then page (if methods.contains method then 308 else 404)
  else
    match page? path, page? (mergeSlashes path) with
    | some p, _ => respondAt c key r method p
    | none, some p =>
      if methods.contains method then page 308 else respondAt c key r method p
    | none, none => page 404

end LayerQuota.Status
