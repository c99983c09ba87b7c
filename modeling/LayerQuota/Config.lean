import LayerQuota.Journal
import LayerQuota.Json.Reader
import LayerQuota.Json.Writer
import LayerQuota.Validation.Field
/-!
# Configuration

The configuration is one JSON object. `Config.check` holds it to its rules field by field and then
as a whole; `Config.load` reads it from the content of a file. The dump that loading leaves in the
journal omits the key of the status service.
-/

namespace LayerQuota

open LayerQuota.Json LayerQuota.Number

/-- The greatest project ID that a file system can record. -/
def maxProjectId : Int := 0xFFFFFFFF

structure Config where
  stateFile : String
  leastId : Int
  greatestId : Int
  softLimit : String
  hardLimit : String
  runtimeSocket : String
  runtimeTimeout : Binary64
  reconnectDelay : Binary64
  maxReconnects : Option Int
  statusPort : Option Int
  statusHost : String
  apiKey : Option String
  quotaTool : String
  ioTool : String
  toolTimeout : Binary64
  level : Level
deriving DecidableEq, Repr

namespace Config

def defaultPath : String := "/etc/containerd-quota/config.json"

def filledText (v : Value) : Checked String :=
  (Field.string v).andThen fun s =>
    Field.wellFormed s fun t => if t.isEmpty then .fail (.minLength 1) v else .valid t

/-- An integer from `low` to `high`. -/
def between (low high : Int) (v : Value) : Checked Int :=
  ((Field.integer v).ensure (· ≤ high) (.atMost high) v).ensure (low ≤ ·) (.atLeast low) v

def projectId (v : Value) : Checked Int :=
  ((Field.integer v).ensure (· ≤ maxProjectId) (.atMost maxProjectId) v).ensure (0 < ·) (.above 0) v

/-- A size, kept as its text without the blanks around it. -/
def size (v : Value) : Checked String :=
  (Field.string v).andThen fun s =>
    match s.toString? with
    | none => .fail (.condition (SizeError.malformedMessage s.points)) v
    | some t =>
      match Size.parse t with
      | .ok _ => .valid (Text.trim t)
      | .error e => .fail (.condition e.message) v

def delay (v : Value) : Checked Binary64 :=
  (Field.number v).ensure Binary64.isNonnegative (.atLeast 0) v

def levelName (v : Value) : Checked Level :=
  (Field.text v).andThen fun s =>
    match Level.ofName? (Text.upper s) with
    | some l => .valid l
    | none =>
      .fail (.condition ("log_level must be one of " ++ ", ".intercalate (Level.all.map Level.name)))
        v

/-- The address of the runtime, under its name or under the name it had before. -/
def socket (doc : Value) : Checked String :=
  if (doc.get? "runtime_sock").isNone && (doc.get? "containerd_sock").isSome then
    Field.required doc "containerd_sock" filledText
  else Field.required doc "runtime_sock" filledText

/-- The fields, each checked by itself. -/
def fields (doc : Value) : Checked Config :=
  (Field.required doc "state_file_path" filledText |>.map Config.mk)
    |>.ap (Field.required doc "project_id_min" projectId)
    |>.ap (Field.required doc "project_id_max" projectId)
    |>.ap (Field.required doc "default_quota_soft" size)
    |>.ap (Field.required doc "default_quota_hard" size)
    |>.ap (socket doc)
    |>.ap (Field.defaulted doc "runtime_timeout_seconds" (.ofInt 10) Field.number)
    |>.ap (Field.defaulted doc "reconnect_delay_seconds" (.ofInt 5) delay)
    |>.ap (Field.defaulted doc "max_reconnect_attempts" none (Field.optional fun v =>
      (Field.integer v).ensure (1 ≤ ·) (.atLeast 1) v))
    |>.ap (Field.defaulted doc "metrics_port" none (Field.optional (between 1 65535)))
    |>.ap (Field.defaulted doc "metrics_host" "127.0.0.1" Field.text)
    |>.ap (Field.defaulted doc "api_key" none (Field.optional Field.text))
    |>.ap (Field.defaulted doc "xfs_quota_path" "xfs_quota" Field.text)
    |>.ap (Field.defaulted doc "xfs_io_path" "xfs_io" Field.text)
    |>.ap (Field.defaulted doc "command_timeout_seconds" (.ofInt 30) Field.number)
    |>.ap (Field.defaulted doc "log_level" .info levelName)

def softExceedsHard (c : Config) : Bool :=
  match Size.parse c.softLimit, Size.parse c.hardLimit with
  | .ok soft, .ok hard => hard < soft
  | _, _ => false

/-- What holds between fields: the range of IDs has two at least, and the soft limit does not
exceed the hard one. What does not hold is told of the document that the fields are of. -/
def whole (doc : Value) (c : Config) : Checked Config :=
  if c.greatestId ≤ c.leastId then
    .fail (.condition s!"invalid project_id range: min={c.leastId}, max={c.greatestId}") doc
  else if c.softExceedsHard then
    .fail (.condition "default_quota_soft must not exceed default_quota_hard") doc
  else .valid c

/-- The configuration that a document holds. -/
def check (doc : Value) : Checked Config := (fields doc).andThen (whole doc)

def shown (members : List (Str × Value)) : Value :=
  .object (members.filter fun m => m.1 != Str.ofString "api_key")

/-- A configuration from the text of its file, with what loading leaves in the journal. -/
def ofText (path text : String) : Except Failure Config × List Line :=
  match Json.read .lenient text with
  | .error fault =>
    match fault.problem with
    | .tooLong t => (.error (.tooLong t), [])
    | .tooDeep container => (.error (.tooDeep container), [])
    | _ => (.error (.config path (.unparsable (fault.message text))), [])
  | .ok (.object members) =>
    let line : Line := ⟨.debug, "Config:\n" ++ dump (shown members)⟩
    match check (.object members) with
    | .valid c => (.ok c, [line])
    | .invalid vs => (.error (.config path (.violations vs)), [line])
  | .ok v => (.error (.noMember v.kind "items"), [])

/-- A configuration from what reading its file gave. -/
def load (path : String) (content : Except OsFault ByteArray) : Except Failure Config × List Line :=
  let opening : Line := ⟨.info, s!"Loading config from {path}"⟩
  match content with
  | .error .embeddedNull => (.error (.os .embeddedNull), [opening])
  | .error f => (.error (.config path (.unreadable f)), [opening])
  | .ok bytes =>
    match Text.decodeUtf8 bytes with
    | .error m => (.error (.bytes m), [opening])
    | .ok s =>
      let (r, lines) := ofText path (String.ofList (Text.unifyLines s.toList))
      (r, opening :: lines)

end Config

end LayerQuota
