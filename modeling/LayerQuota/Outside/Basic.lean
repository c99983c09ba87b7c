import LayerQuota.Container.Layer
import LayerQuota.Journal
/-!
# Outside the process

`Outside` is the record of all calls that leave the process: to the runtime's client, to the quota
tools, to the files. Each acts on a state that only it knows, and may answer or fail in any way.
Before and after every call a signal may arrive that cancels the daemon.
-/

namespace LayerQuota

inductive Call
  | makeClient
  | ping
  | closeClient
  | list
  | inspect
  | info
  | events
  | closeStream
  | tag
  | setLimit
  | readTag
  | isPresent
  | read
  | save
deriving DecidableEq, Repr

inductive Moment
  | before (call : Call)
  | after (call : Call) (succeeded : Bool)
deriving DecidableEq, Repr

abbrev Reply (α : Type) := Except Failure α × List Line

/-- The calls that leave the process. Clients and streams are known by numbers. -/
structure Outside (τ : Type) where
  interrupt : Moment → τ → Bool × τ
  /-- Makes a client for an address, with a time-out in whole seconds. -/
  makeClient : String → Int → τ → Except Failure Nat × τ
  ping : Nat → τ → Except Failure Unit × τ
  closeClient : Nat → τ → Except Failure Unit × τ
  list : Nat → τ → Except Failure (List String) × τ
  inspect : Nat → Json.Value → τ → Except Failure Json.Value × τ
  info : Nat → τ → Except Failure Json.Value × τ
  events : Nat → τ → Except Failure Nat × τ
  closeStream : Nat → τ → Except Failure Unit × τ
  tag : Layer → Int → τ → Reply Unit × τ
  setLimit : Int → String → String → τ → Reply Unit × τ
  readTag : Layer → τ → Reply Int × τ
  isPresent : Layer → τ → Except Failure Bool × τ
  read : String → τ → Except OsFault ByteArray × τ
  save : String → String → τ → Except OsFault Unit × τ

end LayerQuota
