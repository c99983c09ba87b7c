import LayerQuota.CancelScope
import LayerQuota.CommandLine
import LayerQuota.Config
import LayerQuota.Container.Event
import LayerQuota.Container.Layer
import LayerQuota.Container.Mount
import LayerQuota.Daemon.Basic
import LayerQuota.Daemon.Connection
import LayerQuota.Daemon.Create
import LayerQuota.Daemon.Delete
import LayerQuota.Daemon.Events
import LayerQuota.Daemon.Reconcile
import LayerQuota.Enforcer.Command
import LayerQuota.Enforcer.Memory
import LayerQuota.Enforcer.Tag
import LayerQuota.Failure
import LayerQuota.FileSystem
import LayerQuota.Journal
import LayerQuota.Json.Reader
import LayerQuota.Json.Value
import LayerQuota.Json.Writer
import LayerQuota.Launch
import LayerQuota.Lock
import LayerQuota.Main
import LayerQuota.MountTable
import LayerQuota.Number.Binary64
import LayerQuota.Number.Decimal
import LayerQuota.Number.Shortest
import LayerQuota.OsFault
import LayerQuota.Pool
import LayerQuota.Proofs.Pool
import LayerQuota.Proofs.Table
import LayerQuota.Proofs.Store
import LayerQuota.Proofs.Daemon.Act
import LayerQuota.Rehearsal.Daemon
import LayerQuota.Rehearsal.Gateway
import LayerQuota.Rehearsal.Launch
import LayerQuota.Rehearsal.Pool
import LayerQuota.Rehearsal.Engine
import LayerQuota.Rehearsal.Scope
import LayerQuota.Rehearsal.Store
import LayerQuota.Rehearsal.Tools
import LayerQuota.Rehearsal.World
import LayerQuota.Outside.EventStream
import LayerQuota.Outside.Inspection
import LayerQuota.Outside.Basic
import LayerQuota.Outside.Station
import LayerQuota.Size
import LayerQuota.State.Document
import LayerQuota.State.Entry
import LayerQuota.State.Save
import LayerQuota.State.Store
import LayerQuota.Status.Credentials
import LayerQuota.Status.Host
import LayerQuota.Status.Service
import LayerQuota.Status.Summary
import LayerQuota.Text.Blank
import LayerQuota.Text.Digit
import LayerQuota.Text.Percent
import LayerQuota.Text.Printable
import LayerQuota.Text.Quoted
import LayerQuota.Text.Upper
import LayerQuota.Text.Utf8
import LayerQuota.Validation.Basic
import LayerQuota.Validation.Field
import LayerQuota.Proofs.Daemon.Deed
import LayerQuota.Proofs.Daemon.Run
import LayerQuota.Proofs.Entry
import LayerQuota.Proofs.Daemon.Sound
import LayerQuota.Proofs.Daemon.Isolation
import LayerQuota.Proofs.Memory
import LayerQuota.Proofs.Daemon.Enforced
import LayerQuota.Proofs.FileSystem
import LayerQuota.Proofs.Save
import LayerQuota.Proofs.Json.Escape
import LayerQuota.Proofs.Json.Numeral
import LayerQuota.Proofs.Json.Reader
import LayerQuota.Proofs.Document
import LayerQuota.Proofs.Config
import LayerQuota.Proofs.Accepted
import LayerQuota.Proofs.Durable
import LayerQuota.Proofs.Daemon.Recovery
import LayerQuota.Proofs.Daemon.Regular
import LayerQuota.Proofs.Daemon.Accounting
import LayerQuota.Proofs.Daemon.Moves
import LayerQuota.Proofs.Daemon.InMemory
import LayerQuota.Proofs.Daemon.Retained
import LayerQuota.Proofs.Daemon.Traceable
import LayerQuota.Proofs.Daemon.Convergence
import LayerQuota.Proofs.Daemon.Answers
import LayerQuota.Proofs.Reopen
import LayerQuota.Proofs.Unsaved
import LayerQuota.Proofs.Atomic
import LayerQuota.Proofs.CutOff
import LayerQuota.Proofs.Loading
import LayerQuota.Proofs.Daemon.Agreement
import LayerQuota.Proofs.Daemon.Tagged
import LayerQuota.Proofs.Daemon.Course
import LayerQuota.Proofs.Daemon.Frame
import LayerQuota.Proofs.Daemon.Delivery
import LayerQuota.Proofs.Daemon.Failing
import LayerQuota.Proofs.Daemon.Watched
import LayerQuota.Proofs.Daemon.Phases
import LayerQuota.Proofs.Daemon.Rounds
import LayerQuota.Proofs.Daemon.Sustained
import LayerQuota.Proofs.Daemon.Shutdown
import LayerQuota.Proofs.Daemon.GivingUp
import LayerQuota.Proofs.Charted
import LayerQuota.Proofs.EventStream
import LayerQuota.Proofs.Daemon.Cleanup
import LayerQuota.Proofs.Daemon.Creating
import LayerQuota.Proofs.Daemon.Deleting
import LayerQuota.Proofs.Daemon.Reconciling
import LayerQuota.Proofs.Daemon.Repeated
import LayerQuota.Proofs.Scope
import LayerQuota.Proofs.PoolHistory
import LayerQuota.Proofs.Lock
import LayerQuota.Proofs.Signals
import LayerQuota.Proofs.Json.Limits
import LayerQuota.Proofs.Config.Failing
import LayerQuota.Proofs.Config.Accepted
import LayerQuota.Proofs.Status.Credentials
import LayerQuota.Proofs.Status.Access
import LayerQuota.Proofs.Number.Rounding
import LayerQuota.Proofs.Number.Digits
import LayerQuota.Proofs.Waiting
import LayerQuota.Proofs.Gateway
import LayerQuota.Proofs.Daemon.Reconnecting
import LayerQuota.Proofs.MountTable
import LayerQuota.Proofs.Size
import LayerQuota.Proofs.Tag
import LayerQuota.Proofs.Upperdir
import LayerQuota.Proofs.Clients
