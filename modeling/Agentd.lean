import Agentd.Daemon.Boot
import Agentd.Daemon.EventFrame
import Agentd.Daemon.Fanout
import Agentd.Daemon.Idle
import Agentd.Daemon.LazyStart
import Agentd.Daemon.Lock
import Agentd.Daemon.Recover
import Agentd.Daemon.Retention
import Agentd.Daemon.Served
import Agentd.Daemon.Subscription
import Agentd.Daemon.Tombstones
import Agentd.Db.Repo
import Agentd.Db.Schema
import Agentd.Foundations.Broadcast
import Agentd.Foundations.Calendar
import Agentd.Foundations.Fallible
import Agentd.Foundations.Fields
import Agentd.Foundations.Framing
import Agentd.Foundations.Gather
import Agentd.Foundations.Json
import Agentd.Foundations.JsonText
import Agentd.Foundations.KeyedTable
import Agentd.Foundations.LockFile
import Agentd.Foundations.Machine
import Agentd.Foundations.Numeral
import Agentd.Foundations.Observers
import Agentd.Foundations.Pipe
import Agentd.Foundations.Program
import Agentd.Foundations.Registers
import Agentd.Foundations.Rfc3339
import Agentd.Foundations.SlidingWindow
import Agentd.Foundations.TextOrder
import Agentd.Foundations.UnixPath
import Agentd.Foundations.Utf8
import Agentd.Foundations.Uuid
import Agentd.Handlers.Basic
import Agentd.Handlers.Chunks
import Agentd.Handlers.Client
import Agentd.Handlers.ErrorCodes
import Agentd.Handlers.Footprint
import Agentd.Handlers.Framing
import Agentd.Handlers.Mutate
import Agentd.Handlers.Plugin
import Agentd.Handlers.Read
import Agentd.Handlers.Readers
import Agentd.Handlers.Router
import Agentd.Handlers.Rpc
import Agentd.Handlers.Statements
import Agentd.Handlers.Step
import Agentd.Protocol
import Agentd.Runs.Atomic
import Agentd.Runs.Authority
import Agentd.Runs.CreationOrder
import Agentd.Runs.Effects
import Agentd.Runs.EventLog
import Agentd.Runs.Finished
import Agentd.Runs.Frame
import Agentd.Runs.Owners
import Agentd.Runs.Panes
import Agentd.Runs.Readable
import Agentd.Runs.RoundTrip
import Agentd.Runs.Serializable
import Agentd.Runs.StatusCache
import Agentd.Runs.Sticky
import Agentd.Sdk.Client
import Agentd.Sdk.Connection
import Agentd.Sdk.Stamp
import Agentd.Supervisor.Model
import Agentd.Supervisor.OneChild
import Agentd.Supervisor.Respawn
import Agentd.Supervisor.RestartLimit
import Agentd.Supervisor.SocketFirst
import Agentd.Supervisor.Stale
import Agentd.Tmux.Create
import Agentd.Tmux.Kill
import Agentd.Tmux.Model
import Agentd.Tmux.Names
import Agentd.Tmux.Version
import Agentd.Tui.Cell
import Agentd.Tui.Console
import Agentd.Tui.Converge
import Agentd.Tui.Cursor
import Agentd.Tui.Keyboard
import Agentd.Tui.Line
import Agentd.Tui.Listed
import Agentd.Tui.NewModal
import Agentd.Tui.Order
import Agentd.Tui.Plugins
import Agentd.Tui.Recents
import Agentd.Tui.Selection
import Agentd.Tui.State
import Agentd.Tui.Stream
import Agentd.Tui.Sync
import Agentd.Tui.Usage
import Agentd.Watcher.Accepted
import Agentd.Watcher.Closed
import Agentd.Watcher.Connected
import Agentd.Watcher.Discovery
import Agentd.Watcher.Listing
import Agentd.Watcher.Log
import Agentd.Watcher.Model
import Agentd.Watcher.OnScreen
import Agentd.Watcher.Polled
import Agentd.Watcher.Reattach
import Agentd.Watcher.Settled
import Agentd.Watcher.Trace
