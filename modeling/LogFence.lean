import LogFence.Rust.Outcome
import LogFence.Rust.Utf8
import LogFence.Rust.Scan
import LogFence.Rust.Str
import LogFence.Rust.Numerals
import LogFence.Rust.Int
import LogFence.Rust.Decoder
import LogFence.Rust.Json
import LogFence.Rust.JsonText
import LogFence.Rust.Collect
import LogFence.Rust.System
import LogFence.Rust.Slot
import LogFence.Calendar
import LogFence.Proto.Message
import LogFence.Proto.Fields
import LogFence.Proto.StructuredData
import LogFence.Proto.SdGrammar
import LogFence.Proto.Parse
import LogFence.Proto.Format
import LogFence.Proto.Header
import LogFence.Proto.Injection
import LogFence.Proto.Frame
import LogFence.Proto.Splits
import LogFence.Proto.OctetTotal
import LogFence.Daemon.Validator
import LogFence.Daemon.Canonical
import LogFence.Daemon.Sender
import LogFence.Daemon.Handlers
import LogFence.Daemon.Session
import LogFence.Daemon.EndOfStream
import LogFence.Daemon.Datagram
import LogFence.Daemon.Config
import LogFence.Daemon.Reload
import LogFence.Daemon.Tasks
import LogFence.Daemon.Listener
import LogFence.Daemon.Dispatch
import LogFence.Daemon.Forwarder
import LogFence.Daemon.Retry
import LogFence.Daemon.Shutdown
import LogFence.Client.Transport
import LogFence.Client.Datagram
import LogFence.Client.Timestamp
import LogFence.Client.Builder
import LogFence.Daemon.Gateway
import LogFence.Daemon.Limits
import LogFence.Daemon.Drain
import LogFence.Client.Arrival
import LogFence.Daemon.Relay
import LogFence.Daemon.Stats
import LogFence.Client.Delivery
import LogFence.Daemon.Server
