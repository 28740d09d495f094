import LogFence.Daemon.Handlers
import LogFence.Rust.Collect

/-!
# Configuration (`logfence-daemon/src/config.rs`)

| here | there |
| --- | --- |
| `ConfigError`, `toStr`      | `ConfigError` (`config.rs:16`) with its `Display` |
| `DaemonConfig`, `RsyslogConfig`, `ValidationConfig`, `Config` | the structs (`:64`, `:176`, `:248`, `:42`) |
| `Host`                      | the file system, `toml::from_str` and `jsonschema::validator_for` |
| `Config.validate`, `load`   | the two functions (`:412`, `:398`) |

Of the structs the fields are kept that the modelled functions read. The texts of foreign errors are
parameters, as is what TOML makes of a file.
-/

namespace LogFence

open Rust

/-! ## The code -/

inductive ConfigError where
  | io (path source : Str)
  | parse (path source : Str)
  | invalid (problem : Str)
deriving DecidableEq, Repr

def ConfigError.toStr : ConfigError → Str
  | .io path source => "cannot read config file '".toList ++ path ++ "': ".toList ++ source
  | .parse path source => "cannot parse config file '".toList ++ path ++ "': ".toList ++ source
  | .invalid problem => "invalid configuration: ".toList ++ problem

inductive ListenTransport where
  | unixStream | unixDgram
deriving DecidableEq, Repr

inductive ForwardTransport where
  | unixDgram | unixStream
deriving DecidableEq, Repr

inductive DgramExhausted where
  | drop | terminate
deriving DecidableEq, Repr

structure DaemonConfig where
  socketMode : Str
  maxConnections : Nat
  maxMessageSize : Nat
  listenTransport : ListenTransport
  framing : FramingMode
  sender : SenderMode

structure RsyslogConfig where
  transport : ForwardTransport
  dgramMaxAttempts : UInt32
  dgramExhausted : DgramExhausted

structure ValidationConfig where
  mode : ValidationMode
  schemas : List Str
  discriminator : Option Str
  schemaMap : HashMap Str
  inputCee : CeeCookieMode
  outputCee : CeeCookieMode
  canonicalJson : Bool

structure Config where
  daemon : DaemonConfig
  rsyslog : RsyslogConfig
  validation : ValidationConfig

/-- What a reload takes from outside the repository; an error is its `Display` text. -/
structure Host where
  readToString : Str → Except Str Str
  tomlFromStr : Str → Except Str Config
  validatorFor : Json → Except Str Schema

/-- `u32::from_str_radix(s, 8).ok()`. -/
def fromOctal (s : Str) : Option Nat :=
  let digits := stripPlus s
  if digits ≠ [] ∧ digits.all (fun c => decide ('0' ≤ c ∧ c ≤ '7')) then
    let v := Nat.ofDigitChars 8 digits 0
    if v < 2 ^ 32 then some v else none
  else none

/-- `s.trim_start_matches('0')`, and `"0"` if nothing is left. -/
def modeDigits (socketMode : Str) : Str :=
  let modeStr := socketMode.dropWhile (· == '0')
  if modeStr.isEmpty then ['0'] else modeStr

def Config.validate (cfg : Config) : Except ConfigError Unit :=
  if (fromOctal (modeDigits cfg.daemon.socketMode)).isNone then
    .error (.invalid ("daemon.socket_mode '".toList ++ cfg.daemon.socketMode ++
      "' is not a valid octal permission string".toList))
  else if cfg.daemon.maxConnections = 0 then
    .error (.invalid "daemon.max_connections must be at least 1".toList)
  else if cfg.daemon.maxMessageSize = 0 then
    .error (.invalid "daemon.max_message_size must be at least 1".toList)
  else if !cfg.validation.schemaMap.entries.isEmpty && cfg.validation.discriminator.isNone then
    .error (.invalid "validation.schema_map requires validation.discriminator to be set".toList)
  else .ok ()

def load (host : Host) (path : Str) : Except ConfigError Config :=
  match host.readToString path with
  | .error source => .error (.io path source)
  | .ok text =>
    match host.tomlFromStr text with
    | .error source => .error (.parse path source)
    | .ok cfg =>
      match cfg.validate with
      | .error e => .error e
      | .ok () => .ok cfg

/-! ## What is accepted -/

theorem check_eq_ok {ε α : Type} {c : Prop} [Decidable c] {e : ε} {x : Except ε α} {a : α} :
    (if c then .error e else x) = .ok a ↔ ¬ c ∧ x = .ok a := by
  by_cases h : c <;> simp [h]

/-- **A valid configuration** has an octal mode, room for a connection and for a message, and a field to
    route by if there is anything to route to. -/
theorem Config.validate_eq_ok {cfg : Config} : cfg.validate = .ok () ↔
    (fromOctal (modeDigits cfg.daemon.socketMode)).isSome = true ∧ 1 ≤ cfg.daemon.maxConnections ∧
      1 ≤ cfg.daemon.maxMessageSize ∧
      (cfg.validation.schemaMap.entries = [] ∨ cfg.validation.discriminator.isSome = true) := by
  have hmode : ¬ (fromOctal (modeDigits cfg.daemon.socketMode)).isNone = true ↔
      (fromOctal (modeDigits cfg.daemon.socketMode)).isSome = true := by
    rw [← Option.not_isSome, Bool.not_eq_true', Bool.not_eq_false]
  have hroute : ¬ (!cfg.validation.schemaMap.entries.isEmpty && cfg.validation.discriminator.isNone) = true ↔
      cfg.validation.schemaMap.entries = [] ∨ cfg.validation.discriminator.isSome = true := by
    rw [Bool.and_eq_true, Classical.not_and_iff_not_or_not, Bool.not_eq_true', Bool.not_eq_false, List.isEmpty_iff,
      ← Option.not_isSome, Bool.not_eq_true', Bool.not_eq_false]
  rw [Config.validate, check_eq_ok, check_eq_ok, check_eq_ok, check_eq_ok, hmode, hroute, Nat.one_le_iff_ne_zero,
    Nat.one_le_iff_ne_zero, and_iff_left rfl]

end LogFence
