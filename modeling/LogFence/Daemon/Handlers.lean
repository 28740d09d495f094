import LogFence.Daemon.Sender
import LogFence.Daemon.Validator
import LogFence.Proto.Frame

/-!
# Message handlers (`logfence-daemon/src/session.rs:180-287`)

| here | there |
| --- | --- |
| `FramingMode`, `SenderMode`, `SessionConfig` | `config.rs:152`, `config.rs:163`, `session.rs:31` |
| `Metrics`            | `MetricsStore` (`metrics.rs:24`); the counters wrap, as `fetch_add` does |
| `report`             | the message built by `report_rejection` (`session.rs:191`) |
| `handleMessage`      | `handle_message` (`:209`): what it forwards, and the counters after it |
| `frameProblem`, `handleFrameError` | `handle_frame_error` (`:250`) |

`Forwarder::forward` is seen from its caller: the message handed to it, and whether it succeeds. Logging
(`tracing`) is left out.

`handleMessage_forwards` says what reaches the forwarder when the sender is kept: a rejection report, or a
message its validator accepted, and that the wire text of both is read back as what was inspected.
-/

namespace LogFence

open Rust Outcome

/-! ## The code -/

inductive FramingMode where
  | octetCount | newline
deriving DecidableEq, Repr

inductive SenderMode where
  | original | logfenced
deriving DecidableEq, Repr

structure SessionConfig where
  framing : FramingMode
  maxMessageSize : Nat
  senderMode : SenderMode
  localHostname : Str
  peer : Str

/-- What the handlers take from outside the repository. -/
structure Env where
  serde : Serde
  /-- `std::process::id()`. -/
  pid : UInt32
  /-- `{c:?}` of a character. -/
  debug : Char → Str

structure Metrics where
  received : UInt64
  forwarded : UInt64
  dropped : UInt64
  errors : UInt64
deriving DecidableEq, Repr

/-- `json!({ "key": "text", .. })`. -/
def jsonObject (members : List (String × Str)) : Json :=
  .object (toBTreeMap (members.map fun m => (m.1.toList, .string m.2)))

def report (env : Env) (localHostname : Str) (payload : Json) : SyslogMessage where
  priority := ⟨.syslog, .warning⟩
  timestamp := none
  hostname := some localHostname
  appName := some "logfenced".toList
  procId := some (decimal env.pid.toNat)
  msgId := none
  structuredData := ['-']
  msg := env.serde.toString payload

/-- The rejection payload of `handle_message` (`session.rs:223-230`). -/
def dropPayload (cfg : SessionConfig) (msg : SyslogMessage) (e : ValidationError) : Json :=
  jsonObject [("event", "message_dropped".toList), ("peer", cfg.peer), ("sender_hostname", orNil msg.hostname),
    ("sender_app", orNil msg.appName), ("sender_pid", orNil msg.procId), ("error", e.toStr)]

/-- `handle_message`: the message handed to the forwarder, and the counters. `validator` is the one taken
    from the watch channel, `sent` whether forwarding succeeds. -/
def handleMessage (env : Env) (cfg : SessionConfig) (validator : Validator) (sent : Bool) (msg : SyslogMessage)
    (metrics : Metrics) : SyslogMessage × Metrics :=
  let metrics := { metrics with received := metrics.received + 1 }
  match validator.validate env.serde msg with
  | .error e =>
    (report env cfg.localHostname (dropPayload cfg msg e), { metrics with dropped := metrics.dropped + 1 })
  | .ok () =>
    let prepared := validator.prepareForForwarding env.serde msg
    let toForward :=
      match cfg.senderMode with
      | .original => prepared
      | .logfenced => rewriteSender env.pid prepared cfg.localHostname
    (toForward,
      if sent then { metrics with forwarded := metrics.forwarded + 1 } else { metrics with errors := metrics.errors + 1 })

/-- `problem` of `handle_frame_error`: none for an I/O error. -/
def frameProblem (debug : Char → Str) : FrameError → Option Str
  | .messageTooLarge max got =>
    some ("oversized message: got ".toList ++ decimal got ++ " bytes, max ".toList ++ decimal max)
  | .invalidOctetCount => some "invalid octet count".toList
  | .invalidUtf8 => some "invalid UTF-8 encoding".toList
  | .octetCountPrefixTooLong => some "octet count prefix too long".toList
  | .parse e => some ("syslog parse error: ".toList ++ e.toStr debug)
  | .io => none

/-- `handle_frame_error`: the report it forwards, if any. -/
def handleFrameError (env : Env) (cfg : SessionConfig) (e : FrameError) : Option SyslogMessage :=
  (frameProblem env.debug e).map fun problem =>
    report env cfg.localHostname
      (jsonObject [("event", "message_dropped".toList), ("peer", cfg.peer), ("error", problem)])

/-! ## Reports -/

theorem jsonObject_ordered (members : List (String × Str)) : (jsonObject members).Ordered := by
  refine .object (ascending_toBTreeMap _) fun m hm => ?_
  obtain ⟨x, -, rfl⟩ := List.mem_map.1 (mem_toBTreeMap hm)
  exact .string _

/-- A hostname as configured: nil, or one the parser takes. -/
def IsLocalHostname (s : Str) : Prop := s = ['-'] ∨ IsHostname s

/-- The message a report is read back as: a nil hostname is none. -/
def rereadReport (env : Env) (localHostname : Str) (payload : Json) : SyslogMessage :=
  { report env localHostname payload with hostname := if localHostname = ['-'] then none else some localHostname }

theorem parse_report {env : Env} (hS : env.serde.Lawful) {localHostname : Str} (hh : IsLocalHostname localHostname)
    (members : List (Str × Json)) :
    parse (report env localHostname (.object members)).toStr =
      .ok (rereadReport env localHostname (.object members)) := by
  have htext : (report env localHostname (.object members)).toStr =
      (rereadReport env localHostname (.object members)).toStr := by
    rcases hh with rfl | hh
    · rfl
    · rw [rereadReport, if_neg hh.1]; rfl
  have hnone : ∀ validate, FieldOk validate none := by intro validate v hv; cases hv
  rw [htext]
  refine parse_toStr_of_wellFormed ⟨⟨hnone _, ?_, ?_, fieldOk_pid env.pid, hnone _⟩, .inl rfl, ?_⟩
  · rcases hh with rfl | hh
    · exact hnone _
    · have hsome : (rereadReport env localHostname (.object members)).header.hostname = some localHostname :=
        if_neg hh.1
      rw [hsome]
      exact fieldOk_printable hh
  · exact fieldOk_logfenced
  · intro c hc
    obtain ⟨t, ht⟩ := hS.braces members
    have hmsg : (rereadReport env localHostname (.object members)).msg = '{' :: (t ++ ['}']) := ht
    rw [hmsg, ← List.cons_append, List.getLast?_append] at hc
    cases hc; rfl

/-! ## What reaches the forwarder -/

/-- A rejection report, read back from the wire with nil STRUCTURED-DATA and a JSON object as its MSG. -/
def IsReport (env : Env) (cfg : SessionConfig) (f : SyslogMessage) : Prop :=
  ∃ members r, f = report env cfg.localHostname (.object members) ∧ parse f.toStr = .ok r ∧
    r.structuredData = ['-'] ∧ env.serde.fromStr r.msg = .ok (.object members)

/-- `m` as `v` prepares it, read back from the wire with `m`'s header and STRUCTURED-DATA, and with the
    object that was validated as its payload. -/
def IsInspected (env : Env) (v : Validator) (m f : SyslogMessage) : Prop :=
  v.validate env.serde m = .ok () ∧ f = v.prepareForForwarding env.serde m ∧
    ∃ r value, parse f.toStr = .ok r ∧ r.header = m.header ∧ r.structuredData = m.structuredData ∧
      v.payload env.serde m = .ok value ∧ value.isObject = true ∧ env.serde.fromStr (bareJson r.msg) = .ok value ∧
      (v.mode = .strict → v.schemaMatches value = true)

section
variable {env : Env} (hS : env.serde.Lawful) {cfg : SessionConfig} (hh : IsLocalHostname cfg.localHostname)
include hS

include hh in
theorem isReport_jsonObject (members : List (String × Str)) :
    IsReport env cfg (report env cfg.localHostname (jsonObject members)) := by
  refine ⟨_, _, rfl, parse_report hS hh _, rfl, ?_⟩
  exact hS.undoes (jsonObject_ordered members)

include hh in
theorem handleFrameError_reports {e : FrameError} {f : SyslogMessage} (h : handleFrameError env cfg e = some f) :
    IsReport env cfg f := by
  obtain ⟨problem, -, rfl⟩ := Option.map_eq_some_iff.1 h
  exact isReport_jsonObject hS hh _

theorem isInspected_prepared {v : Validator} {m : SyslogMessage} (hm : WellFormed m)
    (hval : v.validate env.serde m = .ok ()) : IsInspected env v m (v.prepareForForwarding env.serde m) := by
  obtain ⟨value, hp, hobj, hstrict⟩ := Validator.validate_eq_ok.1 hval
  obtain ⟨members, rfl⟩ := Json.isObject_eq_true.1 hobj
  have heq := Validator.prepareForForwarding_eq env.serde v m
  -- only MSG differs from `m`, and it does not end a line
  have hwf : WellFormed (v.prepareForForwarding env.serde m) := by
    refine ⟨by rw [heq]; exact hm.header, by rw [heq]; exact hm.structuredData, fun c hc => ?_⟩
    rcases Validator.getLast?_forwarded hS hp with hl | hl
    · rw [hl] at hc; exact hm.msg c hc
    · rw [hl] at hc; cases hc; rfl
  obtain ⟨hread, hbare⟩ := Validator.forwarded_payload hS hp
  refine ⟨hval, rfl, _, _, parse_toStr_of_wellFormed hwf, by rw [heq]; rfl, by rw [heq], hp, hobj, ?_, hstrict⟩
  rw [heq]
  show env.serde.fromStr (bareJson (v.outputCookie m.msg ++ v.effectiveJson env.serde m.msg)) = _
  rw [hbare, hread]

include hh in
/-- **`handle_message` forwards a report or an inspected message.** -/
theorem handleMessage_forwards (horig : cfg.senderMode = .original) (v : Validator) (sent : Bool) {m : SyslogMessage}
    (hm : WellFormed m) (metrics : Metrics) :
    IsReport env cfg (handleMessage env cfg v sent m metrics).1 ∨
      IsInspected env v m (handleMessage env cfg v sent m metrics).1 := by
  unfold handleMessage
  cases hval : v.validate env.serde m with
  | error e => exact .inl (isReport_jsonObject hS hh _)
  | ok _ =>
    simp only [horig]
    exact .inr (isInspected_prepared hS hm hval)

end

end LogFence
