import LogFence.Client.Timestamp
import LogFence.Proto.Injection
import LogFence.Rust.JsonText

/-!
# Messages of the two client APIs (`logfence-client/src/builder.rs`, `logfence-client-c/src/lib.rs`)

| here | there |
| --- | --- |
| `MessageBuilder`, `.new`, `BuilderCall`, `.apply` | the struct (`builder.rs:50`), `new` (`:69`), a call of a setter or of `kv` (`:92-155`) |
| `MessageBuilder.build`       | `build` (`:165`) |
| `LfMsgAttr`, `cstrToOpt`, `isJsonObject` | the struct (`lib.rs:78`), `cstr_to_opt` (`:261`), `is_json_object` (`:246`) |
| `nowRfc3339`                 | `now_rfc3339` (`builder.rs:210`) |
| `buildMsg`, `lfSend`         | `build_msg` (`lib.rs:276`), `lf_send` (`:176`) up to the transport |

Neither API looks at a header field. `client_messages_faithful_iff` says of the messages they make which ones
the daemon reads as they were meant.
-/

namespace LogFence

open Rust Outcome

/-! ## `MessageBuilder` -/

inductive BuildError where
  | emptyKey
  /-- With the `Display` text of the `serde_json::Error`. -/
  | serialize (e : Str)
deriving DecidableEq, Repr

structure MessageBuilder where
  facility : Facility
  severity : Severity
  timestamp : Option Str
  hostname : Option Str
  appName : Option Str
  procId : Option Str
  msgId : Option Str
  fields : List (Str × Json)
  ceeCookie : Bool
  /-- `fields` is a `BTreeMap`. -/
  ascending : Ascending fields

/-- `CEE_COOKIE` (`builder.rs:36`). -/
def builderCookie : Str := "@cee:".toList

/-- A call that returns the builder; a value is what `serde_json::to_value` makes of it. -/
inductive BuilderCall where
  | ceeCookie (enabled : Bool)
  | timestamp (ts : Str)
  | hostname (h : Str)
  | appName (name : Str)
  | procId (pid : Str)
  | msgid (id : Str)
  | kv (key : Str) (val : Except Str Json)

namespace MessageBuilder

/-- `pid` is `std::process::id()`. -/
def new (pid : UInt32) (facility : Facility) (severity : Severity) : MessageBuilder where
  facility := facility
  severity := severity
  timestamp := none
  hostname := none
  appName := none
  procId := some (decimal pid.toNat)
  msgId := none
  fields := []
  ceeCookie := false
  ascending := .nil

def kv (b : MessageBuilder) (key : Str) (val : Except Str Json) : Except BuildError MessageBuilder :=
  if key = [] then .error .emptyKey
  else
    match val with
    | .error e => .error (.serialize e)
    | .ok value => .ok { b with
        fields := insertKey key value b.fields
        ascending := ascending_insertKey key value b.ascending }

def apply (b : MessageBuilder) : BuilderCall → Except BuildError MessageBuilder
  | .ceeCookie enabled => .ok { b with ceeCookie := enabled }
  | .timestamp ts => .ok { b with timestamp := some ts }
  | .hostname h => .ok { b with hostname := some h }
  | .appName name => .ok { b with appName := some name }
  | .procId pid => .ok { b with procId := some pid }
  | .msgid id => .ok { b with msgId := some id }
  | .kv key val => b.kv key val

def build (S : Serde) (b : MessageBuilder) : Except BuildError SyslogMessage :=
  let json := S.toString (.object b.fields)
  let msg := if b.ceeCookie then builderCookie ++ json else json
  .ok { priority := ⟨b.facility, b.severity⟩, timestamp := b.timestamp, hostname := b.hostname, appName := b.appName,
        procId := b.procId, msgId := b.msgId, structuredData := ['-'], msg := msg }

end MessageBuilder

/-- A builder, the calls on it in turn, and `build`. -/
def builderMessage (S : Serde) (pid : UInt32) (facility : Facility) (severity : Severity) (calls : List BuilderCall) :
    Except BuildError SyslogMessage := do
  let b ← calls.foldlM MessageBuilder.apply (.new pid facility severity)
  b.build S

/-! ## `lf_send` -/

/-- The bytes of a C string, without its NUL. -/
structure CString where
  bytes : Bytes
  noNul : (0 : UInt8) ∉ bytes

/-- A pointer field is none for `NULL`. -/
structure LfMsgAttr where
  hostname : Option CString
  appName : Option CString
  msgId : Option CString
  procId : Option CString
  timestamp : Option CString
  ceeCookie : Int

/-- The codes `lf_send` returns before it sends. -/
inductive LfError where
  | null | invalid | build
deriving DecidableEq, Repr

def cstrToOpt (ptr : Option CString) : Option Str := ptr.bind fun s => fromUtf8 s.bytes

def isJsonObject (S : Serde) (s : Str) : Bool :=
  match S.fromStr s with
  | .ok (.object _) => true
  | _ => false

/-- `now_rfc3339` (`builder.rs:210`); `clock` is the system time in seconds after the epoch, zero before it. -/
def nowRfc3339 (clock : UInt64) : Outcome LfError Str := epochSecsToRfc3339 clock.toNat

/-- The clock is read only if the caller gives no timestamp, the process id only if no PROCID. -/
def buildMsg (clock : UInt64) (pid : UInt32) (fac : Facility) (sev : Severity) (attr : Option LfMsgAttr) (body : Str) :
    Outcome LfError SyslogMessage := do
  let tsOverride := attr.bind fun a => cstrToOpt a.timestamp
  let hostname := attr.bind fun a => cstrToOpt a.hostname
  let appName := attr.bind fun a => cstrToOpt a.appName
  let procIdOverride := attr.bind fun a => cstrToOpt a.procId
  let msgId := attr.bind fun a => cstrToOpt a.msgId
  let cee := attr.any fun a => a.ceeCookie != 0
  let timestamp ← tsOverride.elim (nowRfc3339 clock) pure
  let procId := procIdOverride.getD (decimal pid.toNat)
  let msg := if cee then "@cee:".toList ++ body else body
  pure { priority := ⟨fac, sev⟩, timestamp := some timestamp, hostname := hostname, appName := appName,
         procId := some procId, msgId := msgId, structuredData := ['-'], msg := msg }

/-- `lf_send` (`lib.rs:176`): the message it hands to the transport, or the code it returns instead; `client` is
    whether that pointer is not `NULL`. -/
def lfSend (S : Serde) (clock : UInt64) (pid : UInt32) (client : Bool) (facility severity : UInt8)
    (attr : Option LfMsgAttr) (jsonBody : Option CString) : Outcome LfError SyslogMessage :=
  if !client then .err .null
  else
    match Facility.fromInteger facility.toNat with
    | .err _ => .err .invalid
    | .panic => .panic
    | .ok fac =>
      if severity.toNat > 7 then .err .invalid
      else do
        let sev := Severity.fromInteger severity.toNat
        let body ← jsonBody.elim (pure "\x7b\x7d".toList) fun cstr => okOr .build (fromUtf8 cstr.bytes)
        if !isJsonObject S body then .err .build
        else buildMsg clock pid fac sev attr body

/-! ## What they make -/

theorem structuredData_build {S : Serde} {b : MessageBuilder} {m : SyslogMessage} (h : b.build S = .ok m) :
    m.structuredData = ['-'] := by
  cases h
  rfl

theorem structuredData_builderMessage {S : Serde} {pid : UInt32} {facility : Facility} {severity : Severity}
    {calls : List BuilderCall} {m : SyslogMessage} (h : builderMessage S pid facility severity calls = .ok m) :
    m.structuredData = ['-'] := by
  unfold builderMessage at h
  cases hb : calls.foldlM MessageBuilder.apply (.new pid facility severity) with
  | error e => rw [hb] at h; cases h
  | ok b =>
    rw [hb] at h
    exact structuredData_build h

theorem structuredData_buildMsg {clock : UInt64} {pid : UInt32} {fac : Facility} {sev : Severity}
    {attr : Option LfMsgAttr} {body : Str} {m : SyslogMessage} (h : buildMsg clock pid fac sev attr body = .ok m) :
    m.structuredData = ['-'] := by
  unfold buildMsg at h
  obtain ⟨ts, -, hm⟩ := bind_eq_ok.1 h
  cases hm
  rfl

theorem structuredData_lfSend {S : Serde} {clock : UInt64} {pid : UInt32} {client : Bool} {facility severity : UInt8}
    {attr : Option LfMsgAttr} {jsonBody : Option CString} {m : SyslogMessage}
    (h : lfSend S clock pid client facility severity attr jsonBody = .ok m) : m.structuredData = ['-'] := by
  unfold lfSend at h
  split at h
  · cases h
  · split at h
    · cases h
    · cases h
    · split at h
      · cases h
      · obtain ⟨body, -, h⟩ := bind_eq_ok.1 h
        split at h
        · cases h
        · exact structuredData_buildMsg h

/-- **Which client messages the daemon reads as they were meant**: all but those with a space in a header field
    whose text is a header again. -/
theorem client_messages_faithful_iff (S : Serde) (pid : UInt32) :
    (∀ facility severity calls m, builderMessage S pid facility severity calls = .ok m → (Faithful m ↔ ¬ Shifts m)) ∧
    ∀ clock client facility severity attr jsonBody m,
      lfSend S clock pid client facility severity attr jsonBody = .ok m → (Faithful m ↔ ¬ Shifts m) :=
  ⟨fun _ _ _ _ h => faithful_iff (structuredData_builderMessage h),
    fun _ _ _ _ _ _ _ h => faithful_iff (structuredData_lfSend h)⟩

/-- A message with one header field set, and one field of its payload. -/
def hostnameCalls (hostname : Str) : List BuilderCall := [.hostname hostname, .kv ['k'] (.ok .null)]

def hostnameMessage (hostname : Str) : SyslogMessage :=
  ⟨⟨.user, .notice⟩, none, some hostname, none, some ['4', '2'], none, ['-'], "\x7b\"k\":null\x7d".toList⟩

theorem builderMessage_hostname (hostname : Str) :
    builderMessage compact 42 .user .notice (hostnameCalls hostname) = .ok (hostnameMessage hostname) := by
  have hpid : decimal (42 : UInt32).toNat = ['4', '2'] := by decide
  have hjson : compact.toString (.object [(['k'], .null)]) = "\x7b\"k\":null\x7d".toList := by decide
  have hbuild : builderMessage compact 42 .user .notice (hostnameCalls hostname) =
      .ok ⟨⟨.user, .notice⟩, none, some hostname, none, some (decimal (42 : UInt32).toNat), none, ['-'],
        compact.toString (.object [(['k'], .null)])⟩ := rfl
  rw [hbuild, hpid, hjson]
  rfl

theorem client_messages_faithful_hostname :
    builderMessage compact 42 .user .notice (hostnameCalls ['h']) = .ok (hostnameMessage ['h']) ∧
      (Faithful (hostnameMessage ['h']) ↔ ¬ Shifts (hostnameMessage ['h'])) :=
  ⟨builderMessage_hostname _, (client_messages_faithful_iff compact 42).1 _ _ _ _ (builderMessage_hostname _)⟩

/-- A HOSTNAME that brings the fields behind it along. -/
theorem client_hostname_shifts :
    builderMessage compact 42 .user .notice (hostnameCalls "h a p i - x".toList) =
        .ok (hostnameMessage "h a p i - x".toList) ∧
      parse (hostnameMessage "h a p i - x".toList).toStr =
        .ok ⟨⟨.user, .notice⟩, none, some ['h'], some ['a'], some ['p'], some ['i'], ['-'],
          "x - 42 - - \x7b\"k\":null\x7d".toList⟩ ∧
      ¬ Faithful (hostnameMessage "h a p i - x".toList) := by
  have hparse : parse (hostnameMessage "h a p i - x".toList).toStr =
      .ok ⟨⟨.user, .notice⟩, none, some ['h'], some ['a'], some ['p'], some ['i'], ['-'],
        "x - 42 - - \x7b\"k\":null\x7d".toList⟩ := by decide
  refine ⟨builderMessage_hostname _, hparse, ?_⟩
  rintro (⟨e, he⟩ | ⟨r, hr, hsame⟩)
  · rw [hparse] at he
    cases he
  · rw [hparse] at hr
    cases hr
    exact absurd hsame.hostname (by decide)

end LogFence
