import LogFence.Rust.Str

/-!
# RFC 5424 message types (`logfence-proto/src/syslog.rs`)

| here | there |
| --- | --- |
| `ParseError`, `Reason`       | `ParseError` (`syslog.rs:13`); the formatted texts of an `InvalidField` are kept as what they are formatted from |
| `Facility`, `Severity`       | `Facility` (`:36`), `Severity` (`:105`) with their `from_integer` |
| `Priority`                   | `Priority` (`:139`), `from_integer` (`:151`), `as_integer` (`:162`) |
| `SyslogMessage`, `toStr`     | `SyslogMessage` (`:175`), its `Display` (`:269`) |

A `u8` is a `Nat`; the one computation on it, `facility * 8 + severity`, stays below `192`
(`Priority.asInteger_le`).
-/

namespace LogFence

open Rust Outcome

/-! ## Errors -/

/-- The `reason` of an `InvalidField`, before formatting. -/
inductive Reason where
  | text (s : String)
  /-- `exceeds {max}-character limit (got {got})` -/
  | exceeds (max got : Nat)
  /-- `contains non-printable ASCII character {c:?}` -/
  | nonPrintable (c : Char)
  /-- `contains invalid character {c:?}` -/
  | invalidChar (c : Char)
deriving DecidableEq, Repr

inductive ParseError where
  | invalidPriority (value : Str)
  | malformedHeader (reason : String)
  | invalidUtf8
  | invalidField (field : String) (reason : Reason)
deriving DecidableEq, Repr

/-- The formatted reason; `debug` is the `{c:?}` of a character, which depends on Unicode tables. -/
def Reason.toStr (debug : Char → Str) : Reason → Str
  | .text s => s.toList
  | .exceeds max got =>
    "exceeds ".toList ++ decimal max ++ "-character limit (got ".toList ++ decimal got ++ ")".toList
  | .nonPrintable c => "contains non-printable ASCII character ".toList ++ debug c
  | .invalidChar c => "contains invalid character ".toList ++ debug c

/-- `Display for ParseError`. -/
def ParseError.toStr (debug : Char → Str) : ParseError → Str
  | .invalidPriority v => "invalid priority value '".toList ++ v ++ "' (valid range: 0–191)".toList
  | .malformedHeader r => "malformed syslog header: ".toList ++ r.toList
  | .invalidUtf8 => "message is not valid UTF-8".toList
  | .invalidField f r => "invalid ".toList ++ f.toList ++ ": ".toList ++ r.toStr debug

/-! ## Priority -/

inductive Facility where
  | kern | user | mail | daemon | auth | syslog | lpr | news | uucp | cron | authPriv | ftp
  | ntp | logAudit | logAlert | clock
  | local0 | local1 | local2 | local3 | local4 | local5 | local6 | local7
deriving DecidableEq, Repr

inductive Severity where
  | emergency | alert | critical | error | warning | notice | info | debug
deriving DecidableEq, Repr

/-- `self.facility as u8`: the declared discriminants `0..=23`. -/
def Facility.toNat : Facility → Nat
  | .kern => 0 | .user => 1 | .mail => 2 | .daemon => 3 | .auth => 4 | .syslog => 5
  | .lpr => 6 | .news => 7 | .uucp => 8 | .cron => 9 | .authPriv => 10 | .ftp => 11
  | .ntp => 12 | .logAudit => 13 | .logAlert => 14 | .clock => 15
  | .local0 => 16 | .local1 => 17 | .local2 => 18 | .local3 => 19 | .local4 => 20 | .local5 => 21
  | .local6 => 22 | .local7 => 23

def Severity.toNat : Severity → Nat
  | .emergency => 0 | .alert => 1 | .critical => 2 | .error => 3
  | .warning => 4 | .notice => 5 | .info => 6 | .debug => 7

/-- `Facility::from_integer` (`syslog.rs:69`). -/
def Facility.fromInteger (n : Nat) : Outcome ParseError Facility :=
  match n with
  | 0 => .ok .kern | 1 => .ok .user | 2 => .ok .mail | 3 => .ok .daemon
  | 4 => .ok .auth | 5 => .ok .syslog | 6 => .ok .lpr | 7 => .ok .news
  | 8 => .ok .uucp | 9 => .ok .cron | 10 => .ok .authPriv | 11 => .ok .ftp
  | 12 => .ok .ntp | 13 => .ok .logAudit | 14 => .ok .logAlert | 15 => .ok .clock
  | 16 => .ok .local0 | 17 => .ok .local1 | 18 => .ok .local2 | 19 => .ok .local3
  | 20 => .ok .local4 | 21 => .ok .local5 | 22 => .ok .local6 | 23 => .ok .local7
  | n => .err (.invalidPriority (decimal n))

/-- `Severity::from_integer` (`syslog.rs:121`): everything above `6` is `Debug`. -/
def Severity.fromInteger (n : Nat) : Severity :=
  match n with
  | 0 => .emergency | 1 => .alert | 2 => .critical | 3 => .error
  | 4 => .warning | 5 => .notice | 6 => .info | _ => .debug

structure Priority where
  facility : Facility
  severity : Severity
deriving DecidableEq, Repr

/-- `Priority::from_integer` (`syslog.rs:151`). -/
def Priority.fromInteger (pri : Nat) : Outcome ParseError Priority := do
  if pri > 191 then Outcome.err (.invalidPriority (decimal pri))
  let facility ← Facility.fromInteger (pri / 8)
  let severity := Severity.fromInteger (pri % 8)
  pure ⟨facility, severity⟩

/-- `Priority::as_integer` (`syslog.rs:162`). -/
def Priority.asInteger (p : Priority) : Nat := p.facility.toNat * 8 + p.severity.toNat

theorem Priority.asInteger_le (p : Priority) : p.asInteger ≤ 191 := by
  obtain ⟨f, s⟩ := p
  cases f <;> cases s <;> decide

theorem Facility.fromInteger_toNat (f : Facility) : Facility.fromInteger f.toNat = .ok f := by
  cases f <;> rfl

theorem Severity.fromInteger_toNat (s : Severity) : Severity.fromInteger s.toNat = s := by
  cases s <;> rfl

theorem Severity.toNat_lt (s : Severity) : s.toNat < 8 := by cases s <;> decide

theorem Facility.toNat_of_fromInteger {n : Nat} {f : Facility} (h : Facility.fromInteger n = .ok f) :
    f.toNat = n := by
  unfold Facility.fromInteger at h
  split at h <;> first | (cases h; rfl) | (simp at h)

theorem Severity.toNat_fromInteger : ∀ {n : Nat}, n < 8 → (Severity.fromInteger n).toNat = n := by
  decide

theorem Priority.asInteger_div (p : Priority) : p.asInteger / 8 = p.facility.toNat := by
  have hs := p.severity.toNat_lt
  unfold asInteger; omega

theorem Priority.asInteger_mod (p : Priority) : p.asInteger % 8 = p.severity.toNat := by
  have hs := p.severity.toNat_lt
  unfold asInteger; omega

theorem Priority.fromInteger_asInteger (p : Priority) : Priority.fromInteger p.asInteger = .ok p := by
  have hle := p.asInteger_le
  have hn : ¬ p.asInteger > 191 := by omega
  simp only [fromInteger, hn, ↓reduceIte, pure_eq, ok_bind, p.asInteger_div, p.asInteger_mod,
    Facility.fromInteger_toNat, Severity.fromInteger_toNat]

theorem Facility.fromInteger_ok {n : Nat} (h : n < 24) : ∃ f, Facility.fromInteger n = .ok f := by
  have hall : ∀ n < 24, (fun _ => ()) <$> Facility.fromInteger n = .ok () := by decide
  have hn := hall n h
  rcases hf : Facility.fromInteger n with f | e | _
  · exact ⟨f, rfl⟩
  · rw [hf] at hn; cases hn
  · rw [hf] at hn; cases hn

theorem Priority.fromInteger_ok {n : Nat} (h : n ≤ 191) : ∃ p, Priority.fromInteger n = .ok p := by
  obtain ⟨f, hf⟩ := Facility.fromInteger_ok (n := n / 8) (by omega)
  have hn : ¬ n > 191 := by omega
  refine ⟨⟨f, .fromInteger (n % 8)⟩, ?_⟩
  simp only [fromInteger, hn, ↓reduceIte, pure_eq, ok_bind, hf]

/-- `PRI` integers and priorities are in bijection: what is accepted encodes back to the same number. -/
theorem Priority.asInteger_of_fromInteger {n : Nat} {p : Priority} (h : Priority.fromInteger n = .ok p) :
    p.asInteger = n := by
  unfold fromInteger at h
  split at h
  · simp at h
  · simp only [pure_eq] at h
    obtain ⟨f, hf, h⟩ := bind_eq_ok.1 h
    cases h
    simp only [asInteger, Facility.toNat_of_fromInteger hf,
      Severity.toNat_fromInteger (Nat.mod_lt n (by decide : 0 < 8))]
    omega

theorem Priority.fromInteger_ne_panic (n : Nat) : Priority.fromInteger n ≠ .panic := by
  unfold fromInteger
  split
  · simp
  · simp only [pure_eq]
    intro h
    rcases bind_eq_panic.1 h with h | ⟨f, -, h⟩
    · unfold Facility.fromInteger at h
      split at h <;> simp at h
    · simp at h

/-! ## The message -/

/-- A message; `none` is the nil value `-`. -/
structure SyslogMessage where
  priority : Priority
  timestamp : Option Str
  hostname : Option Str
  appName : Option Str
  procId : Option Str
  msgId : Option Str
  structuredData : Str
  msg : Str
deriving DecidableEq, Repr

/-- `field.as_deref().unwrap_or("-")`. -/
def orNil (field : Option Str) : Str := field.getD ['-']

/-- `Display for SyslogMessage` (`syslog.rs:269`). -/
def SyslogMessage.toStr (m : SyslogMessage) : Str :=
  '<' :: decimal m.priority.asInteger ++ ">1 ".toList ++ orNil m.timestamp ++ ' ' :: orNil m.hostname ++
    ' ' :: orNil m.appName ++ ' ' :: orNil m.procId ++ ' ' :: orNil m.msgId ++ ' ' :: m.structuredData ++
    if m.msg ≠ [] then ' ' :: m.msg else []

end LogFence
