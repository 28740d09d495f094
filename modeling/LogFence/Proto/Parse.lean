import LogFence.Proto.SdGrammar

/-!
# `SyslogMessage::parse` (`syslog.rs:199-336`)

| here | there |
| --- | --- |
| `parse`                     | `SyslogMessage::parse` (`syslog.rs:199`) |
| `splitHeaderField`          | `split_header_field` (`:293`), `nil_to_option` (`:304`) |
| `parseStructuredDataAndMsg` | `parse_structured_data_and_msg` (`:320`) |

`parse_eq_ok` and `parse_eq_panic` invert the whole function: the header text of a `Header`, then
STRUCTURED-DATA cut where the first scanner says, then the second scanner's verdict on it. Everything
later is said about the text in these terms and never unfolds `parse` again.
-/

namespace LogFence

open Rust Outcome

/-! ## The code -/

/-- `nil_to_option`: a bare `-` is nil. -/
def nilToOption (s : Str) : Option Str := if s = ['-'] then none else some s

def splitHeaderField (s : Str) (fieldName : String) : Outcome ParseError (Option Str × Str) := do
  let (raw, rest) ← okOr (.malformedHeader ("expected " ++ fieldName)) (splitOnce ' ' s)
  pure (nilToOption raw, rest)

/-- `rest.strip_prefix(' ').unwrap_or("")`. -/
def afterSp (rest : Str) : Str := (stripPrefix [' '] rest).getD []

def parseStructuredDataAndMsg (s : Str) : Outcome ParseError (Str × Str) :=
  match stripPrefix ['-'] s with
  | some rest => pure (['-'], afterSp rest)
  | none =>
    if !startsWith ['['] s then .err (.malformedHeader "STRUCTURED-DATA must start with '-' or '['")
    else do
      let sdEnd ← findStructuredDataEnd s
      let structuredData ← slice s 0 sdEnd
      let tail ← slice s sdEnd (len s)
      pure (structuredData, afterSp tail)

/-- What `trim_end_matches` takes off the end. -/
def isLineEnd (c : Char) : Bool := c == '\n' || c == '\r' || c == '\x00'

/-- `if let Some(v) = field { validate(v)? }`. -/
def checkField (validate : Str → Outcome ParseError Unit) : Option Str → Outcome ParseError Unit
  | some v => validate v
  | none => pure ()

/-- `SyslogMessage::parse` (`syslog.rs:199`). -/
def parse (raw : Str) : Outcome ParseError SyslogMessage := do
  let s := trimEndMatches isLineEnd raw
  let s ← okOr (.malformedHeader "expected '<' to start PRI") (stripPrefix ['<'] s)
  let (priStr, s) ← okOr (.malformedHeader "expected '>' to close PRI") (splitOnce '>' s)
  let priVal ← okOr (.invalidPriority priStr) (parseUnsigned 255 priStr)
  let priority ← Priority.fromInteger priVal
  let s ← okOr (.malformedHeader "expected VERSION '1'") (stripPrefix ['1', ' '] s)
  let (timestamp, s) ← splitHeaderField s "TIMESTAMP"
  let (hostname, s) ← splitHeaderField s "HOSTNAME"
  let (appName, s) ← splitHeaderField s "APP-NAME"
  let (procId, s) ← splitHeaderField s "PROCID"
  let (msgId, s) ← splitHeaderField s "MSGID"
  let (structuredData, msg) ← parseStructuredDataAndMsg s
  checkField validateTimestamp timestamp
  checkField (validatePrintusasciiField · "HOSTNAME" 255) hostname
  checkField (validatePrintusasciiField · "APP-NAME" 48) appName
  checkField (validatePrintusasciiField · "PROCID" 128) procId
  checkField (validatePrintusasciiField · "MSGID" 32) msgId
  validateStructuredDataContent structuredData
  pure { priority, timestamp, hostname, appName, procId, msgId, structuredData, msg }

/-! ## The header as text -/

/-- What stands before STRUCTURED-DATA. -/
structure Header where
  priority : Priority
  timestamp : Option Str
  hostname : Option Str
  appName : Option Str
  procId : Option Str
  msgId : Option Str
deriving DecidableEq, Repr

def SyslogMessage.header (m : SyslogMessage) : Header :=
  ⟨m.priority, m.timestamp, m.hostname, m.appName, m.procId, m.msgId⟩

def Header.message (hd : Header) (sd msg : Str) : SyslogMessage :=
  ⟨hd.priority, hd.timestamp, hd.hostname, hd.appName, hd.procId, hd.msgId, sd, msg⟩

@[simp] theorem header_message (hd : Header) (sd msg : Str) : (hd.message sd msg).header = hd := rfl
@[simp] theorem message_header (m : SyslogMessage) : m.header.message m.structuredData m.msg = m := rfl

/-- The five fields, each followed by SP. -/
def Header.text (hd : Header) : Str :=
  orNil hd.timestamp ++ ' ' :: orNil hd.hostname ++ ' ' :: orNil hd.appName ++ ' ' :: orNil hd.procId ++
    ' ' :: orNil hd.msgId ++ [' ']

/-- A field is nil, or a text other than `-` that its validator accepts. -/
def FieldOk (validate : Str → Outcome ParseError Unit) (x : Option Str) : Prop :=
  ∀ v, x = some v → v ≠ ['-'] ∧ validate v = .ok ()

structure Header.Valid (hd : Header) : Prop where
  timestamp : FieldOk validateTimestamp hd.timestamp
  hostname : FieldOk (validatePrintusasciiField · "HOSTNAME" 255) hd.hostname
  appName : FieldOk (validatePrintusasciiField · "APP-NAME" 48) hd.appName
  procId : FieldOk (validatePrintusasciiField · "PROCID" 128) hd.procId
  msgId : FieldOk (validatePrintusasciiField · "MSGID" 32) hd.msgId

/-- A text between `<` and `>` that is read as `p`: more than one is, `parse::<u8>` takes a `+` and
    leading zeros. -/
def IsPri (pri : Str) (p : Priority) : Prop := parseUnsigned 255 pri = some p.asInteger

/-- `h` is a header the parser accepts, with the fields of `hd`. -/
def IsHeader (h : Str) (hd : Header) : Prop :=
  ∃ pri, IsPri pri hd.priority ∧ hd.Valid ∧ h = '<' :: pri ++ '>' :: '1' :: ' ' :: hd.text

/-! ## Splitting off a field -/

theorem orNil_nilToOption (s : Str) : orNil (nilToOption s) = s := by
  unfold nilToOption
  split
  · rename_i h; rw [h]; rfl
  · rfl

theorem nilToOption_orNil {x : Option Str} (h : x ≠ some ['-']) : nilToOption (orNil x) = x := by
  cases x with
  | none => rfl
  | some v =>
    have hv : v ≠ ['-'] := fun hv => h (by rw [hv])
    simp [orNil, nilToOption, hv]

theorem splitHeaderField_eq_ok {s rest : Str} {x : Option Str} {f : String} :
    splitHeaderField s f = .ok (x, rest) ↔ s = orNil x ++ ' ' :: rest ∧ ' ' ∉ orNil x ∧ x ≠ some ['-'] := by
  constructor
  · intro h
    obtain ⟨⟨raw, r⟩, hs, hok⟩ := bind_eq_ok.1 h
    obtain ⟨rfl, hn⟩ := splitOnce_eq_some.1 (okOr_eq_ok.1 hs)
    obtain ⟨rfl, rfl⟩ : nilToOption raw = x ∧ r = rest := by simpa using hok
    rw [orNil_nilToOption]
    refine ⟨rfl, hn, ?_⟩
    unfold nilToOption
    split
    · simp
    · rename_i hne; simpa using hne
  · rintro ⟨rfl, hn, hx⟩
    refine bind_eq_ok.2 ⟨(orNil x, rest), okOr_eq_ok.2 (splitOnce_append rest hn), ?_⟩
    simp [nilToOption_orNil hx]

theorem splitHeaderField_ne_panic (s : Str) (f : String) : splitHeaderField s f ≠ .panic := by
  intro h
  rcases bind_eq_panic.1 h with h | ⟨_, -, h⟩
  · exact okOr_ne_panic h
  · simp at h

theorem FieldOk.ne_nil {validate : Str → Outcome ParseError Unit} {x : Option Str} (h : FieldOk validate x) :
    x ≠ some ['-'] := by
  rintro rfl
  exact (h _ rfl).1 rfl

theorem FieldOk.no_space {validate : Str → Outcome ParseError Unit} {x : Option Str} (h : FieldOk validate x)
    (hv : ∀ v, validate v = .ok () → ' ' ∉ v) : ' ' ∉ orNil x := by
  cases x with
  | none => decide
  | some v => exact hv v (h v rfl).2

theorem checkField_eq_ok {validate : Str → Outcome ParseError Unit} {x : Option Str} (hx : x ≠ some ['-']) :
    checkField validate x = .ok () ↔ FieldOk validate x := by
  cases x with
  | none => simp [checkField, FieldOk]
  | some v =>
    have hv : v ≠ ['-'] := fun hv => hx (by rw [hv])
    simp [checkField, FieldOk, hv]

theorem checkField_ne_panic {validate : Str → Outcome ParseError Unit} (hv : ∀ v, validate v ≠ .panic)
    (x : Option Str) : checkField validate x ≠ .panic := by
  cases x with
  | none => simp [checkField]
  | some v => exact hv v

theorem not_mem_of_validatePrintusasciiField {f : String} {n : Nat} (v : Str)
    (h : validatePrintusasciiField v f n = .ok ()) : ' ' ∉ v :=
  not_mem_of_printUsAscii (validatePrintusasciiField_eq_ok.1 h).2.2

/-! ## Splitting STRUCTURED-DATA from MSG -/

/-- Where STRUCTURED-DATA is cut off: after a `-`, or after all the blocks. -/
def CutsSd (sd rest : Str) : Prop :=
  sd = ['-'] ∨ sd ≠ [] ∧ IsBlocks sd ∧ rest.head? ≠ some '['

theorem slice_zero {ε : Type} (m r : Str) : (slice (m ++ r) 0 (len m) : Outcome ε Str) = .ok m := by
  simpa using slice_append (ε := ε) [] m r

theorem slice_end {ε : Type} (p m : Str) : (slice (p ++ m) (len p) (len (p ++ m)) : Outcome ε Str) = .ok m := by
  simpa using slice_append (ε := ε) p m []

/-- From a `[` on: the cut is where the first scanner's reading ends, and both slices are on character
    boundaries. -/
theorem parseStructuredDataAndMsg_bracket {s : Str} (hs : s.head? = some '[') :
    parseStructuredDataAndMsg s = findEnd s >>= fun rest => slice s 0 (offset s rest) >>= fun sd =>
      pure (sd, afterSp rest) := by
  obtain ⟨t, rfl⟩ := List.head?_eq_some_iff.1 hs
  have h1 : stripPrefix ['-'] ('[' :: t) = none := rfl
  have h2 : startsWith ['['] ('[' :: t) = true := by rw [startsWith_singleton]; rfl
  simp only [parseStructuredDataAndMsg, h1, h2, Bool.not_true, Bool.false_eq_true, ↓reduceIte,
    findStructuredDataEnd_eq]
  rcases hf : findEnd ('[' :: t) with rest | e | _
  · obtain ⟨sd, -, heq, -⟩ := findEnd_eq_ok.1 hf
    simp only [map_ok, ok_bind]
    rw [heq, offset_append, slice_zero, slice_end]
    rfl
  · rfl
  · rfl

theorem parseStructuredDataAndMsg_eq_ok {s sd msg : Str} :
    parseStructuredDataAndMsg s = .ok (sd, msg) ↔ ∃ rest, s = sd ++ rest ∧ CutsSd sd rest ∧ msg = afterSp rest := by
  by_cases hbr : s.head? = some '['
  · rw [parseStructuredDataAndMsg_bracket hbr, bind_eq_ok]
    constructor
    · rintro ⟨rest, hf, h⟩
      obtain ⟨sd', hsd, rfl, hr⟩ := findEnd_eq_ok.1 hf
      rw [offset_append, slice_zero, ok_bind] at h
      obtain ⟨rfl, rfl⟩ : sd' = sd ∧ afterSp rest = msg := by simpa using h
      refine ⟨rest, rfl, .inr ⟨?_, hsd, hr⟩, rfl⟩
      rintro rfl
      exact hr (by simpa using hbr)
    · rintro ⟨rest, rfl, hcut, rfl⟩
      rcases hcut with rfl | ⟨-, hsd, hr⟩
      · simp at hbr
      · exact ⟨rest, findEnd_eq_ok.2 ⟨sd, hsd, rfl, hr⟩, by rw [offset_append, slice_zero]; rfl⟩
  · cases hd : stripPrefix ['-'] s with
    | some rest =>
      have hs := stripPrefix_eq_some.1 hd
      subst hs
      simp only [parseStructuredDataAndMsg, hd, pure_eq, ok.injEq, Prod.mk.injEq]
      constructor
      · rintro ⟨rfl, rfl⟩
        exact ⟨rest, rfl, .inl rfl, rfl⟩
      · rintro ⟨rest', heq, rfl | ⟨hne, hsd, -⟩, rfl⟩
        · exact ⟨rfl, by rw [List.append_cancel_left heq]⟩
        · have := hsd.head? hne
          obtain ⟨t, rfl⟩ := List.head?_eq_some_iff.1 this
          simp at heq
    | none =>
      have hns : startsWith ['['] s = false := by rw [startsWith_singleton]; simpa using hbr
      simp only [parseStructuredDataAndMsg, hd, hns, Bool.not_false, ↓reduceIte, reduceCtorEq, false_iff]
      rintro ⟨rest, rfl, rfl | ⟨hne, hsd, -⟩, -⟩
      · simp [stripPrefix] at hd
      · refine hbr ?_
        rw [List.head?_append, hsd.head? hne]; rfl

theorem parseStructuredDataAndMsg_ne_panic (s : Str) : parseStructuredDataAndMsg s ≠ .panic := by
  by_cases hbr : s.head? = some '['
  · rw [parseStructuredDataAndMsg_bracket hbr]
    intro h
    rcases bind_eq_panic.1 h with h | ⟨rest, hf, h⟩
    · exact findEnd_ne_panic s h
    · obtain ⟨sd, -, rfl, -⟩ := findEnd_eq_ok.1 hf
      rw [offset_append, slice_zero] at h
      cases h
  · unfold parseStructuredDataAndMsg
    split
    · simp
    · have hns : startsWith ['['] s = false := by rw [startsWith_singleton]; simpa using hbr
      simp [hns]

/-! ## The whole parser -/

/-- `parse` up to the last check, the content of STRUCTURED-DATA (`:199-251`). -/
def parseFields (raw : Str) : Outcome ParseError SyslogMessage := do
  let s := trimEndMatches isLineEnd raw
  let s ← okOr (.malformedHeader "expected '<' to start PRI") (stripPrefix ['<'] s)
  let (priStr, s) ← okOr (.malformedHeader "expected '>' to close PRI") (splitOnce '>' s)
  let priVal ← okOr (.invalidPriority priStr) (parseUnsigned 255 priStr)
  let priority ← Priority.fromInteger priVal
  let s ← okOr (.malformedHeader "expected VERSION '1'") (stripPrefix ['1', ' '] s)
  let (timestamp, s) ← splitHeaderField s "TIMESTAMP"
  let (hostname, s) ← splitHeaderField s "HOSTNAME"
  let (appName, s) ← splitHeaderField s "APP-NAME"
  let (procId, s) ← splitHeaderField s "PROCID"
  let (msgId, s) ← splitHeaderField s "MSGID"
  let (structuredData, msg) ← parseStructuredDataAndMsg s
  checkField validateTimestamp timestamp
  checkField (validatePrintusasciiField · "HOSTNAME" 255) hostname
  checkField (validatePrintusasciiField · "APP-NAME" 48) appName
  checkField (validatePrintusasciiField · "PROCID" 128) procId
  checkField (validatePrintusasciiField · "MSGID" 32) msgId
  pure { priority, timestamp, hostname, appName, procId, msgId, structuredData, msg }

theorem parse_eq (raw : Str) :
    parse raw = parseFields raw >>= fun m => validateStructuredDataContent m.structuredData >>= fun _ => pure m := by
  simp only [parse, parseFields, bind_assoc, pure_eq, ok_bind]

theorem parseFields_ne_panic (raw : Str) : parseFields raw ≠ .panic := by
  intro h
  rcases bind_eq_panic.1 h with h | ⟨_, -, h⟩
  · exact okOr_ne_panic h
  rcases bind_eq_panic.1 h with h | ⟨_, -, h⟩
  · exact okOr_ne_panic h
  rcases bind_eq_panic.1 h with h | ⟨_, -, h⟩
  · exact okOr_ne_panic h
  rcases bind_eq_panic.1 h with h | ⟨_, -, h⟩
  · exact Priority.fromInteger_ne_panic _ h
  rcases bind_eq_panic.1 h with h | ⟨_, -, h⟩
  · exact okOr_ne_panic h
  rcases bind_eq_panic.1 h with h | ⟨_, -, h⟩
  · exact splitHeaderField_ne_panic _ _ h
  rcases bind_eq_panic.1 h with h | ⟨_, -, h⟩
  · exact splitHeaderField_ne_panic _ _ h
  rcases bind_eq_panic.1 h with h | ⟨_, -, h⟩
  · exact splitHeaderField_ne_panic _ _ h
  rcases bind_eq_panic.1 h with h | ⟨_, -, h⟩
  · exact splitHeaderField_ne_panic _ _ h
  rcases bind_eq_panic.1 h with h | ⟨_, -, h⟩
  · exact splitHeaderField_ne_panic _ _ h
  rcases bind_eq_panic.1 h with h | ⟨_, -, h⟩
  · exact parseStructuredDataAndMsg_ne_panic _ h
  rcases bind_eq_panic.1 h with h | ⟨_, -, h⟩
  · exact checkField_ne_panic validateTimestamp_ne_panic _ h
  rcases bind_eq_panic.1 h with h | ⟨_, -, h⟩
  · exact checkField_ne_panic (fun v => validateToken_ne_panic _ _ v _ _) _ h
  rcases bind_eq_panic.1 h with h | ⟨_, -, h⟩
  · exact checkField_ne_panic (fun v => validateToken_ne_panic _ _ v _ _) _ h
  rcases bind_eq_panic.1 h with h | ⟨_, -, h⟩
  · exact checkField_ne_panic (fun v => validateToken_ne_panic _ _ v _ _) _ h
  rcases bind_eq_panic.1 h with h | ⟨_, -, h⟩
  · exact checkField_ne_panic (fun v => validateToken_ne_panic _ _ v _ _) _ h
  simp at h

theorem isPri_iff {pri : Str} {p : Priority} :
    IsPri pri p ↔ ∃ n, parseUnsigned 255 pri = some n ∧ Priority.fromInteger n = .ok p := by
  constructor
  · intro h
    exact ⟨_, h, p.fromInteger_asInteger⟩
  · rintro ⟨n, h, hp⟩
    rw [IsPri, Priority.asInteger_of_fromInteger hp, h]

theorem IsPri.no_close {pri : Str} {p : Priority} (h : IsPri pri p) : '>' ∉ pri := by
  intro hm
  rcases mem_of_parseUnsigned h hm with hc | hc
  · exact absurd hc (by decide)
  · exact absurd hc (by decide)

/-- A header, then STRUCTURED-DATA cut from MSG: what `parse` has read before the last check. -/
def ReadsAs (raw : Str) (m : SyslogMessage) : Prop :=
  ∃ h rest, trimEndMatches isLineEnd raw = h ++ (m.structuredData ++ rest) ∧ IsHeader h m.header ∧
    CutsSd m.structuredData rest ∧ m.msg = afterSp rest

theorem parseFields_eq_ok {raw : Str} {m : SyslogMessage} : parseFields raw = .ok m ↔ ReadsAs raw m := by
  constructor
  · intro h
    obtain ⟨s₁, h₁, h⟩ := bind_eq_ok.1 h
    obtain ⟨⟨pri, s₂⟩, h₂, h⟩ := bind_eq_ok.1 h
    obtain ⟨n, hn, h⟩ := bind_eq_ok.1 h
    obtain ⟨priority, hp, h⟩ := bind_eq_ok.1 h
    obtain ⟨s₃, h₃, h⟩ := bind_eq_ok.1 h
    obtain ⟨⟨ts, s₄⟩, h₄, h⟩ := bind_eq_ok.1 h
    obtain ⟨⟨host, s₅⟩, h₅, h⟩ := bind_eq_ok.1 h
    obtain ⟨⟨app, s₆⟩, h₆, h⟩ := bind_eq_ok.1 h
    obtain ⟨⟨proc, s₇⟩, h₇, h⟩ := bind_eq_ok.1 h
    obtain ⟨⟨mid, s₈⟩, h₈, h⟩ := bind_eq_ok.1 h
    obtain ⟨⟨sd, msg⟩, h₉, h⟩ := bind_eq_ok.1 h
    obtain ⟨_, c₁, h⟩ := bind_eq_ok.1 h
    obtain ⟨_, c₂, h⟩ := bind_eq_ok.1 h
    obtain ⟨_, c₃, h⟩ := bind_eq_ok.1 h
    obtain ⟨_, c₄, h⟩ := bind_eq_ok.1 h
    obtain ⟨_, c₅, h⟩ := bind_eq_ok.1 h
    cases h
    have h₁ := stripPrefix_eq_some.1 (okOr_eq_ok.1 h₁)
    obtain ⟨h₂, -⟩ := splitOnce_eq_some.1 (okOr_eq_ok.1 h₂)
    have h₃ := stripPrefix_eq_some.1 (okOr_eq_ok.1 h₃)
    obtain ⟨h₄, -, n₄⟩ := splitHeaderField_eq_ok.1 h₄
    obtain ⟨h₅, -, n₅⟩ := splitHeaderField_eq_ok.1 h₅
    obtain ⟨h₆, -, n₆⟩ := splitHeaderField_eq_ok.1 h₆
    obtain ⟨h₇, -, n₇⟩ := splitHeaderField_eq_ok.1 h₇
    obtain ⟨h₈, -, n₈⟩ := splitHeaderField_eq_ok.1 h₈
    obtain ⟨rest, h₉, hcut, hmsg⟩ := parseStructuredDataAndMsg_eq_ok.1 h₉
    refine ⟨'<' :: pri ++ '>' :: '1' :: ' ' :: Header.text ⟨priority, ts, host, app, proc, mid⟩, rest, ?_,
      ⟨pri, isPri_iff.2 ⟨n, okOr_eq_ok.1 hn, hp⟩, ⟨(checkField_eq_ok n₄).1 c₁, (checkField_eq_ok n₅).1 c₂,
        (checkField_eq_ok n₆).1 c₃, (checkField_eq_ok n₇).1 c₄, (checkField_eq_ok n₈).1 c₅⟩, rfl⟩, hcut, hmsg⟩
    rw [h₁, h₂, h₃, h₄, h₅, h₆, h₇, h₈, h₉]
    simp [Header.text]
  · rintro ⟨h, rest, hraw, ⟨pri, hpri, hv, rfl⟩, hcut, hmsg⟩
    obtain ⟨n, hn, hp⟩ := isPri_iff.1 hpri
    obtain ⟨vts, vhost, vapp, vproc, vmid⟩ := hv
    have hsp : ∀ (v : Str) (f : String) (k : Nat), validatePrintusasciiField v f k = .ok () → ' ' ∉ v :=
      fun v f k => not_mem_of_validatePrintusasciiField v
    refine bind_eq_ok.2 ⟨_, okOr_eq_ok.2 (stripPrefix_eq_some.2 (by rw [hraw]; rfl)), ?_⟩
    refine bind_eq_ok.2 ⟨_, okOr_eq_ok.2 (splitOnce_eq_some.2 ⟨by simp [Header.text]; rfl, hpri.no_close⟩), ?_⟩
    refine bind_eq_ok.2 ⟨n, okOr_eq_ok.2 hn, ?_⟩
    refine bind_eq_ok.2 ⟨_, hp, ?_⟩
    refine bind_eq_ok.2 ⟨_, okOr_eq_ok.2 (stripPrefix_eq_some.2 rfl), ?_⟩
    refine bind_eq_ok.2 ⟨_, splitHeaderField_eq_ok.2
      ⟨rfl, vts.no_space fun v => not_mem_of_validateTimestamp, vts.ne_nil⟩, ?_⟩
    refine bind_eq_ok.2 ⟨_, splitHeaderField_eq_ok.2 ⟨rfl, vhost.no_space fun v => hsp v _ _, vhost.ne_nil⟩, ?_⟩
    refine bind_eq_ok.2 ⟨_, splitHeaderField_eq_ok.2 ⟨rfl, vapp.no_space fun v => hsp v _ _, vapp.ne_nil⟩, ?_⟩
    refine bind_eq_ok.2 ⟨_, splitHeaderField_eq_ok.2 ⟨rfl, vproc.no_space fun v => hsp v _ _, vproc.ne_nil⟩, ?_⟩
    refine bind_eq_ok.2 ⟨_, splitHeaderField_eq_ok.2 ⟨rfl, vmid.no_space fun v => hsp v _ _, vmid.ne_nil⟩, ?_⟩
    refine bind_eq_ok.2 ⟨_, parseStructuredDataAndMsg_eq_ok.2 ⟨rest, rfl, hcut, hmsg⟩, ?_⟩
    refine bind_eq_ok.2 ⟨_, (checkField_eq_ok vts.ne_nil).2 vts, ?_⟩
    refine bind_eq_ok.2 ⟨_, (checkField_eq_ok vhost.ne_nil).2 vhost, ?_⟩
    refine bind_eq_ok.2 ⟨_, (checkField_eq_ok vapp.ne_nil).2 vapp, ?_⟩
    refine bind_eq_ok.2 ⟨_, (checkField_eq_ok vproc.ne_nil).2 vproc, ?_⟩
    refine bind_eq_ok.2 ⟨_, (checkField_eq_ok vmid.ne_nil).2 vmid, ?_⟩
    rfl

/-- **What `parse` accepts, and as what.** -/
theorem parse_eq_ok {raw : Str} {m : SyslogMessage} :
    parse raw = .ok m ↔ ReadsAs raw m ∧ validateStructuredDataContent m.structuredData = .ok () := by
  rw [parse_eq, bind_eq_ok]
  constructor
  · rintro ⟨m', hm, h⟩
    obtain ⟨_, hc, h⟩ := bind_eq_ok.1 h
    cases h
    exact ⟨parseFields_eq_ok.1 hm, hc⟩
  · rintro ⟨hm, hc⟩
    exact ⟨m, parseFields_eq_ok.2 hm, bind_eq_ok.2 ⟨(), hc, rfl⟩⟩

theorem parse_eq_panic {raw : Str} :
    parse raw = .panic ↔ ∃ m, ReadsAs raw m ∧ validateStructuredDataContent m.structuredData = .panic := by
  rw [parse_eq, bind_eq_panic]
  constructor
  · rintro (h | ⟨m, hm, h⟩)
    · exact absurd h (parseFields_ne_panic raw)
    · rcases bind_eq_panic.1 h with h | ⟨_, -, h⟩
      · exact ⟨m, parseFields_eq_ok.1 hm, h⟩
      · simp at h
  · rintro ⟨m, hm, h⟩
    exact .inr ⟨m, parseFields_eq_ok.2 hm, bind_eq_panic.2 (.inl h)⟩

end LogFence
