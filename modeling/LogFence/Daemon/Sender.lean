import LogFence.Proto.Format

/-!
# Sender rewriting (`logfence-daemon/src/session.rs:45-91`)

| here | there |
| --- | --- |
| `escapeSdParam`  | `escape_sd_param` (`session.rs:48`) |
| `srcElement`     | the format string of `rewrite_sender` (`:72`), on escaped values |
| `rewriteSender`  | `rewrite_sender` (`:64`) |

With nil STRUCTURED-DATA the rewritten message reads back as itself and keeps the sender's fields. With any
other, the SP put before the new element ends STRUCTURED-DATA for every reader, and the element is read as
the start of MSG (`parse_rewriteSender_appended`).
-/

namespace LogFence

open Rust Outcome

/-! ## The code -/

def escapeSdParam (s : Str) : Str :=
  s.flatMap fun c => if c = '"' ∨ c = '\\' ∨ c = ']' then ['\\', c] else [c]

def srcElement (hostname app pid : Str) : Str :=
  "[logfence-src@65944 hostname=\"".toList ++ hostname ++ "\" app=\"".toList ++ app ++ "\" pid=\"".toList ++ pid ++
    "\"]".toList

/-- `rewrite_sender` (`session.rs:64`); `pid` is `std::process::id()`. -/
def rewriteSender (pid : UInt32) (msg : SyslogMessage) (localHostname : Str) : SyslogMessage :=
  let origHostname := escapeSdParam (orNil msg.hostname)
  let origApp := escapeSdParam (orNil msg.appName)
  let origPid := escapeSdParam (orNil msg.procId)
  let src := srcElement origHostname origApp origPid
  let newSd := if msg.structuredData = ['-'] then src else msg.structuredData ++ ' ' :: src
  { priority := msg.priority, timestamp := msg.timestamp, hostname := some localHostname,
    appName := some "logfenced".toList, procId := some (decimal pid.toNat), msgId := msg.msgId,
    structuredData := newSd, msg := msg.msg }

/-! ## Escaped values -/

/-- What a backslash hides is taken as it stands. -/
def unescapeSdParam : Str → Str
  | [] => []
  | '\\' :: c :: s => c :: unescapeSdParam s
  | c :: s => c :: unescapeSdParam s

theorem unescapeSdParam_plain {c : Char} (h : c ≠ '\\') (s : Str) :
    unescapeSdParam (c :: s) = c :: unescapeSdParam s := by
  rw [unescapeSdParam]
  rintro d t rfl
  exact absurd rfl h

theorem unescapeSdParam_escapeSdParam (s : Str) : unescapeSdParam (escapeSdParam s) = s := by
  induction s with
  | nil => rfl
  | cons c s ih =>
    rw [escapeSdParam, List.flatMap_cons]
    split
    · exact congrArg (c :: ·) ih
    · rename_i hc
      push Not at hc
      rw [List.singleton_append, unescapeSdParam_plain hc.2.1]
      exact congrArg (c :: ·) ih

theorem isValue_escapeSdParam (s : Str) : IsValue (escapeSdParam s) := by
  induction s with
  | nil => exact .nil
  | cons c s ih =>
    rw [escapeSdParam, List.flatMap_cons]
    split
    · exact .escape c ih
    · rename_i hc
      push Not at hc
      exact .plain hc.1 hc.2.1 ih

/-- In quotes the first scanner does what the second does, and leaves them where the second stops. -/
theorem elementStep_quoted (escaped : Bool) (x : UInt8) :
    elementStep ⟨true, escaped⟩ x =
      some (match valueStep escaped x with
        | some escaped' => ⟨true, escaped'⟩
        | none => ⟨false, false⟩) := by
  unfold elementStep valueStep
  cases escaped with
  | true => rfl
  | false =>
    by_cases hb : x = byte '\\'
    · simp [hb]
    · by_cases hq : x = byte '"'
      · subst hq
        rfl
      · simp [hb, hq]

theorem foldlM_quoted {w : Bytes} {escaped escaped' : Bool} (h : w.foldlM valueStep escaped = some escaped') :
    w.foldlM elementStep ⟨true, escaped⟩ = some ⟨true, escaped'⟩ := by
  induction w generalizing escaped with
  | nil => cases h; rfl
  | cons x w ih =>
    obtain ⟨e, he, hw⟩ := Option.bind_eq_some_iff.1 (List.foldlM_cons.symm.trans h)
    rw [List.foldlM_cons, elementStep_quoted, he]
    exact ih hw

theorem IsValue.foldlM {v : Str} (h : IsValue v) : (utf8 v).foldlM valueStep false = some false := by
  rw [foldlM_utf8 valueStep_reads]
  induction h with
  | nil => rfl
  | plain h1 h2 _ ih => simpa [List.foldlM_cons, valueStepC, h1, h2] using ih
  | escape c _ ih => simpa [List.foldlM_cons, valueStepC] using ih

/-- The scanners on `p`, the value `v` and its closing quote, from behind `p` on: the PARAM-VALUE loop stops
    behind the quote; the inner loop of the first scanner stays in the quotes at every byte of `v` and has
    left them, unescaped, behind the quote. -/
structure ScannedValue (p v t : Str) : Prop where
  value : scanBytes valueStep (sdErr "unterminated PARAM-VALUE") (utf8 (p ++ v ++ '"' :: t)) (len p) false =
    .ok (len (p ++ v ++ ['"']))
  inside : ∀ w w', utf8 v = w ++ w' → ∃ escaped,
    Steps (scanBytesBody elementStep unterminatedElement (utf8 (p ++ v ++ '"' :: t))) (len p, ⟨true, false⟩)
      (len p + w.length, ⟨true, escaped⟩)
  outside :
    Steps (scanBytesBody elementStep unterminatedElement (utf8 (p ++ v ++ '"' :: t))) (len p, ⟨true, false⟩)
      (len (p ++ v ++ ['"']), ⟨false, false⟩)

theorem IsValue.scanned {v : Str} (h : IsValue v) (p t : Str) : ScannedValue p v t := by
  refine ⟨?_, ?_, ?_⟩
  · rw [List.append_assoc, scanBytes_utf8 valueStep_reads, scanValue_of_isValue h]
    simp only [List.append_assoc]
  · intro w w' hw
    have hfold := h.foldlM
    rw [hw, List.foldlM_append] at hfold
    obtain ⟨escaped, he, -⟩ := Option.bind_eq_some_iff.1 hfold
    refine ⟨escaped, ?_⟩
    have hsteps := steps_scanBytesBody (e := unterminatedElement) (utf8 p) (w' ++ utf8 ('"' :: t)) (foldlM_quoted he)
    rw [List.length_append, length_utf8] at hsteps
    rwa [utf8_append, utf8_append, hw, List.append_assoc, List.append_assoc, ← List.append_assoc (utf8 p)]
  · have hfold : (utf8 (v ++ ['"'])).foldlM elementStep ⟨true, false⟩ = some ⟨false, false⟩ := by
      rw [utf8_append, List.foldlM_append, foldlM_quoted h.foldlM]
      rfl
    have hsteps := steps_scanBytesBody (e := unterminatedElement) (utf8 p) (utf8 t) hfold
    rw [← utf8_append, ← utf8_append, length_utf8, length_utf8] at hsteps
    simpa using hsteps

/-- **Escaping is undone by the scanners.** -/
theorem escapeSdParam_scanned :
    (∀ p s t, ScannedValue p (escapeSdParam s) t ∧ unescapeSdParam (escapeSdParam s) = s) ∧
      Function.Injective escapeSdParam := by
  refine ⟨fun p s t => ⟨(isValue_escapeSdParam s).scanned p t, unescapeSdParam_escapeSdParam s⟩, fun s s' h => ?_⟩
  rw [← unescapeSdParam_escapeSdParam s, h, unescapeSdParam_escapeSdParam]

/-- The new element's SD-ID and its SD-PARAMs. -/
def srcId : Str := "logfence-src@65944".toList

def srcParams (h a p : Str) : Str :=
  paramText "hostname".toList h ++ (paramText "app".toList a ++ (paramText "pid".toList p ++ []))

theorem srcElement_eq (h a p : Str) : srcElement h a p = '[' :: srcId ++ srcParams h a p ++ [']'] := by
  have hopen : "[logfence-src@65944 hostname=\"".toList = '[' :: (srcId ++ ' ' :: ("hostname".toList ++ ['=', '"'])) := by
    decide
  have happ : "\" app=\"".toList = '"' :: ' ' :: ("app".toList ++ ['=', '"']) := by decide
  have hpid : "\" pid=\"".toList = '"' :: ' ' :: ("pid".toList ++ ['=', '"']) := by decide
  have hclose : "\"]".toList = ['"', ']'] := by decide
  unfold srcElement srcParams
  rw [hopen, happ, hpid, hclose]
  generalize srcId = id, "hostname".toList = n₁, "app".toList = n₂, "pid".toList = n₃
  simp [paramText]

theorem isName_srcId : IsName srcId := by decide

theorem isParams_srcParams {h a p : Str} (hh : IsValue h) (ha : IsValue a) (hp : IsValue p) :
    IsParams (srcParams h a p) :=
  .cons (by decide) hh (.cons (by decide) ha (.cons (by decide) hp .nil))

/-- Both scanners read the new element, to its end. -/
theorem srcElement_scanned {h a p : Str} (hh : IsValue h) (ha : IsValue a) (hp : IsValue p) :
    IsBlocks (srcElement h a p) ∧ LooseRun (srcElement h a p) [] := by
  have hparams := isParams_srcParams hh ha hp
  constructor
  · obtain ⟨b, hb, heq⟩ := hparams.isBody (by simp [srcParams, paramText])
    have hbody : IsBody (srcId ++ [' '] ++ b) :=
      (isName_srcId.isBody_sep (by decide) (by decide) (by decide)).append hb
    have hblock := IsBlocks.cons hbody .nil
    rw [srcElement_eq, heq]
    simpa using hblock
  · refine (IsSd.one ⟨srcId, srcParams h a p, [], isName_srcId, hparams, .inl rfl, ?_⟩).looseRun []
    rw [srcElement_eq, List.append_nil]

/-! ## The rewritten message -/

/-- A hostname that is no nil value and passes the parser's check. -/
def IsHostname (s : Str) : Prop := s ≠ ['-'] ∧ s ≠ [] ∧ s.length ≤ 255 ∧ ∀ c ∈ s, isPrintUsAscii c = true

instance (s : Str) : Decidable (IsHostname s) :=
  decidable_of_iff (s ≠ ['-'] ∧ s ≠ [] ∧ s.length ≤ 255 ∧ s.all isPrintUsAscii = true)
    (by rw [List.all_eq_true, IsHostname])

theorem fieldOk_printable {field : String} {maxLen : Nat} {s : Str}
    (h : s ≠ ['-'] ∧ s ≠ [] ∧ s.length ≤ maxLen ∧ ∀ c ∈ s, isPrintUsAscii c = true) :
    FieldOk (validatePrintusasciiField · field maxLen) (some s) := by
  intro v hv
  cases hv
  exact ⟨h.1, validatePrintusasciiField_eq_ok.2 h.2⟩

/-- The daemon's own APP-NAME. -/
theorem fieldOk_logfenced : FieldOk (validatePrintusasciiField · "APP-NAME" 48) (some "logfenced".toList) :=
  fieldOk_printable ⟨by decide, by decide, by decide, List.all_eq_true.1 (by decide)⟩

theorem isPrintUsAscii_of_isDigit {c : Char} (h : c.isDigit = true) : isPrintUsAscii c = true := by
  have := isDigit_iff.1 h
  simp only [isPrintUsAscii, decide_eq_true_eq]; omega

/-- A process id is a PROCID. -/
theorem fieldOk_pid (pid : UInt32) : FieldOk (validatePrintusasciiField · "PROCID" 128) (some (decimal pid.toNat)) := by
  refine fieldOk_printable ⟨?_, decimal_ne_nil _, ?_, fun c hc => isPrintUsAscii_of_isDigit (isDigit_of_mem_decimal hc)⟩
  · intro heq
    exact not_mem_decimal (n := pid.toNat) (c := '-') (by decide) (by rw [heq]; simp)
  · have : (decimal pid.toNat).length ≤ 10 := length_decimal_le (by decide) (by have := pid.toNat_lt; omega)
    omega

section
variable {raw : Str} {m : SyslogMessage} (pid : UInt32) {localHostname : Str}

theorem rewriteSender_header (hm : WellFormed m) (hh : IsHostname localHostname) :
    (rewriteSender pid m localHostname).header.Valid where
  timestamp := hm.header.timestamp
  hostname := fieldOk_printable hh
  appName := fieldOk_logfenced
  procId := fieldOk_pid pid
  msgId := hm.header.msgId

/-- The element that is added for `m`. -/
def srcOf (m : SyslogMessage) : Str :=
  srcElement (escapeSdParam (orNil m.hostname)) (escapeSdParam (orNil m.appName)) (escapeSdParam (orNil m.procId))

theorem srcOf_scanned (m : SyslogMessage) : IsBlocks (srcOf m) ∧ LooseRun (srcOf m) [] :=
  srcElement_scanned (isValue_escapeSdParam _) (isValue_escapeSdParam _) (isValue_escapeSdParam _)

theorem rewriteSender_nil_wellFormed (hm : WellFormed m) (hh : IsHostname localHostname)
    (hsd : m.structuredData = ['-']) : WellFormed (rewriteSender pid m localHostname) := by
  have hnew : (rewriteSender pid m localHostname).structuredData = srcOf m := if_pos hsd
  obtain ⟨hblocks, hloose⟩ := srcOf_scanned m
  refine ⟨rewriteSender_header pid hm hh, .inr ?_, hm.msg⟩
  rw [hnew]
  refine ⟨rfl, findStructuredDataEnd_eq_len.2 hblocks, validateStructuredDataContent_eq_ok.2 (.inr hloose)⟩

/-- **The appended element becomes the start of MSG**: a reader of the rewritten message sees the old
    STRUCTURED-DATA. -/
theorem parse_rewriteSender_appended (hm : WellFormed m) (hh : IsHostname localHostname)
    (hsd : m.structuredData ≠ ['-']) :
    parse (rewriteSender pid m localHostname).toStr =
      .ok { rewriteSender pid m localHostname with
        structuredData := m.structuredData, msg := srcOf m ++ wireTail m.msg } := by
  have hnew : (rewriteSender pid m localHostname).structuredData = m.structuredData ++ ' ' :: srcOf m := if_neg hsd
  have hne : srcOf m ≠ [] := by simp [srcOf, srcElement_eq]
  have htext : (rewriteSender pid m localHostname).toStr =
      ({ rewriteSender pid m localHostname with
        structuredData := m.structuredData, msg := srcOf m ++ wireTail m.msg } : SyslogMessage).toStr := by
    have htail : wireTail (srcOf m ++ wireTail m.msg) = ' ' :: (srcOf m ++ wireTail m.msg) := if_pos (by simp [hne])
    have hmsg : (rewriteSender pid m localHostname).msg = m.msg := rfl
    rw [toStr_eq, toStr_eq, hnew]
    simp only [htail, hmsg, List.append_assoc, List.cons_append]
    rfl
  have hheader : (rewriteSender pid m localHostname).header.Valid := rewriteSender_header pid hm hh
  rw [htext]
  refine parse_toStr_of_wellFormed ⟨⟨hheader.timestamp, hheader.hostname, hheader.appName, hheader.procId, hheader.msgId⟩,
    .inr (hm.structuredData.resolve_left hsd), ?_⟩
  intro c hc
  -- MSG ends as it did, or with the element's bracket
  by_cases hnil : m.msg = []
  · rw [wireTail, if_neg (by simp [hnil]), List.append_nil, (srcOf_scanned m).1.getLast? hne] at hc
    cases hc; rfl
  · rw [wireTail, if_pos hnil, List.getLast?_append, List.getLast?_cons] at hc
    obtain ⟨d, hd⟩ : ∃ d, m.msg.getLast? = some d := ⟨_, List.getLast?_eq_getLast_of_ne_nil hnil⟩
    rw [hd] at hc
    cases hc
    exact hm.msg _ hd

/-- What `rewrite_sender` is for: the message reads back as itself, with `m`'s elements before one that
    holds `m`'s sender, and nothing else of `m` changed. -/
structure SenderKept (m r : SyslogMessage) : Prop where
  reread : parse r.toStr = .ok r
  msg : r.msg = m.msg
  priority : r.priority = m.priority
  timestamp : r.timestamp = m.timestamp
  msgId : r.msgId = m.msgId
  audit : ∃ h a p, r.structuredData = (if m.structuredData = ['-'] then [] else m.structuredData) ++ srcElement h a p ∧
    unescapeSdParam h = orNil m.hostname ∧ unescapeSdParam a = orNil m.appName ∧ unescapeSdParam p = orNil m.procId

/-- **`rewrite_sender` keeps what it should exactly when STRUCTURED-DATA was nil.** -/
theorem rewriteSender_kept_iff (hm : parse raw = .ok m) (hh : IsHostname localHostname) :
    SenderKept m (rewriteSender pid m localHostname) ↔ m.structuredData = ['-'] := by
  have hwf := wellFormed_of_readsAs hm
  constructor
  · intro h
    by_contra hsd
    have hread := h.reread
    rw [parse_rewriteSender_appended pid hwf hh hsd, Outcome.ok.injEq] at hread
    have hnew : (rewriteSender pid m localHostname).structuredData = m.structuredData ++ ' ' :: srcOf m := if_neg hsd
    rw [← hread] at hnew
    simp at hnew
  · intro hsd
    refine ⟨parse_toStr_of_wellFormed (rewriteSender_nil_wellFormed pid hwf hh hsd), rfl, rfl, rfl, rfl, ?_⟩
    refine ⟨_, _, _, ?_, unescapeSdParam_escapeSdParam _, unescapeSdParam_escapeSdParam _,
      unescapeSdParam_escapeSdParam _⟩
    rw [if_pos hsd]
    exact if_pos hsd

end

theorem rewriteSender_keeps_nil_sd :
    parse "<13>1 - host app 7 - - x".toList =
        .ok ⟨⟨.user, .notice⟩, none, some "host".toList, some "app".toList, some ['7'], none, ['-'], ['x']⟩ ∧
      SenderKept ⟨⟨.user, .notice⟩, none, some "host".toList, some "app".toList, some ['7'], none, ['-'], ['x']⟩
        (rewriteSender 42 ⟨⟨.user, .notice⟩, none, some "host".toList, some "app".toList, some ['7'], none, ['-'], ['x']⟩
          "gw".toList) := by
  have hm : parse "<13>1 - host app 7 - - x".toList =
      .ok ⟨⟨.user, .notice⟩, none, some "host".toList, some "app".toList, some ['7'], none, ['-'], ['x']⟩ := by
    decide
  exact ⟨hm, (rewriteSender_kept_iff 42 hm (by decide)).2 rfl⟩

/-- `[id] x` comes back with `[id]` as its only element and the audit element in MSG. -/
theorem rewriteSender_moves_audit :
    parse "<13>1 - - - - - [id] x".toList = .ok (nilHeader.message "[id]".toList ['x']) ∧
      parse (rewriteSender 42 (nilHeader.message "[id]".toList ['x']) "gw".toList).toStr =
        .ok ⟨⟨.user, .notice⟩, none, some "gw".toList, some "logfenced".toList, some "42".toList, none, "[id]".toList,
          "[logfence-src@65944 hostname=\"-\" app=\"-\" pid=\"-\"] x".toList⟩ ∧
      ¬ SenderKept (nilHeader.message "[id]".toList ['x'])
        (rewriteSender 42 (nilHeader.message "[id]".toList ['x']) "gw".toList) := by
  refine ⟨by decide +kernel, by decide +kernel, fun h => ?_⟩
  have hread := h.reread
  revert hread
  decide +kernel

end LogFence
