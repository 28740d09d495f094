import LogFence.Proto.Parse

/-!
# The message format: what `parse` and `Display` do to each other

Results about `SyslogMessage::parse` as a whole (`syslog.rs:199`) and `Display` (`:269`), for every text
and every message:

* `parse_ne_panic_iff` — when `parse` does not panic: never, but for one kind of STRUCTURED-DATA, where
  the second scanner takes a character beyond ASCII for the opening bracket of an element;
* `parse_grammar_iff` — where `parse` accepts exactly the STRUCTURED-DATA grammar and cuts MSG off where
  that grammar ends, and the three kinds of text where it does not;
* `parse_toStr_iff` — a message survives `Display` and `parse` exactly when it is well formed, and every
  message `parse` returns is;
* `parse_lossless_iff` — `parse` loses text exactly when something is glued to STRUCTURED-DATA.
-/

namespace LogFence

open Rust Outcome

/-! ## A text has one header -/

theorem orNil_injective {x y : Option Str} (hx : x ≠ some ['-']) (hy : y ≠ some ['-']) (h : orNil x = orNil y) :
    x = y := by
  rw [← nilToOption_orNil hx, h, nilToOption_orNil hy]

/-- Two valid fields at the start of one text are the same. -/
theorem FieldOk.unique {validate : Str → Outcome ParseError Unit} (hv : ∀ v, validate v = .ok () → ' ' ∉ v)
    {x y : Option Str} {s t : Str} (hx : FieldOk validate x) (hy : FieldOk validate y)
    (h : orNil x ++ ' ' :: s = orNil y ++ ' ' :: t) : x = y ∧ s = t := by
  obtain ⟨h1, h2⟩ := cut_unique (hx.no_space hv) (hy.no_space hv) h
  exact ⟨orNil_injective hx.ne_nil hy.ne_nil h1, h2⟩

theorem IsPri.unique {pri : Str} {p q : Priority} (hp : IsPri pri p) (hq : IsPri pri q) : p = q := by
  obtain ⟨n, hn, hp⟩ := isPri_iff.1 hp
  obtain ⟨k, hk, hq⟩ := isPri_iff.1 hq
  obtain rfl : n = k := by rw [hn] at hk; simpa using hk
  rw [hp] at hq; simpa using hq

/-- **A text has one header**, and one rest. -/
theorem IsHeader.unique {h h' s s' : Str} {hd hd' : Header} (hh : IsHeader h hd) (hh' : IsHeader h' hd')
    (heq : h ++ s = h' ++ s') : h = h' ∧ hd = hd' ∧ s = s' := by
  obtain ⟨pri, hpri, ⟨vts, vhost, vapp, vproc, vmid⟩, rfl⟩ := hh
  obtain ⟨pri', hpri', ⟨vts', vhost', vapp', vproc', vmid'⟩, rfl⟩ := hh'
  have hsp : ∀ (f : String) (k : Nat) (v : Str), validatePrintusasciiField v f k = .ok () → ' ' ∉ v :=
    fun f k v => not_mem_of_validatePrintusasciiField v
  simp only [Header.text, List.cons_append, List.append_assoc, List.nil_append, List.cons.injEq, true_and] at heq
  obtain ⟨epri, hrest⟩ := cut_unique hpri.no_close hpri'.no_close heq
  subst epri
  simp only [List.cons.injEq, true_and] at hrest
  obtain ⟨ets, hrest⟩ := FieldOk.unique (fun v => not_mem_of_validateTimestamp) vts vts' hrest
  obtain ⟨ehost, hrest⟩ := FieldOk.unique (hsp _ _) vhost vhost' hrest
  obtain ⟨eapp, hrest⟩ := FieldOk.unique (hsp _ _) vapp vapp' hrest
  obtain ⟨eproc, hrest⟩ := FieldOk.unique (hsp _ _) vproc vproc' hrest
  obtain ⟨emid, hrest⟩ := FieldOk.unique (hsp _ _) vmid vmid' hrest
  have hhd : hd = hd' := by
    obtain ⟨p, _, _, _, _, _⟩ := hd
    obtain ⟨q, _, _, _, _, _⟩ := hd'
    obtain rfl : p = q := hpri.unique hpri'
    simp only at ets ehost eapp eproc emid
    subst ets ehost eapp eproc emid
    rfl
  exact ⟨by rw [hhd], hhd, hrest⟩

/-- Likewise one cut between STRUCTURED-DATA and the rest. -/
theorem CutsSd.unique {sd rest sd' rest' : Str} (h : CutsSd sd rest) (h' : CutsSd sd' rest')
    (heq : sd ++ rest = sd' ++ rest') : sd = sd' ∧ rest = rest' := by
  have h1 := parseStructuredDataAndMsg_eq_ok.2 ⟨rest, rfl, h, rfl⟩
  have h2 := parseStructuredDataAndMsg_eq_ok.2 ⟨rest', rfl, h', rfl⟩
  rw [heq, h2] at h1
  obtain ⟨rfl, -⟩ : sd' = sd ∧ _ := by simpa using h1
  exact ⟨rfl, List.append_cancel_left heq⟩

theorem validateStructuredDataContent_eq_ok {sd : Str} {x : Unit} :
    validateStructuredDataContent sd = .ok x ↔ sd = ['-'] ∨ LooseRun sd [] := by
  rw [validateStructuredDataContent_eq]
  split
  · rename_i hn; simp [hn]
  · rename_i hn
    rw [readContent_eq_ok]
    simp [hn]

/-! ## Panics -/

/-- STRUCTURED-DATA in which, after some elements, a character beyond ASCII stands where the next one
    opens: right behind a closing quote, or behind a `]` that a backslash hides from the first scanner. -/
def OpensBeyondAscii (raw : Str) : Prop :=
  ∃ h hd s c r rest, trimEndMatches isLineEnd raw = h ++ (s ++ c :: r ++ rest) ∧ IsHeader h hd ∧
    IsBlocks (s ++ c :: r) ∧ rest.head? ≠ some '[' ∧ LooseRun s (c :: r) ∧ isAscii c = false

/-- **`parse` panics on these texts only.** -/
theorem parse_ne_panic_iff (raw : Str) : parse raw ≠ .panic ↔ ¬ OpensBeyondAscii raw := by
  rw [ne_eq, not_iff_not, parse_eq_panic]
  constructor
  · rintro ⟨m, ⟨h, rest, hraw, hh, hcut, -⟩, hc⟩
    rw [validateStructuredDataContent_eq] at hc
    split at hc
    · cases hc
    · rename_i hn
      obtain ⟨s, c, r, hs, hc, hsd⟩ := readContent_eq_panic.1 hc
      obtain ⟨-, hb, hr⟩ := hcut.resolve_left hn
      rw [hsd] at hraw hb
      exact ⟨h, m.header, s, c, r, rest, hraw, hh, hb, hr, hs, hc⟩
  · rintro ⟨h, hd, s, c, r, rest, hraw, hh, hb, hr, hs, hc⟩
    have hne : s ++ c :: r ≠ [] := by simp
    refine ⟨hd.message (s ++ c :: r) (afterSp rest), ⟨h, rest, hraw, hh, .inr ⟨hne, hb, hr⟩, rfl⟩, ?_⟩
    have hn : s ++ c :: r ≠ ['-'] := by
      intro heq
      have := hb.head? hne
      rw [heq] at this; simp at this
    show validateStructuredDataContent (s ++ c :: r) = .panic
    rw [validateStructuredDataContent_eq, if_neg hn]
    exact readContent_eq_panic.2 ⟨s, c, r, hs, hc, rfl⟩

/-- An `é` behind the closing quote of a parameter. -/
theorem parse_panics : parse "<13>1 - - - - - [id a=\"v\"é]".toList = .panic := by decide +kernel

/-! ## The STRUCTURED-DATA grammar -/

theorem trim_eq_self {h s : Str} (hne : s ≠ []) (hend : ∀ c, s.getLast? = some c → isLineEnd c = false) :
    trimEndMatches isLineEnd (h ++ s) = h ++ s := by
  refine trimEndMatches_append_of_not h hne ?_
  have := hend (s.getLast hne) (List.getLast?_eq_getLast_of_ne_nil hne)
  simp [this]

/-- After a header and from a `[` on, `parse` accepts a run of blocks that is also a run of loose
    elements, and drops what follows it unless an SP comes first. -/
theorem parse_bracket_eq_ok {h s : Str} {hd : Header} {m : SyslogMessage} (hh : IsHeader h hd)
    (hs : s.head? = some '[') (hend : ∀ c, s.getLast? = some c → isLineEnd c = false) :
    parse (h ++ s) = .ok m ↔ ∃ sd rest, s = sd ++ rest ∧ sd ≠ [] ∧ IsBlocks sd ∧ rest.head? ≠ some '[' ∧
      LooseRun sd [] ∧ m = hd.message sd (afterSp rest) := by
  have hne : s ≠ [] := by rintro rfl; simp at hs
  have htrim := trim_eq_self (h := h) hne hend
  rw [parse_eq_ok, validateStructuredDataContent_eq_ok]
  constructor
  · rintro ⟨⟨h', rest, hraw, hh', hcut, hmsg⟩, hc⟩
    rw [htrim] at hraw
    obtain ⟨rfl, rfl, rfl⟩ := hh.unique hh' hraw
    have hn : m.structuredData ≠ ['-'] := by
      intro heq
      rw [heq] at hs; simp at hs
    obtain ⟨hne', hb, hr⟩ := hcut.resolve_left hn
    exact ⟨_, rest, rfl, hne', hb, hr, hc.resolve_left hn, by rw [← hmsg]; rfl⟩
  · rintro ⟨sd, rest, rfl, hne', hb, hr, hl, rfl⟩
    exact ⟨⟨h, rest, htrim, hh, .inr ⟨hne', hb, hr⟩, rfl⟩, .inr hl⟩

/-- The grammar's split of the text after a header. -/
def GrammarSplit (s sd msg : Str) : Prop := IsSd sd ∧ (s = sd ∧ msg = [] ∨ s = sd ++ ' ' :: msg)

/-- Text other than SP right behind the last bracket. -/
def Glued (s : Str) : Prop :=
  ∃ sd rest, s = sd ++ rest ∧ IsSd sd ∧ ¬ EndsHidden sd ∧ rest ≠ [] ∧ rest.head? ≠ some ' ' ∧ rest.head? ≠ some '['

/-- Blocks that read as loose elements but not as elements: something other than SP or `]` right behind
    a closing quote, or text behind a hidden bracket. -/
def LooselyRead (s : Str) : Prop :=
  ∃ sd rest, s = sd ++ rest ∧ sd ≠ [] ∧ IsBlocks sd ∧ rest.head? ≠ some '[' ∧ LooseRun sd [] ∧ ¬ IsSd sd

/-- Elements, the last of which hides its own bracket, and then SP or the end. -/
def HidesBracket (s : Str) : Prop := ∃ sd, EndsHidden sd ∧ (s = sd ∨ ∃ msg, s = sd ++ ' ' :: msg)

theorem IsSd.ne_nil {sd : Str} (h : IsSd sd) : sd ≠ [] := by
  rintro rfl
  have := h.head?
  simp at this

/-- **Where `parse` follows the grammar**: it accepts exactly the texts the grammar splits, with that
    split, except on these three kinds of text. -/
theorem parse_grammar_iff {h s : Str} {hd : Header} (hh : IsHeader h hd) (hs : s.head? = some '[')
    (hend : ∀ c, s.getLast? = some c → isLineEnd c = false) :
    (∀ m, parse (h ++ s) = .ok m ↔ ∃ sd msg, GrammarSplit s sd msg ∧ m = hd.message sd msg) ↔
      ¬ (Glued s ∨ LooselyRead s ∨ HidesBracket s) := by
  constructor
  · rintro hall (⟨sd, rest, rfl, hsd, hnh, hne, hsp, hbr⟩ | ⟨sd, rest, rfl, hne, hb, hr, hl, hnsd⟩ | ⟨sd, hh', hsplit⟩)
    · -- glued text: accepted, and the grammar has no split that ends there
      have hok := (parse_bracket_eq_ok hh hs hend).2
        ⟨sd, rest, rfl, hsd.ne_nil, hsd.isBlocks_iff.2 hnh, hbr, hsd.looseRun [], rfl⟩
      obtain ⟨sd', msg, ⟨-, hsplit⟩, hm⟩ := (hall _).1 hok
      obtain ⟨rfl, -⟩ : sd = sd' ∧ _ := by simpa [Header.message] using hm
      rcases hsplit with ⟨heq, -⟩ | heq
      · exact hne (by simpa using heq)
      · rw [List.append_cancel_left heq] at hsp; simp at hsp
    · -- loosely read: accepted with a STRUCTURED-DATA that is none
      have hok := (parse_bracket_eq_ok hh hs hend).2 ⟨sd, rest, rfl, hne, hb, hr, hl, rfl⟩
      obtain ⟨sd', msg, ⟨hsd, -⟩, hm⟩ := (hall _).1 hok
      obtain ⟨rfl, -⟩ : sd = sd' ∧ _ := by simpa [Header.message] using hm
      exact hnsd hsd
    · -- hidden bracket: the first scanner does not stop where the grammar does
      obtain ⟨msg, hg⟩ : ∃ msg, GrammarSplit s sd msg := by
        rcases hsplit with rfl | ⟨msg, rfl⟩
        · exact ⟨[], hh'.isSd, .inl ⟨rfl, rfl⟩⟩
        · exact ⟨msg, hh'.isSd, .inr rfl⟩
      have hok := (hall (hd.message sd msg)).2 ⟨sd, msg, hg, rfl⟩
      obtain ⟨sd', rest, -, -, hb, -, -, hm⟩ := (parse_bracket_eq_ok hh hs hend).1 hok
      obtain ⟨rfl, -⟩ : sd = sd' ∧ _ := by simpa [Header.message] using hm
      exact hh'.isSd.isBlocks_iff.1 hb hh'
  · intro hno m
    rw [not_or, not_or] at hno
    obtain ⟨hng, hnl, hnh⟩ := hno
    rw [parse_bracket_eq_ok hh hs hend]
    constructor
    · rintro ⟨sd, rest, rfl, hne, hb, hr, hl, rfl⟩
      have hsd : IsSd sd := by
        by_contra hnsd
        exact hnl ⟨sd, rest, rfl, hne, hb, hr, hl, hnsd⟩
      refine ⟨sd, afterSp rest, ⟨hsd, ?_⟩, rfl⟩
      by_cases hnil : rest = []
      · subst hnil; exact .inl ⟨by simp, rfl⟩
      · by_cases hsp : rest.head? = some ' '
        · obtain ⟨msg, rfl⟩ := List.head?_eq_some_iff.1 hsp
          exact .inr rfl
        · exact absurd ⟨sd, rest, rfl, hsd, hsd.isBlocks_iff.1 hb, hnil, hsp, hr⟩ hng
    · rintro ⟨sd, msg, ⟨hsd, hsplit⟩, rfl⟩
      have hb : IsBlocks sd := by
        refine hsd.isBlocks_iff.2 fun hh' => hnh ⟨sd, hh', ?_⟩
        rcases hsplit with ⟨h1, -⟩ | h1
        · exact .inl h1
        · exact .inr ⟨msg, h1⟩
      rcases hsplit with ⟨rfl, rfl⟩ | rfl
      · exact ⟨s, [], by simp, hsd.ne_nil, hb, by simp, hsd.looseRun [], rfl⟩
      · exact ⟨sd, ' ' :: msg, rfl, hsd.ne_nil, hb, by simp, hsd.looseRun [], rfl⟩

/-- `user.notice` and five nil fields. -/
def nilHeader : Header := ⟨⟨.user, .notice⟩, none, none, none, none, none⟩

theorem isHeader_nilHeader : IsHeader "<13>1 - - - - - ".toList nilHeader := by
  refine ⟨['1', '3'], by unfold IsPri; decide, ⟨?_, ?_, ?_, ?_, ?_⟩, rfl⟩ <;> intro v hv <;> cases hv

theorem parse_grammar_one_element :
    (∀ m, parse ("<13>1 - - - - - ".toList ++ "[id] x".toList) = .ok m ↔
      ∃ sd msg, GrammarSplit "[id] x".toList sd msg ∧ m = nilHeader.message sd msg) ↔
      ¬ (Glued "[id] x".toList ∨ LooselyRead "[id] x".toList ∨ HidesBracket "[id] x".toList) :=
  parse_grammar_iff isHeader_nilHeader rfl (by intro c hc; cases hc; decide)

/-- `[id]x` is accepted, as `[id]` with no MSG; the grammar has no split of it. -/
theorem parse_accepts_glued :
    parse ("<13>1 - - - - - ".toList ++ "[id]x".toList) = .ok (nilHeader.message "[id]".toList []) ∧
      IsHeader "<13>1 - - - - - ".toList nilHeader ∧ ¬ ∃ sd msg, GrammarSplit "[id]x".toList sd msg := by
  refine ⟨by decide +kernel, isHeader_nilHeader, ?_⟩
  rintro ⟨sd, msg, hsd, ⟨rfl, -⟩ | heq⟩
  · have := hsd.getLast?
    simp at this
  · have : ' ' ∈ "[id]x".toList := by rw [heq]; simp
    simp at this

/-! ## `Display` and back -/

/-- A message `Display` writes and `parse` reads back. -/
structure WellFormed (m : SyslogMessage) : Prop where
  header : m.header.Valid
  /-- `-`, or text from a `[` on that the first scanner consumes to its end and the second accepts. -/
  structuredData : m.structuredData = ['-'] ∨
    startsWith ['['] m.structuredData = true ∧
      findStructuredDataEnd m.structuredData = .ok (len m.structuredData) ∧
      validateStructuredDataContent m.structuredData = .ok ()
  msg : ∀ c, m.msg.getLast? = some c → isLineEnd c = false

theorem findStructuredDataEnd_eq_len {sd : Str} : findStructuredDataEnd sd = .ok (len sd) ↔ IsBlocks sd := by
  rw [findStructuredDataEnd_eq]
  constructor
  · intro h
    rcases hf : findEnd sd with r | e | _ <;> rw [hf] at h <;> simp at h
    obtain ⟨b, hb, rfl, -⟩ := findEnd_eq_ok.1 hf
    rw [offset_append, len_append] at h
    cases r with
    | nil => simpa using hb
    | cons c r =>
      have := c.utf8Size_pos
      rw [len_cons] at h; omega
  · intro h
    have hf : findEnd sd = .ok [] := findEnd_eq_ok.2 ⟨sd, h, by simp, by simp⟩
    rw [hf]
    simp [offset]

/-- What follows STRUCTURED-DATA on the wire. -/
def wireTail (msg : Str) : Str := if msg ≠ [] then ' ' :: msg else []

theorem toStr_eq (m : SyslogMessage) :
    m.toStr = '<' :: decimal m.priority.asInteger ++ '>' :: '1' :: ' ' :: m.header.text ++
      (m.structuredData ++ wireTail m.msg) := by
  simp [SyslogMessage.toStr, Header.text, SyslogMessage.header, wireTail]

theorem wellFormed_of_readsAs {raw : Str} {m : SyslogMessage} (h : parse raw = .ok m) : WellFormed m := by
  obtain ⟨⟨h, rest, hraw, ⟨_, -, hv, -⟩, hcut, hmsg⟩, hc⟩ := parse_eq_ok.1 h
  refine ⟨hv, ?_, ?_⟩
  · rcases hcut with hn | ⟨hne, hb, -⟩
    · exact .inl hn
    · refine .inr ⟨?_, findStructuredDataEnd_eq_len.2 hb, hc⟩
      rw [startsWith_singleton, hb.head? hne]; rfl
  · intro c hl
    -- a last character of MSG is the last one of the trimmed text
    have hrest : rest.getLast? = some c := by
      unfold afterSp at hmsg
      cases hs : stripPrefix [' '] rest with
      | none => rw [hs] at hmsg; rw [hmsg] at hl; simp at hl
      | some msg =>
        rw [hs, Option.getD_some] at hmsg
        rw [stripPrefix_eq_some.1 hs, List.getLast?_append, ← hmsg, hl]; rfl
    have hidem := trimEndMatches_idem isLineEnd raw
    rw [hraw] at hidem
    have hne : h ++ (m.structuredData ++ rest) ≠ [] := by
      intro hnil
      simp only [List.append_eq_nil_iff] at hnil
      rw [hnil.2.2] at hrest; simp at hrest
    have hlast := trimEndMatches_eq_self_iff.1 hidem hne
    have hget : (h ++ (m.structuredData ++ rest)).getLast? = some c := by
      rw [List.getLast?_append, List.getLast?_append, hrest]; rfl
    rw [List.getLast?_eq_getLast_of_ne_nil hne, Option.some.injEq] at hget
    rw [hget] at hlast
    simpa using hlast

theorem parse_toStr_of_wellFormed {m : SyslogMessage} (h : WellFormed m) : parse m.toStr = .ok m := by
  obtain ⟨hv, hsd, hmsg⟩ := h
  have hcut : CutsSd m.structuredData (wireTail m.msg) := by
    rcases hsd with hn | ⟨hs, he, -⟩
    · exact .inl hn
    · refine .inr ⟨?_, findStructuredDataEnd_eq_len.1 he, ?_⟩
      · intro hnil; rw [hnil] at hs; simp [startsWith] at hs
      · unfold wireTail; split <;> simp
  have hend : ∀ c, (m.structuredData ++ wireTail m.msg).getLast? = some c → isLineEnd c = false := by
    intro c hl
    by_cases hnil : m.msg = []
    · rw [wireTail, if_neg (by simp [hnil]), List.append_nil] at hl
      rcases hcut with hn | ⟨hne, hb, -⟩
      · rw [hn] at hl; cases hl; decide
      · rw [hb.getLast? hne] at hl; cases hl; decide
    · rw [wireTail, if_pos hnil, List.getLast?_append, List.getLast?_cons] at hl
      obtain ⟨d, hd⟩ : ∃ d, m.msg.getLast? = some d := ⟨_, List.getLast?_eq_getLast_of_ne_nil hnil⟩
      rw [hd] at hl
      cases hl
      exact hmsg _ hd
  have hne : m.structuredData ++ wireTail m.msg ≠ [] := by
    rcases hcut with hn | ⟨hne, -⟩
    · simp [hn]
    · simp [hne]
  rw [parse_eq_ok, toStr_eq]
  refine ⟨⟨_, wireTail m.msg, trim_eq_self hne hend,
    ⟨_, parseUnsigned_decimal (le_trans m.priority.asInteger_le (by decide)), hv, rfl⟩, hcut, ?_⟩, ?_⟩
  · unfold wireTail
    split
    · rfl
    · rename_i hnil; rw [not_not.1 hnil]; rfl
  · rcases hsd with hn | ⟨-, -, hc⟩
    · rw [hn]; rfl
    · exact hc

/-- **Round trip, on exactly the well-formed messages**, and `parse` returns no others. -/
theorem parse_toStr_iff (m : SyslogMessage) :
    (parse m.toStr = .ok m ↔ WellFormed m) ∧
      ∀ raw, parse raw = .ok m → WellFormed m ∧ parse m.toStr = .ok m := by
  refine ⟨⟨wellFormed_of_readsAs, parse_toStr_of_wellFormed⟩, ?_⟩
  intro raw h
  have hwf := wellFormed_of_readsAs h
  exact ⟨hwf, parse_toStr_of_wellFormed hwf⟩

/-! ## Losing text -/

/-- `Display` gives back the trimmed text, but for the digits of PRI and at most one SP at the end. -/
def Lossless (raw : Str) (m : SyslogMessage) : Prop :=
  ∃ pri body, trimEndMatches isLineEnd raw = '<' :: pri ++ '>' :: body ∧ '>' ∉ pri ∧
    (m.toStr = '<' :: decimal m.priority.asInteger ++ '>' :: body ∨
      m.msg = [] ∧ m.toStr ++ [' '] = '<' :: decimal m.priority.asInteger ++ '>' :: body)

/-- Text other than SP right behind a nil `-` or the last block. -/
def GluedText (raw : Str) : Prop :=
  ∃ h hd sd rest, trimEndMatches isLineEnd raw = h ++ (sd ++ rest) ∧ IsHeader h hd ∧ CutsSd sd rest ∧
    rest ≠ [] ∧ rest.head? ≠ some ' '

theorem afterSp_eq_nil {rest : Str} (h : rest.head? ≠ some ' ') : afterSp rest = [] := by
  unfold afterSp
  cases hs : stripPrefix [' '] rest with
  | none => rfl
  | some r => rw [stripPrefix_eq_some.1 hs] at h; simp at h

/-- **Parsing loses text exactly when some is glued to STRUCTURED-DATA.** -/
theorem parse_lossless_iff {raw : Str} {m : SyslogMessage} (h : parse raw = .ok m) :
    Lossless raw m ↔ ¬ GluedText raw := by
  obtain ⟨⟨h, rest, hraw, hh, hcut, hmsg⟩, -⟩ := parse_eq_ok.1 h
  obtain ⟨pri, hpri, -, htext⟩ := id hh
  have hcut_raw : trimEndMatches isLineEnd raw =
      '<' :: pri ++ '>' :: ('1' :: ' ' :: m.header.text ++ (m.structuredData ++ rest)) := by
    rw [hraw, htext]; simp
  constructor
  · rintro ⟨pri', body, hraw', hpri', hlos⟩ ⟨h', hd', sd', rest', hraw'', hh', hcut', hne, hsp⟩
    obtain ⟨rfl, rfl, hrest⟩ := hh.unique hh' (hraw.symm.trans hraw'')
    obtain ⟨rfl, rfl⟩ := hcut.unique hcut' hrest
    have heq : '<' :: (pri ++ '>' :: ('1' :: ' ' :: m.header.text ++ (m.structuredData ++ rest))) =
        '<' :: (pri' ++ '>' :: body) := by
      simpa using hcut_raw.symm.trans hraw'
    obtain ⟨-, rfl⟩ := cut_unique hpri.no_close hpri' (List.cons.inj heq).2
    -- nothing is left of the glued text
    have hnil : m.msg = [] := by rw [hmsg, afterSp_eq_nil hsp]
    rw [toStr_eq, hnil, wireTail, if_neg (by simp)] at hlos
    rcases hlos with hlos | ⟨-, hlos⟩
    · exact hne (by simpa using hlos)
    · have hrest : [' '] = rest := by simpa using hlos
      rw [← hrest] at hsp
      simp at hsp
  · intro hng
    refine ⟨pri, _, hcut_raw, hpri.no_close, ?_⟩
    rw [toStr_eq]
    by_cases hnil : rest = []
    · subst hnil
      rw [hmsg]
      exact .inl (by simp [wireTail, afterSp, stripPrefix])
    · by_cases hsp : rest.head? = some ' '
      · obtain ⟨msg, rfl⟩ := List.head?_eq_some_iff.1 hsp
        have hm : m.msg = msg := hmsg
        by_cases hmn : msg = []
        · subst hmn
          exact .inr ⟨hm, by simp [hm, wireTail]⟩
        · exact .inl (by simp [hm, wireTail, hmn])
      · exact absurd ⟨h, m.header, m.structuredData, rest, hraw, hh, hcut, hnil, hsp⟩ hng

theorem parse_lossless_msg :
    Lossless "<13>1 - - - - - - hi".toList (nilHeader.message ['-'] "hi".toList) ↔
      ¬ GluedText "<13>1 - - - - - - hi".toList :=
  parse_lossless_iff (by decide)

/-- The `x` of `-x` is in no field of the result. -/
theorem parse_loses_glued :
    parse "<13>1 - - - - - -x".toList = .ok (nilHeader.message ['-'] []) ∧
      ¬ Lossless "<13>1 - - - - - -x".toList (nilHeader.message ['-'] []) := by
  refine ⟨by decide, ?_⟩
  rintro ⟨pri, body, hraw, hpri, hlos⟩
  have htrim : trimEndMatches isLineEnd "<13>1 - - - - - -x".toList =
      '<' :: ("13".toList ++ '>' :: "1 - - - - - -x".toList) := by decide
  obtain ⟨-, rfl⟩ := cut_unique (by decide) hpri (List.cons.inj (htrim.symm.trans hraw)).2
  revert hlos
  decide

end LogFence
