import LogFence.Proto.Header

/-!
# Reading a message back that was never checked (`syslog.rs:199-289`)

`to_string` writes whatever the fields hold. For a message with nil STRUCTURED-DATA, `faithful_iff` says when
`parse` gives back its fields or refuses it: unless a header field holds a space and the text, cut at its
spaces, is some other header and what may follow one (`Shifts`).
-/

namespace LogFence

open Rust Outcome

/-- `r` is `m`, nil read as `-`, up to line ends behind MSG. -/
structure SameFields (r m : SyslogMessage) : Prop where
  priority : r.priority = m.priority
  timestamp : orNil r.timestamp = orNil m.timestamp
  hostname : orNil r.hostname = orNil m.hostname
  appName : orNil r.appName = orNil m.appName
  procId : orNil r.procId = orNil m.procId
  msgId : orNil r.msgId = orNil m.msgId
  structuredData : r.structuredData = m.structuredData
  msg : trimEndMatches isLineEnd r.msg = trimEndMatches isLineEnd m.msg

/-- The text of `m` is refused or read as `m`. -/
def Faithful (m : SyslogMessage) : Prop :=
  (∃ e, parse m.toStr = .err e) ∨ ∃ r, parse m.toStr = .ok r ∧ SameFields r m

/-- The header fields as `to_string` writes them. -/
def SyslogMessage.texts (m : SyslogMessage) : HeaderTexts :=
  ⟨decimal m.priority.asInteger, orNil m.timestamp, orNil m.hostname, orNil m.appName, orNil m.procId, orNil m.msgId⟩

/-- A header field has a space in it. -/
def HoldsSpace (m : SyslogMessage) : Prop :=
  ∃ f ∈ [m.timestamp, m.hostname, m.appName, m.procId, m.msgId], ' ' ∈ orNil f

/-- A header field with a space in it, and a text that is a header and STRUCTURED-DATA again, cut elsewhere. -/
structure Shifts (m : SyslogMessage) : Prop where
  space : HoldsSpace m
  read : ∃ h hd sd rest, trimEndMatches isLineEnd m.toStr = h ++ (sd ++ rest) ∧ IsHeader h hd ∧ CutsSd sd rest ∧
    ∀ e, validateStructuredDataContent sd ≠ .err e

theorem separate_texts_iff {m : SyslogMessage} : m.texts.Separate ↔ ¬ HoldsSpace m := by
  simp only [HoldsSpace, List.mem_cons, List.not_mem_nil, or_false, exists_eq_or_imp, exists_eq_left, not_or]
  constructor
  · rintro ⟨-, h₁, h₂, h₃, h₄, h₅⟩
    exact ⟨h₁, h₂, h₃, h₄, h₅⟩
  · rintro ⟨h₁, h₂, h₃, h₄, h₅⟩
    exact ⟨not_mem_decimal (by decide), h₁, h₂, h₃, h₄, h₅⟩

/-- Fields a header was read from have no space in them. -/
theorem not_holdsSpace_of_sameFields {r m : SyslogMessage} (hv : r.header.Valid) (h : SameFields r m) : ¬ HoldsSpace m := by
  obtain ⟨s₁, s₂, s₃, s₄, s₅⟩ := hv.no_space
  simp only [HoldsSpace, List.mem_cons, List.not_mem_nil, or_false, exists_eq_or_imp, exists_eq_left, not_or,
    ← h.timestamp, ← h.hostname, ← h.appName, ← h.procId, ← h.msgId]
  exact ⟨s₁, s₂, s₃, s₄, s₅⟩

/-- What is left of the text behind the header. -/
theorem trim_toStr {m : SyslogMessage} (hsd : m.structuredData = ['-']) :
    ∃ rest, trimEndMatches isLineEnd m.toStr = m.texts.text ++ '-' :: rest ∧
      afterSp rest = trimEndMatches isLineEnd m.msg := by
  have htext : m.toStr = m.texts.text ++ '-' :: wireTail m.msg := by
    rw [toStr_eq, hsd]
    simp [HeaderTexts.text, SyslogMessage.texts, Header.text, SyslogMessage.header]
  refine ⟨trimEndMatches isLineEnd (wireTail m.msg), ?_, ?_⟩
  · rw [htext, trimEndMatches_cons_of_not _ (by decide)]
  · unfold wireTail
    by_cases hmsg : m.msg = []
    · rw [if_neg (not_not.2 hmsg), hmsg]
      rfl
    · have htrim := trimEndMatches_cons_of_not (p := isLineEnd) [] (c := ' ') (by decide) m.msg
      rw [if_pos hmsg]
      exact (congrArg afterSp htrim).trans rfl

/-- Without spaces the fields are read back, or one of them is refused. -/
theorem faithful_of_separate {m : SyslogMessage} (hsd : m.structuredData = ['-']) (hsep : m.texts.Separate) :
    Faithful m := by
  obtain ⟨rest, htrim, hrest⟩ := trim_toStr hsd
  by_cases hv : RfcFields m.texts
  · have hpri : IsPri m.texts.pri m.priority := parseUnsigned_decimal (m.priority.asInteger_le.trans (by decide))
    refine .inr ⟨(m.texts.header m.priority).message ['-'] (afterSp rest), (parse_texts hsep htrim).2 ⟨⟨hpri, hv⟩, rfl⟩, ?_⟩
    exact ⟨rfl, orNil_nilToOption _, orNil_nilToOption _, orNil_nilToOption _, orNil_nilToOption _, orNil_nilToOption _,
      hsd.symm, by rw [← trimEndMatches_idem isLineEnd m.msg, ← hrest]; rfl⟩
  · rcases hp : parse m.toStr with r | e | _
    · exact absurd ((parse_texts hsep htrim).1 hp).1.2 hv
    · exact .inl ⟨e, hp⟩
    · -- behind a nil STRUCTURED-DATA nothing panics
      obtain ⟨r, hr, hpanic⟩ := parse_eq_panic.1 hp
      obtain ⟨-, rest', heq, hcut, -⟩ := (readsAs_texts hsep htrim).1 hr
      rw [(cutsSd_nil heq hcut).1] at hpanic
      cases hpanic

/-- **When a message that nobody checked is read back.** -/
theorem faithful_iff {m : SyslogMessage} (hsd : m.structuredData = ['-']) : Faithful m ↔ ¬ Shifts m := by
  constructor
  · rintro hfaithful ⟨hspace, h, hd, sd, rest, htrim, hh, hcut, hcontent⟩
    have hread : ReadsAs m.toStr (hd.message sd (afterSp rest)) := ⟨h, rest, htrim, hh, hcut, rfl⟩
    rcases hfaithful with ⟨e, he⟩ | ⟨r, hr, hsame⟩
    · rcases hv : validateStructuredDataContent sd with _ | e' | _
      · rw [parse_eq_ok.2 ⟨hread, hv⟩] at he
        cases he
      · exact hcontent e' hv
      · rw [parse_eq_panic.2 ⟨_, hread, hv⟩] at he
        cases he
    · obtain ⟨⟨_, _, -, ⟨_, -, hvalid, -⟩, -, -⟩, -⟩ := parse_eq_ok.1 hr
      exact not_holdsSpace_of_sameFields hvalid hsame hspace
  · intro hshifts
    by_cases hspace : HoldsSpace m
    · have hno : ∀ r, ReadsAs m.toStr r → ∃ e, validateStructuredDataContent r.structuredData = .err e := by
        rintro r ⟨h, rest, htrim, hh, hcut, -⟩
        by_contra hnone
        exact hshifts ⟨hspace, h, r.header, r.structuredData, rest, htrim, hh, hcut, not_exists.1 hnone⟩
      rcases hp : parse m.toStr with r | e | _
      · obtain ⟨hr, hv⟩ := parse_eq_ok.1 hp
        obtain ⟨e, he⟩ := hno r hr
        rw [hv] at he
        cases he
      · exact .inl ⟨e, hp⟩
      · obtain ⟨r, hr, hv⟩ := parse_eq_panic.1 hp
        obtain ⟨e, he⟩ := hno r hr
        rw [hv] at he
        cases he
    · exact faithful_of_separate hsd (separate_texts_iff.2 hspace)

end LogFence
