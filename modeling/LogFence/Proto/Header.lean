import LogFence.Proto.Format
import LogFence.Rust.Numerals

/-!
# The header grammar (`syslog.rs:151-164`, `:199-310`, `:387-528`)

The grammar is stated on texts: a TIMESTAMP by its numbers (`IsTimestampText`), the other fields by their
characters (`IsPrintable`), PRI by its numeral. `validateTimestamp_grammar` compares the first with the byte
scanner. `readsAs_texts` says what `parse` makes of any six texts that keep clear of their separators, and
`parse_header_iff` when that is the grammar: PRI is left to `parse::<u8>`, which reads more than numerals.
-/

namespace LogFence

open Rust Outcome

/-! ## TIMESTAMP -/

/-- `YYYY-MM-DDThh:mm:ss`. -/
def IsDateTimeText (s : Str) : Prop :=
  ∃ year month day hour minute second,
    s = digits 4 year ++ '-' :: digits 2 month ++ '-' :: digits 2 day ++ 'T' :: digits 2 hour ++
      ':' :: digits 2 minute ++ ':' :: digits 2 second ∧
    year ≤ 9999 ∧ (1 ≤ month ∧ month ≤ 12) ∧ (1 ≤ day ∧ day ≤ 31) ∧ hour ≤ 23 ∧ minute ≤ 59 ∧ second ≤ 60

/-- Nothing, or `.` and 1 to 6 digits. -/
def IsFractionText (s : Str) : Prop :=
  s = [] ∨ ∃ ds : Str, s = '.' :: ds ∧ 1 ≤ ds.length ∧ ds.length ≤ 6 ∧ ∀ c ∈ ds, c.isDigit = true

/-- `Z`, or a sign and `hh:mm`. -/
def IsZoneText (s : Str) : Prop :=
  s = ['Z'] ∨ ∃ sign hour minute, s = sign :: (digits 2 hour ++ ':' :: digits 2 minute) ∧
    (sign = '+' ∨ sign = '-') ∧ hour ≤ 23 ∧ minute ≤ 59

/-- The documented grammar of a TIMESTAMP (`syslog.rs:415-418`). -/
def IsTimestampText (s : Str) : Prop :=
  ∃ d f z, s = d ++ f ++ z ∧ IsDateTimeText d ∧ IsFractionText f ∧ IsZoneText z

theorem isAsciiDigit_byte {c : Char} (h : isAscii c = true) : isAsciiDigit (byte c) = c.isDigit := by
  refine Bool.eq_iff_iff.2 ?_
  rw [isAsciiDigit_iff, isDigit_iff, toNat_byte h]

theorem toNat_byte_digitChar {d : Nat} (h : d < 10) : (byte d.digitChar).toNat = 48 + d := by
  rw [toNat_byte (isAscii_of_isDigit (isDigit_digitChar h)), Nat.toNat_digitChar_of_lt_ten h]

/-- A digit byte is the byte of a digit. -/
theorem byte_digitChar_of_isAsciiDigit {x : UInt8} (h : isAsciiDigit x = true) :
    x.toNat - 48 < 10 ∧ byte (x.toNat - 48).digitChar = x := by
  rw [isAsciiDigit_iff] at h
  have hlt : x.toNat - 48 < 10 := by omega
  refine ⟨hlt, UInt8.toNat_inj.1 ?_⟩
  rw [toNat_byte_digitChar hlt]
  omega

/-- Bytes that are digits are a numeral. -/
theorem exists_digits_of_bytes {b : Bytes} (h : ∀ x ∈ b, isAsciiDigit x = true) :
    ∃ n, n < 10 ^ b.length ∧ utf8 (digits b.length n) = b := by
  induction b using List.reverseRecOn with
  | nil => exact ⟨0, by simp, rfl⟩
  | append_singleton b x ih =>
    obtain ⟨n, hn, hb⟩ := ih fun y hy => h y (by simp [hy])
    obtain ⟨hd, hx⟩ := byte_digitChar_of_isAsciiDigit (h x (by simp))
    have hdiv : (10 * n + (x.toNat - 48)) / 10 = n := by omega
    have hmod : (10 * n + (x.toNat - 48)) % 10 = x.toNat - 48 := by omega
    refine ⟨10 * n + (x.toNat - 48), ?_, ?_⟩
    · rw [List.length_append, List.length_singleton, Nat.pow_succ]; omega
    · rw [List.length_append, List.length_singleton, digits, hdiv, hmod, utf8_append, hb,
        utf8_ascii (by simpa using isAscii_of_isDigit (isDigit_digitChar hd))]
      simp [hx]

theorem isAsciiDigit_of_mem_digits {w n : Nat} {x : UInt8} (h : x ∈ utf8 (digits w n)) : isAsciiDigit x = true := by
  rw [utf8_digits] at h
  obtain ⟨c, hc, rfl⟩ := List.mem_map.1 h
  have hd := isDigit_of_mem_digits hc
  rw [isAsciiDigit_byte (isAscii_of_isDigit hd), hd]

/-- Two digits, as bytes and as a number. -/
theorem utf8_digits_two (n : Nat) :
    utf8 (digits 2 n) = [byte (n / 10 % 10).digitChar, byte (n % 10).digitChar] := by
  rw [utf8_digits]
  rfl

theorem twoDigits_digits {n : Nat} (h : n < 100) :
    twoDigits (byte (n / 10 % 10).digitChar) (byte (n % 10).digitChar) = n := by
  rw [twoDigits, toNat_byte_digitChar (Nat.mod_lt _ (by decide)), toNat_byte_digitChar (Nat.mod_lt _ (by decide))]
  omega

theorem utf8_digits_twoDigits {x y : UInt8} (hx : isAsciiDigit x = true) (hy : isAsciiDigit y = true) :
    utf8 (digits 2 (twoDigits x y)) = [x, y] := by
  obtain ⟨hx1, hx2⟩ := byte_digitChar_of_isAsciiDigit hx
  obtain ⟨hy1, hy2⟩ := byte_digitChar_of_isAsciiDigit hy
  have h1 : ((x.toNat - 48) * 10 + (y.toNat - 48)) / 10 % 10 = x.toNat - 48 := by omega
  have h2 : ((x.toNat - 48) * 10 + (y.toNat - 48)) % 10 = y.toNat - 48 := by omega
  rw [utf8_digits_two, twoDigits, h1, h2, hx2, hy2]

/-- A number of a two-digit field is one its bytes spell. -/
theorem exists_two_bytes {n : Nat} (h : n < 100) : ∃ x y, utf8 (digits 2 n) = [x, y] ∧
    isAsciiDigit x = true ∧ isAsciiDigit y = true ∧ twoDigits x y = n := by
  have hmem : ∀ x ∈ utf8 (digits 2 n), isAsciiDigit x = true := fun x hx => isAsciiDigit_of_mem_digits hx
  rw [utf8_digits_two] at hmem
  exact ⟨_, _, utf8_digits_two n, hmem _ (by simp), hmem _ (by simp), twoDigits_digits h⟩

theorem isFraction_iff {f : Bytes} : IsFraction f ↔ ∃ t, IsFractionText t ∧ utf8 t = f := by
  constructor
  · rintro (rfl | ⟨ds, rfl, h1, h6, hall⟩)
    · exact ⟨[], .inl rfl, rfl⟩
    · obtain ⟨n, -, hn⟩ := exists_digits_of_bytes (List.all_eq_true.1 hall)
      refine ⟨'.' :: digits ds.length n, .inr ⟨_, rfl, ?_, ?_, fun c hc => isDigit_of_mem_digits hc⟩, ?_⟩
      · rwa [length_digits]
      · rwa [length_digits]
      · rw [utf8_cons_ascii (by decide), hn]
  · rintro ⟨t, rfl | ⟨ds, rfl, h1, h6, hall⟩, rfl⟩
    · exact .inl rfl
    · have hascii : ∀ c ∈ ds, isAscii c = true := fun c hc => isAscii_of_isDigit (hall c hc)
      refine .inr ⟨utf8 ds, utf8_cons_ascii (by decide) ds, ?_, ?_, List.all_eq_true.2 fun x hx => ?_⟩
      · rwa [utf8_ascii hascii, List.length_map]
      · rwa [utf8_ascii hascii, List.length_map]
      · rw [utf8_ascii hascii] at hx
        obtain ⟨c, hc, rfl⟩ := List.mem_map.1 hx
        rw [isAsciiDigit_byte (hascii c hc), hall c hc]

theorem isZone_iff {z : Bytes} : IsZone z ↔ ∃ t, IsZoneText t ∧ utf8 t = z := by
  constructor
  · rintro (rfl | ⟨sign, h₁, h₂, m₁, m₂, rfl, hsign, hall, hh, hm⟩)
    · exact ⟨['Z'], .inl rfl, by decide⟩
    · have hd := List.all_eq_true.1 hall
      have hhour := utf8_digits_twoDigits (hd h₁ (by simp)) (hd h₂ (by simp))
      have hmin := utf8_digits_twoDigits (hd m₁ (by simp)) (hd m₂ (by simp))
      rcases hsign with rfl | rfl
      · refine ⟨_, .inr ⟨'+', _, _, rfl, .inl rfl, hh, hm⟩, ?_⟩
        rw [utf8_cons_ascii (by decide), utf8_append, utf8_cons_ascii (by decide), hhour, hmin]
        rfl
      · refine ⟨_, .inr ⟨'-', _, _, rfl, .inr rfl, hh, hm⟩, ?_⟩
        rw [utf8_cons_ascii (by decide), utf8_append, utf8_cons_ascii (by decide), hhour, hmin]
        rfl
  · rintro ⟨t, rfl | ⟨sign, hour, minute, rfl, hsign, hh, hm⟩, rfl⟩
    · exact .inl (by decide)
    · obtain ⟨h₁, h₂, hhour, hd₁, hd₂, rfl⟩ := exists_two_bytes (n := hour) (by omega)
      obtain ⟨m₁, m₂, hmin, hd₃, hd₄, rfl⟩ := exists_two_bytes (n := minute) (by omega)
      have hascii : isAscii sign = true := by rcases hsign with rfl | rfl <;> decide
      refine .inr ⟨byte sign, h₁, h₂, m₁, m₂, ?_, ?_, by simp [hd₁, hd₂, hd₃, hd₄], hh, hm⟩
      · rw [utf8_cons_ascii hascii, utf8_append, utf8_cons_ascii (by decide), hhour, hmin]
        rfl
      · rcases hsign with rfl | rfl
        · exact .inl rfl
        · exact .inr rfl

theorem isDateTime_iff {d : Bytes} : IsDateTime d ↔ ∃ t, IsDateTimeText t ∧ utf8 t = d := by
  constructor
  · rintro ⟨y₁, y₂, y₃, y₄, o₁, o₂, d₁, d₂, h₁, h₂, m₁, m₂, s₁, s₂, rfl, hall, ho, hd, hh, hm, hs⟩
    have hdig := List.all_eq_true.1 hall
    obtain ⟨year, hlt, hyear⟩ := exists_digits_of_bytes (b := [y₁, y₂, y₃, y₄]) fun x hx => hdig x (by
      simp only [List.mem_cons, List.not_mem_nil, or_false] at hx ⊢
      tauto)
    refine ⟨_, ⟨year, _, _, _, _, _, rfl, ?_, ho, hd, hh, hm, hs⟩, ?_⟩
    · have : year < 10 ^ 4 := hlt
      omega
    · simp only [utf8_append, utf8_cons_ascii (by decide : isAscii '-' = true), utf8_cons_ascii (by decide : isAscii 'T' = true),
        utf8_cons_ascii (by decide : isAscii ':' = true)]
      rw [show utf8 (digits 4 year) = [y₁, y₂, y₃, y₄] from hyear,
        utf8_digits_twoDigits (hdig o₁ (by simp)) (hdig o₂ (by simp)),
        utf8_digits_twoDigits (hdig d₁ (by simp)) (hdig d₂ (by simp)),
        utf8_digits_twoDigits (hdig h₁ (by simp)) (hdig h₂ (by simp)),
        utf8_digits_twoDigits (hdig m₁ (by simp)) (hdig m₂ (by simp)),
        utf8_digits_twoDigits (hdig s₁ (by simp)) (hdig s₂ (by simp))]
      rfl
  · rintro ⟨t, ⟨year, month, day, hour, minute, second, rfl, hy, ho, hd, hh, hm, hs⟩, rfl⟩
    obtain ⟨o₁, o₂, hmonth, ho₁, ho₂, rfl⟩ := exists_two_bytes (n := month) (by omega)
    obtain ⟨d₁, d₂, hday, hd₁, hd₂, rfl⟩ := exists_two_bytes (n := day) (by omega)
    obtain ⟨h₁, h₂, hhour, hh₁, hh₂, rfl⟩ := exists_two_bytes (n := hour) (by omega)
    obtain ⟨m₁, m₂, hminute, hm₁, hm₂, rfl⟩ := exists_two_bytes (n := minute) (by omega)
    obtain ⟨s₁, s₂, hsecond, hs₁, hs₂, rfl⟩ := exists_two_bytes (n := second) (by omega)
    have hyear : ∀ x ∈ utf8 (digits 4 year), isAsciiDigit x = true := fun x hx => isAsciiDigit_of_mem_digits hx
    obtain ⟨y₁, y₂, y₃, y₄, hbytes⟩ : ∃ y₁ y₂ y₃ y₄, utf8 (digits 4 year) = [y₁, y₂, y₃, y₄] :=
      ⟨_, _, _, _, utf8_digits 4 year⟩
    rw [hbytes] at hyear
    refine ⟨y₁, y₂, y₃, y₄, o₁, o₂, d₁, d₂, h₁, h₂, m₁, m₂, s₁, s₂, ?_, ?_, ho, hd, hh, hm, hs⟩
    · simp only [utf8_append, utf8_cons_ascii (by decide : isAscii '-' = true), utf8_cons_ascii (by decide : isAscii 'T' = true),
        utf8_cons_ascii (by decide : isAscii ':' = true), hbytes, hmonth, hday, hhour, hminute, hsecond]
      rfl
    · simp [hyear y₁ (by simp), hyear y₂ (by simp), hyear y₃ (by simp), hyear y₄ (by simp), ho₁, ho₂, hd₁, hd₂, hh₁,
        hh₂, hm₁, hm₂, hs₁, hs₂]

/-- The byte grammar and the text grammar agree. -/
theorem isTimestamp_iff {s : Str} : IsTimestamp (utf8 s) ↔ IsTimestampText s := by
  constructor
  · rintro ⟨d, f, z, hs, hd, hf, hz⟩
    obtain ⟨dt, hdt, rfl⟩ := isDateTime_iff.1 hd
    obtain ⟨ft, hft, rfl⟩ := isFraction_iff.1 hf
    obtain ⟨zt, hzt, rfl⟩ := isZone_iff.1 hz
    rw [← utf8_append, ← utf8_append] at hs
    exact ⟨dt, ft, zt, utf8_injective hs, hdt, hft, hzt⟩
  · rintro ⟨d, f, z, rfl, hd, hf, hz⟩
    exact ⟨utf8 d, utf8 f, utf8 z, by rw [utf8_append, utf8_append], isDateTime_iff.2 ⟨d, hd, rfl⟩,
      isFraction_iff.2 ⟨f, hf, rfl⟩, isZone_iff.2 ⟨z, hz, rfl⟩⟩

/-- **`validate_timestamp` accepts its documented grammar**, and no byte access or `u8` operation panics. -/
theorem validateTimestamp_grammar (s : Str) :
    (validateTimestamp s = .ok () ↔ IsTimestampText s) ∧ validateTimestamp s ≠ .panic := by
  obtain ⟨hnp, hok⟩ := validateTimestamp_spec s
  exact ⟨hok.trans isTimestamp_iff, hnp⟩

/-! ## Six texts -/

/-- The texts that stand between the separators of a header. -/
structure HeaderTexts where
  pri : Str
  timestamp : Str
  hostname : Str
  appName : Str
  procId : Str
  msgId : Str

namespace HeaderTexts

def text (h : HeaderTexts) : Str :=
  '<' :: h.pri ++ '>' :: '1' :: ' ' :: (h.timestamp ++ ' ' :: h.hostname ++ ' ' :: h.appName ++ ' ' :: h.procId ++
    ' ' :: h.msgId ++ [' '])

/-- No text holds the separator that follows it. -/
structure Separate (h : HeaderTexts) : Prop where
  pri : '>' ∉ h.pri
  timestamp : ' ' ∉ h.timestamp
  hostname : ' ' ∉ h.hostname
  appName : ' ' ∉ h.appName
  procId : ' ' ∉ h.procId
  msgId : ' ' ∉ h.msgId

/-- The fields as `parse` reads them. -/
def header (h : HeaderTexts) (p : Priority) : Header :=
  ⟨p, nilToOption h.timestamp, nilToOption h.hostname, nilToOption h.appName, nilToOption h.procId, nilToOption h.msgId⟩

theorem header_text (h : HeaderTexts) (p : Priority) :
    h.text = '<' :: h.pri ++ '>' :: '1' :: ' ' :: (h.header p).text := by
  simp only [text, header, Header.text, orNil_nilToOption]

end HeaderTexts

/-- The first word of a text, when another reading of it has the same first word. -/
theorem nilToOption_of_cut {validate : Str → Outcome ParseError Unit} {x : Option Str} {v r t : Str}
    (hx : FieldOk validate x) (hsp : ' ' ∉ orNil x) (hv : ' ' ∉ v) (h : v ++ ' ' :: r = orNil x ++ ' ' :: t) :
    x = nilToOption v ∧ r = t := by
  obtain ⟨rfl, rfl⟩ := cut_unique hv hsp h
  exact ⟨(nilToOption_orNil hx.ne_nil).symm, rfl⟩

theorem Header.Valid.no_space {hd : Header} (h : hd.Valid) :
    ' ' ∉ orNil hd.timestamp ∧ ' ' ∉ orNil hd.hostname ∧ ' ' ∉ orNil hd.appName ∧ ' ' ∉ orNil hd.procId ∧
      ' ' ∉ orNil hd.msgId :=
  ⟨h.timestamp.no_space fun _ => not_mem_of_validateTimestamp, h.hostname.no_space not_mem_of_validatePrintusasciiField,
    h.appName.no_space not_mem_of_validatePrintusasciiField, h.procId.no_space not_mem_of_validatePrintusasciiField,
    h.msgId.no_space not_mem_of_validatePrintusasciiField⟩

/-- **What `parse` reads from six separate texts.** -/
theorem readsAs_texts {h : HeaderTexts} (hsep : h.Separate) {raw t : Str} {m : SyslogMessage}
    (htrim : trimEndMatches isLineEnd raw = h.text ++ t) :
    ReadsAs raw m ↔ (IsPri h.pri m.priority ∧ m.header = h.header m.priority ∧ (h.header m.priority).Valid) ∧
      ∃ rest, t = m.structuredData ++ rest ∧ CutsSd m.structuredData rest ∧ m.msg = afterSp rest := by
  constructor
  · rintro ⟨_, rest, hraw, ⟨pri, hpri, hv, rfl⟩, hcut, hmsg⟩
    rw [htrim, HeaderTexts.text, Header.text] at hraw
    simp only [List.append_assoc, List.cons_append, List.nil_append, List.cons.injEq, true_and] at hraw
    obtain ⟨rfl, hwords⟩ := cut_unique hsep.pri hpri.no_close hraw
    simp only [List.cons.injEq, true_and] at hwords
    -- word by word
    obtain ⟨s₁, s₂, s₃, s₄, s₅⟩ := hv.no_space
    obtain ⟨h₁, r₁⟩ := nilToOption_of_cut hv.timestamp s₁ hsep.timestamp hwords
    obtain ⟨h₂, r₂⟩ := nilToOption_of_cut hv.hostname s₂ hsep.hostname r₁
    obtain ⟨h₃, r₃⟩ := nilToOption_of_cut hv.appName s₃ hsep.appName r₂
    obtain ⟨h₄, r₄⟩ := nilToOption_of_cut hv.procId s₄ hsep.procId r₃
    obtain ⟨h₅, r₅⟩ := nilToOption_of_cut hv.msgId s₅ hsep.msgId r₄
    have hheader : m.header = h.header m.priority := by
      simp only [HeaderTexts.header, ← h₁, ← h₂, ← h₃, ← h₄, ← h₅]
      rfl
    exact ⟨⟨hpri, hheader, hheader ▸ hv⟩, rest, r₅, hcut, hmsg⟩
  · rintro ⟨⟨hpri, hheader, hv⟩, rest, rfl, hcut, hmsg⟩
    refine ⟨h.text, rest, htrim, ⟨h.pri, hpri, hheader ▸ hv, ?_⟩, hcut, hmsg⟩
    rw [hheader]
    exact h.header_text m.priority

/-! ## The grammar -/

/-- `1..=max` visible ASCII characters. -/
def IsPrintable (max : Nat) (s : Str) : Prop :=
  1 ≤ s.length ∧ s.length ≤ max ∧ ∀ c ∈ s, 33 ≤ c.toNat ∧ c.toNat ≤ 126

/-- The fields behind PRI, each `-` or a value of its grammar. -/
structure RfcFields (h : HeaderTexts) : Prop where
  timestamp : h.timestamp = ['-'] ∨ IsTimestampText h.timestamp
  hostname : h.hostname = ['-'] ∨ IsPrintable 255 h.hostname
  appName : h.appName = ['-'] ∨ IsPrintable 48 h.appName
  procId : h.procId = ['-'] ∨ IsPrintable 128 h.procId
  msgId : h.msgId = ['-'] ∨ IsPrintable 32 h.msgId

/-- A PRI: the numeral of `n`, one to three digits without a sign or a superfluous zero. -/
def IsPriNumeral (pri : Str) (n : Nat) : Prop := n ≤ 191 ∧ pri = decimal n

structure RfcHeader (h : HeaderTexts) : Prop where
  pri : ∃ n, IsPriNumeral h.pri n
  fields : RfcFields h

theorem fieldOk_nilToOption {validate : Str → Outcome ParseError Unit} {v : Str} :
    FieldOk validate (nilToOption v) ↔ v = ['-'] ∨ validate v = .ok () := by
  unfold nilToOption FieldOk
  by_cases hv : v = ['-']
  · simp [hv]
  · simp [hv]

theorem isPrintable_iff {s : Str} {field : String} {max : Nat} :
    validatePrintusasciiField s field max = .ok () ↔ IsPrintable max s := by
  rw [validatePrintusasciiField_eq_ok, IsPrintable, Nat.succ_le_iff, List.length_pos_iff]
  simp only [isPrintUsAscii, decide_eq_true_eq]

/-- The parser's field checks are the grammar's. -/
theorem valid_iff_rfcFields {h : HeaderTexts} {p : Priority} : (h.header p).Valid ↔ RfcFields h := by
  have hts : FieldOk validateTimestamp (nilToOption h.timestamp) ↔ h.timestamp = ['-'] ∨ IsTimestampText h.timestamp := by
    rw [fieldOk_nilToOption, (validateTimestamp_spec _).2, isTimestamp_iff]
  have hfield : ∀ (v : Str) (field : String) (max : Nat),
      FieldOk (validatePrintusasciiField · field max) (nilToOption v) ↔ v = ['-'] ∨ IsPrintable max v := by
    intro v field max
    rw [fieldOk_nilToOption, isPrintable_iff]
  constructor
  · rintro ⟨h₁, h₂, h₃, h₄, h₅⟩
    exact ⟨hts.1 h₁, (hfield _ _ _).1 h₂, (hfield _ _ _).1 h₃, (hfield _ _ _).1 h₄, (hfield _ _ _).1 h₅⟩
  · rintro ⟨h₁, h₂, h₃, h₄, h₅⟩
    exact ⟨hts.2 h₁, (hfield _ _ _).2 h₂, (hfield _ _ _).2 h₃, (hfield _ _ _).2 h₄, (hfield _ _ _).2 h₅⟩

/-- Behind a `-` everything is MSG. -/
theorem cutsSd_nil {sd rest t : Str} (h : '-' :: t = sd ++ rest) (hcut : CutsSd sd rest) : sd = ['-'] ∧ rest = t := by
  rcases hcut with rfl | ⟨hne, hsd, -⟩
  · exact ⟨rfl, (List.cons.inj h).2.symm⟩
  · obtain ⟨u, rfl⟩ := List.head?_eq_some_iff.1 (hsd.head? hne)
    simp at h

/-- **What `parse` makes of six separate texts, nil STRUCTURED-DATA and a MSG.** -/
theorem parse_texts {h : HeaderTexts} (hsep : h.Separate) {raw rest : Str} {m : SyslogMessage}
    (htrim : trimEndMatches isLineEnd raw = h.text ++ '-' :: rest) :
    parse raw = .ok m ↔ (IsPri h.pri m.priority ∧ RfcFields h) ∧
      m = (h.header m.priority).message ['-'] (afterSp rest) := by
  rw [parse_eq_ok, readsAs_texts hsep htrim, valid_iff_rfcFields]
  constructor
  · rintro ⟨⟨⟨hpri, hheader, hv⟩, rest', heq, hcut, hmsg⟩, -⟩
    obtain ⟨hsd, rfl⟩ := cutsSd_nil heq hcut
    refine ⟨⟨hpri, hv⟩, ?_⟩
    rw [← hheader, ← hmsg, ← hsd]
    exact (message_header m).symm
  · rintro ⟨⟨hpri, hv⟩, hm⟩
    have hsd : m.structuredData = ['-'] := by rw [hm]; rfl
    have hheader : m.header = h.header m.priority := congrArg SyslogMessage.header hm
    have hmsg : m.msg = afterSp rest := congrArg SyslogMessage.msg hm
    refine ⟨⟨⟨hpri, hheader, hv⟩, rest, by rw [hsd]; rfl, .inl hsd, hmsg⟩, ?_⟩
    rw [hsd]
    rfl

/-- A text `parse::<u8>` reads as a priority although it is no PRI: a `+` or zeros stand before the numeral. -/
def PaddedPri (pri : Str) : Prop :=
  ∃ sign k n, n ≤ 191 ∧ (sign = [] ∨ sign = ['+']) ∧ (sign = ['+'] ∨ 0 < k) ∧
    pri = sign ++ (List.replicate k '0' ++ decimal n)

/-- A padded numeral is no numeral. -/
theorem PaddedPri.not_numeral {pri : Str} (h : PaddedPri pri) (n : Nat) : ¬ IsPriNumeral pri n := by
  obtain ⟨sign, k, j, -, hsign, hpad, rfl⟩ := h
  rintro ⟨-, heq⟩
  rcases hsign with rfl | rfl
  · rcases hpad with hpad | hk
    · cases hpad
    · -- the same value, in too many digits
      rw [List.nil_append] at heq
      have hvalue := congrArg (fun s => Nat.ofDigitChars 10 s 0) heq
      simp only [Nat.ofDigitChars_append, Nat.ofDigitChars_replicate_zero, Nat.mul_zero, decimal,
        Nat.ofDigitChars_ten_toDigits] at hvalue
      subst hvalue
      have := congrArg List.length heq
      rw [List.length_append, List.length_replicate] at this
      omega
  · exact not_mem_decimal (n := n) (c := '+') (by decide) (by rw [← heq]; simp)

theorem exists_isPri_iff {pri : Str} : (∃ p, IsPri pri p) ↔ (∃ n, IsPriNumeral pri n) ∨ PaddedPri pri := by
  constructor
  · rintro ⟨p, hp⟩
    obtain ⟨-, sign, k, hsign, hs⟩ := parseUnsigned_eq_some.1 hp
    by_cases hpad : sign = ['+'] ∨ 0 < k
    · exact .inr ⟨sign, k, _, p.asInteger_le, hsign, hpad, hs⟩
    · push Not at hpad
      obtain rfl : sign = [] := hsign.resolve_right hpad.1
      obtain rfl : k = 0 := by omega
      exact .inl ⟨_, p.asInteger_le, hs⟩
  · have hread : ∀ n sign k, n ≤ 191 → (sign = [] ∨ sign = ['+']) → pri = sign ++ (List.replicate k '0' ++ decimal n) →
        ∃ p, IsPri pri p := by
      intro n sign k hn hsign hpri
      obtain ⟨p, hp⟩ := Priority.fromInteger_ok hn
      exact ⟨p, isPri_iff.2 ⟨n, parseUnsigned_eq_some.2 ⟨by omega, sign, k, hsign, hpri⟩, hp⟩⟩
    rintro (⟨n, hn, hpri⟩ | ⟨sign, k, n, hn, hsign, -, hpri⟩)
    · exact hread n [] 0 hn (.inl rfl) hpri
    · exact hread n sign k hn hsign hpri

/-- `parse` of the header `h`, nil STRUCTURED-DATA and `msg` succeeds exactly on the grammar, and gives the values
    that stand there. -/
structure HeaderExact (h : HeaderTexts) (msg : Str) : Prop where
  accepts : (∃ m, parse (h.text ++ '-' :: ' ' :: msg) = .ok m) ↔ RfcHeader h
  values : ∀ n, IsPriNumeral h.pri n → ∀ m, parse (h.text ++ '-' :: ' ' :: msg) = .ok m →
    m = (h.header m.priority).message ['-'] msg ∧
      m.priority.facility.toNat = n / 8 ∧ m.priority.severity.toNat = n % 8

/-- **When the parser's header is that of RFC 5424.** -/
theorem parse_header_iff {h : HeaderTexts} (hsep : h.Separate) {msg : Str} (hne : msg ≠ [])
    (hend : ∀ c, msg.getLast? = some c → isLineEnd c = false) :
    HeaderExact h msg ↔ ¬ (PaddedPri h.pri ∧ RfcFields h) := by
  have htrim : trimEndMatches isLineEnd (h.text ++ '-' :: ' ' :: msg) = h.text ++ '-' :: ' ' :: msg := by
    refine trim_eq_self (by simp) fun c hc => hend c ?_
    obtain ⟨d, hd⟩ : ∃ d, msg.getLast? = some d := ⟨_, List.getLast?_eq_getLast_of_ne_nil hne⟩
    rw [List.getLast?_cons, List.getLast?_cons, hd] at hc
    rw [hd]
    exact hc
  have hparse := fun m => parse_texts hsep (m := m) htrim
  have hok : (∃ m, parse (h.text ++ '-' :: ' ' :: msg) = .ok m) ↔
      ((∃ n, IsPriNumeral h.pri n) ∨ PaddedPri h.pri) ∧ RfcFields h := by
    rw [← exists_isPri_iff]
    constructor
    · rintro ⟨m, hm⟩
      obtain ⟨⟨hpri, hv⟩, -⟩ := (hparse m).1 hm
      exact ⟨⟨_, hpri⟩, hv⟩
    · rintro ⟨⟨p, hp⟩, hv⟩
      exact ⟨_, (hparse ((h.header p).message ['-'] msg)).2 ⟨⟨hp, hv⟩, rfl⟩⟩
  constructor
  · rintro hexact ⟨hpad, hv⟩
    obtain ⟨n, hn⟩ := (hexact.accepts.1 (hok.2 ⟨.inr hpad, hv⟩)).pri
    exact hpad.not_numeral n hn
  · intro hcond
    refine ⟨hok.trans ⟨?_, fun hr => ⟨.inl hr.pri, hr.fields⟩⟩, ?_⟩
    · rintro ⟨hpri | hpad, hv⟩
      · exact ⟨hpri, hv⟩
      · exact absurd ⟨hpad, hv⟩ hcond
    · rintro n ⟨hn, hpri⟩ m hm
      obtain ⟨⟨hread, -⟩, hmsg⟩ := (hparse m).1 hm
      rw [IsPri, hpri, parseUnsigned_decimal (by omega), Option.some.injEq] at hread
      refine ⟨hmsg, ?_, ?_⟩
      · rw [hread]; exact m.priority.asInteger_div.symm
      · rw [hread]; exact m.priority.asInteger_mod.symm

/-- All fields nil behind a given PRI. -/
def nilTexts (pri : Str) : HeaderTexts := ⟨pri, ['-'], ['-'], ['-'], ['-'], ['-']⟩

theorem nilTexts_rfcFields (pri : Str) : RfcFields (nilTexts pri) := ⟨.inl rfl, .inl rfl, .inl rfl, .inl rfl, .inl rfl⟩

theorem nilTexts_separate {pri : Str} (h : '>' ∉ pri) : (nilTexts pri).Separate := by
  have hnil : ' ' ∉ ['-'] := by decide
  exact ⟨h, hnil, hnil, hnil, hnil, hnil⟩

theorem parse_header_thirteen :
    HeaderExact (nilTexts ['1', '3']) ['x'] ↔
      ¬ (PaddedPri (nilTexts ['1', '3']).pri ∧ RfcFields (nilTexts ['1', '3'])) :=
  parse_header_iff (nilTexts_separate (by decide)) (by decide) (by intro c hc; cases hc; decide)

/-- `<+13>` is read as `<13>`. -/
theorem parse_accepts_signed_pri :
    parse ((nilTexts ['+', '1', '3']).text ++ '-' :: ' ' :: ['x']) = .ok (nilHeader.message ['-'] ['x']) ∧
      RfcFields (nilTexts ['+', '1', '3']) ∧ PaddedPri ['+', '1', '3'] ∧
        ¬ HeaderExact (nilTexts ['+', '1', '3']) ['x'] := by
  have hparse : parse ((nilTexts ['+', '1', '3']).text ++ '-' :: ' ' :: ['x']) = .ok (nilHeader.message ['-'] ['x']) := by
    decide
  have hpad : PaddedPri ['+', '1', '3'] := ⟨['+'], 0, 13, by decide, .inr rfl, .inl rfl, by decide⟩
  refine ⟨hparse, nilTexts_rfcFields _, hpad, fun hexact => ?_⟩
  obtain ⟨n, hn⟩ := (hexact.accepts.1 ⟨_, hparse⟩).pri
  exact hpad.not_numeral n hn

end LogFence
