import LogFence.Proto.Message
import LogFence.Rust.Scan

/-!
# Field validators (`syslog.rs:387-528`, `:619-641`)

| here | there |
| --- | --- |
| `validatePrintusasciiField` | `validate_printusascii_field` (`syslog.rs:387`) |
| `validateSdName`            | `validate_sd_name` (`:619`) |
| `validateTimestamp`         | `validate_timestamp` (`:419`); `fraction` and `timezone` are its two variable-length parts (`:468-479`, `:481-506`) |
| `allDigits`, `parse2digit`  | `all_digits` (`:522`), `parse2digit` (`:526`) |

Byte reads and `u8` arithmetic can panic here, as in the source; `validateTimestamp_spec` shows that
they never do, and what is accepted.
-/

namespace LogFence

open Rust Outcome

/-! ## Tokens of visible ASCII -/

/-- `matches!(c as u32, 33..=126)`. -/
def isPrintUsAscii (c : Char) : Bool := decide (33 ≤ c.toNat ∧ c.toNat ≤ 126)

/-- The two token validators differ in the characters they allow and in how they name a bad one. -/
def validateToken (allowed : Char → Bool) (bad : Char → Reason) (s : Str) (field : String) (maxLen : Nat) :
    Outcome ParseError Unit :=
  if s = [] then .err (.invalidField field (.text "must not be empty"))
  else if len s > maxLen then .err (.invalidField field (.exceeds maxLen (len s)))
  else match s.find? (fun c => !allowed c) with
    | some c => .err (.invalidField field (bad c))
    | none => .ok ()

def validatePrintusasciiField (s : Str) (field : String) (maxLen : Nat) : Outcome ParseError Unit :=
  validateToken isPrintUsAscii .nonPrintable s field maxLen

/-- What `validate_sd_name` allows: visible ASCII other than `=`, `]` and `"`. -/
def isSdNameChar (c : Char) : Bool := isPrintUsAscii c && !(c == '=' || c == ']' || c == '"')

def validateSdName (s : Str) (field : String) : Outcome ParseError Unit :=
  validateToken isSdNameChar .invalidChar s field 32

theorem isAscii_of_printUsAscii {c : Char} (h : isPrintUsAscii c = true) : isAscii c = true := by
  simp only [isPrintUsAscii, decide_eq_true_eq] at h
  simp only [isAscii, decide_eq_true_eq]
  omega

theorem isPrintUsAscii_of_sdNameChar {c : Char} (h : isSdNameChar c = true) : isPrintUsAscii c = true :=
  (Bool.and_eq_true _ _ ▸ h).1

theorem validateToken_eq_ok {allowed : Char → Bool} {bad : Char → Reason} {s : Str} {field : String} {maxLen : Nat}
    (hascii : ∀ c, allowed c = true → isPrintUsAscii c = true) :
    validateToken allowed bad s field maxLen = .ok () ↔
      s ≠ [] ∧ s.length ≤ maxLen ∧ ∀ c ∈ s, allowed c = true := by
  unfold validateToken
  split
  · rename_i h; simp [h]
  · rename_i h
    have hlen : (∀ c ∈ s, allowed c = true) → len s = s.length := fun hp =>
      len_eq_length fun c hc => isAscii_of_printUsAscii (hascii c (hp c hc))
    split
    · rename_i hl
      simp only [reduceCtorEq, false_iff]
      rintro ⟨-, hle, hp⟩
      rw [hlen hp] at hl; omega
    · rename_i hl
      split
      · rename_i c hc
        simp only [reduceCtorEq, false_iff]
        rintro ⟨-, -, hp⟩
        have h1 := List.find?_some hc
        rw [hp c (List.mem_of_find?_eq_some hc)] at h1
        simp at h1
      · rename_i hn
        have hp : ∀ c ∈ s, allowed c = true := by simpa using hn
        simp only [true_iff]
        exact ⟨h, by rw [← hlen hp]; omega, hp⟩

theorem validateToken_ne_panic (allowed : Char → Bool) (bad : Char → Reason) (s : Str) (field : String)
    (maxLen : Nat) : validateToken allowed bad s field maxLen ≠ .panic := by
  unfold validateToken
  split
  · simp
  · split
    · simp
    · split <;> simp

/-- **Accepted fields**: `1..=max_len` characters, all visible ASCII. -/
theorem validatePrintusasciiField_eq_ok {s : Str} {field : String} {maxLen : Nat} :
    validatePrintusasciiField s field maxLen = .ok () ↔
      s ≠ [] ∧ s.length ≤ maxLen ∧ ∀ c ∈ s, isPrintUsAscii c = true :=
  validateToken_eq_ok fun _ h => h

theorem validateSdName_eq_ok {s : Str} {field : String} :
    validateSdName s field = .ok () ↔ s ≠ [] ∧ s.length ≤ 32 ∧ ∀ c ∈ s, isSdNameChar c = true :=
  validateToken_eq_ok fun _ h => isPrintUsAscii_of_sdNameChar h

theorem not_mem_of_printUsAscii {s : Str} (h : ∀ c ∈ s, isPrintUsAscii c = true) : ' ' ∉ s := by
  intro hm
  exact absurd (h ' ' hm) (by decide)

/-! ## TIMESTAMP -/

/-- `u8::is_ascii_digit`. -/
def isAsciiDigit (x : UInt8) : Bool := decide (48 ≤ x.toNat ∧ x.toNat ≤ 57)

def allDigits (b : Bytes) : Bool := !b.isEmpty && b.all isAsciiDigit

def tsErr (reason : String) : ParseError := .invalidField "TIMESTAMP" (.text reason)

/-- `(b[0] - b'0') * 10 + (b[1] - b'0')` in `u8`. -/
def parse2digit (b : Bytes) : Outcome ParseError Nat := do
  let x ← index b 0
  let x ← u8Sub x.toNat 48
  let x ← u8Mul x 10
  let y ← index b 1
  let y ← u8Sub y.toNat 48
  u8Add x y

/-- Optional fractional seconds from `pos` on: `.` and 1 to 6 digits (`:468-479`). -/
def fraction (b : Bytes) (pos : Nat) : Outcome ParseError Nat := do
  let dot ← byteAt b pos (byte '.')
  if dot then
    let fracStart := pos + 1
    let pos ← skipWhile isAsciiDigit b fracStart
    let fracLen := pos - fracStart
    if ¬ (1 ≤ fracLen ∧ fracLen ≤ 6) then .err (tsErr "fractional seconds must be 1–6 digits")
    else pure pos
  else pure pos

/-- The timezone at `pos`: `Z`, or `+`/`-` and `hh:mm` (`:481-506`). -/
def timezone (b : Bytes) (pos : Nat) : Outcome ParseError Nat := do
  if pos ≥ b.length then .err (tsErr "missing timezone")
  else
    let x ← index b pos
    if x = byte 'Z' then pure (pos + 1)
    else if x = byte '+' ∨ x = byte '-' then
      let pos := pos + 1
      if pos + 5 > b.length then .err (tsErr "timezone offset too short")
      else
        let malformed ← anyOf [
          (!allDigits ·) <$> subslice b pos (pos + 2),
          (· != byte ':') <$> index b (pos + 2),
          (!allDigits ·) <$> subslice b (pos + 3) (pos + 5)]
        if malformed then .err (tsErr "timezone offset does not match hh:mm format")
        else
          let tzHour ← subslice b pos (pos + 2) >>= parse2digit
          let tzMin ← subslice b (pos + 3) (pos + 5) >>= parse2digit
          if tzHour > 23 ∨ tzMin > 59 then .err (tsErr "timezone offset out of range")
          else pure (pos + 5)
    else .err (tsErr "invalid timezone indicator (expected 'Z' or '+'/'-')")

/-- `validate_timestamp` (`syslog.rs:419`). -/
def validateTimestamp (s : Str) : Outcome ParseError Unit := do
  let b := utf8 s
  if b.length < 20 then .err (tsErr "too short for RFC 5424 timestamp")
  else
    let malformed ← anyOf [
      (!allDigits ·) <$> subslice b 0 4,
      (· != byte '-') <$> index b 4,
      (!allDigits ·) <$> subslice b 5 7,
      (· != byte '-') <$> index b 7,
      (!allDigits ·) <$> subslice b 8 10,
      (· != byte 'T') <$> index b 10,
      (!allDigits ·) <$> subslice b 11 13,
      (· != byte ':') <$> index b 13,
      (!allDigits ·) <$> subslice b 14 16,
      (· != byte ':') <$> index b 16,
      (!allDigits ·) <$> subslice b 17 19]
    if malformed then .err (tsErr "does not match YYYY-MM-DDThh:mm:ss format")
    else
      let month ← subslice b 5 7 >>= parse2digit
      let day ← subslice b 8 10 >>= parse2digit
      let hour ← subslice b 11 13 >>= parse2digit
      let minute ← subslice b 14 16 >>= parse2digit
      let second ← subslice b 17 19 >>= parse2digit
      if ¬ (1 ≤ month ∧ month ≤ 12) then .err (tsErr "month out of range (01–12)")
      else if ¬ (1 ≤ day ∧ day ≤ 31) then .err (tsErr "day out of range (01–31)")
      else if hour > 23 then .err (tsErr "hour out of range (00–23)")
      else if minute > 59 then .err (tsErr "minute out of range (00–59)")
      else if second > 60 then .err (tsErr "second out of range (00–60)")
      else
        let pos ← fraction b 19
        let pos ← timezone b pos
        if pos ≠ b.length then .err (tsErr "trailing characters after timezone")
        else pure ()

/-! ### What a timestamp is -/

def twoDigits (x y : UInt8) : Nat := (x.toNat - 48) * 10 + (y.toNat - 48)

/-- `.` and 1 to 6 digits, or nothing. -/
def IsFraction (f : Bytes) : Prop :=
  f = [] ∨ ∃ ds : Bytes, f = byte '.' :: ds ∧ 1 ≤ ds.length ∧ ds.length ≤ 6 ∧ ds.all isAsciiDigit = true

/-- `Z`, or a sign and `hh:mm` with `hh ≤ 23`, `mm ≤ 59`. -/
def IsZone (z : Bytes) : Prop :=
  z = [byte 'Z'] ∨ ∃ sign h₁ h₂ m₁ m₂, z = [sign, h₁, h₂, byte ':', m₁, m₂] ∧
    (sign = byte '+' ∨ sign = byte '-') ∧ [h₁, h₂, m₁, m₂].all isAsciiDigit = true ∧
    twoDigits h₁ h₂ ≤ 23 ∧ twoDigits m₁ m₂ ≤ 59

/-- `YYYY-MM-DDThh:mm:ss`, each number in its range. -/
def IsDateTime (d : Bytes) : Prop :=
  ∃ y₁ y₂ y₃ y₄ o₁ o₂ d₁ d₂ h₁ h₂ m₁ m₂ s₁ s₂,
    d = [y₁, y₂, y₃, y₄, byte '-', o₁, o₂, byte '-', d₁, d₂, byte 'T', h₁, h₂, byte ':', m₁, m₂,
      byte ':', s₁, s₂] ∧
    [y₁, y₂, y₃, y₄, o₁, o₂, d₁, d₂, h₁, h₂, m₁, m₂, s₁, s₂].all isAsciiDigit = true ∧
    (1 ≤ twoDigits o₁ o₂ ∧ twoDigits o₁ o₂ ≤ 12) ∧ (1 ≤ twoDigits d₁ d₂ ∧ twoDigits d₁ d₂ ≤ 31) ∧
    twoDigits h₁ h₂ ≤ 23 ∧ twoDigits m₁ m₂ ≤ 59 ∧ twoDigits s₁ s₂ ≤ 60

/-- The bytes of an RFC 5424 TIMESTAMP. -/
def IsTimestamp (b : Bytes) : Prop :=
  ∃ d f z, b = d ++ f ++ z ∧ IsDateTime d ∧ IsFraction f ∧ IsZone z

theorem subslice_append {ε : Type} (p m r : Bytes) {i j : Nat} (hi : i = p.length)
    (hj : j = p.length + m.length) : (subslice (p ++ (m ++ r)) i j : Outcome ε Bytes) = .ok m := by
  subst hi hj
  simp [subslice]

theorem index_append {ε : Type} (p : Bytes) (x : UInt8) (r : Bytes) {i : Nat} (hi : i = p.length) :
    (index (p ++ x :: r) i : Outcome ε UInt8) = .ok x := by
  subst hi
  exact index_ok (by simp)

theorem isAsciiDigit_iff {x : UInt8} : isAsciiDigit x = true ↔ 48 ≤ x.toNat ∧ x.toNat ≤ 57 := by
  simp [isAsciiDigit]

theorem allDigits_cons (x : UInt8) (b : Bytes) : allDigits (x :: b) = (x :: b).all isAsciiDigit := by
  simp [allDigits]

theorem parse2digit_digits {x y : UInt8} (hx : isAsciiDigit x = true) (hy : isAsciiDigit y = true) :
    parse2digit [x, y] = .ok (twoDigits x y) := by
  rw [isAsciiDigit_iff] at hx hy
  have h1 : x.toNat - 48 ≤ 9 := by omega
  have h2 : y.toNat - 48 ≤ 9 := by omega
  simp only [parse2digit, index, List.getElem?_cons_zero, List.getElem?_cons_succ, ok_bind, u8Sub, hx.1, hy.1,
    ↓reduceIte, u8Mul, u8Add, twoDigits]
  rw [if_pos (by omega), ok_bind, if_pos (by omega)]

theorem fraction_eq (p r : Bytes) :
    fraction (p ++ r) p.length = match r with
      | [] => .ok p.length
      | x :: ds =>
        if x = byte '.' then
          if 1 ≤ (ds.takeWhile isAsciiDigit).length ∧ (ds.takeWhile isAsciiDigit).length ≤ 6 then
            .ok (p.length + 1 + (ds.takeWhile isAsciiDigit).length)
          else .err (tsErr "fractional seconds must be 1–6 digits")
        else .ok p.length := by
  cases r with
  | nil => simp [fraction, byteAt]
  | cons x ds =>
    have hscan := skipWhile_eq (ε := ParseError) isAsciiDigit (p ++ [x]) ds
    simp only [List.append_assoc, List.singleton_append, List.length_append, List.length_singleton] at hscan
    have hlt : p.length < (p ++ x :: ds).length := by simp
    simp only [fraction, byteAt, hlt, ↓reduceIte, index_append p x ds rfl, map_ok, ok_bind, beq_iff_eq]
    split
    · rw [hscan, ok_bind, Nat.add_sub_cancel_left]
      by_cases h : 1 ≤ (ds.takeWhile isAsciiDigit).length ∧ (ds.takeWhile isAsciiDigit).length ≤ 6 <;> simp [h]
    · rfl

/-- The five bytes `hh:mm` after the sign. -/
def zoneOffset (n : Nat) (h₁ h₂ c m₁ m₂ : UInt8) : Outcome ParseError Nat :=
  if [h₁, h₂, m₁, m₂].all isAsciiDigit = true ∧ c = byte ':' then
    if twoDigits h₁ h₂ ≤ 23 ∧ twoDigits m₁ m₂ ≤ 59 then .ok (n + 6)
    else .err (tsErr "timezone offset out of range")
  else .err (tsErr "timezone offset does not match hh:mm format")

theorem timezone_sign (p r : Bytes) (sign h₁ h₂ c m₁ m₂ : UInt8) (hs : sign = byte '+' ∨ sign = byte '-') :
    timezone (p ++ sign :: h₁ :: h₂ :: c :: m₁ :: m₂ :: r) p.length = zoneOffset p.length h₁ h₂ c m₁ m₂ := by
  have hlt : ¬ p.length ≥ (p ++ sign :: h₁ :: h₂ :: c :: m₁ :: m₂ :: r).length := by simp
  have hlen : ¬ p.length + 1 + 5 > (p ++ sign :: h₁ :: h₂ :: c :: m₁ :: m₂ :: r).length := by
    simp only [List.length_append, List.length_cons]; omega
  have hZ : sign ≠ byte 'Z' := by rcases hs with rfl | rfl <;> decide
  have hhh := subslice_append (ε := ParseError) (p ++ [sign]) [h₁, h₂] (c :: m₁ :: m₂ :: r)
    (i := p.length + 1) (j := p.length + 1 + 2) (by simp) (by simp)
  have hc := index_append (ε := ParseError) (p ++ [sign, h₁, h₂]) c (m₁ :: m₂ :: r)
    (i := p.length + 1 + 2) (by simp)
  have hmm := subslice_append (ε := ParseError) (p ++ [sign, h₁, h₂, c]) [m₁, m₂] r
    (i := p.length + 1 + 3) (j := p.length + 1 + 5) (by simp) (by simp)
  simp only [List.append_assoc, List.cons_append, List.nil_append] at hhh hc hmm
  have hshape : (anyOf ([!allDigits [h₁, h₂], c != byte ':', !allDigits [m₁, m₂]].map ok) : Outcome ParseError Bool) =
      .ok (!decide ([h₁, h₂, m₁, m₂].all isAsciiDigit = true ∧ c = byte ':')) := by
    refine anyOf_oks_eq_not ?_
    simp only [allDigits_cons, List.forall_mem_cons, List.not_mem_nil, IsEmpty.forall_iff, implies_true, and_true,
      Bool.not_eq_false', bne_eq_false_iff_eq, List.all_cons, List.all_nil, Bool.and_eq_true, Bool.and_true]
    constructor
    · rintro ⟨⟨hh₁, hh₂⟩, hcolon, hm₁, hm₂⟩
      exact ⟨⟨hh₁, hh₂, hm₁, hm₂⟩, hcolon⟩
    · rintro ⟨⟨hh₁, hh₂, hm₁, hm₂⟩, hcolon⟩
      exact ⟨⟨hh₁, hh₂⟩, hcolon, hm₁, hm₂⟩
  simp only [List.map_cons, List.map_nil] at hshape
  simp only [timezone, hlt, ↓reduceIte, index_append p sign _ rfl, ok_bind, hZ, hs, hlen, hhh, hc, hmm, map_ok,
    hshape, zoneOffset]
  by_cases h : [h₁, h₂, m₁, m₂].all isAsciiDigit = true ∧ c = byte ':'
  · have hd := h.1
    simp only [List.all_cons, List.all_nil, Bool.and_true, Bool.and_eq_true] at hd
    obtain ⟨hh₁, hh₂, hm₁, hm₂⟩ := hd
    simp only [h, and_self, decide_true, Bool.not_true, Bool.false_eq_true, ↓reduceIte,
      parse2digit_digits hh₁ hh₂, parse2digit_digits hm₁ hm₂, ok_bind]
    by_cases hr : twoDigits h₁ h₂ ≤ 23 ∧ twoDigits m₁ m₂ ≤ 59
    · rw [if_neg (by omega), if_pos hr]; rfl
    · rw [if_pos (by omega), if_neg hr]
  · simp only [h, decide_false, Bool.not_false, ↓reduceIte]

theorem exists_cons_five {t : Bytes} (h : 5 ≤ t.length) : ∃ a b c d e r, t = a :: b :: c :: d :: e :: r := by
  match t, h with
  | a :: b :: c :: d :: e :: r, _ => exact ⟨a, b, c, d, e, r, rfl⟩

theorem zoneOffset_ne_panic (n : Nat) (h₁ h₂ c m₁ m₂ : UInt8) : zoneOffset n h₁ h₂ c m₁ m₂ ≠ .panic := by
  unfold zoneOffset
  split
  · split <;> simp
  · simp

theorem zoneOffset_eq_ok {n k : Nat} {h₁ h₂ c m₁ m₂ : UInt8} :
    zoneOffset n h₁ h₂ c m₁ m₂ = .ok k ↔ ([h₁, h₂, m₁, m₂].all isAsciiDigit = true ∧ c = byte ':') ∧
      (twoDigits h₁ h₂ ≤ 23 ∧ twoDigits m₁ m₂ ≤ 59) ∧ n + 6 = k := by
  unfold zoneOffset
  split
  · rename_i hd
    split
    · rename_i hr; simp only [ok.injEq, hd, hr, and_self, true_and]
    · rename_i hr; simp only [reduceCtorEq, hr, false_and, and_false]
  · rename_i hd; simp only [reduceCtorEq, hd, false_and]

/-- Past its first byte the timezone is too short for `hh:mm`, or has those five bytes. -/
theorem timezone_spec (p z : Bytes) :
    timezone (p ++ z) p.length ≠ .panic ∧
      (timezone (p ++ z) p.length = .ok (p ++ z).length ↔ IsZone z) := by
  cases z with
  | nil => simp [timezone, IsZone]
  | cons x t =>
    have hlt : ¬ p.length ≥ (p ++ x :: t).length := by simp
    by_cases hZ : x = byte 'Z'
    · subst hZ
      have hz : timezone (p ++ byte 'Z' :: t) p.length = .ok (p.length + 1) := by
        simp only [timezone, hlt, ↓reduceIte, index_append p _ t rfl, ok_bind, pure_eq]
      refine ⟨by simp [hz], ?_⟩
      rw [hz]
      simp only [ok.injEq, List.length_append, List.length_cons, Nat.add_left_cancel_iff, Nat.right_eq_add,
        IsZone, List.cons.injEq, true_and, List.length_eq_zero_iff]
      constructor
      · exact Or.inl
      · rintro (h | ⟨_, _, _, _, _, ⟨rfl, -⟩, h, -⟩)
        · exact h
        · exact absurd h (by decide)
    · by_cases hs : x = byte '+' ∨ x = byte '-'
      · by_cases h5 : 5 ≤ t.length
        · obtain ⟨h₁, h₂, c, m₁, m₂, r, rfl⟩ := exists_cons_five h5
          rw [timezone_sign _ _ _ _ _ _ _ _ hs]
          refine ⟨zoneOffset_ne_panic _ _ _ _ _ _, zoneOffset_eq_ok.trans ⟨?_, ?_⟩⟩
          · rintro ⟨⟨hd, rfl⟩, ⟨hh, hm⟩, hlen⟩
            have hr : r = [] := by
              simp only [List.length_append, List.length_cons] at hlen
              exact List.length_eq_zero_iff.1 (by omega)
            subst hr
            exact .inr ⟨_, _, _, _, _, rfl, hs, hd, hh, hm⟩
          · rintro (h | ⟨_, _, _, _, _, h, -, hd, hh, hm⟩)
            · simp at h
            · simp only [List.cons.injEq] at h
              obtain ⟨rfl, rfl, rfl, rfl, rfl, rfl, rfl⟩ := h
              exact ⟨⟨hd, rfl⟩, ⟨hh, hm⟩, by simp⟩
        · have hshort : p.length + 1 + 5 > (p ++ x :: t).length := by
            simp only [List.length_append, List.length_cons]; omega
          have hz : timezone (p ++ x :: t) p.length = .err (tsErr "timezone offset too short") := by
            simp only [timezone, hlt, ↓reduceIte, index_append p _ t rfl, ok_bind, hZ, hs, hshort]
          refine ⟨by simp [hz], ?_⟩
          rw [hz]
          simp only [reduceCtorEq, false_iff]
          rintro (h | ⟨_, _, _, _, _, h, -⟩)
          · exact hZ (List.cons.inj h).1
          · exact h5 (by rw [(List.cons.inj h).2]; simp)
      · have hz : timezone (p ++ x :: t) p.length =
            .err (tsErr "invalid timezone indicator (expected 'Z' or '+'/'-')") := by
          simp only [timezone, hlt, ↓reduceIte, index_append p _ t rfl, ok_bind, hZ, hs]
        refine ⟨by simp [hz], ?_⟩
        rw [hz]
        simp only [reduceCtorEq, false_iff]
        rintro (h | ⟨_, _, _, _, _, h, hs', -⟩)
        · exact hZ (List.cons.inj h).1
        · exact hs ((List.cons.inj h).1 ▸ hs')

/-- A timezone can start neither a fraction nor one more digit of it. -/
theorem IsZone.head {z : Bytes} (h : IsZone z) :
    ∃ x t, z = x :: t ∧ x ≠ byte '.' ∧ isAsciiDigit x = false := by
  rcases h with rfl | ⟨_, _, _, _, _, rfl, rfl | rfl, -⟩ <;> exact ⟨_, _, rfl, by decide, by decide⟩

/-- What follows the seconds (`:466-511`). -/
def secondsTail (b : Bytes) (pos : Nat) : Outcome ParseError Unit := do
  let pos ← fraction b pos
  let pos ← timezone b pos
  if pos ≠ b.length then .err (tsErr "trailing characters after timezone")
  else pure ()

theorem secondsTail_of_fraction {p f z : Bytes} {n : Nat} (hf : fraction (p ++ (f ++ z)) n = .ok (p ++ f).length) :
    secondsTail (p ++ (f ++ z)) n ≠ .panic ∧ (secondsTail (p ++ (f ++ z)) n = .ok () ↔ IsZone z) := by
  obtain ⟨hnp, hok⟩ := timezone_spec (p ++ f) z
  simp only [List.append_assoc] at hnp hok
  rw [secondsTail, hf, ok_bind, ← hok]
  rcases hz : timezone (p ++ (f ++ z)) (p ++ f).length with k | e | _
  · rw [ok_bind]
    by_cases hk : k = (p ++ (f ++ z)).length
    · rw [if_neg (not_not.2 hk), hk]; simp
    · rw [if_pos hk]; simp only [ne_eq, reduceCtorEq, not_false_eq_true, ok.injEq, hk, and_self]
  · simp
  · exact absurd hz hnp

theorem secondsTail_spec (p r : Bytes) :
    secondsTail (p ++ r) p.length ≠ .panic ∧
      (secondsTail (p ++ r) p.length = .ok () ↔ ∃ f z, r = f ++ z ∧ IsFraction f ∧ IsZone z) := by
  have hfr := fraction_eq p r
  by_cases hdot : r.head? = some (byte '.')
  · obtain ⟨ds, rfl⟩ := List.head?_eq_some_iff.1 hdot
    have hsplit : byte '.' :: ds = (byte '.' :: ds.takeWhile isAsciiDigit) ++ ds.dropWhile isAsciiDigit := by
      rw [List.cons_append, List.takeWhile_append_dropWhile]
    simp only [↓reduceIte] at hfr
    have hzone : ∀ f z, byte '.' :: ds = f ++ z → IsFraction f → IsZone z →
        (1 ≤ (ds.takeWhile isAsciiDigit).length ∧ (ds.takeWhile isAsciiDigit).length ≤ 6) ∧
          z = ds.dropWhile isAsciiDigit := by
      rintro f z heq (rfl | ⟨ds', rfl, h1, h6, hall⟩) hz <;> obtain ⟨x, t, rfl, hx, hd⟩ := hz.head
      · exact absurd (List.cons.inj heq).1.symm hx
      · obtain rfl : ds = ds' ++ x :: t := (List.cons.inj heq).2
        have htw : (ds' ++ x :: t).takeWhile isAsciiDigit = ds' := by
          rw [takeWhile_append_of_all _ (List.all_eq_true.1 hall), List.takeWhile_cons_of_neg (by simp [hd]),
            List.append_nil]
        have hdw := List.takeWhile_append_dropWhile (p := isAsciiDigit) (l := ds' ++ x :: t)
        rw [htw] at hdw ⊢
        exact ⟨⟨h1, h6⟩, (List.append_cancel_left hdw).symm⟩
    by_cases hlen : 1 ≤ (ds.takeWhile isAsciiDigit).length ∧ (ds.takeWhile isAsciiDigit).length ≤ 6
    · rw [if_pos hlen, hsplit] at hfr
      rw [hsplit]
      obtain ⟨hnp, hok⟩ := secondsTail_of_fraction (hfr.trans (by simp; omega))
      refine ⟨hnp, hok.trans ⟨fun hz => ⟨_, _, rfl, .inr ⟨_, rfl, hlen.1, hlen.2, List.all_takeWhile⟩, hz⟩, ?_⟩⟩
      rintro ⟨f, z, heq, hf, hz⟩
      rw [← hsplit] at heq
      exact (hzone f z heq hf hz).2 ▸ hz
    · rw [if_neg hlen] at hfr
      rw [secondsTail, hfr, err_bind]
      simp only [ne_eq, reduceCtorEq, not_false_eq_true, false_iff, true_and]
      rintro ⟨f, z, heq, hf, hz⟩
      exact hlen (hzone f z heq hf hz).1
  · have hf : fraction (p ++ ([] ++ r)) p.length = .ok (p ++ []).length := by
      cases r with
      | nil => simpa using hfr
      | cons x ds =>
        have hx : x ≠ byte '.' := by simpa using hdot
        simpa [hx] using hfr
    obtain ⟨hnp, hok⟩ := secondsTail_of_fraction hf
    refine ⟨hnp, hok.trans ⟨fun hz => ⟨[], r, rfl, .inl rfl, hz⟩, ?_⟩⟩
    rintro ⟨f, z, rfl, rfl | ⟨ds, rfl, -⟩, hz⟩
    · exact hz
    · simp at hdot

theorem IsZone.length_pos {z : Bytes} (h : IsZone z) : 1 ≤ z.length := by
  obtain ⟨x, t, rfl, -⟩ := h.head; simp

/-- The range checks and the tail, once the first 19 bytes have their shape (`:443-511`). -/
def rangeChecks (month day hour minute second : Nat) (b : Bytes) : Outcome ParseError Unit :=
  if ¬ (1 ≤ month ∧ month ≤ 12) then .err (tsErr "month out of range (01–12)")
  else if ¬ (1 ≤ day ∧ day ≤ 31) then .err (tsErr "day out of range (01–31)")
  else if hour > 23 then .err (tsErr "hour out of range (00–23)")
  else if minute > 59 then .err (tsErr "minute out of range (00–59)")
  else if second > 60 then .err (tsErr "second out of range (00–60)")
  else secondsTail b 19

theorem rangeChecks_spec (month day hour minute second : Nat) (b : Bytes) (hnp : secondsTail b 19 ≠ .panic) :
    rangeChecks month day hour minute second b ≠ .panic ∧
      (rangeChecks month day hour minute second b = .ok () ↔ (1 ≤ month ∧ month ≤ 12) ∧ (1 ≤ day ∧ day ≤ 31) ∧
        hour ≤ 23 ∧ minute ≤ 59 ∧ second ≤ 60 ∧ secondsTail b 19 = .ok ()) := by
  unfold rangeChecks
  split
  · simp; omega
  split
  · simp; omega
  split
  · simp; omega
  split
  · simp; omega
  split
  · simp; omega
  · refine ⟨hnp, fun h => ⟨by omega, by omega, by omega, by omega, by omega, h⟩, fun h => h.2.2.2.2.2⟩

theorem validateTimestamp_cons {s : Str} {y₁ y₂ y₃ y₄ e₁ o₁ o₂ e₂ d₁ d₂ e₃ h₁ h₂ e₄ m₁ m₂ e₅ s₁ s₂ : UInt8} {r : Bytes}
    (hb : utf8 s = [y₁, y₂, y₃, y₄, e₁, o₁, o₂, e₂, d₁, d₂, e₃, h₁, h₂, e₄, m₁, m₂, e₅, s₁, s₂] ++ r)
    (h20 : 20 ≤ (utf8 s).length) :
    validateTimestamp s =
      if [y₁, y₂, y₃, y₄, o₁, o₂, d₁, d₂, h₁, h₂, m₁, m₂, s₁, s₂].all isAsciiDigit = true ∧
          e₁ = byte '-' ∧ e₂ = byte '-' ∧ e₃ = byte 'T' ∧ e₄ = byte ':' ∧ e₅ = byte ':' then
        rangeChecks (twoDigits o₁ o₂) (twoDigits d₁ d₂) (twoDigits h₁ h₂) (twoDigits m₁ m₂) (twoDigits s₁ s₂) (utf8 s)
      else .err (tsErr "does not match YYYY-MM-DDThh:mm:ss format") := by
  have hsub : ∀ {i j : Nat} {m : Bytes}, i ≤ j → j ≤ 20 → ((utf8 s).drop i).take (j - i) = m →
      (subslice (utf8 s) i j : Outcome ParseError Bytes) = .ok m := by
    intro i j m hij hj hm
    rw [subslice, if_pos ⟨hij, by omega⟩, hm]
  have hidx : ∀ {i : Nat} {x : UInt8}, (utf8 s)[i]? = some x → (index (utf8 s) i : Outcome ParseError UInt8) = .ok x :=
    fun h => index_ok h
  have hshape : (anyOf ([!allDigits [y₁, y₂, y₃, y₄], e₁ != byte '-', !allDigits [o₁, o₂], e₂ != byte '-',
      !allDigits [d₁, d₂], e₃ != byte 'T', !allDigits [h₁, h₂], e₄ != byte ':', !allDigits [m₁, m₂],
      e₅ != byte ':', !allDigits [s₁, s₂]].map ok) : Outcome ParseError Bool) =
      .ok (!decide ([y₁, y₂, y₃, y₄, o₁, o₂, d₁, d₂, h₁, h₂, m₁, m₂, s₁, s₂].all isAsciiDigit = true ∧
          e₁ = byte '-' ∧ e₂ = byte '-' ∧ e₃ = byte 'T' ∧ e₄ = byte ':' ∧ e₅ = byte ':')) := by
    refine anyOf_oks_eq_not ?_
    simp only [allDigits_cons, List.forall_mem_cons, List.not_mem_nil, IsEmpty.forall_iff, implies_true, and_true,
      Bool.not_eq_false', bne_eq_false_iff_eq, List.all_cons, List.all_nil, Bool.and_eq_true, Bool.and_true]
    constructor
    · rintro ⟨⟨hy₁, hy₂, hy₃, hy₄⟩, he₁, ⟨ho₁, ho₂⟩, he₂, ⟨hd₁, hd₂⟩, he₃, ⟨hh₁, hh₂⟩, he₄, ⟨hm₁, hm₂⟩, he₅, hs₁, hs₂⟩
      exact ⟨⟨hy₁, hy₂, hy₃, hy₄, ho₁, ho₂, hd₁, hd₂, hh₁, hh₂, hm₁, hm₂, hs₁, hs₂⟩, he₁, he₂, he₃, he₄, he₅⟩
    · rintro ⟨⟨hy₁, hy₂, hy₃, hy₄, ho₁, ho₂, hd₁, hd₂, hh₁, hh₂, hm₁, hm₂, hs₁, hs₂⟩, he₁, he₂, he₃, he₄, he₅⟩
      exact ⟨⟨hy₁, hy₂, hy₃, hy₄⟩, he₁, ⟨ho₁, ho₂⟩, he₂, ⟨hd₁, hd₂⟩, he₃, ⟨hh₁, hh₂⟩, he₄, ⟨hm₁, hm₂⟩, he₅, hs₁, hs₂⟩
  simp only [List.map_cons, List.map_nil] at hshape
  have hlt : ¬ (utf8 s).length < 20 := by omega
  simp only [validateTimestamp, hlt, ↓reduceIte]
  rw [hsub (m := [y₁, y₂, y₃, y₄]) (by decide) (by decide) (by rw [hb]; rfl),
    hsub (m := [o₁, o₂]) (by decide) (by decide) (by rw [hb]; rfl),
    hsub (m := [d₁, d₂]) (by decide) (by decide) (by rw [hb]; rfl),
    hsub (m := [h₁, h₂]) (by decide) (by decide) (by rw [hb]; rfl),
    hsub (m := [m₁, m₂]) (by decide) (by decide) (by rw [hb]; rfl),
    hsub (m := [s₁, s₂]) (by decide) (by decide) (by rw [hb]; rfl),
    hidx (x := e₁) (by rw [hb]; rfl), hidx (x := e₂) (by rw [hb]; rfl), hidx (x := e₃) (by rw [hb]; rfl),
    hidx (x := e₄) (by rw [hb]; rfl), hidx (x := e₅) (by rw [hb]; rfl)]
  simp only [map_ok, hshape, ok_bind]
  by_cases h : [y₁, y₂, y₃, y₄, o₁, o₂, d₁, d₂, h₁, h₂, m₁, m₂, s₁, s₂].all isAsciiDigit = true ∧
      e₁ = byte '-' ∧ e₂ = byte '-' ∧ e₃ = byte 'T' ∧ e₄ = byte ':' ∧ e₅ = byte ':'
  · have hd := List.all_eq_true.1 h.1
    rw [if_pos h, decide_eq_true h]
    simp only [Bool.not_true, Bool.false_eq_true, ↓reduceIte,
      parse2digit_digits (hd o₁ (by simp)) (hd o₂ (by simp)), parse2digit_digits (hd d₁ (by simp)) (hd d₂ (by simp)),
      parse2digit_digits (hd h₁ (by simp)) (hd h₂ (by simp)), parse2digit_digits (hd m₁ (by simp)) (hd m₂ (by simp)),
      parse2digit_digits (hd s₁ (by simp)) (hd s₂ (by simp)), ok_bind]
    rfl
  · rw [if_neg h, decide_eq_false h]
    rfl

/-- **What `validate_timestamp` accepts**, and it never panics. -/
theorem validateTimestamp_spec (s : Str) :
    validateTimestamp s ≠ .panic ∧ (validateTimestamp s = .ok () ↔ IsTimestamp (utf8 s)) := by
  by_cases h20 : 20 ≤ (utf8 s).length
  · obtain ⟨y₁, y₂, y₃, y₄, e₁, t, ht⟩ := exists_cons_five (t := utf8 s) (by omega)
    obtain ⟨o₁, o₂, e₂, d₁, d₂, u, rfl⟩ := exists_cons_five (t := t) (by simp [ht] at h20; omega)
    obtain ⟨e₃, h₁, h₂, e₄, m₁, v, rfl⟩ := exists_cons_five (t := u) (by simp [ht] at h20; omega)
    obtain ⟨m₂, e₅, s₁, s₂, x, w, rfl⟩ := exists_cons_five (t := v) (by simp [ht] at h20; omega)
    obtain ⟨htnp, htok⟩ := secondsTail_spec
      [y₁, y₂, y₃, y₄, e₁, o₁, o₂, e₂, d₁, d₂, e₃, h₁, h₂, e₄, m₁, m₂, e₅, s₁, s₂] (x :: w)
    have hb : utf8 s =
      [y₁, y₂, y₃, y₄, e₁, o₁, o₂, e₂, d₁, d₂, e₃, h₁, h₂, e₄, m₁, m₂, e₅, s₁, s₂] ++ x :: w := ht
    rw [← hb] at htnp htok
    rw [validateTimestamp_cons hb h20]
    split
    · rename_i hd
      obtain ⟨hdig, rfl, rfl, rfl, rfl, rfl⟩ := hd
      obtain ⟨hnp, hok⟩ := rangeChecks_spec (twoDigits o₁ o₂) (twoDigits d₁ d₂) (twoDigits h₁ h₂) (twoDigits m₁ m₂)
        (twoDigits s₁ s₂) (utf8 s) htnp
      refine ⟨hnp, hok.trans ⟨?_, ?_⟩⟩
      · rintro ⟨ho, hdd, hh, hm, hs, htail⟩
        obtain ⟨f, z, hfz, hf, hz⟩ := htok.1 htail
        exact ⟨_, f, z, by rw [hb, hfz, List.append_assoc],
          ⟨_, _, _, _, _, _, _, _, _, _, _, _, _, _, rfl, hdig, ho, hdd, hh, hm, hs⟩, hf, hz⟩
      · rintro ⟨d, f, z, heq, ⟨_, _, _, _, _, _, _, _, _, _, _, _, _, _, rfl, -, ho, hdd, hh, hm, hs⟩, hf, hz⟩
        rw [hb] at heq
        simp only [List.cons_append, List.nil_append, List.cons.injEq, true_and] at heq
        obtain ⟨-, -, -, -, rfl, rfl, rfl, rfl, rfl, rfl, rfl, rfl, rfl, rfl, hfz⟩ := heq
        exact ⟨ho, hdd, hh, hm, hs, htok.2 ⟨f, z, hfz, hf, hz⟩⟩
    · rename_i hd
      simp only [ne_eq, reduceCtorEq, not_false_eq_true, false_iff, true_and]
      rintro ⟨d, f, z, heq, ⟨_, _, _, _, _, _, _, _, _, _, _, _, _, _, rfl, hdig, -⟩, -, -⟩
      rw [hb] at heq
      simp only [List.cons_append, List.nil_append, List.cons.injEq] at heq
      obtain ⟨rfl, rfl, rfl, rfl, rfl, rfl, rfl, rfl, rfl, rfl, rfl, rfl, rfl, rfl, rfl, rfl, rfl, rfl, rfl, -⟩ := heq
      exact hd ⟨hdig, rfl, rfl, rfl, rfl, rfl⟩
  · have hs : validateTimestamp s = .err (tsErr "too short for RFC 5424 timestamp") := by
      simp only [validateTimestamp]; rw [if_pos (by omega)]
    refine ⟨by simp [hs], ?_⟩
    rw [hs]
    simp only [reduceCtorEq, false_iff]
    rintro ⟨d, f, z, hb, ⟨_, _, _, _, _, _, _, _, _, _, _, _, _, _, rfl, -⟩, -, hz⟩
    have := hz.length_pos
    rw [hb] at h20
    simp only [List.length_append, List.length_cons, List.length_nil] at h20
    omega

theorem validateTimestamp_ne_panic (s : Str) : validateTimestamp s ≠ .panic := (validateTimestamp_spec s).1

/-- Every byte of a timestamp is a digit or a separator. -/
theorem IsTimestamp.bytes {b : Bytes} (h : IsTimestamp b) :
    ∀ x ∈ b, isAsciiDigit x = true ∨ x ∈ "-T:.Z+".toList.map byte := by
  obtain ⟨d, f, z, rfl, ⟨_, _, _, _, _, _, _, _, _, _, _, _, _, _, rfl, hd, -⟩, hf, hz⟩ := h
  have hdig := List.all_eq_true.1 hd
  intro x hx
  simp only [List.mem_append] at hx
  rcases hx with (hx | hx) | hx
  · simp only [List.mem_cons, List.not_mem_nil, or_false] at hx
    by_cases hs : x ∈ "-T:.Z+".toList.map byte
    · exact .inr hs
    · refine .inl (hdig x ?_)
      rcases hx with rfl | rfl | rfl | rfl | rfl | rfl | rfl | rfl | rfl | rfl | rfl | rfl | rfl | rfl | rfl | rfl |
        rfl | rfl | rfl <;> first | exact absurd (by decide) hs | simp
  · rcases hf with rfl | ⟨ds, rfl, -, -, hall⟩
    · simp at hx
    · rcases List.mem_cons.1 hx with rfl | hx
      · exact .inr (by decide)
      · exact .inl (List.all_eq_true.1 hall x hx)
  · rcases hz with rfl | ⟨_, _, _, _, _, rfl, hsign, hall, -⟩
    · exact .inr (by simp only [List.mem_singleton] at hx; subst hx; decide)
    · have hzd := List.all_eq_true.1 hall
      simp only [List.mem_cons, List.not_mem_nil, or_false] at hx
      rcases hx with rfl | rfl | rfl | rfl | rfl | rfl
      · rcases hsign with rfl | rfl <;> exact .inr (by decide)
      · exact .inl (hzd _ (by simp))
      · exact .inl (hzd _ (by simp))
      · exact .inr (by decide)
      · exact .inl (hzd _ (by simp))
      · exact .inl (hzd _ (by simp))

theorem not_mem_of_validateTimestamp {s : Str} (h : validateTimestamp s = .ok ()) : ' ' ∉ s := by
  intro hm
  have hb : byte ' ' ∈ utf8 s := by
    refine List.mem_flatMap.2 ⟨' ', hm, ?_⟩
    rw [utf8EncodeChar_ascii (by decide)]; simp
  rcases ((validateTimestamp_spec s).2.1 h).bytes _ hb with h | h
  · exact absurd h (by decide)
  · exact absurd h (by decide)

end LogFence
