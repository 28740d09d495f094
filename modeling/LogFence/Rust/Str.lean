import Mathlib.Algebra.Group.Nat.Defs
import Mathlib.Data.List.DropRight
import LogFence.Rust.Utf8

/-!
# `str` methods and decimal numbers

The `str` methods the parser calls, on the characters, and the two directions of decimal numbers:
`{n}` prints, `parse::<uN>()` reads. Rust's integer parser is wider than what it prints: it takes a
leading `+` and any number of leading zeros.
-/

namespace Rust

/-! ## Cutting text -/

/-- `s.trim_end_matches(p)`. -/
def trimEndMatches (p : Char → Bool) (s : Str) : Str := s.rdropWhile p

/-- `s.strip_prefix(t)`. -/
def stripPrefix : Str → Str → Option Str
  | [], s => some s
  | _ :: _, [] => none
  | c :: t, d :: s => if c = d then stripPrefix t s else none

/-- `s.split_once(c)`: around the first `c`. -/
def splitOnce (c : Char) : Str → Option (Str × Str)
  | [] => none
  | d :: s => if d = c then some ([], s) else (splitOnce c s).map fun p => (d :: p.1, p.2)

/-- `s.starts_with(t)`. -/
def startsWith (t s : Str) : Bool := t.isPrefixOf s

@[simp] theorem stripPrefix_eq_some : ∀ {t s r : Str}, stripPrefix t s = some r ↔ s = t ++ r
  | [], s, r => by simp [stripPrefix]
  | _ :: _, [], r => by simp [stripPrefix]
  | c :: t, d :: s, r => by
    unfold stripPrefix
    split
    · rename_i h; subst h; simp [stripPrefix_eq_some]
    · rename_i h
      simp only [reduceCtorEq, List.cons_append, List.cons.injEq, false_iff, not_and]
      exact fun h' => absurd h'.symm h

theorem startsWith_singleton (c : Char) (s : Str) : startsWith [c] s = (s.head? == some c) := by
  cases s with
  | nil => rfl
  | cons d s => simp [startsWith, List.isPrefixOf, Bool.beq_comm (a := c)]

/-- The cut is at the first occurrence, and nothing is lost. -/
theorem splitOnce_eq_some {c : Char} : ∀ {s a b : Str}, splitOnce c s = some (a, b) ↔ s = a ++ c :: b ∧ c ∉ a
  | [], a, b => by simp [splitOnce]
  | d :: s, a, b => by
    unfold splitOnce
    split
    · rename_i h; subst h
      simp only [Option.some.injEq, Prod.mk.injEq]
      constructor
      · rintro ⟨rfl, rfl⟩; simp
      · rintro ⟨h, hn⟩
        cases a with
        | nil => simpa using h
        | cons x a => simp only [List.cons_append, List.cons.injEq] at h; simp [h.1] at hn
    · rename_i h
      simp only [Option.map_eq_some_iff, Prod.mk.injEq, Prod.exists]
      constructor
      · rintro ⟨a', b', hs, rfl, rfl⟩
        obtain ⟨rfl, hn⟩ := splitOnce_eq_some.1 hs
        exact ⟨rfl, by simp [hn, Ne.symm h]⟩
      · rintro ⟨hs, hn⟩
        cases a with
        | nil => simp only [List.nil_append, List.cons.injEq] at hs; exact absurd hs.1 h
        | cons x a =>
          simp only [List.cons_append, List.cons.injEq] at hs
          obtain ⟨rfl, rfl⟩ := hs
          simp only [List.mem_cons, not_or] at hn
          exact ⟨a, b, splitOnce_eq_some.2 ⟨rfl, hn.2⟩, rfl, rfl⟩

theorem splitOnce_append {c : Char} {a : Str} (b : Str) (h : c ∉ a) :
    splitOnce c (a ++ c :: b) = some (a, b) := splitOnce_eq_some.2 ⟨rfl, h⟩

/-- Around the first `c` there is one cut. -/
theorem cut_unique {α : Type} {c : α} {b b' : List α} : ∀ {a a' : List α}, c ∉ a → c ∉ a' →
    a ++ c :: b = a' ++ c :: b' → a = a' ∧ b = b'
  | [], [], _, _, h => ⟨rfl, (List.cons.inj h).2⟩
  | [], x :: a', _, ha', h => absurd (by simp [(List.cons.inj h).1]) ha'
  | x :: a, [], ha, _, h => absurd (by simp [(List.cons.inj h).1]) ha
  | x :: a, y :: a', ha, ha', h => by
    obtain ⟨rfl, htail⟩ := List.cons.inj h
    obtain ⟨rfl, rfl⟩ := cut_unique (fun hm => ha (by simp [hm])) (fun hm => ha' (by simp [hm])) htail
    exact ⟨rfl, rfl⟩

/-- What `trim_end_matches` leaves does not end in a matched character. -/
theorem trimEndMatches_append_of_not {p : Char → Bool} (a : Str) {b : Str} (hne : b ≠ [])
    (h : ¬ p (b.getLast hne) = true) : trimEndMatches p (a ++ b) = a ++ b := by
  refine List.rdropWhile_eq_self_iff.2 fun hl => ?_
  rwa [List.getLast_append_of_ne_nil hl hne]

/-- Nothing is trimmed from a character that is not matched on. -/
theorem trimEndMatches_cons_of_not {p : Char → Bool} (a : Str) {c : Char} (hc : p c = false) (b : Str) :
    trimEndMatches p (a ++ c :: b) = a ++ c :: trimEndMatches p b := by
  induction b using List.reverseRecOn with
  | nil => exact trimEndMatches_append_of_not a (List.cons_ne_nil c []) (by simp [hc])
  | append_singleton b d ih =>
    have hsplit : a ++ c :: (b ++ [d]) = (a ++ c :: b) ++ [d] := by simp
    unfold trimEndMatches at ih ⊢
    by_cases hd : p d = true
    · rw [hsplit, List.rdropWhile_concat_pos p _ _ hd, List.rdropWhile_concat_pos p _ _ hd, ih]
    · rw [List.rdropWhile_concat_neg p b d hd, hsplit, List.rdropWhile_concat_neg p _ d hd]

theorem trimEndMatches_eq_self_iff {p : Char → Bool} {s : Str} :
    trimEndMatches p s = s ↔ ∀ h : s ≠ [], ¬ p (s.getLast h) = true := List.rdropWhile_eq_self_iff

theorem trimEndMatches_idem (p : Char → Bool) (s : Str) :
    trimEndMatches p (trimEndMatches p s) = trimEndMatches p s := List.rdropWhile_idempotent p s

/-! ## Decimal numbers -/

/-- `format!("{n}")` of an unsigned integer. -/
def decimal (n : Nat) : Str := Nat.toDigits 10 n

/-- The sign `from_str_radix` skips on an unsigned type. -/
def stripPlus : Str → Str
  | '+' :: r => r
  | s => s

/-- `s.parse::<uN>().ok()` where `max` is `uN::MAX`: an optional `+`, then at least one ASCII digit
    and nothing else, of a value that fits. -/
def parseUnsigned (max : Nat) (s : Str) : Option Nat :=
  let digits := stripPlus s
  if digits ≠ [] ∧ digits.all Char.isDigit then
    let v := Nat.ofDigitChars 10 digits 0
    if v ≤ max then some v else none
  else none

theorem isDigit_of_mem_decimal {n : Nat} {c : Char} (h : c ∈ decimal n) : c.isDigit = true :=
  Nat.isDigit_of_mem_toDigits (by decide) (by decide) h

theorem decimal_ne_nil (n : Nat) : decimal n ≠ [] := Nat.toDigits_ne_nil

theorem isDigit_iff {c : Char} : c.isDigit = true ↔ 48 ≤ c.toNat ∧ c.toNat ≤ 57 := by
  simp [Char.isDigit, UInt32.le_iff_toNat_le]

theorem not_mem_decimal {n : Nat} {c : Char} (h : c.isDigit = false) : c ∉ decimal n := by
  intro hm
  rw [isDigit_of_mem_decimal hm] at h; cases h

theorem stripPlus_decimal (n : Nat) : stripPlus (decimal n) = decimal n := by
  unfold stripPlus
  split
  · rename_i r heq
    have : '+' ∈ decimal n := by rw [heq]; simp
    exact absurd this (not_mem_decimal (by decide))
  · rfl

/-- **What is printed reads back**, when it fits. -/
theorem parseUnsigned_decimal {max n : Nat} (h : n ≤ max) : parseUnsigned max (decimal n) = some n := by
  have hall : (decimal n).all Char.isDigit = true := List.all_eq_true.2 fun c hc => isDigit_of_mem_decimal hc
  have hv : Nat.ofDigitChars 10 (decimal n) 0 = n := Nat.ofDigitChars_ten_toDigits
  simp only [parseUnsigned, stripPlus_decimal, ne_eq, decimal_ne_nil, hall, hv, h, not_false_eq_true,
    and_self, ↓reduceIte]

theorem parseUnsigned_decimal_gt {max n : Nat} (h : max < n) : parseUnsigned max (decimal n) = none := by
  have hv : Nat.ofDigitChars 10 (decimal n) 0 = n := Nat.ofDigitChars_ten_toDigits
  simp only [parseUnsigned, stripPlus_decimal, hv]
  split
  · exact if_neg (by omega)
  · rfl

theorem isAscii_of_isDigit {c : Char} (h : c.isDigit = true) : isAscii c = true := by
  have := isDigit_iff.1 h
  simp only [isAscii, decide_eq_true_eq]; omega

/-- The bytes of a string of digits are digits. -/
theorem byte_notMem_utf8_of_isDigit {s : Str} {c : Char} (h : ∀ d ∈ s, d.isDigit = true) (hc : isAscii c = true)
    (hd : c.isDigit = false) : byte c ∉ utf8 s := by
  intro hm
  obtain ⟨d, hmd, hx⟩ := List.mem_flatMap.1 hm
  have hdig := h d hmd
  have hda := isAscii_of_isDigit hdig
  rw [utf8EncodeChar_ascii hda, List.mem_singleton, byte_inj hc hda] at hx
  rw [hx, hdig] at hd; cases hd

theorem byte_notMem_utf8_decimal {n : Nat} {c : Char} (hc : isAscii c = true) (hd : c.isDigit = false) :
    byte c ∉ utf8 (decimal n) :=
  byte_notMem_utf8_of_isDigit (fun _ => isDigit_of_mem_decimal) hc hd

theorem len_decimal (n : Nat) : len (decimal n) = (decimal n).length :=
  len_eq_length fun _ hc => isAscii_of_isDigit (isDigit_of_mem_decimal hc)

/-- What is read as a number has only digits and a `+`. -/
theorem mem_of_parseUnsigned {max n : Nat} {s : Str} (h : parseUnsigned max s = some n) {c : Char} (hc : c ∈ s) :
    c = '+' ∨ c.isDigit = true := by
  have hmem : c = '+' ∨ c ∈ stripPlus s := by
    unfold stripPlus
    split
    · exact List.mem_cons.1 hc
    · exact .inr hc
  rcases hmem with hp | hmem
  · exact .inl hp
  · unfold parseUnsigned at h
    dsimp only at h
    split at h
    · rename_i hd
      exact .inr (List.all_eq_true.1 hd.2 c hmem)
    · simp at h

theorem decimal_injective {n k : Nat} (h : decimal n = decimal k) : n = k := by
  have hv := congrArg (fun s => Nat.ofDigitChars 10 s 0) h
  simpa only [decimal, Nat.ofDigitChars_ten_toDigits] using hv

/-- A decimal number of a value below `10 ^ k` has at most `k` digits. -/
theorem length_decimal_le {n k : Nat} (hk : 0 < k) (h : n < 10 ^ k) : (decimal n).length ≤ k :=
  (Nat.length_toDigits_le_iff (by decide) hk).2 h

/-! ## `u8` arithmetic, with the overflow checks on -/

variable {ε : Type}

def u8Add (a b : Nat) : Outcome ε Nat := if a + b < 256 then .ok (a + b) else .panic
def u8Sub (a b : Nat) : Outcome ε Nat := if b ≤ a then .ok (a - b) else .panic
def u8Mul (a b : Nat) : Outcome ε Nat := if a * b < 256 then .ok (a * b) else .panic

end Rust
