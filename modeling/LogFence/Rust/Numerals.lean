import LogFence.Rust.Str
import Mathlib.Algebra.Group.Nat.Defs

/-!
# Decimal numerals of a fixed width

`padded w n` is `format!("{n:0w}")`. A number that fits `w` digits is then written with just `w` (`padded_eq_digits`);
every string of digits is the numeral of its value, of its own width (`digits_ofDigitChars`); and between numerals of
one width the order of the bytes is that of the numbers (`utf8_digits_lt`).
-/

namespace Rust

/-- `format!("{n:0w}")` of an unsigned integer. -/
def padded (w n : Nat) : Str := List.replicate (w - (decimal n).length) '0' ++ decimal n

/-- The last `w` decimal digits of `n`. -/
def digits : Nat → Nat → Str
  | 0, _ => []
  | w + 1, n => digits w (n / 10) ++ [(n % 10).digitChar]

@[simp] theorem length_digits : ∀ w n : Nat, (digits w n).length = w
  | 0, _ => rfl
  | w + 1, n => by rw [digits, List.length_append, length_digits w]; rfl

theorem isDigit_digitChar {d : Nat} (h : d < 10) : d.digitChar.isDigit = true := by
  revert d; decide

theorem isDigit_of_mem_digits {c : Char} : ∀ {w n : Nat}, c ∈ digits w n → c.isDigit = true
  | 0, _, h => by simp [digits] at h
  | w + 1, n, h => by
    rcases List.mem_append.1 h with h | h
    · exact isDigit_of_mem_digits h
    · rw [List.mem_singleton.1 h]
      exact isDigit_digitChar (Nat.mod_lt n (by decide))

theorem decimal_of_lt_ten {n : Nat} (h : n < 10) : decimal n = [n.digitChar] := Nat.toDigits_of_lt_base h

theorem decimal_of_ten_le {n : Nat} (h : 10 ≤ n) : decimal n = decimal (n / 10) ++ [(n % 10).digitChar] :=
  Nat.toDigits_of_base_le (by decide) h

/-- **A number that fits is written with exactly `w` digits.** -/
theorem padded_eq_digits : ∀ {w n : Nat}, 0 < w → n < 10 ^ w → padded w n = digits w n
  | 1, n, _, h => by
    have hn : n < 10 := by simpa using h
    simp [padded, digits, decimal_of_lt_ten hn, Nat.mod_eq_of_lt hn]
  | w + 2, n, _, h => by
    have hdiv : n / 10 < 10 ^ (w + 1) := by
      rw [Nat.pow_succ] at h
      omega
    rw [digits, ← padded_eq_digits (Nat.succ_pos w) hdiv]
    by_cases hn : n < 10
    · -- all but the last digit are padding
      have hzero : n / 10 = 0 := Nat.div_eq_of_lt hn
      have hpad : padded (w + 1) 0 = List.replicate (w + 1) '0' := by
        rw [padded, decimal_of_lt_ten (by decide), List.replicate_succ']
        rfl
      rw [hzero, hpad, Nat.mod_eq_of_lt hn, padded, decimal_of_lt_ten hn]
      rfl
    · have hwidth : w + 2 - ((decimal (n / 10)).length + 1) = w + 1 - (decimal (n / 10)).length := by omega
      rw [padded, padded, decimal_of_ten_le (by omega), List.length_append, List.length_singleton, hwidth,
        List.append_assoc]

/-! ## Strings of digits -/

theorem digitChar_toNat {c : Char} (h : c.isDigit = true) : (c.toNat - 48).digitChar = c := by
  obtain ⟨h1, h2⟩ := isDigit_iff.1 h
  refine Char.toNat_inj.1 ?_
  rw [Nat.toNat_digitChar_of_lt_ten (by omega)]
  omega

theorem ofDigitChars_concat (s : Str) (c : Char) :
    Nat.ofDigitChars 10 (s ++ [c]) 0 = 10 * Nat.ofDigitChars 10 s 0 + (c.toNat - 48) := by
  rw [Nat.ofDigitChars_append, Nat.ofDigitChars_cons, Nat.ofDigitChars_nil]
  rfl

/-- **A string of digits is the numeral of its value.** -/
theorem digits_ofDigitChars {s : Str} (h : ∀ c ∈ s, c.isDigit = true) :
    Nat.ofDigitChars 10 s 0 < 10 ^ s.length ∧ digits s.length (Nat.ofDigitChars 10 s 0) = s := by
  induction s using List.reverseRecOn with
  | nil => exact ⟨by simp, rfl⟩
  | append_singleton s c ih =>
    obtain ⟨hlt, hs⟩ := ih fun d hd => h d (by simp [hd])
    have hc := h c (by simp)
    have hd : c.toNat - 48 < 10 := by
      have := isDigit_iff.1 hc
      omega
    rw [ofDigitChars_concat, List.length_append, List.length_singleton]
    refine ⟨by rw [Nat.pow_succ]; omega, ?_⟩
    have hdiv : (10 * Nat.ofDigitChars 10 s 0 + (c.toNat - 48)) / 10 = Nat.ofDigitChars 10 s 0 := by omega
    have hmod : (10 * Nat.ofDigitChars 10 s 0 + (c.toNat - 48)) % 10 = c.toNat - 48 := by omega
    rw [digits, hdiv, hmod, hs, digitChar_toNat hc]

theorem ofDigitChars_digits : ∀ {w n : Nat}, n < 10 ^ w → Nat.ofDigitChars 10 (digits w n) 0 = n
  | 0, n, h => by
    obtain rfl : n = 0 := by simpa using h
    rfl
  | w + 1, n, h => by
    have hdiv : n / 10 < 10 ^ w := by
      rw [Nat.pow_succ] at h
      omega
    have hd : (n % 10).digitChar.toNat - 48 = n % 10 := by
      rw [Nat.toNat_digitChar_of_lt_ten (Nat.mod_lt n (by decide))]
      omega
    rw [digits, ofDigitChars_concat, ofDigitChars_digits hdiv, hd]
    omega

/-- A string of digits, without its leading zeros. -/
theorem eq_zeros_decimal {s : Str} (hne : s ≠ []) (h : ∀ c ∈ s, c.isDigit = true) :
    ∃ k, s = List.replicate k '0' ++ decimal (Nat.ofDigitChars 10 s 0) := by
  obtain ⟨hlt, hs⟩ := digits_ofDigitChars h
  have hpad := padded_eq_digits (List.length_pos_of_ne_nil hne) hlt
  exact ⟨_, hs.symm.trans hpad.symm⟩

theorem eq_sign_stripPlus (s : Str) : ∃ sign, (sign = [] ∨ sign = ['+']) ∧ s = sign ++ stripPlus s := by
  unfold stripPlus
  split
  · exact ⟨['+'], .inr rfl, rfl⟩
  · exact ⟨[], .inl rfl, rfl⟩

/-- **What `parse` reads as an unsigned number**: its numeral, behind a `+` or nothing and any zeros. -/
theorem parseUnsigned_eq_some {max n : Nat} {s : Str} :
    parseUnsigned max s = some n ↔ n ≤ max ∧ ∃ sign k, (sign = [] ∨ sign = ['+']) ∧
      s = sign ++ (List.replicate k '0' ++ decimal n) := by
  have hzeros : ∀ {k : Nat} {c : Char}, c ∈ List.replicate k '0' ++ decimal n → c.isDigit = true := by
    intro k c hc
    rcases List.mem_append.1 hc with hc | hc
    · rw [List.eq_of_mem_replicate hc]; rfl
    · exact isDigit_of_mem_decimal hc
  have hvalue : ∀ k : Nat, Nat.ofDigitChars 10 (List.replicate k '0' ++ decimal n) 0 = n := by
    intro k
    rw [Nat.ofDigitChars_append, Nat.ofDigitChars_replicate_zero, Nat.mul_zero]
    exact Nat.ofDigitChars_ten_toDigits
  have hread : ∀ k : Nat, n ≤ max → parseUnsigned max ('+' :: (List.replicate k '0' ++ decimal n)) = some n ∧
      parseUnsigned max (List.replicate k '0' ++ decimal n) = some n := by
    intro k hn
    have hdigits : List.replicate k '0' ++ decimal n ≠ [] ∧ (List.replicate k '0' ++ decimal n).all Char.isDigit = true :=
      ⟨by simp [decimal_ne_nil], List.all_eq_true.2 fun c hc => hzeros hc⟩
    have hplus : stripPlus (List.replicate k '0' ++ decimal n) = List.replicate k '0' ++ decimal n := by
      unfold stripPlus
      split
      · rename_i r hr
        exact absurd (hzeros (k := k) (c := '+') (by rw [hr]; simp)) (by decide)
      · rfl
    constructor
    · simp only [parseUnsigned, stripPlus, hvalue]
      rw [if_pos hdigits, if_pos hn]
    · simp only [parseUnsigned, hplus, hvalue]
      rw [if_pos hdigits, if_pos hn]
  constructor
  · intro h
    simp only [parseUnsigned] at h
    split at h
    · rename_i hdigits
      split at h
      · rename_i hle
        cases h
        obtain ⟨k, hk⟩ := eq_zeros_decimal hdigits.1 (List.all_eq_true.1 hdigits.2)
        obtain ⟨sign, hsign, hs⟩ := eq_sign_stripPlus s
        exact ⟨hle, sign, k, hsign, by rw [← hk]; exact hs⟩
      · cases h
    · cases h
  · rintro ⟨hn, sign, k, rfl | rfl, rfl⟩
    · exact (hread k hn).2
    · exact (hread k hn).1

/-! ## Order -/

theorem utf8_digits (w n : Nat) : utf8 (digits w n) = (digits w n).map byte :=
  utf8_ascii fun _ hc => isAscii_of_isDigit (isDigit_of_mem_digits hc)

/-- Texts of one length are compared from the front. -/
theorem append_lt_append {a b : Bytes} (hlen : a.length = b.length) {x y : Bytes} :
    a ++ x < b ++ y ↔ a < b ∨ a = b ∧ x < y := by
  induction a generalizing b with
  | nil =>
    obtain rfl := List.length_eq_zero_iff.1 hlen.symm
    simp
  | cons c a ih =>
    cases b with
    | nil => simp at hlen
    | cons d b =>
      have hlen' : a.length = b.length := by simpa using hlen
      rw [List.cons_append, List.cons_append, List.cons_lt_cons_iff, List.cons_lt_cons_iff, ih hlen', List.cons.injEq]
      tauto

theorem byte_digitChar_lt {d e : Nat} (hd : d < 10) (he : e < 10) :
    byte d.digitChar < byte e.digitChar ↔ d < e := by
  have h : ∀ d < 10, ∀ e < 10, (byte d.digitChar < byte e.digitChar ↔ d < e) := by decide
  exact h d hd e he

theorem length_utf8_digits (w n : Nat) : (utf8 (digits w n)).length = w := by
  rw [utf8_digits, List.length_map, length_digits]

theorem utf8_digits_inj {w n k : Nat} (hn : n < 10 ^ w) (hk : k < 10 ^ w) :
    utf8 (digits w n) = utf8 (digits w k) ↔ n = k := by
  constructor
  · intro h
    rw [← ofDigitChars_digits hn, utf8_injective h, ofDigitChars_digits hk]
  · intro h
    rw [h]

/-- **Numerals of one width are ordered as their numbers.** -/
theorem utf8_digits_lt : ∀ {w n k : Nat}, n < 10 ^ w → k < 10 ^ w →
    (utf8 (digits w n) < utf8 (digits w k) ↔ n < k)
  | 0, n, k, hn, hk => by
    obtain rfl : n = 0 := by simpa using hn
    obtain rfl : k = 0 := by simpa using hk
    simp [digits]
  | w + 1, n, k, hn, hk => by
    have hn' : n / 10 < 10 ^ w := by rw [Nat.pow_succ] at hn; omega
    have hk' : k / 10 < 10 ^ w := by rw [Nat.pow_succ] at hk; omega
    have hlast : ∀ d : Nat, d < 10 → utf8 [d.digitChar] = [byte d.digitChar] := fun d hd =>
      utf8_ascii (by simpa using isAscii_of_isDigit (isDigit_digitChar hd))
    have hlen : (utf8 (digits w (n / 10))).length = (utf8 (digits w (k / 10))).length := by
      rw [length_utf8_digits, length_utf8_digits]
    have hnm := Nat.mod_lt n (by decide : 10 > 0)
    have hkm := Nat.mod_lt k (by decide : 10 > 0)
    rw [digits, digits, utf8_append, utf8_append, append_lt_append hlen, utf8_digits_lt hn' hk', utf8_digits_inj hn' hk',
      hlast _ hnm, hlast _ hkm, List.cons_lt_cons_iff, byte_digitChar_lt hnm hkm]
    simp only [List.lt_irrefl, and_false, or_false]
    omega

/-- Texts that start with such numerals are compared by them first. -/
theorem utf8_digits_append_lt {w n k : Nat} (hn : n < 10 ^ w) (hk : k < 10 ^ w) {x y : Str} :
    utf8 (digits w n ++ x) < utf8 (digits w k ++ y) ↔ n < k ∨ n = k ∧ utf8 x < utf8 y := by
  have hlen : (utf8 (digits w n)).length = (utf8 (digits w k)).length := by rw [length_utf8_digits, length_utf8_digits]
  rw [utf8_append, utf8_append, append_lt_append hlen, utf8_digits_lt hn hk, utf8_digits_inj hn hk]

theorem utf8_cons_lt_cons (c : Char) {x y : Str} : utf8 (c :: x) < utf8 (c :: y) ↔ utf8 x < utf8 y := by
  rw [utf8_cons, utf8_cons, append_lt_append rfl]
  simp only [List.lt_irrefl, true_and, false_or]

end Rust
