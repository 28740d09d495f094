import LogFence.Proto.Splits
import LogFence.Rust.Numerals

/-!
# The frame length `sp_pos + 1 + msg_len` (`frame.rs:72-121`)

`OctetCountCodec::new` takes any `max_size`, and `decode` adds the length a peer sent to the place of the SP.
`OctetSafe` is what the code behind the sum relies on. It holds wherever the sum is a `usize`
(`octetSafe_iff`); a buffer has at most `isize::MAX` bytes, so a codec is safe on all of them if `max_size` is
at most `2^63`, and no other is. Where the sum wraps, a short buffer gets past `buf.len() < total`, and
`split_to` panics (`octetDecode_overflow`).
-/

namespace LogFence

open Rust Outcome

/-- `decode` comes to the sum at `b`: a count within the limit stands in front of the first SP. -/
structure ReadsCount (maxSize : Nat) (b a r : Bytes) (n : Nat) : Prop where
  split : b = a ++ byte ' ' :: r
  first : byte ' ' ∉ a
  count : (fromUtf8 a).bind (parseUnsigned usizeMax) = some n
  le_max : n ≤ maxSize

/-- A message, or an error about a body. -/
def consumes : Outcome FrameError (Option SyslogMessage) → Bool
  | .ok (some _) | .err .invalidUtf8 | .err (.parse _) => true
  | _ => false

/-- What `decode` relies on at `b`, and how much it takes off. -/
structure OctetSafe (maxSize : Nat) (b : Bytes) : Prop where
  /-- The sum is a `usize`. -/
  total : CountFits maxSize b
  /-- `advance(sp_pos + 1)` and `split_to(msg_len)` find their bytes. -/
  within : ∀ a r n, ReadsCount maxSize b a r n → (octetDecode maxSize b).1 ≠ .ok none →
    a.length + 1 ≤ b.length ∧ n ≤ (b.drop (a.length + 1)).length
  removes : consumes (octetDecode maxSize b).1 = true → ∃ a r n, ReadsCount maxSize b a r n ∧
    a.length + 1 + n ≤ b.length ∧ (octetDecode maxSize b).2 = b.drop (a.length + 1 + n)
  keeps : consumes (octetDecode maxSize b).1 = false → (octetDecode maxSize b).1 ≠ .panic → (octetDecode maxSize b).2 = b

section
variable {maxSize : Nat} {b a r : Bytes} {n : Nat}

theorem ReadsCount.length (h : ReadsCount maxSize b a r n) : b.length = a.length + 1 + r.length := by
  rw [h.split, List.length_append, List.length_cons]
  omega

theorem ReadsCount.drop (h : ReadsCount maxSize b a r n) : b.drop (a.length + 1) = r := by
  rw [h.split, List.drop_length_add_append, List.drop_one, List.tail_cons]

theorem ReadsCount.le_usizeMax (h : ReadsCount maxSize b a r n) : n ≤ usizeMax := by
  obtain ⟨s, -, hs⟩ := Option.bind_eq_some_iff.1 h.count
  exact (parseUnsigned_eq_some.1 hs).1

theorem ReadsCount.fits (h : ReadsCount maxSize b a r n) (hfit : CountFits maxSize b) : a.length + 1 + n < 2 ^ 64 :=
  hfit a r n h.split h.first h.count h.le_max

/-- Up to the sum nothing is taken off the buffer. -/
theorem readsCount_or_keeps (maxSize : Nat) (b : Bytes) :
    (∃ a r n, ReadsCount maxSize b a r n) ∨ (octetDecode maxSize b).2 = b ∧ consumes (octetDecode maxSize b).1 = false := by
  by_cases hb : byte ' ' ∈ b
  · obtain ⟨a, r, rfl, ha⟩ := List.eq_append_cons_of_mem hb
    rw [octetDecode_sp maxSize ha]
    cases hn : (fromUtf8 a).bind (parseUnsigned usizeMax) with
    | none => exact .inr ⟨rfl, rfl⟩
    | some n =>
      by_cases hmax : n > maxSize
      · right
        simp [hmax, consumes]
      · exact .inl ⟨a, r, n, rfl, ha, hn, Nat.not_lt.1 hmax⟩
  · right
    rw [octetDecode_digits hb]
    split <;> exact ⟨rfl, rfl⟩

/-- `decode` from the sum on, if it is a `usize`. -/
theorem octetDecode_of_readsCount (h : ReadsCount maxSize b a r n) (hfit : a.length + 1 + n < 2 ^ 64) :
    octetDecode maxSize b = if r.length < n then (.ok none, b) else (some <$> readBody (r.take n), r.drop n) := by
  have hmax := h.le_max
  rw [h.split, octetDecode_sp maxSize h.first, h.count]
  dsimp only
  rw [if_neg (by omega), Nat.mod_eq_of_lt hfit]
  by_cases hlt : r.length < n
  · rw [if_pos (by omega), if_pos hlt]
  · rw [if_neg (by omega), if_neg hlt, if_pos (by omega)]

/-- And if it is not: it wraps to at most `sp_pos`, which the buffer has, but the body is not there. -/
theorem octetDecode_overflow (h : ReadsCount maxSize b a r n) (hover : 2 ^ 64 ≤ a.length + 1 + n)
    (halloc : b.length ≤ isizeMax) : octetDecode maxSize b = (.panic, r) := by
  have hmax := h.le_max
  have husize := h.le_usizeMax
  rw [h.length] at halloc
  unfold usizeMax at husize
  unfold isizeMax at halloc
  have hwrap : (a.length + 1 + n) % 2 ^ 64 ≤ a.length := by omega
  rw [h.split, octetDecode_sp maxSize h.first, h.count]
  dsimp only
  rw [if_neg (by omega), if_neg (by omega), if_neg (by omega)]

/-- What is done with a body takes it off the buffer, unless the parser panics. -/
theorem consumes_readBody {f : Bytes} (h : some <$> readBody f ≠ .panic) : consumes (some <$> readBody f) = true := by
  rcases hr : readBody f with m | e | _
  · rfl
  · rcases readBody_eq_err hr with rfl | ⟨e', rfl⟩ <;> rfl
  · rw [hr] at h
    exact absurd rfl h

/-- A call of `decode` where the sum fits: the buffer is left alone, or a frame that is all there comes off. -/
theorem octetDecode_fits_cases (h : CountFits maxSize b) :
    (octetDecode maxSize b).2 = b ∧ consumes (octetDecode maxSize b).1 = false ∨
      ∃ a r n, ReadsCount maxSize b a r n ∧ n ≤ r.length ∧
        octetDecode maxSize b = (some <$> readBody (r.take n), r.drop n) := by
  rcases readsCount_or_keeps maxSize b with ⟨a, r, n, hread⟩ | hkeeps
  · rw [octetDecode_of_readsCount hread (hread.fits h)]
    by_cases hlt : r.length < n
    · rw [if_pos hlt]
      exact .inl ⟨rfl, rfl⟩
    · rw [if_neg hlt]
      exact .inr ⟨a, r, n, hread, Nat.not_lt.1 hlt, rfl⟩
  · exact .inl hkeeps

theorem octetSafe_of_countFits (h : CountFits maxSize b) : OctetSafe maxSize b := by
  refine ⟨h, ?_, ?_, ?_⟩
  · intro a r n hread hmore
    have hlength := hread.length
    rw [octetDecode_of_readsCount hread (hread.fits h)] at hmore
    rw [hread.drop]
    by_cases hlt : r.length < n
    · rw [if_pos hlt] at hmore
      exact absurd rfl hmore
    · exact ⟨by omega, by omega⟩
  · intro hcons
    rcases octetDecode_fits_cases h with ⟨-, hno⟩ | ⟨a, r, n, hread, hle, hdec⟩
    · rw [hno] at hcons
      cases hcons
    · have hlength := hread.length
      refine ⟨a, r, n, hread, by omega, ?_⟩
      rw [hdec, ← List.drop_drop, hread.drop]
  · intro hno hpanic
    rcases octetDecode_fits_cases h with ⟨hkeeps, -⟩ | ⟨a, r, n, -, -, hdec⟩
    · exact hkeeps
    · rw [hdec] at hno hpanic
      rw [consumes_readBody hpanic] at hno
      cases hno

theorem exists_readsCount_of_not (h : ¬ CountFits maxSize b) :
    ∃ a r n, ReadsCount maxSize b a r n ∧ 2 ^ 64 ≤ a.length + 1 + n := by
  unfold CountFits at h
  push Not at h
  obtain ⟨a, r, n, hsplit, hfirst, hcount, hle, hover⟩ := h
  exact ⟨a, r, n, ⟨hsplit, hfirst, hcount, hle⟩, hover⟩

end

/-- A count of any width, padded with zeros. -/
theorem exists_count {w n : Nat} (hw : 20 ≤ w) (hn : n ≤ usizeMax) :
    ∃ a : Bytes, a.length = w ∧ byte ' ' ∉ a ∧ (fromUtf8 a).bind (parseUnsigned usizeMax) = some n := by
  have hlt : n < 10 ^ w := calc
    n < 10 ^ 20 := by
      unfold usizeMax at hn
      omega
    _ ≤ 10 ^ w := Nat.pow_le_pow_right (by decide) hw
  have hspace : byte ' ' ∉ utf8 (digits w n) := byte_notMem_utf8_of_isDigit (fun _ => isDigit_of_mem_digits) (by decide) (by decide)
  refine ⟨utf8 (digits w n), length_utf8_digits w n, hspace, ?_⟩
  rw [fromUtf8_utf8, Option.bind_some, ← padded_eq_digits (by omega) hlt]
  exact parseUnsigned_eq_some.2 ⟨hn, [], _, .inl rfl, rfl⟩

/-- Over `2^63`, a padded count fills a buffer up to where the sum overflows. -/
theorem exists_not_countFits {maxSize : Nat} (h : 2 ^ 63 < maxSize) :
    ∃ b : Bytes, b.length ≤ isizeMax ∧ ¬ CountFits maxSize b := by
  obtain ⟨w, hw, hwide⟩ : ∃ w, w + 1 = isizeMax ∧ 20 ≤ w := ⟨2 ^ 63 - 2, by decide, by decide⟩
  obtain ⟨a, hlength, ha, hcount⟩ := exists_count (n := 2 ^ 63 + 1) hwide (by decide)
  refine ⟨a ++ [byte ' '], by simp [hlength, hw], fun hfit => ?_⟩
  have hlt := hfit a [] _ rfl ha hcount h
  unfold isizeMax at hw
  omega

end LogFence
