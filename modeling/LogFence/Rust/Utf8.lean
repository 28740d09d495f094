import Mathlib.Data.List.Basic
import LogFence.Rust.Outcome

/-!
# `str` and its bytes

A Rust `str` is a sequence of Unicode scalar values that is also, at every moment, its UTF-8 bytes:
`s.len()`, `s.as_bytes()`, `&s[i..j]` speak of the bytes, `s.chars()`, `strip_prefix`, `split_once`
of the characters. Here a `str` is its list of characters and `utf8` gives its bytes; a slice at a
byte offset that is not a character boundary panics, and so does an index past the end.

The second half is the part every byte scanner needs: an ASCII character is one byte of the same
code, every byte of any other character is `≥ 0x80`, so a scanner that only looks for ASCII bytes
reads the characters.
-/

namespace Rust

/-- A `str` / `String`: its characters. -/
abbrev Str := List Char

/-- A `[u8]` / `BytesMut`. -/
abbrev Bytes := List UInt8

/-- `s.as_bytes()`. -/
def utf8 (s : Str) : Bytes := s.flatMap String.utf8EncodeChar

/-- `s.len()`. -/
def len (s : Str) : Nat := (utf8 s).length

/-- `std::str::from_utf8(b).ok()`. -/
def fromUtf8 (b : Bytes) : Option Str := (b.toByteArray.utf8Decode?).map Array.toList

/-- A byte literal `b'c'`. -/
def byte (c : Char) : UInt8 := UInt8.ofNat c.toNat

/-- `c.is_ascii()`. -/
def isAscii (c : Char) : Bool := decide (c.toNat < 128)

@[simp] theorem utf8_nil : utf8 [] = [] := rfl
@[simp] theorem utf8_cons (c : Char) (s : Str) : utf8 (c :: s) = String.utf8EncodeChar c ++ utf8 s := rfl
@[simp] theorem utf8_append (s t : Str) : utf8 (s ++ t) = utf8 s ++ utf8 t := by simp [utf8]
@[simp] theorem len_nil : len [] = 0 := rfl
@[simp] theorem len_append (s t : Str) : len (s ++ t) = len s + len t := by simp [len]
@[simp] theorem length_utf8 (s : Str) : (utf8 s).length = len s := rfl

theorem len_cons (c : Char) (s : Str) : len (c :: s) = c.utf8Size + len s := by
  rw [len, utf8_cons, List.length_append, String.length_utf8EncodeChar, length_utf8]

theorem utf8_toByteArray (s : Str) : (utf8 s).toByteArray = s.utf8Encode := by
  simp [utf8, List.utf8Encode]

/-- **Decoding is the inverse of encoding**, and accepts nothing else. -/
theorem fromUtf8_eq_some {b : Bytes} {s : Str} : fromUtf8 b = some s ↔ b = utf8 s := by
  constructor
  · intro h
    obtain ⟨a, ha, rfl⟩ := Option.map_eq_some_iff.1 h
    have hs : (b.toByteArray.utf8Decode?).isSome := by rw [ha]; rfl
    have hg : b.toByteArray.utf8Decode?.get hs = a := by simp [ha]
    have he := ByteArray.utf8Encode_get_utf8Decode? (b := b.toByteArray) (h := hs)
    rw [hg, ← utf8_toByteArray] at he
    exact (List.toByteArray_inj.1 he).symm
  · rintro rfl
    simp [fromUtf8, utf8_toByteArray]

@[simp] theorem fromUtf8_utf8 (s : Str) : fromUtf8 (utf8 s) = some s := fromUtf8_eq_some.2 rfl

theorem utf8_injective {s t : Str} (h : utf8 s = utf8 t) : s = t := by
  have := congrArg fromUtf8 h
  simpa using this

/-! ## ASCII -/

theorem utf8Size_of_ascii {c : Char} (h : isAscii c = true) : c.utf8Size = 1 := by
  rw [Char.utf8Size_eq_one_iff, UInt32.le_iff_toNat_le]
  have : c.toNat < 128 := by simpa [isAscii] using h
  exact Nat.le_of_lt_succ this

/-- An ASCII character is one byte, of the same code. -/
theorem utf8EncodeChar_ascii {c : Char} (h : isAscii c = true) : String.utf8EncodeChar c = [byte c] := by
  have h' : c.toNat ≤ 127 := by
    have : c.toNat < 128 := by simpa [isAscii] using h
    omega
  simp only [String.utf8EncodeChar, Char.toNat_val, h', ↓reduceIte, byte]

/-- Every byte of any other character is `≥ 0x80`. -/
theorem utf8EncodeChar_nonascii {c : Char} (h : isAscii c = false) :
    ∀ x ∈ String.utf8EncodeChar c, 128 ≤ x.toNat := by
  have hc : ¬ c.val.toNat ≤ 127 := by
    intro h'
    have : isAscii c = true := by simp only [isAscii, decide_eq_true_eq]; exact Nat.lt_succ_of_le h'
    rw [h] at this; cases this
  intro x hx
  simp only [String.utf8EncodeChar, hc, ↓reduceIte] at hx
  split at hx
  · simp only [List.mem_cons, List.not_mem_nil, or_false] at hx
    rcases hx with rfl | rfl <;> simp <;> omega
  · split at hx <;> simp only [List.mem_cons, List.not_mem_nil, or_false] at hx
    · rcases hx with rfl | rfl | rfl <;> simp <;> omega
    · rcases hx with rfl | rfl | rfl | rfl <;> simp <;> omega

theorem utf8Size_of_nonascii {c : Char} (h : isAscii c = false) : 2 ≤ c.utf8Size := by
  have hpos := c.utf8Size_pos
  have hne : c.utf8Size ≠ 1 := by
    intro h1
    rw [Char.utf8Size_eq_one_iff, UInt32.le_iff_toNat_le] at h1
    have : isAscii c = true := by simp only [isAscii, decide_eq_true_eq]; exact Nat.lt_succ_of_le h1
    rw [h] at this; cases this
  omega

theorem toNat_byte {c : Char} (h : isAscii c = true) : (byte c).toNat = c.toNat := by
  have : c.toNat < 128 := by simpa [isAscii] using h
  simp only [byte, UInt8.toNat_ofNat']
  omega

theorem byte_inj {c d : Char} (hc : isAscii c = true) (hd : isAscii d = true) :
    byte c = byte d ↔ c = d := by
  constructor
  · intro h
    have := congrArg UInt8.toNat h
    rw [toNat_byte hc, toNat_byte hd] at this
    exact Char.ext (UInt32.toNat_inj.1 this)
  · rintro rfl; rfl

theorem len_cons_ascii {c : Char} (h : isAscii c = true) (s : Str) : len (c :: s) = 1 + len s := by
  rw [len_cons, utf8Size_of_ascii h]

/-- On ASCII text the byte length is the number of characters. -/
theorem len_eq_length : ∀ {s : Str}, (∀ c ∈ s, isAscii c = true) → len s = s.length
  | [], _ => rfl
  | c :: s, h => by
    rw [len_cons_ascii (h c (by simp)), len_eq_length (fun d hd => h d (by simp [hd])), List.length_cons]
    omega

theorem utf8_cons_ascii {c : Char} (h : isAscii c = true) (s : Str) : utf8 (c :: s) = byte c :: utf8 s := by
  rw [utf8_cons, utf8EncodeChar_ascii h]
  rfl

theorem utf8_ascii : ∀ {s : Str}, (∀ c ∈ s, isAscii c = true) → utf8 s = s.map byte
  | [], _ => rfl
  | c :: s, h => by
    rw [utf8_cons_ascii (h c (by simp)), utf8_ascii fun d hd => h d (by simp [hd])]
    rfl

/-! ## Indexing and slicing -/

variable {ε : Type}

/-- `b[i]`: a panic past the end. -/
def index (b : Bytes) (i : Nat) : Outcome ε UInt8 :=
  match b[i]? with
  | some x => .ok x
  | none => .panic

theorem index_ok {b : Bytes} {i : Nat} {x : UInt8} (h : b[i]? = some x) :
    (index b i : Outcome ε UInt8) = .ok x := by
  simp [index, h]

/-- `i < b.len() && b[i] == x`. -/
def byteAt (b : Bytes) (i : Nat) (x : UInt8) : Outcome ε Bool :=
  if i < b.length then (· == x) <$> index b i else pure false

/-- `&b[i..j]`: a panic when `i > j` or past the end. -/
def subslice (b : Bytes) (i j : Nat) : Outcome ε Bytes :=
  if i ≤ j ∧ j ≤ b.length then .ok ((b.drop i).take (j - i)) else .panic

/-- Cut a `str` at a byte offset; `none` where the offset is past the end or inside a character
    (`is_char_boundary` fails). -/
def splitAtByte : Str → Nat → Option (Str × Str)
  | s, 0 => some ([], s)
  | [], _ + 1 => none
  | c :: s, n + 1 =>
    if c.utf8Size ≤ n + 1 then
      (splitAtByte s (n + 1 - c.utf8Size)).map fun p => (c :: p.1, p.2)
    else none

theorem splitAtByte_eq_some : ∀ {s : Str} {n : Nat} {a b : Str},
    splitAtByte s n = some (a, b) ↔ s = a ++ b ∧ len a = n
  | s, 0, a, b => by
    simp only [splitAtByte, Option.some.injEq, Prod.mk.injEq]
    constructor
    · rintro ⟨rfl, rfl⟩; simp
    · rintro ⟨rfl, h⟩
      cases a with
      | nil => simp
      | cons c a => have := c.utf8Size_pos; rw [len_cons] at h; omega
  | [], n + 1, a, b => by
    simp only [splitAtByte, reduceCtorEq, false_iff, List.nil_eq, List.append_eq_nil_iff]
    rintro ⟨⟨rfl, rfl⟩, h⟩
    simp at h
  | c :: s, n + 1, a, b => by
    unfold splitAtByte
    split
    · rename_i hle
      simp only [Option.map_eq_some_iff, Prod.mk.injEq]
      constructor
      · rintro ⟨⟨a', b'⟩, h, rfl, rfl⟩
        obtain ⟨rfl, hl⟩ := splitAtByte_eq_some.1 h
        refine ⟨rfl, ?_⟩
        show len (c :: a') = n + 1
        rw [len_cons]; omega
      · rintro ⟨h, hl⟩
        cases a with
        | nil => simp at hl
        | cons c' a =>
          simp only [List.cons_append, List.cons.injEq] at h
          obtain ⟨rfl, rfl⟩ := h
          refine ⟨(a, b), splitAtByte_eq_some.2 ⟨rfl, ?_⟩, rfl, rfl⟩
          rw [len_cons] at hl; omega
    · rename_i hlt
      simp only [reduceCtorEq, false_iff]
      rintro ⟨h, hl⟩
      cases a with
      | nil => simp at hl
      | cons c' a =>
        simp only [List.cons_append, List.cons.injEq] at h
        obtain ⟨rfl, rfl⟩ := h
        rw [len_cons] at hl; omega

/-- `&s[i..j]`: a panic when `i > j`, past the end, or off a character boundary. -/
def slice (s : Str) (i j : Nat) : Outcome ε Str :=
  if i ≤ j then
    match splitAtByte s j with
    | some (a, _) => match splitAtByte a i with
      | some (_, m) => .ok m
      | none => .panic
    | none => .panic
  else .panic

/-- Standing at a character boundary, the next byte is an ASCII `c` when the next character is. -/
theorem byteAt_utf8 (p s : Str) {c : Char} (hc : isAscii c = true) :
    (byteAt (utf8 (p ++ s)) (len p) (byte c) : Outcome ε Bool) = .ok (s.head? == some c) := by
  cases s with
  | nil => simp [byteAt]
  | cons d s =>
    have hpos := d.utf8Size_pos
    have hlt : len p < (utf8 (p ++ d :: s)).length := by rw [length_utf8, len_append, len_cons]; omega
    obtain ⟨x, t, hx⟩ : ∃ x t, String.utf8EncodeChar d = x :: t := List.exists_cons_of_ne_nil String.utf8EncodeChar_ne_nil
    have hidx : (utf8 (p ++ d :: s))[len p]? = some x := by simp [hx, ← length_utf8]
    rw [byteAt, if_pos hlt, index_ok hidx, Outcome.map_ok]
    refine congrArg _ (Bool.eq_iff_iff.2 ?_)
    simp only [beq_iff_eq, List.head?_cons, Option.some.injEq]
    cases hd : isAscii d with
    | true =>
      rw [utf8EncodeChar_ascii hd] at hx
      obtain ⟨rfl, -⟩ := List.cons.inj hx
      exact byte_inj hd hc
    | false =>
      have hge := utf8EncodeChar_nonascii hd x (by rw [hx]; simp)
      have hlt : (byte c).toNat < 128 := by
        rw [toNat_byte hc]; simpa [isAscii] using hc
      constructor
      · rintro rfl; omega
      · rintro rfl; rw [hc] at hd; cases hd

theorem slice_append (p m r : Str) :
    (slice (p ++ m ++ r) (len p) (len (p ++ m)) : Outcome ε Str) = .ok m := by
  have h1 : splitAtByte (p ++ m ++ r) (len (p ++ m)) = some (p ++ m, r) :=
    splitAtByte_eq_some.2 ⟨rfl, rfl⟩
  have h2 : splitAtByte (p ++ m) (len p) = some (p, m) := splitAtByte_eq_some.2 ⟨rfl, rfl⟩
  simp only [slice, h1, h2]
  simp

/-- A slice that starts inside a character panics, wherever it ends. -/
theorem slice_panic_of_inside {p r : Str} {c : Char} (hc : isAscii c = false) (j : Nat) :
    (slice (p ++ c :: r) (len p + 1) j : Outcome ε Str) = .panic := by
  unfold slice
  split
  · split
    · rename_i a b hs
      obtain ⟨heq, -⟩ := splitAtByte_eq_some.1 hs
      split
      · rename_i x m hx
        obtain ⟨rfl, hl⟩ := splitAtByte_eq_some.1 hx
        exfalso
        have hsz := utf8Size_of_nonascii hc
        -- `x` and `p` are initial parts of one text: one is an initial part of the other
        rw [List.append_assoc] at heq
        rcases List.append_eq_append_iff.1 heq with ⟨t, hx', ht⟩ | ⟨t, hx', ht⟩
        · cases t with
          | nil => simp at hx'; subst hx'; omega
          | cons d t =>
            simp only [List.cons_append, List.cons.injEq] at ht
            obtain ⟨rfl, -⟩ := ht
            rw [hx', len_append, len_cons] at hl; omega
        · rw [hx', len_append] at hl; omega
      · rfl
    · rfl
  · rfl

end Rust
