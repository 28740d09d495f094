import LogFence.Rust.Utf8

/-!
# Byte scanners read characters

The two loop shapes the repository's hand-written scanners are made of, over `&[u8]` with an index:

* `skipWhile` — `while pos < b.len() && p(b[pos]) { pos += 1 }`;
* `scanBytes` — a loop that fails at the end of the input, otherwise consumes a byte and either
  changes its state or stops.

Both are about bytes and offsets. `skipWhile_utf8` and `scanBytes_utf8` say what they do on the bytes
of a text, standing at a character boundary, when only ASCII bytes matter to them: the same loop
over characters, and they stop at a character boundary again.
-/

namespace Rust

open Outcome

variable {ε σ : Type}

/-! ## `while pos < b.len() && p(b[pos]) { pos += 1 }` -/

def skipWhileBody (p : UInt8 → Bool) (b : Bytes) (pos : Nat) : Outcome ε (Turn Nat Nat) :=
  if pos < b.length then do
    let x ← index b pos
    if p x then pure (.next (pos + 1)) else pure (.done pos)
  else pure (.done pos)

theorem skipWhileBody_next {p : UInt8 → Bool} {b : Bytes} (pos pos' : Nat)
    (h : (skipWhileBody p b pos : Outcome ε _) = .ok (.next pos')) :
    b.length - pos' < b.length - pos := by
  unfold skipWhileBody at h
  split at h
  · obtain ⟨x, -, h⟩ := bind_eq_ok.1 h
    split at h <;> simp at h
    omega
  · simp at h

def skipWhile (p : UInt8 → Bool) (b : Bytes) (pos : Nat) : Outcome ε Nat :=
  loop (fun pos => b.length - pos) (skipWhileBody p b) skipWhileBody_next pos

theorem skipWhile_eq (p : UInt8 → Bool) (u v : Bytes) :
    (skipWhile p (u ++ v) u.length : Outcome ε Nat) = .ok (u.length + (v.takeWhile p).length) := by
  induction v generalizing u with
  | nil => exact loop_done (by simp [skipWhileBody])
  | cons x v ih =>
    have hx : (u ++ x :: v)[u.length]? = some x := by simp
    by_cases hp : p x = true
    · have hstep : (skipWhileBody p (u ++ x :: v) u.length : Outcome ε _) = .ok (.next (u.length + 1)) := by
        simp [skipWhileBody, index_ok hx, hp]
      have := ih (u ++ [x])
      simp only [List.append_assoc, List.singleton_append, List.length_append, List.length_singleton] at this
      rw [skipWhile, loop_next hstep]
      rw [skipWhile] at this
      rw [this, List.takeWhile_cons_of_pos hp, List.length_cons]
      congr 1; omega
    · rw [List.takeWhile_cons_of_neg hp]
      exact loop_done (by simp [skipWhileBody, index_ok hx, hp])

theorem skipWhile_ge {p : UInt8 → Bool} {b : Bytes} {pos n : Nat}
    (h : (skipWhile p b pos : Outcome ε Nat) = .ok n) : pos ≤ n := by
  refine loop_inv (fun k => pos ≤ k) (fun k => pos ≤ k) ?_ ?_ _ n (Nat.le_refl pos) h
  · intro s s' hs hb
    unfold skipWhileBody at hb
    split at hb
    · obtain ⟨x, -, hb⟩ := bind_eq_ok.1 hb
      split at hb <;> simp at hb
      omega
    · simp at hb
  · intro s a hs hb
    unfold skipWhileBody at hb
    split at hb
    · obtain ⟨x, -, hb⟩ := bind_eq_ok.1 hb
      split at hb <;> simp at hb
      omega
    · simp at hb; omega

/-- A byte predicate that stands for a character predicate: the same on ASCII, true of the rest. -/
structure Lifts (p : UInt8 → Bool) (P : Char → Bool) : Prop where
  ascii : ∀ c, isAscii c = true → p (byte c) = P c
  high : ∀ x : UInt8, 128 ≤ x.toNat → p x = true
  nonascii : ∀ c, isAscii c = false → P c = true

theorem takeWhile_append_of_all {α : Type} {p : α → Bool} {u : List α} (v : List α)
    (h : ∀ x ∈ u, p x = true) : (u ++ v).takeWhile p = u ++ v.takeWhile p := by
  induction u with
  | nil => rfl
  | cons x u ih =>
    rw [List.cons_append, List.takeWhile_cons_of_pos (h x (by simp)),
      ih (fun y hy => h y (by simp [hy])), List.cons_append]

theorem Lifts.takeWhile_utf8 {p : UInt8 → Bool} {P : Char → Bool} (h : Lifts p P) (s : Str) :
    (utf8 s).takeWhile p = utf8 (s.takeWhile P) := by
  induction s with
  | nil => rfl
  | cons c s ih =>
    cases hc : isAscii c with
    | true =>
      rw [utf8_cons, utf8EncodeChar_ascii hc, List.singleton_append]
      by_cases hp : P c = true
      · rw [List.takeWhile_cons_of_pos (by rw [h.ascii c hc, hp]), List.takeWhile_cons_of_pos hp, ih,
          utf8_cons, utf8EncodeChar_ascii hc, List.singleton_append]
      · rw [List.takeWhile_cons_of_neg (by rw [h.ascii c hc]; exact hp), List.takeWhile_cons_of_neg hp,
          utf8_nil]
    | false =>
      rw [utf8_cons, takeWhile_append_of_all _ (fun x hx => h.high x (utf8EncodeChar_nonascii hc x hx)), ih,
        List.takeWhile_cons_of_pos (h.nonascii c hc), utf8_cons]

/-- **`skipWhile` on a text**, from a character boundary: it skips the characters `P` holds of. -/
theorem skipWhile_utf8 {p : UInt8 → Bool} {P : Char → Bool} (h : Lifts p P) (q s : Str) :
    (skipWhile p (utf8 (q ++ s)) (len q) : Outcome ε Nat) = .ok (len (q ++ s.takeWhile P)) := by
  have := skipWhile_eq (ε := ε) p (utf8 q) (utf8 s)
  rw [length_utf8, ← utf8_append, h.takeWhile_utf8] at this
  rw [this, length_utf8, len_append]

/-! ## Loops that consume a byte and change state -/

def scanBytesBody (δ : σ → UInt8 → Option σ) (e : ε) (b : Bytes) (s : Nat × σ) :
    Outcome ε (Turn (Nat × σ) Nat) :=
  if s.1 ≥ b.length then .err e
  else do
    let x ← index b s.1
    match δ s.2 x with
    | some q' => pure (.next (s.1 + 1, q'))
    | none => pure (.done (s.1 + 1))

theorem scanBytesBody_next {δ : σ → UInt8 → Option σ} {e : ε} {b : Bytes} (s s' : Nat × σ)
    (h : scanBytesBody δ e b s = .ok (.next s')) : b.length - s'.1 < b.length - s.1 := by
  unfold scanBytesBody at h
  split at h
  · simp at h
  · obtain ⟨x, -, h⟩ := bind_eq_ok.1 h
    split at h <;> simp at h
    subst h; simp only; omega

/-- Consume bytes from `pos` on, in state `q`; `δ` gives the next state, or stops after the byte.
    At the end of the input it fails with `e`. -/
def scanBytes (δ : σ → UInt8 → Option σ) (e : ε) (b : Bytes) (pos : Nat) (q : σ) : Outcome ε Nat :=
  loop (fun s => b.length - s.1) (scanBytesBody δ e b) scanBytesBody_next (pos, q)

/-- A scan never stands still: where it stops lies beyond where it started. -/
theorem scanBytes_gt {δ : σ → UInt8 → Option σ} {e : ε} {b : Bytes} {pos n : Nat} {q : σ}
    (h : scanBytes δ e b pos q = .ok n) : pos < n ∧ n ≤ b.length := by
  refine loop_inv (fun s => pos ≤ s.1) (fun n => pos < n ∧ n ≤ b.length) ?_ ?_ _ n (Nat.le_refl pos) h
  · intro s s' hs hb
    unfold scanBytesBody at hb
    split at hb
    · simp at hb
    · obtain ⟨x, -, hb⟩ := bind_eq_ok.1 hb
      split at hb <;> simp at hb
      subst hb; simp only; omega
  · intro s a hs hb
    unfold scanBytesBody at hb
    split at hb
    · simp at hb
    · obtain ⟨x, -, hb⟩ := bind_eq_ok.1 hb
      split at hb <;> simp at hb
      omega

/-- The same loop over characters: the consumed text, the one that stops it included, and the rest. -/
def scanChars (δ : σ → Char → Option σ) : σ → Str → Option (Str × Str)
  | _, [] => none
  | q, c :: s =>
    match δ q c with
    | none => some ([c], s)
    | some q' => (scanChars δ q' s).map fun p => (c :: p.1, p.2)

theorem scanChars_append {δ : σ → Char → Option σ} : ∀ {q : σ} {s a r : Str},
    scanChars δ q s = some (a, r) → s = a ++ r
  | _, [], _, _, h => by simp [scanChars] at h
  | q, c :: s, a, r, h => by
    unfold scanChars at h
    split at h
    · cases h; rfl
    · obtain ⟨⟨a', r'⟩, h', he⟩ := Option.map_eq_some_iff.1 h
      cases he
      rw [scanChars_append h']; rfl

/-- A scan does not look beyond where it stops. -/
theorem scanChars_extend {δ : σ → Char → Option σ} : ∀ {q : σ} {s a r : Str} (t : Str),
    scanChars δ q s = some (a, r) → scanChars δ q (s ++ t) = some (a, r ++ t)
  | _, [], _, _, _, h => by simp [scanChars] at h
  | q, c :: s, a, r, t, h => by
    simp only [List.cons_append, scanChars] at h ⊢
    split at h
    · cases h; simp
    · obtain ⟨⟨a', r'⟩, h', he⟩ := Option.map_eq_some_iff.1 h
      cases he
      simp [scanChars_extend t h']

/-- A byte automaton that stands for a character automaton: the same on ASCII; a byte of any other
    character, and such a character as a whole, takes a state to its `rest`. -/
structure Reads (δb : σ → UInt8 → Option σ) (δc : σ → Char → Option σ) (rest : σ → σ) : Prop where
  ascii : ∀ q c, isAscii c = true → δb q (byte c) = δc q c
  high : ∀ q (x : UInt8), 128 ≤ x.toNat → δb q x = some (rest q)
  nonascii : ∀ q c, isAscii c = false → δc q c = some (rest q)
  rest_rest : ∀ q, rest (rest q) = rest q

section
variable {δb : σ → UInt8 → Option σ} {δc : σ → Char → Option σ} {rest : σ → σ} {e : ε}

/-- The loop goes through the bytes its automaton reads without stopping. -/
theorem steps_scanBytesBody {q q' : σ} {w : Bytes} (u v : Bytes) (h : w.foldlM δb q = some q') :
    Steps (scanBytesBody δb e (u ++ w ++ v)) (u.length, q) ((u ++ w).length, q') := by
  induction w generalizing u q with
  | nil =>
    cases h
    exact (List.append_nil u).symm ▸ .refl
  | cons x w ih =>
    obtain ⟨q₁, hq₁, hw⟩ := Option.bind_eq_some_iff.1 (List.foldlM_cons.symm.trans h)
    have hx : (u ++ x :: w ++ v)[u.length]? = some x := by simp
    have hnot : ¬ u.length ≥ (u ++ x :: w ++ v).length := by
      simp only [List.length_append, List.length_cons]; omega
    have hstep : scanBytesBody δb e (u ++ x :: w ++ v) (u.length, q) = .ok (.next (u.length + 1, q₁)) := by
      simp only [scanBytesBody, hnot, ↓reduceIte, index_ok hx, ok_bind, hq₁, pure_eq]
    refine .head hstep ?_
    have := ih (u ++ [x]) hw
    simpa only [List.append_assoc, List.singleton_append, List.length_append, List.length_singleton] using this

theorem foldlM_high (h : Reads δb δc rest) : ∀ (w : Bytes) (q : σ), w ≠ [] → (∀ x ∈ w, 128 ≤ x.toNat) →
    w.foldlM δb q = some (rest q)
  | [], _, hne, _ => absurd rfl hne
  | [x], q, _, hw => by
    rw [List.foldlM_cons, h.high q x (hw x (by simp))]
    rfl
  | x :: y :: w, q, _, hw => by
    have hrest := foldlM_high h (y :: w) (rest q) (by simp) (fun z hz => hw z (by simp [hz]))
    rw [List.foldlM_cons, h.high q x (hw x (by simp)), Option.bind_eq_bind, Option.bind_some, hrest, h.rest_rest]

/-- The two automata go through a text alike. -/
theorem foldlM_utf8 (h : Reads δb δc rest) (s : Str) (q : σ) : (utf8 s).foldlM δb q = s.foldlM δc q := by
  induction s generalizing q with
  | nil => rfl
  | cons c s ih =>
    rw [utf8_cons, List.foldlM_append, List.foldlM_cons]
    cases hc : isAscii c with
    | true =>
      simp only [utf8EncodeChar_ascii hc, List.foldlM_cons, h.ascii q c hc, List.foldlM_nil, bind_pure, ih]
    | false =>
      rw [h.nonascii q c hc, foldlM_high h _ q String.utf8EncodeChar_ne_nil (utf8EncodeChar_nonascii hc)]
      exact ih (rest q)

theorem scanBytes_high (h : Reads δb δc rest) {w : Bytes} (u v : Bytes) (q : σ) (hne : w ≠ [])
    (hw : ∀ x ∈ w, 128 ≤ x.toNat) :
    scanBytes δb e (u ++ w ++ v) u.length q = scanBytes δb e (u ++ w ++ v) (u ++ w).length (rest q) :=
  loop_steps (steps_scanBytesBody u v (foldlM_high h w q hne hw))

/-- **`scanBytes` on a text**, from a character boundary: the same scan over its characters. -/
theorem scanBytes_utf8 (h : Reads δb δc rest) (p s : Str) (q : σ) :
    scanBytes δb e (utf8 (p ++ s)) (len p) q =
      match scanChars δc q s with
      | some (a, _) => .ok (len (p ++ a))
      | none => .err e := by
  induction s generalizing p q with
  | nil =>
    simp only [scanChars, List.append_nil]
    exact loop_err (by simp [scanBytesBody])
  | cons c s ih =>
    have hsplit : utf8 (p ++ c :: s) = utf8 p ++ String.utf8EncodeChar c ++ utf8 s := by simp
    have hih := fun q => ih (p ++ [c]) q
    simp only [List.append_assoc, List.singleton_append] at hih
    simp only [scanChars]
    cases hc : isAscii c with
    | true =>
      have hx : (utf8 (p ++ c :: s))[len p]? = some (byte c) := by
        rw [hsplit, utf8EncodeChar_ascii hc]; simp [← length_utf8]
      have hlen : len (p ++ [c]) = len p + 1 := by rw [len_append, len_cons_ascii hc, len_nil]
      have hlt : len p < (utf8 (p ++ c :: s)).length := by
        rw [length_utf8, len_append, len_cons_ascii hc]; omega
      cases hd : δc q c with
      | none =>
        simp only [hlen]
        refine loop_done ?_
        have hnot : ¬ len p ≥ (utf8 (p ++ c :: s)).length := by omega
        simp only [scanBytesBody, hnot, ↓reduceIte, index_ok hx, ok_bind, h.ascii q c hc, hd, pure_eq]
      | some q' =>
        have hstep : scanBytes δb e (utf8 (p ++ c :: s)) (len p) q =
            scanBytes δb e (utf8 (p ++ c :: s)) (len p + 1) q' := by
          have hnot : ¬ len p ≥ (utf8 (p ++ c :: s)).length := by omega
          refine loop_next ?_
          simp only [scanBytesBody, hnot, ↓reduceIte, index_ok hx, ok_bind, h.ascii q c hc, hd, pure_eq]
        rw [hstep, ← hlen, hih q']
        rcases hs : scanChars δc q' s with _ | ⟨a, r⟩ <;> simp [hs]
    | false =>
      rw [h.nonascii q c hc]
      have hw := scanBytes_high (e := e) h (utf8 p) (utf8 s) q
        String.utf8EncodeChar_ne_nil (utf8EncodeChar_nonascii hc)
      have hpc : (utf8 p ++ String.utf8EncodeChar c).length = len (p ++ [c]) := by
        rw [← length_utf8, utf8_append]; simp
      rw [← hsplit, hpc, length_utf8] at hw
      rw [hw, hih (rest q)]
      rcases hs : scanChars δc (rest q) s with _ | ⟨a, r⟩ <;> simp [hs]

end

end Rust
