import LogFence.Proto.Frame

/-!
# Where the reads split the stream (`logfence-proto/src/frame.rs`)

`octetDecode` judges a length prefix twice: by its length while no SP has come, by its value once one has.
`octetDecode_stable_iff` says on which buffers the two judgements agree, so that bytes which come later
change nothing.

For `delimiterDecode` there is one judgement. `feedLines` reads a stream piece by piece and decodes until
more bytes are needed or a line is too long; `LineRun` says what such a run does to its bytes, one
constructor for each way a round of `decode` ends, and `feedLines_lines_iff` compares it with cutting the
stream at its delimiters (`List.splitOn`).
-/

namespace LogFence

open Rust Outcome

/-! ## Octet counting: more data -/

/-- Two errors of one variant. -/
def FrameError.sameKind : FrameError → FrameError → Bool
  | .messageTooLarge _ _, .messageTooLarge _ _ => true
  | .invalidOctetCount, .invalidOctetCount => true
  | .invalidUtf8, .invalidUtf8 => true
  | .octetCountPrefixTooLong, .octetCountPrefixTooLong => true
  | .parse _, .parse _ => true
  | .io, .io => true
  | _, _ => false

theorem FrameError.sameKind_self (e : FrameError) : e.sameKind e = true := by cases e <;> rfl

/-- What `decode` makes of `b` it makes of `b` and `x` too. -/
structure OctetStable (maxSize : Nat) (b x : Bytes) : Prop where
  item : ∀ m r, octetDecode maxSize b = (.ok (some m), r) → octetDecode maxSize (b ++ x) = (.ok (some m), r ++ x)
  error : ∀ e r, octetDecode maxSize b = (.err e, r) →
    ∃ e' r', octetDecode maxSize (b ++ x) = (.err e', r') ∧ e.sameKind e' = true
  more : ∀ r, octetDecode maxSize b = (.ok none, r) → r = b

/-- The count in front of the first SP of `b`, if there is one and it is within the limit, and `sp_pos + 1`
    add up to a `usize`. -/
def CountFits (maxSize : Nat) (b : Bytes) : Prop :=
  ∀ a r n, b = a ++ byte ' ' :: r → byte ' ' ∉ a → (fromUtf8 a).bind (parseUnsigned usizeMax) = some n → n ≤ maxSize →
    a.length + 1 + n < 2 ^ 64

theorem countFits_of_lt {maxSize : Nat} {b : Bytes} (h : b.length + maxSize < 2 ^ 64) : CountFits maxSize b := by
  rintro a r n rfl - - hn
  rw [List.length_append, List.length_cons] at h
  omega

/-- Once its SP is there, a buffer that is not waiting is decoded alike whatever follows it. -/
theorem octetDecode_sp_append {maxSize : Nat} {a r : Bytes} (ha : byte ' ' ∉ a)
    (hfit : CountFits maxSize (a ++ byte ' ' :: r)) (x : Bytes)
    (hmore : (octetDecode maxSize (a ++ byte ' ' :: r)).1 ≠ .ok none) :
    octetDecode maxSize (a ++ byte ' ' :: (r ++ x)) =
      ((octetDecode maxSize (a ++ byte ' ' :: r)).1, (octetDecode maxSize (a ++ byte ' ' :: r)).2 ++ x) := by
  have hcount := fun n => hfit a r n rfl ha
  rw [octetDecode_sp maxSize ha] at hmore ⊢
  rw [octetDecode_sp maxSize ha]
  cases hn : (fromUtf8 a).bind (parseUnsigned usizeMax) with
  | none => simp
  | some n =>
    rw [hn] at hmore
    dsimp only at hmore ⊢
    by_cases hmax : n > maxSize
    · simp [hmax]
    · have hmod := Nat.mod_eq_of_lt (hcount n hn (by omega))
      simp only [if_neg hmax, hmod] at hmore ⊢
      -- the body is all there, so what follows it is left alone
      have hbody : n ≤ r.length := by
        by_contra hlt
        rw [if_pos (by omega)] at hmore
        exact hmore rfl
      have hbody' : n ≤ (r ++ x).length := by rw [List.length_append]; omega
      simp only [if_pos hbody, if_pos hbody', Nat.not_lt.2 (Nat.add_le_add_left hbody _),
        Nat.not_lt.2 (Nat.add_le_add_left hbody' _), if_false, List.take_append_of_le_length hbody,
        List.drop_append_of_le_length hbody]

/-- Behind an SP no prefix is too long. -/
theorem octetDecode_sp_ne (maxSize : Nat) {a : Bytes} (ha : byte ' ' ∉ a) (r : Bytes) :
    (octetDecode maxSize (a ++ byte ' ' :: r)).1 ≠ .err .octetCountPrefixTooLong := by
  rw [octetDecode_sp maxSize ha]
  split
  · simp
  · split
    · simp
    split
    · simp
    split
    · intro h
      rcases readBody_eq_err (map_some_eq_err h) with h | ⟨_, h⟩ <;> cases h
    · simp

/-- **When more data changes nothing.** -/
theorem octetDecode_stable_iff {maxSize : Nat} {b : Bytes} (hfit : CountFits maxSize b) (x : Bytes) :
    OctetStable maxSize b x ↔ ¬ (byte ' ' ∉ b ∧ b.length > maxDigits ∧ byte ' ' ∈ x) := by
  constructor
  · rintro hstable ⟨hb, hlong, hx⟩
    obtain ⟨x₁, x₂, rfl, hx₁⟩ := List.eq_append_cons_of_mem hx
    have hdec : octetDecode maxSize b = (.err .octetCountPrefixTooLong, b) := by
      rw [octetDecode_digits hb, if_pos hlong]
    obtain ⟨e', r', he, hkind⟩ := hstable.error _ _ hdec
    have hne : byte ' ' ∉ b ++ x₁ := by simp [hb, hx₁]
    rw [← List.append_assoc] at he
    refine octetDecode_sp_ne maxSize hne x₂ ?_
    rw [he]
    cases e' <;> simp [FrameError.sameKind] at hkind ⊢
  · intro hcond
    have hmore : ∀ r, octetDecode maxSize b = (.ok none, r) → r = b := fun r h => octetDecode_keeps h
    by_cases hb : byte ' ' ∈ b
    · obtain ⟨a, r, rfl, ha⟩ := List.eq_append_cons_of_mem hb
      have happ := fun h => octetDecode_sp_append ha hfit x h
      refine ⟨fun m r' h => ?_, fun e r' h => ⟨e, r' ++ x, ?_, e.sameKind_self⟩, hmore⟩
      · rw [List.append_assoc, List.cons_append, happ (by rw [h]; simp), h]
      · rw [List.append_assoc, List.cons_append, happ (by rw [h]; simp), h]
    · refine ⟨fun m r h => ?_, fun e r h => ?_, hmore⟩
      · rw [octetDecode_digits hb] at h
        split at h <;> cases h
      · by_cases hlong : b.length > maxDigits
        · rw [octetDecode_digits hb, if_pos hlong] at h
          cases h
          have hbx : byte ' ' ∉ b ++ x := by
            rw [List.mem_append]
            rintro (h | h)
            · exact hb h
            · exact hcond ⟨hb, hlong, h⟩
          refine ⟨_, b ++ x, ?_, FrameError.sameKind_self _⟩
          rw [octetDecode_digits hbx, if_pos (by rw [List.length_append]; omega)]
        · rw [octetDecode_digits hb, if_neg hlong] at h
          cases h

/-- A frame with a padded count, all of it read. -/
theorem octetDecode_stable_frame : CountFits 1024 (utf8 "017 <13>1 - - - - - -".toList) ∧
    OctetStable 1024 (utf8 "017 <13>1 - - - - - -".toList) (utf8 " x".toList) := by
  have hfit : CountFits 1024 (utf8 "017 <13>1 - - - - - -".toList) := countFits_of_lt (by decide)
  exact ⟨hfit, (octetDecode_stable_iff hfit _).2 fun h => h.1 (by decide)⟩

/-- A count padded to twenty-one digits: the frame is decoded if it comes in one read, and refused if a read
    ends in front of its SP. -/
theorem octetDecode_unstable_padding :
    octetDecode 1024 (utf8 "000000000000000000017".toList) =
        (.err .octetCountPrefixTooLong, utf8 "000000000000000000017".toList) ∧
      octetDecode 1024 (utf8 "000000000000000000017".toList ++ utf8 " <13>1 - - - - - -".toList) =
        (.ok (some ⟨⟨.user, .notice⟩, none, none, none, none, none, ['-'], []⟩), []) ∧
      ¬ OctetStable 1024 (utf8 "000000000000000000017".toList) (utf8 " <13>1 - - - - - -".toList) := by
  have hpart : octetDecode 1024 (utf8 "000000000000000000017".toList) =
      (.err .octetCountPrefixTooLong, utf8 "000000000000000000017".toList) := by
    rw [octetDecode_digits (by decide), if_pos (by decide)]
  have hwhole : octetDecode 1024 (utf8 "000000000000000000017".toList ++ utf8 " <13>1 - - - - - -".toList) =
      (.ok (some ⟨⟨.user, .notice⟩, none, none, none, none, none, ['-'], []⟩), []) := by
    have htext : utf8 " <13>1 - - - - - -".toList = byte ' ' :: utf8 "<13>1 - - - - - -".toList := by decide
    have hcount : (fromUtf8 (utf8 "000000000000000000017".toList)).bind (parseUnsigned usizeMax) = some 17 := by
      rw [fromUtf8_utf8]; decide
    have hread : readBody (utf8 "<13>1 - - - - - -".toList) =
        .ok ⟨⟨.user, .notice⟩, none, none, none, none, none, ['-'], []⟩ := by
      rw [readBody, fromUtf8_utf8]; decide
    have htake : (utf8 "<13>1 - - - - - -".toList).take 17 = utf8 "<13>1 - - - - - -".toList := by decide
    have hdrop : (utf8 "<13>1 - - - - - -".toList).drop 17 = [] := by decide
    rw [htext, octetDecode_sp 1024 (by decide), hcount]
    dsimp only
    rw [if_neg (by decide), if_neg (by decide), if_pos (by decide), htake, hdrop, hread]
    rfl
  refine ⟨hpart, hwhole, fun hstable => ?_⟩
  obtain ⟨e', r', he, -⟩ := hstable.error _ _ hpart
  rw [hwhole] at he
  cases he

/-! ## Lines: the run -/

/-- `MessageTooLarge`, of any size. -/
def FrameError.isTooLarge : FrameError → Bool
  | .messageTooLarge _ _ => true
  | _ => false

/-- Where decoding rests: more bytes are needed behind `buf`, a line was too long, or `parse` panicked. -/
inductive LineStop where
  | waiting (buf : Bytes)
  | tooLarge (e : FrameError)
  | panicked
deriving DecidableEq, Repr

section
variable {delimiter : UInt8} {maxSize : Nat}

theorem readBody_not_tooLarge {f : Bytes} {e : FrameError} (h : readBody f = .err e) : e.isTooLarge = false := by
  rcases readBody_eq_err h with rfl | ⟨_, rfl⟩ <;> rfl

/-- An error of a line takes the line off. -/
theorem delimiterDecode_err_shrinks {b b' : Bytes} {e : FrameError}
    (h : delimiterDecode delimiter maxSize b = (.err e, b')) (he : ¬ e.isTooLarge = true) : b'.length < b.length := by
  rcases delimiter_cases delimiter b with hb | ⟨f, r, hf, rfl⟩
  · rw [delimiterDecode_open hb] at h
    split at h
    · cases h; exact absurd rfl he
    · cases h
  · rw [delimiterDecode_line hf] at h
    split at h
    · cases h; exact absurd rfl he
    · rw [← (Prod.mk.inj h).2, List.length_append, List.length_cons]; omega

end

/-- `decode` until it gives `Ok(None)` or `MessageTooLarge`. -/
def decodeLines (delimiter : UInt8) (maxSize : Nat) (buf : Bytes) :
    List (Except FrameError SyslogMessage) × LineStop :=
  match _h : delimiterDecode delimiter maxSize buf with
  | (.ok (some m), buf') => let r := decodeLines delimiter maxSize buf'; (.ok m :: r.1, r.2)
  | (.ok none, buf') => ([], .waiting buf')
  | (.err e, buf') =>
    if _he : e.isTooLarge then ([], .tooLarge e)
    else let r := decodeLines delimiter maxSize buf'; (.error e :: r.1, r.2)
  | (.panic, _) => ([], .panicked)
termination_by buf.length
decreasing_by
  · exact delimiterDecode_shrinks _h
  · exact delimiterDecode_err_shrinks _h _he

/-- The stream comes in pieces, and after each one all that can be decoded is. -/
def feedLines (delimiter : UInt8) (maxSize : Nat) (buf : Bytes) :
    List Bytes → List (Except FrameError SyslogMessage) × LineStop
  | [] => ([], .waiting buf)
  | c :: cs =>
    let r := decodeLines delimiter maxSize (buf ++ c)
    match r.2 with
    | .waiting buf' => let r' := feedLines delimiter maxSize buf' cs; (r.1 ++ r'.1, r'.2)
    | stop => (r.1, stop)

/-- `Result` in place of an outcome that is no panic. -/
def ofResult : Except FrameError SyslogMessage → Outcome FrameError SyslogMessage
  | .ok m => .ok m
  | .error e => .err e

theorem ofResult_injective {x y : Except FrameError SyslogMessage} (h : ofResult x = ofResult y) : x = y := by
  cases x <;> cases y <;> simp_all [ofResult]

/-- What a run does to the bytes `b`: it gives `rs` and rests in `s`. -/
inductive LineRun (delimiter : UInt8) (maxSize : Nat) :
    Bytes → List (Except FrameError SyslogMessage) → LineStop → Prop
  | wait {b} : delimiter ∉ b → b.length ≤ maxSize → LineRun delimiter maxSize b [] (.waiting b)
  | long {f r got} : delimiter ∉ f → maxSize < f.length → maxSize < got →
      LineRun delimiter maxSize (f ++ r) [] (.tooLarge (.messageTooLarge maxSize got))
  | line {f r v rs s} : delimiter ∉ f → f.length ≤ maxSize → readBody f = ofResult v → LineRun delimiter maxSize r rs s →
      LineRun delimiter maxSize (f ++ delimiter :: r) (v :: rs) s
  | panic {f r} : delimiter ∉ f → f.length ≤ maxSize → readBody f = .panic →
      LineRun delimiter maxSize (f ++ delimiter :: r) [] .panicked

section
variable {delimiter : UInt8} {maxSize : Nat}

theorem decodeLines_open {b : Bytes} (hb : delimiter ∉ b) :
    decodeLines delimiter maxSize b =
      if b.length > maxSize then ([], .tooLarge (.messageTooLarge maxSize b.length)) else ([], .waiting b) := by
  have hdec := @delimiterDecode_open _ maxSize _ hb
  rw [decodeLines]
  by_cases hlong : b.length > maxSize
  · rw [if_pos hlong] at hdec ⊢
    split <;> rename_i hd <;> rw [hdec] at hd <;> simp at hd
    obtain ⟨rfl, rfl⟩ := hd
    rfl
  · rw [if_neg hlong] at hdec ⊢
    split <;> rename_i hd <;> rw [hdec] at hd <;> simp at hd
    rw [hd]

theorem decodeLines_long {f : Bytes} (hf : delimiter ∉ f) (hlong : f.length > maxSize) (r : Bytes) :
    decodeLines delimiter maxSize (f ++ delimiter :: r) = ([], .tooLarge (.messageTooLarge maxSize f.length)) := by
  have hdec := @delimiterDecode_line _ maxSize _ hf r
  rw [if_pos hlong] at hdec
  rw [decodeLines]
  split <;> rename_i hd <;> rw [hdec] at hd <;> simp at hd
  obtain ⟨rfl, rfl⟩ := hd
  rfl

/-- A line within the limit gives its reading and leaves what follows it. -/
theorem decodeLines_line {f : Bytes} (hf : delimiter ∉ f) (hle : f.length ≤ maxSize) (r : Bytes)
    {v : Except FrameError SyslogMessage} (hv : readBody f = ofResult v) :
    decodeLines delimiter maxSize (f ++ delimiter :: r) =
      (v :: (decodeLines delimiter maxSize r).1, (decodeLines delimiter maxSize r).2) := by
  have hdec := @delimiterDecode_line _ maxSize _ hf r
  rw [if_neg (by omega), hv] at hdec
  rw [decodeLines]
  cases v with
  | ok m =>
    split <;> rename_i hd <;> rw [hdec] at hd <;> simp [ofResult] at hd
    obtain ⟨rfl, rfl⟩ := hd
    rfl
  | error e =>
    have hsmall : ¬ e.isTooLarge = true := by simp [readBody_not_tooLarge hv]
    split <;> rename_i hd <;> rw [hdec] at hd <;> simp [ofResult] at hd
    obtain ⟨rfl, rfl⟩ := hd
    rw [dif_neg hsmall]

theorem decodeLines_panic {f : Bytes} (hf : delimiter ∉ f) (hle : f.length ≤ maxSize) (r : Bytes)
    (hp : readBody f = .panic) : decodeLines delimiter maxSize (f ++ delimiter :: r) = ([], .panicked) := by
  have hdec := @delimiterDecode_line _ maxSize _ hf r
  rw [if_neg (by omega), hp] at hdec
  rw [decodeLines]
  split <;> rename_i hd <;> rw [hdec] at hd <;> simp at hd

/-- One buffer. -/
theorem decodeLines_run (delimiter : UInt8) (maxSize : Nat) (b : Bytes) :
    LineRun delimiter maxSize b (decodeLines delimiter maxSize b).1 (decodeLines delimiter maxSize b).2 := by
  induction hn : b.length using Nat.strongRecOn generalizing b with
  | ind n ih =>
    rcases delimiter_cases delimiter b with hb | ⟨f, r, hf, rfl⟩
    · rw [decodeLines_open hb]
      split
      · rename_i hlong
        have hrun := LineRun.long (r := []) hb hlong hlong
        rwa [List.append_nil] at hrun
      · exact .wait hb (by omega)
    · by_cases hlong : f.length > maxSize
      · rw [decodeLines_long hf hlong]
        exact .long hf hlong hlong
      · have hrest := ih r.length (by rw [← hn, List.length_append, List.length_cons]; omega) r rfl
        have hle : f.length ≤ maxSize := by omega
        rcases hr : readBody f with m | e | _
        · rw [decodeLines_line hf hle r (v := .ok m) hr]
          exact .line hf hle hr hrest
        · rw [decodeLines_line hf hle r (v := .error e) hr]
          exact .line hf hle hr hrest
        · rw [decodeLines_panic hf hle r hr]
          exact .panic hf hle hr

/-- Where a run waits, it holds the start of a line within the limit. -/
theorem LineRun.waiting {b w : Bytes} {rs : List (Except FrameError SyslogMessage)}
    (h : LineRun delimiter maxSize b rs (.waiting w)) : delimiter ∉ w ∧ w.length ≤ maxSize := by
  generalize hs : LineStop.waiting w = s at h
  induction h with
  | wait hb hle => cases hs; exact ⟨hb, hle⟩
  | long => cases hs
  | line _ _ _ _ ih => exact ih hs
  | panic => cases hs

/-- A run that waits goes on with what comes. -/
theorem LineRun.append {b w x : Bytes} {rs rs' : List (Except FrameError SyslogMessage)} {s : LineStop}
    (h : LineRun delimiter maxSize b rs (.waiting w)) (hx : LineRun delimiter maxSize (w ++ x) rs' s) :
    LineRun delimiter maxSize (b ++ x) (rs ++ rs') s := by
  generalize hs : LineStop.waiting w = t at h
  induction h with
  | wait => cases hs; exact hx
  | long => cases hs
  | line hf hle hv _ ih =>
    rw [List.append_assoc, List.cons_append, List.cons_append]
    exact .line hf hle hv (ih hs)
  | panic => cases hs

/-- A run that does not wait has seen enough. -/
theorem LineRun.more {b : Bytes} {rs : List (Except FrameError SyslogMessage)} {s : LineStop}
    (h : LineRun delimiter maxSize b rs s) (hs : ∀ w, s ≠ .waiting w) (x : Bytes) :
    LineRun delimiter maxSize (b ++ x) rs s := by
  induction h with
  | wait => exact absurd rfl (hs _)
  | long hf hlong hgot =>
    rw [List.append_assoc]
    exact .long hf hlong hgot
  | line hf hle hv _ ih =>
    rw [List.append_assoc, List.cons_append]
    exact .line hf hle hv (ih hs)
  | panic hf hle hp =>
    rw [List.append_assoc, List.cons_append]
    exact .panic hf hle hp

/-- **A run over pieces is a run over the stream.** -/
theorem feedLines_run (delimiter : UInt8) (maxSize : Nat) : ∀ (chunks : List Bytes) (buf : Bytes), delimiter ∉ buf → buf.length ≤ maxSize →
    LineRun delimiter maxSize (buf ++ chunks.flatten) (feedLines delimiter maxSize buf chunks).1
      (feedLines delimiter maxSize buf chunks).2
  | [], buf, hbuf, hle => by
    rw [List.flatten_nil, List.append_nil]
    exact .wait hbuf hle
  | c :: cs, buf, _, _ => by
    have hrun := decodeLines_run delimiter maxSize (buf ++ c)
    rw [List.flatten_cons, ← List.append_assoc]
    simp only [feedLines]
    cases hs : (decodeLines delimiter maxSize (buf ++ c)).2 with
    | waiting w =>
      rw [hs] at hrun
      obtain ⟨hw, hwle⟩ := hrun.waiting
      exact hrun.append (feedLines_run delimiter maxSize cs w hw hwle)
    | tooLarge e =>
      rw [hs] at hrun
      exact hrun.more (by simp) _
    | panicked =>
      rw [hs] at hrun
      exact hrun.more (by simp) _

/-! ## Lines: the specification -/

/-- The bytes before each delimiter. -/
def linesOf (delimiter : UInt8) (b : Bytes) : List Bytes := (b.splitOn delimiter).dropLast

/-- The bytes behind the last one. -/
def remainderOf (delimiter : UInt8) (b : Bytes) : Bytes := (b.splitOn delimiter).getLastD []

theorem splitOn_line {f : Bytes} (hf : delimiter ∉ f) (r : Bytes) :
    linesOf delimiter (f ++ delimiter :: r) = f :: linesOf delimiter r ∧
      remainderOf delimiter (f ++ delimiter :: r) = remainderOf delimiter r := by
  unfold linesOf remainderOf
  rw [List.splitOn_append_cons_self_of_not_mem hf]
  obtain ⟨g, gs, hgs⟩ := List.exists_cons_of_ne_nil (List.splitOn_ne_nil delimiter r)
  rw [hgs]
  exact ⟨rfl, rfl⟩

theorem splitOn_open {b : Bytes} (hb : delimiter ∉ b) : linesOf delimiter b = [] ∧ remainderOf delimiter b = b := by
  unfold linesOf remainderOf
  rw [List.splitOn_eq_singleton hb]
  exact ⟨rfl, rfl⟩

/-- The lines in front of the first one over the limit. -/
def shortLines (delimiter : UInt8) (maxSize : Nat) (b : Bytes) : List Bytes :=
  (linesOf delimiter b).takeWhile fun f => decide (f.length ≤ maxSize)

/-- No line of `b` is over the limit, nor what is left behind them. -/
def AllShort (delimiter : UInt8) (maxSize : Nat) (b : Bytes) : Prop :=
  (∀ f ∈ linesOf delimiter b, f.length ≤ maxSize) ∧ (remainderOf delimiter b).length ≤ maxSize

/-- What decoding the stream `b` should come to: the readings of its lines up to the first over the limit,
    and there `MessageTooLarge`; without one, a buffer with what stands behind the last delimiter. -/
structure IsLineSplitting (delimiter : UInt8) (maxSize : Nat) (b : Bytes)
    (r : List (Except FrameError SyslogMessage) × LineStop) : Prop where
  results : r.1.map ofResult = (shortLines delimiter maxSize b).map readBody
  allShort : AllShort delimiter maxSize b → r.2 = .waiting (remainderOf delimiter b)
  tooLarge : ¬ AllShort delimiter maxSize b →
    ∃ got, maxSize < got ∧ r.2 = .tooLarge (.messageTooLarge maxSize got)

theorem shortLines_line {f : Bytes} (hf : delimiter ∉ f) (hle : f.length ≤ maxSize) (r : Bytes) :
    shortLines delimiter maxSize (f ++ delimiter :: r) = f :: shortLines delimiter maxSize r := by
  unfold shortLines
  rw [(splitOn_line hf r).1, List.takeWhile_cons_of_pos (by simpa using hle)]

theorem allShort_line {f : Bytes} (hf : delimiter ∉ f) (r : Bytes) :
    AllShort delimiter maxSize (f ++ delimiter :: r) ↔ f.length ≤ maxSize ∧ AllShort delimiter maxSize r := by
  unfold AllShort
  rw [(splitOn_line hf r).1, (splitOn_line hf r).2, List.forall_mem_cons, and_assoc]

/-- A stream that starts with too many bytes and no delimiter has no short line. -/
theorem shortLines_long {f : Bytes} (hf : delimiter ∉ f) (hlong : maxSize < f.length) (r : Bytes) :
    shortLines delimiter maxSize (f ++ r) = [] ∧ ¬ AllShort delimiter maxSize (f ++ r) := by
  rcases delimiter_cases delimiter r with hr | ⟨g, r', hg, rfl⟩
  · have hopen := @splitOn_open delimiter (f ++ r) (by simp [hf, hr])
    refine ⟨by rw [shortLines, hopen.1, List.takeWhile_nil], fun h => ?_⟩
    have hlen := h.2
    rw [hopen.2, List.length_append] at hlen
    omega
  · have hline : delimiter ∉ f ++ g := by simp [hf, hg]
    have hover : ¬ (f ++ g).length ≤ maxSize := by rw [List.length_append]; omega
    rw [← List.append_assoc]
    refine ⟨?_, fun h => hover ((allShort_line hline r').1 h).1⟩
    rw [shortLines, (splitOn_line hline r').1, List.takeWhile_cons_of_neg (by simpa using hover)]

theorem LineRun.isLineSplitting {b : Bytes} {rs : List (Except FrameError SyslogMessage)} {s : LineStop}
    (h : LineRun delimiter maxSize b rs s) (hnp : ∀ f ∈ shortLines delimiter maxSize b, readBody f ≠ .panic) :
    IsLineSplitting delimiter maxSize b (rs, s) := by
  induction h with
  | wait hb hle =>
    have hopen := splitOn_open hb
    have hshort : AllShort delimiter maxSize _ := ⟨by rw [hopen.1]; simp, by rw [hopen.2]; exact hle⟩
    exact ⟨by rw [shortLines, hopen.1]; rfl, fun _ => by rw [hopen.2], fun h => absurd hshort h⟩
  | long hf hlong hgot =>
    obtain ⟨hnone, hover⟩ := shortLines_long hf hlong _
    exact ⟨by rw [hnone]; rfl, fun h => absurd h hover, fun _ => ⟨_, hgot, rfl⟩⟩
  | @line f r _ _ _ hf hle hv _ ih =>
    rw [shortLines_line hf hle, List.forall_mem_cons] at hnp
    obtain ⟨hresults, hall, hlarge⟩ := ih hnp.2
    have hiff := (@allShort_line delimiter maxSize f hf r).trans (and_iff_right hle)
    refine ⟨?_, fun h => ?_, fun h => hlarge fun hr => h (hiff.2 hr)⟩
    · rw [shortLines_line hf hle, List.map_cons, List.map_cons, hv, hresults]
    · rw [(splitOn_line hf _).2]
      exact hall (hiff.1 h)
  | panic hf hle hp =>
    rw [shortLines_line hf hle, List.forall_mem_cons] at hnp
    exact absurd hp hnp.1

/-- Messages encoded one behind another. -/
def delimiterEncodeAll (delimiter : UInt8) (maxSize : Nat) (ms : List SyslogMessage) (dst : Bytes) :
    Outcome FrameError Bytes :=
  ms.foldlM (fun dst m => delimiterEncode delimiter maxSize m dst) dst

theorem delimiterEncodeAll_eq : ∀ {ms : List SyslogMessage} (dst : Bytes), (∀ m ∈ ms, len m.toStr ≤ maxSize) →
    delimiterEncodeAll delimiter maxSize ms dst =
      .ok (dst ++ Decoder.stream (lineFrame delimiter) (ms.map fun m => utf8 m.toStr))
  | [], dst, _ => by simp [delimiterEncodeAll]
  | m :: ms, dst, h => by
    obtain ⟨hm, hms⟩ := List.forall_mem_cons.1 h
    have henc : delimiterEncode delimiter maxSize m dst = .ok (dst ++ lineFrame delimiter (utf8 m.toStr)) := by
      simp only [delimiterEncode]
      rw [if_neg (by omega), List.append_assoc]
      rfl
    have hrest := delimiterEncodeAll_eq (dst ++ lineFrame delimiter (utf8 m.toStr)) hms
    rw [delimiterEncodeAll] at hrest ⊢
    rw [List.foldlM_cons, henc, ok_bind, hrest, List.map_cons, Decoder.stream_cons, List.append_assoc]

/-- The lines of a stream of framed bodies are the bodies. -/
theorem shortLines_stream {fs : List Bytes} (h : ∀ f ∈ fs, delimiter ∉ f ∧ f.length ≤ maxSize) :
    shortLines delimiter maxSize (Decoder.stream (lineFrame delimiter) fs) = fs ∧
      AllShort delimiter maxSize (Decoder.stream (lineFrame delimiter) fs) ∧
      remainderOf delimiter (Decoder.stream (lineFrame delimiter) fs) = [] := by
  induction fs with
  | nil =>
    rw [Decoder.stream_nil]
    exact ⟨rfl, ⟨by simp [linesOf], by simp [remainderOf]⟩, rfl⟩
  | cons f fs ih =>
    obtain ⟨⟨hf, hle⟩, hfs⟩ := List.forall_mem_cons.1 h
    obtain ⟨hshort, hall, hrem⟩ := ih hfs
    rw [Decoder.stream_cons, lineFrame_append, shortLines_line hf hle, hshort, allShort_line hf, (splitOn_line hf _).2]
    exact ⟨rfl, ⟨hle, hall⟩, hrem⟩

/-- The run over the encodings of messages. -/
theorem feedLines_encoded {ms : List SyslogMessage}
    (h : ∀ m ∈ ms, parse m.toStr = .ok m ∧ len m.toStr ≤ maxSize ∧ delimiter ∉ utf8 m.toStr) {chunks : List Bytes}
    (heq : chunks.flatten = Decoder.stream (lineFrame delimiter) (ms.map fun m => utf8 m.toStr)) :
    feedLines delimiter maxSize [] chunks = (ms.map .ok, .waiting []) := by
  have hread : ∀ m ∈ ms, readBody (utf8 m.toStr) = .ok m := by
    intro m hm
    rw [readBody, fromUtf8_utf8, okOr_some, ok_bind, (h m hm).1, mapErr_ok]
  have hfs : ∀ f ∈ ms.map (fun m => utf8 m.toStr), delimiter ∉ f ∧ f.length ≤ maxSize := by
    intro f hf
    obtain ⟨m, hm, rfl⟩ := List.mem_map.1 hf
    exact ⟨(h m hm).2.2, (h m hm).2.1⟩
  obtain ⟨hshort, hall, hrem⟩ := shortLines_stream hfs
  have hrun := feedLines_run delimiter maxSize chunks [] (by simp) (by simp)
  rw [List.nil_append, heq] at hrun
  have hsplit := hrun.isLineSplitting (by
    rw [hshort]
    intro f hf
    obtain ⟨m, hm, rfl⟩ := List.mem_map.1 hf
    rw [hread m hm]
    simp)
  refine Prod.ext ?_ ?_
  · -- each result is the reading of its line, which is the message
    have hresults := hsplit.results
    rw [hshort, List.map_map] at hresults
    have hmap : ms.map (readBody ∘ fun m => utf8 m.toStr) = (ms.map .ok).map ofResult := by
      rw [List.map_map]
      exact List.map_congr_left fun m hm => hread m hm
    exact List.map_injective_iff.2 (fun _ _ => ofResult_injective) (hresults.trans hmap)
  · have hstop := hsplit.allShort hall
    rwa [hrem] at hstop

/-- **Decoding is line splitting** exactly if no line up to the first over the limit makes `parse` panic; and
    encoded messages come back as they are, whatever the pieces. -/
theorem feedLines_lines_iff (delimiter : UInt8) (maxSize : Nat) :
    (∀ chunks : List Bytes,
      IsLineSplitting delimiter maxSize chunks.flatten (feedLines delimiter maxSize [] chunks) ↔
        ∀ f ∈ shortLines delimiter maxSize chunks.flatten, readBody f ≠ .panic) ∧
    ∀ ms : List SyslogMessage,
      (∀ m ∈ ms, parse m.toStr = .ok m ∧ len m.toStr ≤ maxSize ∧ delimiter ∉ utf8 m.toStr) →
      ∃ out, delimiterEncodeAll delimiter maxSize ms [] = .ok out ∧
        ∀ chunks : List Bytes, chunks.flatten = out →
          feedLines delimiter maxSize [] chunks = (ms.map .ok, .waiting []) := by
  refine ⟨fun chunks => ⟨fun h f hf hp => ?_, fun hnp => ?_⟩, fun ms h => ?_⟩
  · have hmem : readBody f ∈ (shortLines delimiter maxSize chunks.flatten).map readBody := List.mem_map_of_mem hf
    rw [← h.results, hp] at hmem
    obtain ⟨v, -, hv⟩ := List.mem_map.1 hmem
    cases v <;> cases hv
  · have hrun := feedLines_run delimiter maxSize chunks [] (by simp) (by simp)
    exact hrun.isLineSplitting hnp
  · refine ⟨_, delimiterEncodeAll_eq [] fun m hm => (h m hm).2.1, fun chunks heq => ?_⟩
    rw [List.nil_append] at heq
    exact feedLines_encoded h heq

end

/-- Two messages, newline-framed, in any pieces. -/
theorem feedLines_two_messages : ∃ out,
    delimiterEncodeAll (byte '\n') 17
        [⟨⟨.user, .notice⟩, none, none, none, none, none, ['-'], []⟩, ⟨⟨.user, .info⟩, none, none, none, none, none, ['-'], []⟩]
        [] = .ok out ∧
      ∀ chunks : List Bytes, chunks.flatten = out → feedLines (byte '\n') 17 [] chunks =
        ([.ok ⟨⟨.user, .notice⟩, none, none, none, none, none, ['-'], []⟩,
          .ok ⟨⟨.user, .info⟩, none, none, none, none, none, ['-'], []⟩], .waiting []) :=
  (feedLines_lines_iff (byte '\n') 17).2
    [⟨⟨.user, .notice⟩, none, none, none, none, none, ['-'], []⟩, ⟨⟨.user, .info⟩, none, none, none, none, none, ['-'], []⟩]
    (by decide)

/-- A line with a character of two bytes behind an SD-PARAM: the lines after it are never decoded. -/
theorem feedLines_panics :
    feedLines (byte '\n') 1024 [] [utf8 "<13>1 - - - - - [id a=\"v\"é]\n<13>1 - - - - - -\n".toList] = ([], .panicked) ∧
      ¬ IsLineSplitting (byte '\n') 1024 (utf8 "<13>1 - - - - - [id a=\"v\"é]\n<13>1 - - - - - -\n".toList)
        (feedLines (byte '\n') 1024 [] [utf8 "<13>1 - - - - - [id a=\"v\"é]\n<13>1 - - - - - -\n".toList]) := by
  have hlines : utf8 "<13>1 - - - - - [id a=\"v\"é]\n<13>1 - - - - - -\n".toList =
      utf8 "<13>1 - - - - - [id a=\"v\"é]".toList ++ byte '\n' :: utf8 "<13>1 - - - - - -\n".toList := by decide
  have hread : readBody (utf8 "<13>1 - - - - - [id a=\"v\"é]".toList) = .panic := by
    rw [readBody, fromUtf8_utf8]; decide +kernel
  have hrun : feedLines (byte '\n') 1024 [] [utf8 "<13>1 - - - - - [id a=\"v\"é]\n<13>1 - - - - - -\n".toList] =
      ([], .panicked) := by
    rw [feedLines, List.nil_append, hlines, decodeLines_panic (by decide) (by decide) _ hread]
  refine ⟨hrun, fun h => ?_⟩
  rw [hrun] at h
  by_cases hall : AllShort (byte '\n') 1024 (utf8 "<13>1 - - - - - [id a=\"v\"é]\n<13>1 - - - - - -\n".toList)
  · cases h.allShort hall
  · obtain ⟨_, -, hstop⟩ := h.tooLarge hall
    cases hstop

end LogFence
