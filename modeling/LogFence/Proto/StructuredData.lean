import LogFence.Proto.Fields

/-!
# The two STRUCTURED-DATA scanners (`syslog.rs:342-378`, `:536-614`)

| here | there |
| --- | --- |
| `findStructuredDataEnd`         | `find_structured_data_end` (`syslog.rs:342`); `findElementEnd` is its inner `loop` |
| `validateStructuredDataContent` | `validate_structured_data_content` (`:536`); `paramBody` is one round of its PARAM loop (`:556-601`), `elementBody` one round of the outer loop |

Both walk byte offsets and know nothing of each other. Below the code each gets its reading: the same
loop over what is left of the text (`findEnd`, `readContent`), on characters and without offsets.
`findStructuredDataEnd_eq` and `validateStructuredDataContent_eq` say that the offsets are always those
of the reading. The one place where they could not be is kept: the outer loop steps over *one byte*
where it expects a `[`, and a longer character there leaves the offset inside it (`elementBody_panic`).
-/

namespace LogFence

open Rust Outcome

/-! ## `find_structured_data_end` -/

/-- `in_param_value` and `escaped`. -/
structure ElementState where
  inParamValue : Bool
  escaped : Bool
deriving DecidableEq, Repr

/-- One round of the inner loop on the byte `x`; `none` is the closing bracket. -/
def elementStep (q : ElementState) (x : UInt8) : Option ElementState :=
  if q.escaped then some { q with escaped := false }
  else if x = byte '\\' then some { q with escaped := true }
  else if x = byte '"' then some { q with inParamValue := !q.inParamValue }
  else if x = byte ']' ∧ q.inParamValue = false then none
  else some q

def unterminatedElement : ParseError := .malformedHeader "unterminated SD-ELEMENT (missing ']')"

/-- The inner loop, from just after the `[`. -/
def findElementEnd (b : Bytes) (i : Nat) : Outcome ParseError Nat :=
  scanBytes elementStep unterminatedElement b i ⟨false, false⟩

def findStructuredDataEndBody (b : Bytes) (i : Nat) : Outcome ParseError (Turn Nat Nat) := do
  let bracket ← byteAt b i (byte '[')
  if bracket then
    let i ← findElementEnd b (i + 1)
    pure (.next i)
  else pure (.done i)

theorem findStructuredDataEndBody_next {b : Bytes} (i i' : Nat)
    (h : findStructuredDataEndBody b i = .ok (.next i')) : b.length - i' < b.length - i := by
  unfold findStructuredDataEndBody at h
  obtain ⟨r, -, h⟩ := bind_eq_ok.1 h
  split at h
  · obtain ⟨k, hk, h⟩ := bind_eq_ok.1 h
    obtain ⟨h1, h2⟩ := scanBytes_gt hk
    simp only [pure_eq, ok.injEq, Turn.next.injEq] at h
    omega
  · simp at h

/-- `find_structured_data_end` (`syslog.rs:342`). -/
def findStructuredDataEnd (s : Str) : Outcome ParseError Nat :=
  loop (fun i => (utf8 s).length - i) (findStructuredDataEndBody (utf8 s)) findStructuredDataEndBody_next 0

/-! ## `validate_structured_data_content` -/

def sdErr (reason : String) : ParseError := .invalidField "STRUCTURED-DATA" (.text reason)

/-- One round of the PARAM-VALUE loop; the state is `escaped`, `none` is the closing quote. -/
def valueStep (escaped : Bool) (x : UInt8) : Option Bool :=
  if escaped then some false
  else if x = byte '\\' then some true
  else if x = byte '"' then none
  else some false

/-- One round of `while pos < b.len() && b[pos] == b' '`. -/
def paramBody (sd : Str) (pos : Nat) : Outcome ParseError (Turn Nat Nat) := do
  let b := utf8 sd
  let space ← byteAt b pos (byte ' ')
  if space then
    let pos := pos + 1
    -- `]` directly after SP
    let close ← byteAt b pos (byte ']')
    if close then pure (.done pos)
    else
      let nameStart := pos
      let pos ← skipWhile (fun x => x != byte '=' && x != byte ']') b pos
      let equals ← byteAt b pos (byte '=')
      if !equals then .err (sdErr "PARAM-NAME not followed by '='")
      else
        let name ← slice sd nameStart pos
        validateSdName name "PARAM-NAME"
        let pos := pos + 1
        let quote ← byteAt b pos (byte '"')
        if !quote then .err (sdErr "PARAM-VALUE must be quoted")
        else
          let pos ← scanBytes valueStep (sdErr "unterminated PARAM-VALUE") b (pos + 1) false
          pure (.next pos)
  else pure (.done pos)

/-- A round never goes back, and one that goes round has moved on. -/
theorem paramBody_bounds {sd : Str} {pos : Nat} {r : Turn Nat Nat} (h : paramBody sd pos = .ok r) :
    (∃ n, r = .done n ∧ pos ≤ n) ∨ ∃ n, r = .next n ∧ pos < n ∧ n ≤ (utf8 sd).length := by
  unfold paramBody at h
  obtain ⟨space, -, h⟩ := bind_eq_ok.1 h
  split at h
  · obtain ⟨close, -, h⟩ := bind_eq_ok.1 h
    split at h
    · cases h; exact .inl ⟨_, rfl, by omega⟩
    · obtain ⟨k, hk, h⟩ := bind_eq_ok.1 h
      obtain ⟨equals, -, h⟩ := bind_eq_ok.1 h
      split at h
      · simp at h
      · obtain ⟨name, -, h⟩ := bind_eq_ok.1 h
        obtain ⟨_, -, h⟩ := bind_eq_ok.1 h
        obtain ⟨quote, -, h⟩ := bind_eq_ok.1 h
        split at h
        · simp at h
        · obtain ⟨n, hn, h⟩ := bind_eq_ok.1 h
          have h1 := skipWhile_ge hk
          obtain ⟨h2, h3⟩ := scanBytes_gt hn
          cases h; exact .inr ⟨_, rfl, by omega, h3⟩
  · cases h; exact .inl ⟨_, rfl, by omega⟩

theorem paramBody_next {sd : Str} (pos pos' : Nat) (h : paramBody sd pos = .ok (.next pos')) :
    (utf8 sd).length - pos' < (utf8 sd).length - pos := by
  rcases paramBody_bounds h with ⟨n, hr, -⟩ | ⟨n, hr, h1, h2⟩ <;> cases hr
  omega

/-- Zero or more ` PARAM-NAME="PARAM-VALUE"` from `pos` on. -/
def params (sd : Str) (pos : Nat) : Outcome ParseError Nat :=
  loop (fun pos => (utf8 sd).length - pos) (paramBody sd) paramBody_next pos

/-- One round of the outer loop: an element, its first byte taken for a `[`. -/
def elementBody (sd : Str) (pos : Nat) : Outcome ParseError (Turn Nat Unit) := do
  let b := utf8 sd
  if pos < b.length then
    let pos := pos + 1
    let idStart := pos
    let pos ← skipWhile (fun x => x != byte ' ' && x != byte ']') b pos
    let id ← slice sd idStart pos
    validateSdName id "SD-ID"
    let pos ← params sd pos
    let close ← byteAt b pos (byte ']')
    pure (.next (if close then pos + 1 else pos))
  else pure (.done ())

theorem params_ge {sd : Str} {pos n : Nat} (h : params sd pos = .ok n) : pos ≤ n := by
  refine loop_inv (fun k => pos ≤ k) (fun k => pos ≤ k) ?_ ?_ _ n (Nat.le_refl pos) h
  · intro k k' hk hb
    rcases paramBody_bounds hb with ⟨n, hr, -⟩ | ⟨n, hr, h1, -⟩ <;> cases hr
    omega
  · intro k k' hk hb
    rcases paramBody_bounds hb with ⟨n, hr, h1⟩ | ⟨n, hr, -⟩ <;> cases hr
    omega

theorem elementBody_next {sd : Str} (pos pos' : Nat) (h : elementBody sd pos = .ok (.next pos')) :
    (utf8 sd).length - pos' < (utf8 sd).length - pos := by
  unfold elementBody at h
  dsimp only at h
  split at h
  · obtain ⟨k, hk, h⟩ := bind_eq_ok.1 h
    obtain ⟨_, -, h⟩ := bind_eq_ok.1 h
    obtain ⟨_, -, h⟩ := bind_eq_ok.1 h
    obtain ⟨n, hn, h⟩ := bind_eq_ok.1 h
    obtain ⟨r, -, h⟩ := bind_eq_ok.1 h
    have h1 := skipWhile_ge hk
    have h2 := params_ge hn
    simp only [pure_eq, ok.injEq, Turn.next.injEq] at h
    split at h <;> omega
  · simp at h

/-- `validate_structured_data_content` (`syslog.rs:536`). -/
def validateStructuredDataContent (sd : Str) : Outcome ParseError Unit :=
  if sd = ['-'] then .ok ()
  else loop (fun pos => (utf8 sd).length - pos) (elementBody sd) elementBody_next 0

/-! ## The first scanner, read on characters -/

/-- The offset in `s` at which `t` is what is left. -/
def offset (s t : Str) : Nat := len s - len t

@[simp] theorem offset_append (p t : Str) : offset (p ++ t) t = len p := by simp [offset]

@[simp] theorem offset_self (s : Str) : offset s s = 0 := by simp [offset]

theorem ne_byte_of_high {x : UInt8} (hx : 128 ≤ x.toNat) {c : Char} (hc : isAscii c = true) : x ≠ byte c := by
  rintro rfl
  rw [toNat_byte hc] at hx
  simp only [isAscii, decide_eq_true_eq] at hc
  omega

theorem ne_of_nonascii {c d : Char} (hc : isAscii c = false) (hd : isAscii d = true) : c ≠ d := by
  rintro rfl
  rw [hd] at hc; cases hc

def elementStepC (q : ElementState) (c : Char) : Option ElementState :=
  if q.escaped then some { q with escaped := false }
  else if c = '\\' then some { q with escaped := true }
  else if c = '"' then some { q with inParamValue := !q.inParamValue }
  else if c = ']' ∧ q.inParamValue = false then none
  else some q

theorem elementStep_reads : Reads elementStep elementStepC (fun q => { q with escaped := false }) where
  ascii q c hc := by
    simp only [elementStep, elementStepC, byte_inj hc (by decide : isAscii '\\' = true),
      byte_inj hc (by decide : isAscii '"' = true), byte_inj hc (by decide : isAscii ']' = true)]
  high q x hx := by
    have h1 := ne_byte_of_high hx (by decide : isAscii '\\' = true)
    have h2 := ne_byte_of_high hx (by decide : isAscii '"' = true)
    have h3 := ne_byte_of_high hx (by decide : isAscii ']' = true)
    obtain ⟨v, e⟩ := q
    cases e <;> simp [elementStep, h1, h2, h3]
  nonascii q c hc := by
    have h1 : c ≠ '\\' := ne_of_nonascii hc (by decide)
    have h2 : c ≠ '"' := ne_of_nonascii hc (by decide)
    have h3 : c ≠ ']' := ne_of_nonascii hc (by decide)
    obtain ⟨v, e⟩ := q
    cases e <;> simp [elementStepC, h1, h2, h3]
  rest_rest _ := rfl

def findEndBody : Str → Outcome ParseError (Turn Str Str)
  | [] => .ok (.done [])
  | c :: t =>
    if c = '[' then
      match scanChars elementStepC ⟨false, false⟩ t with
      | some (_, r) => .ok (.next r)
      | none => .err unterminatedElement
    else .ok (.done (c :: t))

theorem findEndBody_next (s t : Str) (h : findEndBody s = .ok (.next t)) : t.length < s.length := by
  unfold findEndBody at h
  split at h
  · simp at h
  · rename_i c u
    split at h
    · split at h
      · rename_i a r hs
        cases h
        have := congrArg List.length (scanChars_append hs)
        simp only [List.length_append] at this
        simp only [List.length_cons]; omega
      · simp at h
    · simp at h

/-- What is left of `s` after its bracket blocks. -/
def findEnd (s : Str) : Outcome ParseError Str := loop List.length findEndBody findEndBody_next s

theorem findStructuredDataEndBody_eq (p t : Str) :
    findStructuredDataEndBody (utf8 (p ++ t)) (len p) =
      Turn.map (offset (p ++ t)) (offset (p ++ t)) <$> findEndBody t := by
  rw [findStructuredDataEndBody, byteAt_utf8 p t (by decide), ok_bind]
  cases t with
  | nil => simp [findEndBody, Turn.map, offset]
  | cons c t =>
    simp only [List.head?_cons, Option.some_beq_some, beq_iff_eq, findEndBody]
    split
    · rename_i hc; subst hc
      have hpos : len p + 1 = len (p ++ ['[']) := by rw [len_append, len_cons_ascii (by decide)]; rfl
      have hscan := scanBytes_utf8 (e := unterminatedElement) elementStep_reads (p ++ ['[']) t ⟨false, false⟩
      simp only [List.append_assoc, List.singleton_append] at hscan
      rw [findElementEnd, hpos, hscan]
      rcases hs : scanChars elementStepC ⟨false, false⟩ t with _ | ⟨a, r⟩
      · rfl
      · rw [scanChars_append hs]
        have hoff := offset_append (p ++ '[' :: a) r
        simp only [List.append_assoc, List.cons_append] at hoff
        simp only [ok_bind, pure_eq, map_ok, Turn.map, hoff]
    · simp only [pure_eq, map_ok, Turn.map, offset_append]

/-- What an iteration leaves is a tail of what it started from. -/
theorem findEndBody_suffix {s t : Str} (h : findEndBody s = .ok (.next t)) : ∃ p, s = p ++ t := by
  unfold findEndBody at h
  split at h
  · simp at h
  · split at h
    · split at h
      · rename_i a r hs
        cases h
        rw [scanChars_append hs]
        exact ⟨_ :: a, rfl⟩
      · simp at h
    · simp at h

/-- **The offset `find_structured_data_end` returns** is where its reading ends. -/
theorem findStructuredDataEnd_eq (s : Str) : findStructuredDataEnd s = offset s <$> findEnd s := by
  have hsim : loop _ (findStructuredDataEndBody (utf8 s)) findStructuredDataEndBody_next (offset s s) =
      offset s <$> findEnd s := loop_sim (fun t => ∃ p, s = p ++ t) (offset s) (offset s) ?_ ?_ s ⟨[], rfl⟩
  · rwa [offset_self] at hsim
  · rintro t ⟨p, rfl⟩
    rw [offset_append]
    exact findStructuredDataEndBody_eq p t
  · rintro t t' ⟨p, rfl⟩ h
    obtain ⟨q, rfl⟩ := findEndBody_suffix h
    exact ⟨p ++ q, by rw [List.append_assoc]⟩

/-! ## The second scanner, read on characters -/

def valueStepC (escaped : Bool) (c : Char) : Option Bool :=
  if escaped then some false
  else if c = '\\' then some true
  else if c = '"' then none
  else some false

theorem valueStep_reads : Reads valueStep valueStepC (fun _ => false) where
  ascii q c hc := by
    simp only [valueStep, valueStepC, byte_inj hc (by decide : isAscii '\\' = true),
      byte_inj hc (by decide : isAscii '"' = true)]
  high q x hx := by
    have h1 := ne_byte_of_high hx (by decide : isAscii '\\' = true)
    have h2 := ne_byte_of_high hx (by decide : isAscii '"' = true)
    cases q <;> simp [valueStep, h1, h2]
  nonascii q c hc := by
    have h1 : c ≠ '\\' := ne_of_nonascii hc (by decide)
    have h2 : c ≠ '"' := ne_of_nonascii hc (by decide)
    cases q <;> simp [valueStepC, h1, h2]
  rest_rest _ := rfl

/-- `while b[pos] != a && b[pos] != b`, for ASCII `a` and `b`, skips characters. -/
theorem lifts_ne_ne {a b : Char} (ha : isAscii a = true) (hb : isAscii b = true) :
    Lifts (fun x => x != byte a && x != byte b) (fun c => c != a && c != b) where
  ascii c hc := by
    refine Bool.eq_iff_iff.2 ?_
    simp only [Bool.and_eq_true, bne_iff_ne, ne_eq, byte_inj hc ha, byte_inj hc hb]
  high x hx := by simp [ne_byte_of_high hx ha, ne_byte_of_high hx hb]
  nonascii c hc := by
    simp only [Bool.and_eq_true, bne_iff_ne, ne_eq]
    exact ⟨ne_of_nonascii hc ha, ne_of_nonascii hc hb⟩

def inName (c : Char) : Bool := c != '=' && c != ']'

def inId (c : Char) : Bool := c != ' ' && c != ']'

/-- From just after the `=`: the quoted value; what is left after it. -/
def readValue : Str → Outcome ParseError Str
  | [] => .err (sdErr "PARAM-VALUE must be quoted")
  | c :: t =>
    if c = '"' then
      match scanChars valueStepC false t with
      | some (_, r) => .ok r
      | none => .err (sdErr "unterminated PARAM-VALUE")
    else .err (sdErr "PARAM-VALUE must be quoted")

/-- From just after the SP: the name, the `=` and the value; what is left after them. -/
def readParam (t : Str) : Outcome ParseError Str :=
  match t.dropWhile inName with
  | [] => .err (sdErr "PARAM-NAME not followed by '='")
  | c :: r =>
    if c = '=' then do
      validateSdName (t.takeWhile inName) "PARAM-NAME"
      readValue r
    else .err (sdErr "PARAM-NAME not followed by '='")

def readParamBody : Str → Outcome ParseError (Turn Str Str)
  | [] => .ok (.done [])
  | c :: t =>
    if c = ' ' then
      if t.head? = some ']' then .ok (.done t) else .next <$> readParam t
    else .ok (.done (c :: t))

theorem readValue_suffix {t r : Str} (h : readValue t = .ok r) : ∃ p, t = p ++ r := by
  unfold readValue at h
  split at h
  · simp at h
  · split at h
    · split at h
      · rename_i a r' hs
        cases h
        rw [scanChars_append hs]
        exact ⟨_ :: a, rfl⟩
      · simp at h
    · simp at h

theorem readParam_suffix {t r : Str} (h : readParam t = .ok r) : ∃ p, t = p ++ r := by
  unfold readParam at h
  split at h
  · simp at h
  · rename_i c u hd
    split at h
    · obtain ⟨_, -, h⟩ := bind_eq_ok.1 h
      obtain ⟨q, rfl⟩ := readValue_suffix h
      exact ⟨t.takeWhile inName ++ c :: q, by
        rw [List.append_assoc, List.cons_append, ← hd, List.takeWhile_append_dropWhile]⟩
    · simp at h

/-- What a round leaves is a tail of what it started from. -/
theorem readParamBody_suffix {t : Str} {r : Turn Str Str} (h : readParamBody t = .ok r) :
    (∃ p u, r = .done u ∧ t = p ++ u) ∨ ∃ c p u, r = .next u ∧ t = c :: p ++ u := by
  unfold readParamBody at h
  split at h
  · cases h; exact .inl ⟨[], [], rfl, rfl⟩
  · rename_i c t
    split at h
    · split at h
      · cases h; exact .inl ⟨[c], t, rfl, rfl⟩
      · rcases hp : readParam t with u | e | _ <;> rw [hp] at h <;> simp at h
        obtain ⟨p, rfl⟩ := readParam_suffix hp
        exact .inr ⟨c, p, u, h.symm, rfl⟩
    · cases h; exact .inl ⟨[], _, rfl, rfl⟩

theorem readParamBody_next (t u : Str) (h : readParamBody t = .ok (.next u)) : u.length < t.length := by
  rcases readParamBody_suffix h with ⟨_, _, hr, -⟩ | ⟨c, p, _, hr, rfl⟩ <;> cases hr
  simp only [List.cons_append, List.length_cons, List.length_append]; omega

/-- The parameters; what is left after them. -/
def readParams (t : Str) : Outcome ParseError Str := loop List.length readParamBody readParamBody_next t

def readElementBody : Str → Outcome ParseError (Turn Str Unit)
  | [] => .ok (.done ())
  | c :: t =>
    if isAscii c then do
      validateSdName (t.takeWhile inId) "SD-ID"
      let r ← readParams (t.dropWhile inId)
      pure (.next (if r.head? = some ']' then r.tail else r))
    else .panic

/-- One ASCII character further on. -/
theorem len_snoc_ascii {c : Char} (hc : isAscii c = true) (p : Str) : len p + 1 = len (p ++ [c]) := by
  rw [len_append, len_cons_ascii hc]; rfl

theorem readValue_eq (p t : Str) (k : Nat → Outcome ParseError (Turn Nat Nat)) :
    (byteAt (utf8 (p ++ t)) (len p) (byte '"') >>= fun quote =>
      if (!quote) = true then .err (sdErr "PARAM-VALUE must be quoted")
      else scanBytes valueStep (sdErr "unterminated PARAM-VALUE") (utf8 (p ++ t)) (len p + 1) false >>= k) =
      (offset (p ++ t) <$> readValue t) >>= k := by
  rw [byteAt_utf8 p t (by decide), ok_bind]
  cases t with
  | nil => rfl
  | cons c t =>
    simp only [List.head?_cons, Option.some_beq_some, readValue]
    by_cases hc : c = '"'
    · subst hc
      have hscan := scanBytes_utf8 (e := sdErr "unterminated PARAM-VALUE") valueStep_reads (p ++ ['"']) t false
      simp only [List.append_assoc, List.singleton_append] at hscan
      simp only [beq_self_eq_true, Bool.not_true, Bool.false_eq_true, ↓reduceIte, len_snoc_ascii (by decide : isAscii '"' = true)]
      rw [hscan]
      rcases hs : scanChars valueStepC false t with _ | ⟨a, r⟩
      · rfl
      · have hoff := offset_append (p ++ '"' :: a) r
        simp only [List.append_assoc, List.cons_append] at hoff
        simp only [scanChars_append hs, map_ok, hoff]
    · simp only [beq_eq_false_iff_ne.2 hc, Bool.not_false, ↓reduceIte, hc, map_err, err_bind]

/-- **A round of the PARAM loop** is its reading. -/
theorem paramBody_eq (p t : Str) :
    paramBody (p ++ t) (len p) = Turn.map (offset (p ++ t)) (offset (p ++ t)) <$> readParamBody t := by
  rw [paramBody, byteAt_utf8 p t (by decide), ok_bind]
  cases t with
  | nil => simp [readParamBody, Turn.map, offset]
  | cons c t =>
    simp only [List.head?_cons, Option.some_beq_some, beq_iff_eq, readParamBody]
    split
    · rename_i hc; subst hc
      have hsplit : p ++ ' ' :: t = (p ++ [' ']) ++ t := by simp
      rw [hsplit, len_snoc_ascii (by decide : isAscii ' ' = true) p]
      generalize p ++ [' '] = q
      rw [byteAt_utf8 q t (by decide), ok_bind]
      simp only [beq_iff_eq]
      split
      · simp only [pure_eq, map_ok, Turn.map, offset_append]
      · rw [skipWhile_utf8 (lifts_ne_ne (by decide) (by decide)) q t, ok_bind]
        simp only [readParam, ← show inName = fun c => c != '=' && c != ']' from rfl]
        have ht : t = t.takeWhile inName ++ t.dropWhile inName := List.takeWhile_append_dropWhile.symm
        generalize t.takeWhile inName = a at ht ⊢
        generalize t.dropWhile inName = r at ht ⊢
        subst ht
        rw [← List.append_assoc, byteAt_utf8 (q ++ a) r (by decide), ok_bind, slice_append]
        cases r with
        | nil => rfl
        | cons d r =>
          have hhead : ((d :: r).head? == some '=') = decide (d = '=') := by
            simp only [List.head?_cons, Option.some_beq_some]; rfl
          rw [hhead, ok_bind]
          by_cases hd : d = '='
          · subst hd
            have hval := readValue_eq (q ++ a ++ ['=']) r (fun n => pure (.next n))
            have happ : q ++ a ++ ['='] ++ r = q ++ a ++ '=' :: r := by simp
            rw [happ, ← len_snoc_ascii (by decide : isAscii '=' = true)] at hval
            simp only [decide_true, Bool.not_true, Bool.false_eq_true, ↓reduceIte]
            rcases validateSdName a "PARAM-NAME" with _ | e | _
            · simp only [ok_bind, hval]
              rcases readValue r with u | e | _ <;> rfl
            · rfl
            · rfl
          · simp only [hd, decide_false, Bool.not_false, ↓reduceIte]
            rfl
    · simp only [pure_eq, map_ok, Turn.map, offset_append]

theorem params_eq (p t : Str) : params (p ++ t) (len p) = offset (p ++ t) <$> readParams t := by
  have hsim : params (p ++ t) (offset (p ++ t) t) = offset (p ++ t) <$> readParams t :=
    loop_sim (fun u => ∃ q, p ++ t = q ++ u) (offset (p ++ t)) (offset (p ++ t)) ?_ ?_ t ⟨p, rfl⟩
  · rwa [offset_append] at hsim
  · rintro u ⟨q, hq⟩
    rw [hq, offset_append]
    exact paramBody_eq q u
  · rintro u u' ⟨q, hq⟩ h
    rcases readParamBody_suffix h with ⟨_, _, hr, -⟩ | ⟨c, w, _, hr, rfl⟩ <;> cases hr
    exact ⟨q ++ c :: w, by rw [hq, List.append_assoc]⟩

/-- Parameters never run past the text: what is left after them is a tail of it. -/
theorem readParams_suffix {t r : Str} (h : readParams t = .ok r) : ∃ p, t = p ++ r := by
  refine loop_inv (fun u => ∃ p, t = p ++ u) (fun u => ∃ p, t = p ++ u) ?_ ?_ t r ⟨[], rfl⟩ h
  · rintro u u' ⟨p, rfl⟩ hb
    rcases readParamBody_suffix hb with ⟨_, _, hr, -⟩ | ⟨c, w, _, hr, rfl⟩ <;> cases hr
    exact ⟨p ++ c :: w, by rw [List.append_assoc]⟩
  · rintro u a ⟨p, rfl⟩ hb
    rcases readParamBody_suffix hb with ⟨w, _, hr, rfl⟩ | ⟨_, _, _, hr, -⟩ <;> cases hr
    exact ⟨p ++ w, by rw [List.append_assoc]⟩

theorem readElementBody_suffix {t u : Str} (h : readElementBody t = .ok (.next u)) :
    ∃ c p, t = c :: p ++ u := by
  unfold readElementBody at h
  split at h
  · simp at h
  · rename_i c t
    split at h
    · obtain ⟨_, -, h⟩ := bind_eq_ok.1 h
      obtain ⟨r, hr, h⟩ := bind_eq_ok.1 h
      obtain ⟨p, hp⟩ := readParams_suffix hr
      have ht : t = t.takeWhile inId ++ (p ++ r) := by rw [← hp, List.takeWhile_append_dropWhile]
      cases h
      refine ⟨c, ?_⟩
      split
      · rename_i hh
        obtain ⟨r', rfl⟩ := List.head?_eq_some_iff.1 hh
        exact ⟨t.takeWhile inId ++ p ++ [']'], by simpa using ht⟩
      · exact ⟨t.takeWhile inId ++ p, by simpa using ht⟩
    · simp at h

theorem readElementBody_next (t u : Str) (h : readElementBody t = .ok (.next u)) : u.length < t.length := by
  obtain ⟨c, p, rfl⟩ := readElementBody_suffix h
  simp only [List.cons_append, List.length_cons, List.length_append]; omega

/-- The elements, one after the other, up to the end of the text. -/
def readContent (t : Str) : Outcome ParseError Unit := loop List.length readElementBody readElementBody_next t

/-- Where a `[` is expected and a longer character stands, the SD-ID slice starts inside it. -/
theorem elementBody_panic {c : Char} (hc : isAscii c = false) (p t : Str) :
    elementBody (p ++ c :: t) (len p) = .panic := by
  have hlt : len p < (utf8 (p ++ c :: t)).length := by
    have := c.utf8Size_pos
    rw [length_utf8, len_append, len_cons]; omega
  have hskip := skipWhile_eq (ε := ParseError) (fun x => x != byte ' ' && x != byte ']')
    ((utf8 (p ++ c :: t)).take (len p + 1)) ((utf8 (p ++ c :: t)).drop (len p + 1))
  rw [List.take_append_drop, List.length_take, Nat.min_eq_left (by omega)] at hskip
  simp only [elementBody, hlt, ↓reduceIte, hskip, ok_bind, slice_panic_of_inside hc, panic_bind]

/-- **A round of the outer loop** is its reading. -/
theorem elementBody_eq (p t : Str) :
    elementBody (p ++ t) (len p) = Turn.map (offset (p ++ t)) id <$> readElementBody t := by
  cases t with
  | nil => simp [elementBody, readElementBody, Turn.map]
  | cons c t =>
    cases hc : isAscii c with
    | false => rw [elementBody_panic hc]; simp [readElementBody, hc]
    | true =>
      have hlt : len p < (utf8 (p ++ c :: t)).length := by
        rw [length_utf8, len_append, len_cons_ascii hc]; omega
      have hsplit : p ++ c :: t = (p ++ [c]) ++ t := by simp
      simp only [elementBody, hlt, ↓reduceIte, readElementBody, hc]
      rw [hsplit, len_snoc_ascii hc]
      generalize p ++ [c] = q
      rw [skipWhile_utf8 (lifts_ne_ne (by decide) (by decide)) q t, ok_bind]
      simp only [← show inId = fun c => c != ' ' && c != ']' from rfl]
      have ht : t = t.takeWhile inId ++ t.dropWhile inId := List.takeWhile_append_dropWhile.symm
      generalize t.takeWhile inId = a at ht ⊢
      generalize t.dropWhile inId = r at ht ⊢
      subst ht
      rw [← List.append_assoc, slice_append, ok_bind, params_eq (q ++ a) r]
      rcases validateSdName a "SD-ID" with _ | e | _
      · rcases hr : readParams r with u | e | _
        · obtain ⟨w, rfl⟩ := readParams_suffix hr
          have happ : q ++ a ++ (w ++ u) = (q ++ a ++ w) ++ u := by simp
          simp only [ok_bind, map_ok]
          rw [happ, offset_append, byteAt_utf8 _ u (by decide), ok_bind]
          simp only [beq_iff_eq, pure_eq, map_ok, Turn.map]
          split
          · rename_i hh
            obtain ⟨u', rfl⟩ := List.head?_eq_some_iff.1 hh
            have hoff := offset_append (q ++ a ++ w ++ [']']) u'
            rw [List.append_assoc, List.singleton_append] at hoff
            rw [List.tail_cons, hoff, len_snoc_ascii (by decide : isAscii ']' = true)]
          · rw [offset_append]
        · rfl
        · rfl
      · rfl
      · rfl

/-- **`validate_structured_data_content`** is its reading. -/
theorem validateStructuredDataContent_eq (sd : Str) :
    validateStructuredDataContent sd = if sd = ['-'] then .ok () else readContent sd := by
  unfold validateStructuredDataContent
  split
  · rfl
  · have hsim : loop _ (elementBody sd) elementBody_next (offset sd sd) = id <$> readContent sd :=
      loop_sim (fun t => ∃ p, sd = p ++ t) (offset sd) id ?_ ?_ sd ⟨[], rfl⟩
    · rw [offset_self] at hsim
      rw [hsim]
      rcases readContent sd with _ | e | _ <;> rfl
    · rintro t ⟨p, rfl⟩
      rw [offset_append]
      exact elementBody_eq p t
    · rintro t t' ⟨p, rfl⟩ h
      obtain ⟨c, q, rfl⟩ := readElementBody_suffix h
      exact ⟨p ++ c :: q, by rw [List.append_assoc]⟩

end LogFence
