import LogFence.Proto.StructuredData

/-!
# The STRUCTURED-DATA grammar, and what the two scanners read

`IsSd` is the grammar: one or more

    ELEMENT = '[' NAME (SP NAME '=' '"' VALUE '"')* [SP] ']'

The scanners do not recognise it, they recognise two others:

* the first takes a run of bracket *blocks* (`IsBlocks`): between the brackets a backslash hides the
  character after it, quotes hide brackets, and everything else goes (`findEnd_eq_ok`);
* the second takes a run of *loose* elements (`LooseRun`): any ASCII character opens an element, and an
  element that has parameters may go without its closing bracket when neither SP nor `]` follows
  (`readContent_eq_ok`). It panics where a loose element would open with a character beyond ASCII
  (`readContent_eq_panic`).
-/

namespace LogFence

open Rust Outcome

/-! ## The grammar -/

/-- NAME: 1 to 32 characters of `33..=126` other than `=`, `]` and `"`. -/
def IsName (n : Str) : Prop := n ≠ [] ∧ n.length ≤ 32 ∧ ∀ c ∈ n, isSdNameChar c = true

instance (n : Str) : Decidable (IsName n) :=
  decidable_of_iff (n ≠ [] ∧ n.length ≤ 32 ∧ n.all isSdNameChar = true) (by rw [List.all_eq_true, IsName])

/-- VALUE: characters other than `"` and backslash, or a backslash and any one character. -/
inductive IsValue : Str → Prop
  | nil : IsValue []
  | plain {c : Char} {v : Str} : c ≠ '"' → c ≠ '\\' → IsValue v → IsValue (c :: v)
  | escape (c : Char) {v : Str} : IsValue v → IsValue ('\\' :: c :: v)

/-- `SP NAME '=' '"' VALUE '"'`. -/
def paramText (n v : Str) : Str := ' ' :: n ++ '=' :: '"' :: v ++ ['"']

inductive IsParams : Str → Prop
  | nil : IsParams []
  | cons {n v p : Str} : IsName n → IsValue v → IsParams p → IsParams (paramText n v ++ p)

def IsElement (e : Str) : Prop :=
  ∃ id p sp, IsName id ∧ IsParams p ∧ (sp = [] ∨ sp = [' ']) ∧ e = '[' :: id ++ p ++ sp ++ [']']

/-- One or more elements. -/
inductive IsSd : Str → Prop
  | one {e : Str} : IsElement e → IsSd e
  | cons {e sd : Str} : IsElement e → IsSd sd → IsSd (e ++ sd)

/-! ## What the first scanner reads -/

/-- The inside of a block. -/
inductive IsBody : Str → Prop
  | nil : IsBody []
  | plain {c : Char} {s : Str} : c ≠ '\\' → c ≠ '"' → c ≠ ']' → IsBody s → IsBody (c :: s)
  | escape (c : Char) {s : Str} : IsBody s → IsBody ('\\' :: c :: s)
  | quoted {v s : Str} : IsValue v → IsBody s → IsBody ('"' :: v ++ '"' :: s)

/-- Zero or more blocks. -/
inductive IsBlocks : Str → Prop
  | nil : IsBlocks []
  | cons {b sd : Str} : IsBody b → IsBlocks sd → IsBlocks ('[' :: b ++ ']' :: sd)

theorem scanValue_of_isValue {v : Str} (h : IsValue v) (r : Str) :
    scanChars valueStepC false (v ++ '"' :: r) = some (v ++ ['"'], r) := by
  induction h with
  | nil => rfl
  | plain h1 h2 _ ih => simp [scanChars, valueStepC, h1, h2, ih]
  | escape c _ ih => simp [scanChars, valueStepC, ih]

theorem isValue_of_scanValue : ∀ {t a r : Str}, scanChars valueStepC false t = some (a, r) →
    ∃ v, IsValue v ∧ t = v ++ '"' :: r
  | [], _, _, h => by simp [scanChars] at h
  | c :: t, a, r, h => by
    by_cases h1 : c = '\\'
    · subst h1
      cases t with
      | nil => simp [scanChars, valueStepC] at h
      | cons d t =>
        simp only [scanChars, valueStepC, Bool.false_eq_true, ↓reduceIte, Option.map_eq_some_iff, Prod.mk.injEq,
          Prod.exists, exists_eq_right_right] at h
        obtain ⟨a', ⟨a'', h, -⟩, -⟩ := h
        obtain ⟨v, hv, rfl⟩ := isValue_of_scanValue h
        exact ⟨_, .escape d hv, rfl⟩
    · by_cases h2 : c = '"'
      · subst h2
        simp only [scanChars, valueStepC, Bool.false_eq_true, ↓reduceIte, Char.reduceEq, Option.some.injEq,
          Prod.mk.injEq] at h
        exact ⟨[], .nil, by simp [h.2]⟩
      · simp only [scanChars, valueStepC, Bool.false_eq_true, ↓reduceIte, h1, h2, Option.map_eq_some_iff,
          Prod.mk.injEq, Prod.exists, exists_eq_right_right] at h
        obtain ⟨a', h, -⟩ := h
        obtain ⟨v, hv, rfl⟩ := isValue_of_scanValue h
        exact ⟨_, .plain h2 h1 hv, rfl⟩

/-- In quotes, the first scanner reads a value and is then where it was. -/
theorem scanElement_value {v : Str} (h : IsValue v) (s : Str) :
    scanChars elementStepC ⟨true, false⟩ (v ++ '"' :: s) =
      (scanChars elementStepC ⟨false, false⟩ s).map fun x => (v ++ '"' :: x.1, x.2) := by
  induction h with
  | nil => simp [scanChars, elementStepC]
  | plain h1 h2 _ ih => simp [scanChars, elementStepC, h1, h2, ih, Function.comp_def]
  | escape c _ ih => simp [scanChars, elementStepC, ih, Function.comp_def]

theorem scanElement_of_isBody {b : Str} (h : IsBody b) (r : Str) :
    scanChars elementStepC ⟨false, false⟩ (b ++ ']' :: r) = some (b ++ [']'], r) := by
  induction h with
  | nil => simp [scanChars, elementStepC]
  | plain h1 h2 h3 _ ih => simp [scanChars, elementStepC, h1, h2, h3, ih]
  | escape c _ ih => simp [scanChars, elementStepC, ih]
  | quoted hv _ ih =>
    simp [scanChars, elementStepC, scanElement_value hv, ih]

theorem isValue_of_scanElement : ∀ {t a r : Str}, scanChars elementStepC ⟨true, false⟩ t = some (a, r) →
    ∃ v s a', IsValue v ∧ t = v ++ '"' :: s ∧ scanChars elementStepC ⟨false, false⟩ s = some (a', r)
  | [], _, _, h => by simp [scanChars] at h
  | c :: t, a, r, h => by
    by_cases h1 : c = '\\'
    · subst h1
      cases t with
      | nil => simp [scanChars, elementStepC] at h
      | cons d t =>
        simp only [scanChars, elementStepC, Bool.false_eq_true, ↓reduceIte, Option.map_eq_some_iff, Prod.mk.injEq,
          Prod.exists, exists_eq_right_right] at h
        obtain ⟨a', ⟨a'', h, -⟩, -⟩ := h
        obtain ⟨v, s, b, hv, rfl, hs⟩ := isValue_of_scanElement h
        exact ⟨_, s, b, .escape d hv, rfl, hs⟩
    · by_cases h2 : c = '"'
      · subst h2
        simp only [scanChars, elementStepC, Bool.false_eq_true, ↓reduceIte, Char.reduceEq, Bool.not_true,
          Option.map_eq_some_iff, Prod.mk.injEq, Prod.exists, exists_eq_right_right] at h
        obtain ⟨a', h, -⟩ := h
        exact ⟨[], t, a', .nil, rfl, h⟩
      · simp only [scanChars, elementStepC, Bool.false_eq_true, ↓reduceIte, h1, h2, Bool.true_eq_false, and_false,
          Option.map_eq_some_iff, Prod.mk.injEq, Prod.exists, exists_eq_right_right] at h
        obtain ⟨a', h, -⟩ := h
        obtain ⟨v, s, b, hv, rfl, hs⟩ := isValue_of_scanElement h
        exact ⟨_, s, b, .plain h2 h1 hv, rfl, hs⟩

theorem isBody_of_scanElement : ∀ {t a r : Str}, scanChars elementStepC ⟨false, false⟩ t = some (a, r) →
    ∃ b, IsBody b ∧ t = b ++ ']' :: r
  | [], _, _, h => by simp [scanChars] at h
  | c :: t, a, r, h => by
    by_cases h1 : c = '\\'
    · subst h1
      cases t with
      | nil => simp [scanChars, elementStepC] at h
      | cons d t =>
        simp only [scanChars, elementStepC, Bool.false_eq_true, ↓reduceIte, Option.map_eq_some_iff, Prod.mk.injEq,
          Prod.exists, exists_eq_right_right] at h
        obtain ⟨a', ⟨a'', h, -⟩, -⟩ := h
        obtain ⟨b, hb, rfl⟩ := isBody_of_scanElement h
        exact ⟨_, .escape d hb, rfl⟩
    · by_cases h2 : c = '"'
      · subst h2
        simp only [scanChars, elementStepC, Bool.false_eq_true, ↓reduceIte, Char.reduceEq, Bool.not_false,
          Option.map_eq_some_iff, Prod.mk.injEq, Prod.exists, exists_eq_right_right] at h
        obtain ⟨a', h, -⟩ := h
        obtain ⟨v, s, a'', hv, rfl, hs⟩ := isValue_of_scanElement h
        obtain ⟨b, hb, rfl⟩ := isBody_of_scanElement hs
        exact ⟨_, .quoted hv hb, by simp⟩
      · by_cases h3 : c = ']'
        · subst h3
          simp only [scanChars, elementStepC, Bool.false_eq_true, ↓reduceIte, Char.reduceEq, and_self,
            Option.some.injEq, Prod.mk.injEq] at h
          exact ⟨[], .nil, by simp [h.2]⟩
        · simp only [scanChars, elementStepC, Bool.false_eq_true, ↓reduceIte, h1, h2, h3, false_and,
            Option.map_eq_some_iff, Prod.mk.injEq, Prod.exists, exists_eq_right_right] at h
          obtain ⟨a', h, -⟩ := h
          obtain ⟨b, hb, rfl⟩ := isBody_of_scanElement h
          exact ⟨_, .plain h1 h2 h3 hb, rfl⟩
termination_by t => t.length

theorem findEndBody_eq_next {s t : Str} :
    findEndBody s = .ok (.next t) ↔ ∃ b, IsBody b ∧ s = '[' :: b ++ ']' :: t := by
  constructor
  · intro h
    unfold findEndBody at h
    split at h
    · simp at h
    · split at h
      · rename_i hc; subst hc
        split at h
        · rename_i a r hs
          cases h
          obtain ⟨b, hb, rfl⟩ := isBody_of_scanElement hs
          exact ⟨b, hb, rfl⟩
        · simp at h
      · simp at h
  · rintro ⟨b, hb, rfl⟩
    simp only [List.cons_append, findEndBody, ↓reduceIte, scanElement_of_isBody hb]

theorem findEndBody_eq_done {s t : Str} : findEndBody s = .ok (.done t) ↔ s.head? ≠ some '[' ∧ s = t := by
  unfold findEndBody
  split
  · simp [eq_comm]
  · split
    · rename_i hc; subst hc
      split <;> simp
    · rename_i hc
      simp only [ok.injEq, Turn.done.injEq, List.head?_cons, ne_eq, Option.some.injEq, hc, not_false_eq_true, true_and]

/-- **The first scanner's grammar**: it stops after a run of blocks, where no `[` follows. -/
theorem findEnd_eq_ok {s r : Str} :
    findEnd s = .ok r ↔ ∃ sd, IsBlocks sd ∧ s = sd ++ r ∧ r.head? ≠ some '[' := by
  rw [findEnd, loop_eq_ok]
  constructor
  · rintro ⟨t, ht, hdone⟩
    obtain ⟨hr, rfl⟩ := findEndBody_eq_done.1 hdone
    -- a run of the loop, block by block from the front
    induction ht using Relation.ReflTransGen.head_induction_on with
    | refl => exact ⟨[], .nil, rfl, hr⟩
    | head hstep _ ih =>
      obtain ⟨sd, hsd, rfl, -⟩ := ih
      obtain ⟨b, hb, rfl⟩ := findEndBody_eq_next.1 hstep
      exact ⟨_, .cons hb hsd, by simp, hr⟩
  · rintro ⟨sd, hsd, rfl, hr⟩
    refine ⟨r, ?_, findEndBody_eq_done.2 ⟨hr, rfl⟩⟩
    induction hsd with
    | nil => exact .refl
    | cons hb _ ih => exact .head (findEndBody_eq_next.2 ⟨_, hb, by simp⟩) ih

theorem findEnd_ne_panic (s : Str) : findEnd s ≠ .panic := by
  rw [findEnd, Ne, loop_eq_panic]
  rintro ⟨t, -, h⟩
  unfold findEndBody at h
  split at h
  · simp at h
  · split at h
    · split at h <;> simp at h
    · simp at h

/-! ## What the second scanner reads -/

/-- How an element may end when `t` follows it: with its bracket, after an SP or not; or, once it has
    parameters `p`, right after a closing quote when neither SP nor `]` follows. An SD-ID alone can end
    without bracket only at the end of the text. -/
def IsTail (p tail t : Str) : Prop :=
  tail = [']'] ∨ tail = [' ', ']'] ∨
    tail = [] ∧ t.head? ≠ some ' ' ∧ t.head? ≠ some ']' ∧ (p = [] → t = [])

/-- `e` is read as an element when `t` follows it. -/
def IsLoose (e t : Str) : Prop :=
  ∃ o id p tail, isAscii o = true ∧ IsName id ∧ IsParams p ∧ IsTail p tail t ∧ e = o :: id ++ p ++ tail

/-- `s` is read as a run of elements when `t` follows it. -/
inductive LooseRun : Str → Str → Prop
  | nil (t : Str) : LooseRun [] t
  | cons {e s t : Str} : IsLoose e (s ++ t) → LooseRun s t → LooseRun (e ++ s) t

theorem isName_iff {n : Str} {field : String} : validateSdName n field = .ok () ↔ IsName n := validateSdName_eq_ok

theorem IsName.inName {n : Str} (h : IsName n) : ∀ c ∈ n, inName c = true := by
  intro c hc
  have := h.2.2 c hc
  simp only [isSdNameChar, Bool.and_eq_true, Bool.not_eq_true', Bool.or_eq_false_iff, beq_eq_false_iff_ne, ne_eq] at this
  simp [LogFence.inName, this.2.1.1, this.2.1.2]

theorem IsName.inId {n : Str} (h : IsName n) : ∀ c ∈ n, inId c = true := by
  intro c hc
  have hb : c ≠ ']' := by
    have := h.inName c hc
    simp only [LogFence.inName, Bool.and_eq_true, bne_iff_ne] at this
    exact this.2
  have hs : c ≠ ' ' := by
    rintro rfl
    exact absurd (h.2.2 _ hc) (by decide)
  simp [LogFence.inId, hb, hs]

/-- A scan for the end of a name stops right after it. -/
theorem takeWhile_dropWhile_append {p : Char → Bool} {a r : Str} (ha : ∀ c ∈ a, p c = true)
    (hr : ∀ c, r.head? = some c → p c = false) :
    (a ++ r).takeWhile p = a ∧ (a ++ r).dropWhile p = r := by
  have htw : (a ++ r).takeWhile p = a := by
    rw [takeWhile_append_of_all r ha]
    cases r with
    | nil => simp
    | cons c r => rw [List.takeWhile_cons_of_neg (by simp [hr c rfl]), List.append_nil]
  refine ⟨htw, ?_⟩
  have h := List.takeWhile_append_dropWhile (p := p) (l := a ++ r)
  rw [htw] at h
  exact List.append_cancel_left h

theorem dropWhile_head {p : Char → Bool} {s : Str} {c : Char} {r : Str} (h : s.dropWhile p = c :: r) : p c = false := by
  have := List.head?_dropWhile_not p s
  rw [h] at this
  simpa using this

theorem readValue_eq_ok {t r : Str} : readValue t = .ok r ↔ ∃ v, IsValue v ∧ t = '"' :: v ++ '"' :: r := by
  constructor
  · intro h
    unfold readValue at h
    split at h
    · simp at h
    · split at h
      · rename_i hc; subst hc
        split at h
        · rename_i a r' hs
          cases h
          obtain ⟨v, hv, rfl⟩ := isValue_of_scanValue hs
          exact ⟨v, hv, rfl⟩
        · simp at h
      · simp at h
  · rintro ⟨v, hv, rfl⟩
    simp only [List.cons_append, readValue, ↓reduceIte, scanValue_of_isValue hv]

theorem readParam_eq_ok {t r : Str} :
    readParam t = .ok r ↔ ∃ n v, IsName n ∧ IsValue v ∧ ' ' :: t = paramText n v ++ r := by
  constructor
  · intro h
    unfold readParam at h
    split at h
    · simp at h
    · rename_i c u hd
      split at h
      · rename_i hc; subst hc
        obtain ⟨_, hn, h⟩ := bind_eq_ok.1 h
        obtain ⟨v, hv, rfl⟩ := readValue_eq_ok.1 h
        refine ⟨_, v, isName_iff.1 hn, hv, ?_⟩
        have ht : t = t.takeWhile inName ++ t.dropWhile inName := List.takeWhile_append_dropWhile.symm
        rw [hd] at ht
        simpa [paramText] using ht
      · simp at h
  · rintro ⟨n, v, hn, hv, ht⟩
    obtain rfl : t = n ++ '=' :: '"' :: v ++ '"' :: r := by simpa [paramText] using ht
    obtain ⟨h1, h2⟩ := takeWhile_dropWhile_append (p := inName) (r := '=' :: '"' :: v ++ '"' :: r) hn.inName (by
      intro c hc
      cases hc; decide)
    simp only [List.append_assoc, List.cons_append] at h1 h2 ⊢
    simp only [readParam, h1, h2, ↓reduceIte, isName_iff.2 hn, ok_bind]
    exact readValue_eq_ok.2 ⟨v, hv, rfl⟩

theorem readParamBody_eq_next {t u : Str} :
    readParamBody t = .ok (.next u) ↔ ∃ n v, IsName n ∧ IsValue v ∧ t = paramText n v ++ u := by
  constructor
  · intro h
    unfold readParamBody at h
    split at h
    · simp at h
    · split at h
      · rename_i hc; subst hc
        split at h
        · simp at h
        · rcases hp : readParam _ with w | e | _ <;> rw [hp] at h <;> simp at h
          subst h
          exact readParam_eq_ok.1 hp
      · simp at h
  · rintro ⟨n, v, hn, hv, rfl⟩
    have hhead : ¬ (n ++ '=' :: '"' :: v ++ ['"'] ++ u).head? = some ']' := by
      obtain ⟨c, n, rfl⟩ := List.exists_cons_of_ne_nil hn.1
      have hc := hn.inId c (by simp)
      simp only [inId, Bool.and_eq_true, bne_iff_ne] at hc
      simpa using hc.2
    have hp : readParam (n ++ '=' :: '"' :: v ++ ['"'] ++ u) = .ok u :=
      readParam_eq_ok.2 ⟨n, v, hn, hv, by simp [paramText]⟩
    have htext : paramText n v ++ u = ' ' :: (n ++ '=' :: '"' :: v ++ ['"'] ++ u) := by simp [paramText]
    rw [htext]
    simp only [readParamBody, ↓reduceIte, hhead, hp, map_ok]

/-- Where the parameters end: no SP follows, or an SP and a `]`. -/
theorem readParamBody_eq_done {t u : Str} :
    readParamBody t = .ok (.done u) ↔
      t.head? ≠ some ' ' ∧ t = u ∨ t = ' ' :: u ∧ u.head? = some ']' := by
  unfold readParamBody
  split
  · simp [eq_comm]
  · rename_i c t
    split
    · rename_i hc; subst hc
      split
      · rename_i hh
        simp only [ok.injEq, Turn.done.injEq, List.head?_cons, ne_eq, not_true_eq_false, false_and, false_or,
          List.cons.injEq, true_and]
        exact ⟨fun h => ⟨h, h ▸ hh⟩, fun h => h.1⟩
      · rename_i hh
        simp only [List.head?_cons, ne_eq, not_true_eq_false, false_and, false_or, List.cons.injEq, true_and]
        constructor
        · intro h
          rcases hp : readParam t with w | e | _ <;> rw [hp] at h <;> simp at h
        · rintro ⟨rfl, hu⟩; exact absurd hu hh
    · rename_i hc
      simp only [ok.injEq, Turn.done.injEq, List.head?_cons, ne_eq, Option.some.injEq, hc, not_false_eq_true,
        true_and, List.cons.injEq, false_and, or_false]

theorem readParams_eq_ok {t r : Str} :
    readParams t = .ok r ↔ ∃ p u, IsParams p ∧ t = p ++ u ∧
      (u.head? ≠ some ' ' ∧ u = r ∨ u = ' ' :: r ∧ r.head? = some ']') := by
  rw [readParams, loop_eq_ok]
  constructor
  · rintro ⟨u, hu, hdone⟩
    have hend := readParamBody_eq_done.1 hdone
    induction hu using Relation.ReflTransGen.head_induction_on with
    | refl => exact ⟨[], u, .nil, rfl, hend⟩
    | head hstep _ ih =>
      obtain ⟨p, u', hp, rfl, hend'⟩ := ih
      obtain ⟨n, v, hn, hv, rfl⟩ := readParamBody_eq_next.1 hstep
      exact ⟨_, u', .cons hn hv hp, by simp, hend'⟩
  · rintro ⟨p, u, hp, rfl, hend⟩
    refine ⟨u, ?_, readParamBody_eq_done.2 hend⟩
    induction hp with
    | nil => exact .refl
    | cons hn hv _ ih => exact .head (readParamBody_eq_next.2 ⟨_, _, hn, hv, by simp⟩) ih

theorem IsParams.head {p : Str} (h : IsParams p) (hne : p ≠ []) : p.head? = some ' ' := by
  cases h with
  | nil => exact absurd rfl hne
  | cons _ _ _ => rfl

theorem readElementBody_eq_next {t u : Str} :
    readElementBody t = .ok (.next u) ↔ ∃ e, IsLoose e u ∧ t = e ++ u := by
  constructor
  · intro h
    unfold readElementBody at h
    split at h
    · simp at h
    · rename_i o t
      split at h
      · rename_i ho
        obtain ⟨_, hid, h⟩ := bind_eq_ok.1 h
        obtain ⟨r, hr, h⟩ := bind_eq_ok.1 h
        obtain ⟨p, w, hp, hpw, hend⟩ := readParams_eq_ok.1 hr
        have ht : t = t.takeWhile inId ++ (p ++ w) := by rw [← hpw, List.takeWhile_append_dropWhile]
        rw [isName_iff] at hid
        simp only [pure_eq, ok.injEq, Turn.next.injEq] at h
        split at h
        · -- a closing bracket, with or without SP
          rename_i hh
          obtain ⟨r', rfl⟩ := List.head?_eq_some_iff.1 hh
          obtain rfl : r' = u := h
          rcases hend with ⟨-, rfl⟩ | ⟨rfl, -⟩
          · exact ⟨_, ⟨o, _, p, [']'], ho, hid, hp, .inl rfl, rfl⟩, by simpa using ht⟩
          · exact ⟨_, ⟨o, _, p, [' ', ']'], ho, hid, hp, .inr (.inl rfl), rfl⟩, by simpa using ht⟩
        · rename_i hh
          subst h
          rcases hend with ⟨hsp, rfl⟩ | ⟨-, hb⟩
          · refine ⟨_, ⟨o, _, p, [], ho, hid, hp, .inr (.inr ⟨rfl, hsp, hh, ?_⟩), rfl⟩, by simpa using ht⟩
            -- without parameters the SD-ID scan itself stopped here
            rintro rfl
            cases w with
            | nil => rfl
            | cons c w =>
              have hc := dropWhile_head hpw
              simp only [inId, Bool.and_eq_false_iff, bne_eq_false_iff_eq] at hc
              rcases hc with rfl | rfl
              · simp at hsp
              · simp at hh
          · exact absurd hb hh
      · simp at h
  · rintro ⟨e, ⟨o, id, p, tail, ho, hid, hp, htail, rfl⟩, rfl⟩
    have hstop : ∀ c, (p ++ (tail ++ u)).head? = some c → inId c = false := by
      intro c hc
      cases hp with
      | cons _ _ _ => cases hc; decide
      | nil =>
        rcases htail with rfl | rfl | ⟨rfl, -, -, hu⟩
        · cases hc; decide
        · cases hc; decide
        · simp [hu rfl] at hc
    obtain ⟨h1, h2⟩ := takeWhile_dropWhile_append hid.inId hstop
    have hparams : ∀ r, ((tail ++ u).head? ≠ some ' ' ∧ tail ++ u = r ∨ tail ++ u = ' ' :: r ∧ r.head? = some ']') →
        readParams (p ++ (tail ++ u)) = .ok r := fun r h => readParams_eq_ok.2 ⟨p, _, hp, rfl, h⟩
    simp only [List.append_assoc, List.cons_append, readElementBody, ho, ↓reduceIte, h1, h2, isName_iff.2 hid, ok_bind]
    rcases htail with rfl | rfl | ⟨rfl, hsp, hb, -⟩
    · rw [hparams (']' :: u) (.inl ⟨by simp, rfl⟩)]
      rfl
    · rw [hparams (']' :: u) (.inr ⟨rfl, rfl⟩)]
      rfl
    · rw [hparams u (.inl ⟨hsp, rfl⟩)]
      simp only [ok_bind, hb, ↓reduceIte, pure_eq]

theorem readElementBody_eq_done {t : Str} {x : Unit} : readElementBody t = .ok (.done x) ↔ t = [] := by
  unfold readElementBody
  split
  · simp
  · split
    · simp only [reduceCtorEq, iff_false]
      intro h
      obtain ⟨_, -, h⟩ := bind_eq_ok.1 h
      obtain ⟨_, -, h⟩ := bind_eq_ok.1 h
      simp at h
    · simp

theorem readParams_ne_panic (t : Str) : readParams t ≠ .panic := by
  rw [readParams, Ne, loop_eq_panic]
  rintro ⟨u, -, h⟩
  unfold readParamBody at h
  split at h
  · simp at h
  · rename_i c u
    split at h
    · split at h
      · simp at h
      · have hp : readParam u ≠ .panic := by
          unfold readParam
          split
          · simp
          · split
            · intro h
              rcases bind_eq_panic.1 h with h | ⟨_, -, h⟩
              · exact validateToken_ne_panic _ _ _ _ _ h
              · unfold readValue at h
                split at h
                · simp at h
                · split at h
                  · split at h <;> simp at h
                  · simp at h
            · simp
        rcases hr : readParam u with w | e | _
        · simp [hr] at h
        · simp [hr] at h
        · exact hp hr
    · simp at h

theorem readElementBody_eq_panic {t : Str} :
    readElementBody t = .panic ↔ ∃ c r, t = c :: r ∧ isAscii c = false := by
  unfold readElementBody
  split
  · simp
  · rename_i c t
    split
    · rename_i hc
      constructor
      · intro h
        rcases bind_eq_panic.1 h with h | ⟨_, -, h⟩
        · exact absurd h (validateToken_ne_panic _ _ _ _ _)
        · rcases bind_eq_panic.1 h with h | ⟨_, -, h⟩
          · exact absurd h (readParams_ne_panic _)
          · simp at h
      · rintro ⟨_, _, heq, hc'⟩
        cases heq
        rw [hc] at hc'; cases hc'
    · rename_i hc
      simp only [true_iff]
      exact ⟨c, t, rfl, by simpa using hc⟩

/-- Where the outer loop gets to: past a run of loose elements. -/
theorem steps_readElementBody {t u : Str} : Steps readElementBody t u ↔ ∃ s, LooseRun s u ∧ t = s ++ u := by
  constructor
  · intro h
    induction h using Relation.ReflTransGen.head_induction_on with
    | refl => exact ⟨[], .nil u, rfl⟩
    | head hstep _ ih =>
      obtain ⟨s, hs, rfl⟩ := ih
      obtain ⟨e, he, rfl⟩ := readElementBody_eq_next.1 hstep
      exact ⟨e ++ s, .cons he hs, by simp⟩
  · rintro ⟨s, hs, rfl⟩
    induction hs with
    | nil => exact .refl
    | cons he _ ih => exact .head (readElementBody_eq_next.2 ⟨_, he, by simp⟩) ih

/-- **The second scanner's grammar**: a run of loose elements up to the end. -/
theorem readContent_eq_ok {t : Str} {x : Unit} : readContent t = .ok x ↔ LooseRun t [] := by
  rw [readContent, loop_eq_ok]
  constructor
  · rintro ⟨u, hu, hdone⟩
    obtain rfl := readElementBody_eq_done.1 hdone
    obtain ⟨s, hs, rfl⟩ := steps_readElementBody.1 hu
    simpa using hs
  · intro h
    exact ⟨[], steps_readElementBody.2 ⟨t, h, by simp⟩, readElementBody_eq_done.2 rfl⟩

/-- **Where it panics**: after some loose elements, a character beyond ASCII. -/
theorem readContent_eq_panic {t : Str} :
    readContent t = .panic ↔ ∃ s c r, LooseRun s (c :: r) ∧ isAscii c = false ∧ t = s ++ c :: r := by
  rw [readContent, loop_eq_panic]
  constructor
  · rintro ⟨u, hu, hp⟩
    obtain ⟨c, r, rfl, hc⟩ := readElementBody_eq_panic.1 hp
    obtain ⟨s, hs, rfl⟩ := steps_readElementBody.1 hu
    exact ⟨s, c, r, hs, hc, rfl⟩
  · rintro ⟨s, c, r, hs, hc, rfl⟩
    exact ⟨c :: r, steps_readElementBody.2 ⟨s, hs, rfl⟩, readElementBody_eq_panic.2 ⟨c, r, rfl, hc⟩⟩

/-! ## How the two compare with the grammar -/

theorem IsElement.isLoose {e : Str} (h : IsElement e) (t : Str) : IsLoose e t := by
  obtain ⟨id, p, sp, hid, hp, rfl | rfl, rfl⟩ := h
  · exact ⟨'[', id, p, [']'], by decide, hid, hp, .inl rfl, by simp⟩
  · exact ⟨'[', id, p, [' ', ']'], by decide, hid, hp, .inr (.inl rfl), by simp⟩

/-- The second scanner reads every STRUCTURED-DATA of the grammar. -/
theorem IsSd.looseRun {sd : Str} (h : IsSd sd) (t : Str) : LooseRun sd t := by
  induction h with
  | one he => simpa using LooseRun.cons (he.isLoose ([] ++ t)) (.nil t)
  | cons he _ ih => exact .cons (he.isLoose _) ih

/-- Whether a backslash at the end of `n` still waits for the character it hides. -/
def endsEscaped (n : Str) : Bool := n.foldl (fun e c => !e && c == '\\') false

/-- The last element is a bare `[SD-ID]` whose SD-ID ends in an odd run of backslashes. -/
inductive EndsHidden : Str → Prop
  | last {id : Str} : IsName id → endsEscaped id = true → EndsHidden ('[' :: id ++ [']'])
  | cons {e sd : Str} : IsElement e → EndsHidden sd → EndsHidden (e ++ sd)

/-- Text that closes the block it stands in, followed by blocks. -/
def ClosesBlock (t : Str) : Prop := ∃ b sd, IsBody b ∧ IsBlocks sd ∧ t = b ++ ']' :: sd

theorem isBlocks_bracket {t : Str} : IsBlocks ('[' :: t) ↔ ClosesBlock t := by
  constructor
  · intro h
    generalize ht : '[' :: t = u at h
    cases h with
    | nil => simp at ht
    | cons hb hsd =>
      obtain rfl : t = _ := (List.cons.inj ht).2
      exact ⟨_, _, hb, hsd, rfl⟩
  · rintro ⟨b, sd, hb, hsd, rfl⟩
    exact .cons hb hsd

/-- A block closes at one place only. -/
theorem closesBlock_iff {b t : Str} (hb : IsBody b) : ClosesBlock (b ++ ']' :: t) ↔ IsBlocks t := by
  constructor
  · rintro ⟨b', sd, hb', hsd, heq⟩
    have h1 := scanElement_of_isBody hb t
    rw [heq, scanElement_of_isBody hb' sd] at h1
    obtain ⟨-, rfl⟩ : _ ∧ sd = t := by simpa using h1
    exact hsd
  · intro h
    exact ⟨b, t, hb, h, rfl⟩

theorem IsBody.append {a b : Str} (ha : IsBody a) (hb : IsBody b) : IsBody (a ++ b) := by
  induction ha with
  | nil => exact hb
  | plain h1 h2 h3 _ ih => exact .plain h1 h2 h3 ih
  | escape c _ ih => exact .escape c ih
  | quoted hv _ ih => simpa using IsBody.quoted hv ih

theorem scanElement_body_append {b : Str} (hb : IsBody b) (t : Str) :
    scanChars elementStepC ⟨false, false⟩ (b ++ t) =
      (scanChars elementStepC ⟨false, false⟩ t).map fun x => (b ++ x.1, x.2) := by
  induction hb with
  | nil => simp
  | plain h1 h2 h3 _ ih => simp [scanChars, elementStepC, h1, h2, h3, ih, Function.comp_def]
  | escape c _ ih => simp [scanChars, elementStepC, ih, Function.comp_def]
  | quoted hv _ ih => simp [scanChars, elementStepC, scanElement_value hv, ih, Function.comp_def]

theorem closesBlock_iff_scan {t : Str} :
    ClosesBlock t ↔ ∃ a r, scanChars elementStepC ⟨false, false⟩ t = some (a, r) ∧ IsBlocks r := by
  constructor
  · rintro ⟨b, sd, hb, hsd, rfl⟩
    exact ⟨_, sd, scanElement_of_isBody hb sd, hsd⟩
  · rintro ⟨a, r, h, hr⟩
    obtain ⟨b, hb, rfl⟩ := isBody_of_scanElement h
    exact ⟨b, r, hb, hr, rfl⟩

theorem closesBlock_append {b : Str} (hb : IsBody b) (t : Str) : ClosesBlock (b ++ t) ↔ ClosesBlock t := by
  rw [closesBlock_iff_scan, closesBlock_iff_scan, scanElement_body_append hb]
  constructor
  · rintro ⟨a, r, h, hr⟩
    obtain ⟨⟨a', r'⟩, h', heq⟩ := Option.map_eq_some_iff.1 h
    obtain ⟨-, rfl⟩ : _ ∧ r' = r := by simpa using heq
    exact ⟨a', r', h', hr⟩
  · rintro ⟨a, r, h, hr⟩
    exact ⟨b ++ a, r, by simp [h], hr⟩

/-- In a name the first scanner only looks at backslashes. -/
theorem isBody_name : ∀ {n : Str}, (∀ c ∈ n, c ≠ '"' ∧ c ≠ ']') →
    (endsEscaped n = false → IsBody n) ∧ (endsEscaped n = true → ∀ d, IsBody (n ++ [d]))
  | [], _ => ⟨fun _ => .nil, fun h => by simp [endsEscaped] at h⟩
  | [c], hn => by
    obtain ⟨h1, h2⟩ := hn c (by simp)
    by_cases hc : c = '\\'
    · subst hc
      exact ⟨fun h => absurd h (by decide), fun _ d => .escape d .nil⟩
    · exact ⟨fun _ => .plain hc h1 h2 .nil, fun h => by simp [endsEscaped, hc] at h⟩
  | c :: d :: n, hn => by
    by_cases hc : c = '\\'
    · subst hc
      have heq : endsEscaped ('\\' :: d :: n) = endsEscaped n := by simp [endsEscaped]
      obtain ⟨h1, h2⟩ := isBody_name (n := n) (fun x hx => hn x (by simp [hx]))
      rw [heq]
      exact ⟨fun h => .escape d (h1 h), fun h x => .escape d (h2 h x)⟩
    · have heq : endsEscaped (c :: d :: n) = endsEscaped (d :: n) := by
        simp [endsEscaped, beq_eq_false_iff_ne.2 hc]
      obtain ⟨h1, h2⟩ := isBody_name (n := d :: n) (fun x hx => hn x (by simp [List.mem_cons.1 hx]))
      obtain ⟨hq, hb⟩ := hn c (by simp)
      rw [heq]
      exact ⟨fun h => .plain hc hq hb (h1 h), fun h x => .plain hc hq hb (h2 h x)⟩

theorem IsName.no_quote {n : Str} (h : IsName n) : ∀ c ∈ n, c ≠ '"' ∧ c ≠ ']' := by
  intro c hc
  have := h.2.2 c hc
  simp only [isSdNameChar, Bool.and_eq_true, Bool.not_eq_true', Bool.or_eq_false_iff, beq_eq_false_iff_ne, ne_eq] at this
  exact ⟨this.2.2, this.2.1.2⟩

/-- The separator after a name absorbs a backslash at its end. -/
theorem IsName.isBody_sep {n : Str} (h : IsName n) {c : Char} (h1 : c ≠ '\\') (h2 : c ≠ '"') (h3 : c ≠ ']') :
    IsBody (n ++ [c]) := by
  obtain ⟨hplain, hesc⟩ := isBody_name h.no_quote
  cases he : endsEscaped n with
  | false => exact (hplain he).append (.plain h1 h2 h3 .nil)
  | true => exact hesc he c

theorem IsParams.isBody {p : Str} (h : IsParams p) (hne : p ≠ []) : ∃ b, IsBody b ∧ p = ' ' :: b := by
  induction h with
  | nil => exact absurd rfl hne
  | @cons n v p hn hv hp ih =>
    have hp' : IsBody p := by
      by_cases hnil : p = []
      · subst hnil; exact .nil
      · obtain ⟨b, hb, rfl⟩ := ih hnil
        exact .plain (by decide) (by decide) (by decide) hb
    refine ⟨(n ++ ['=']) ++ ('"' :: v ++ '"' :: p), ?_, by simp [paramText]⟩
    exact (hn.isBody_sep (by decide) (by decide) (by decide)).append (.quoted hv hp')

/-- An element is a block, unless it is a bare SD-ID that hides its own bracket. -/
theorem IsElement.isBody {e : Str} (h : IsElement e) :
    (∃ b, IsBody b ∧ e = '[' :: b ++ [']']) ∨
      ∃ id, IsName id ∧ endsEscaped id = true ∧ e = '[' :: id ++ [']'] := by
  obtain ⟨id, p, sp, hid, hp, hsp, rfl⟩ := h
  have hspb : IsBody sp := by
    rcases hsp with rfl | rfl
    · exact .nil
    · exact .plain (by decide) (by decide) (by decide) .nil
  by_cases hnil : p = []
  · subst hnil
    rcases hsp with rfl | rfl
    · cases he : endsEscaped id with
      | false => exact .inl ⟨id, (isBody_name hid.no_quote).1 he, by simp⟩
      | true => exact .inr ⟨id, hid, he, by simp⟩
    · exact .inl ⟨id ++ [' '], hid.isBody_sep (by decide) (by decide) (by decide), by simp⟩
  · obtain ⟨b, hb, rfl⟩ := hp.isBody hnil
    exact .inl ⟨id ++ [' '] ++ b ++ sp,
      ((hid.isBody_sep (by decide) (by decide) (by decide)).append hb).append hspb, by simp⟩

/-- What stands before an element does not change whether the text after it closes a block. -/
theorem IsElement.hidden_or_block {e : Str} (h : IsElement e) (t : Str) :
    ((IsBlocks (e ++ t) ↔ IsBlocks t) ∧ (ClosesBlock (e ++ t) ↔ IsBlocks t)) ∨
      ((IsBlocks (e ++ t) ↔ ClosesBlock t) ∧ (ClosesBlock (e ++ t) ↔ ClosesBlock t)) := by
  rcases h.isBody with ⟨b, hb, rfl⟩ | ⟨id, hid, he, rfl⟩
  · have happ : '[' :: b ++ [']'] ++ t = '[' :: (b ++ ']' :: t) := by simp
    have hplain : IsBody ('[' :: b) := .plain (by decide) (by decide) (by decide) hb
    refine .inl ⟨?_, ?_⟩
    · rw [happ, isBlocks_bracket, closesBlock_iff hb]
    · rw [happ]; exact closesBlock_iff hplain
  · have hb : IsBody (id ++ [']']) := (isBody_name hid.no_quote).2 he ']'
    have happ : '[' :: id ++ [']'] ++ t = '[' :: (id ++ [']'] ++ t) := by simp
    have hplain : IsBody ('[' :: (id ++ [']'])) := .plain (by decide) (by decide) (by decide) hb
    refine .inr ⟨?_, ?_⟩
    · rw [happ, isBlocks_bracket, closesBlock_append hb]
    · rw [happ]; exact closesBlock_append hplain t

theorem EndsHidden.not_isBlocks {sd : Str} (h : EndsHidden sd) : ¬ IsBlocks sd ∧ ¬ ClosesBlock sd := by
  induction h with
  | @last id hid he =>
    have hnil : ¬ ClosesBlock [] := by
      rintro ⟨b, sd, -, -, heq⟩
      simp at heq
    have hb : IsBody (id ++ [']']) := (isBody_name hid.no_quote).2 he ']'
    have hplain : IsBody ('[' :: (id ++ [']'])) := .plain (by decide) (by decide) (by decide) hb
    rw [List.cons_append, isBlocks_bracket, ← List.append_nil (id ++ [']']), ← List.cons_append,
      closesBlock_append hb, closesBlock_append hplain]
    exact ⟨hnil, hnil⟩
  | cons he _ ih =>
    rcases he.hidden_or_block _ with ⟨h1, h2⟩ | ⟨h1, h2⟩
    · rw [h1, h2]; exact ⟨ih.1, ih.1⟩
    · rw [h1, h2]; exact ⟨ih.2, ih.2⟩

/-- **The first scanner finds the end of a STRUCTURED-DATA of the grammar**, unless its last element
    hides its own bracket. -/
theorem IsSd.isBlocks_iff {sd : Str} (h : IsSd sd) : IsBlocks sd ↔ ¬ EndsHidden sd := by
  have hor : EndsHidden sd ∨ IsBlocks sd ∧ ClosesBlock sd := by
    induction h with
    | @one e he =>
      rcases he.isBody with ⟨b, hb, rfl⟩ | ⟨id, hid, hesc, rfl⟩
      · have hplain : IsBody ('[' :: b) := .plain (by decide) (by decide) (by decide) hb
        refine .inr ⟨?_, ?_⟩
        · simpa using IsBlocks.cons hb .nil
        · exact (closesBlock_iff hplain).2 .nil
      · exact .inl (.last hid hesc)
    | cons he _ ih =>
      rcases ih with ih | ⟨h1, h2⟩
      · exact .inl (.cons he ih)
      · rcases he.hidden_or_block _ with ⟨h3, h4⟩ | ⟨h3, h4⟩
        · exact .inr ⟨h3.2 h1, h4.2 h1⟩
        · exact .inr ⟨h3.2 h2, h4.2 h2⟩
  constructor
  · intro hb hh
    exact hh.not_isBlocks.1 hb
  · intro hn
    exact (hor.resolve_left hn).1

theorem EndsHidden.isSd {sd : Str} (h : EndsHidden sd) : IsSd sd := by
  induction h with
  | @last id hid _ => exact .one ⟨id, [], [], hid, .nil, .inl rfl, by simp⟩
  | cons he _ ih => exact .cons he ih

theorem IsBlocks.getLast? {sd : Str} (h : IsBlocks sd) (hne : sd ≠ []) : sd.getLast? = some ']' := by
  induction h with
  | nil => exact absurd rfl hne
  | @cons b sd _ _ ih =>
    rw [List.getLast?_append]
    by_cases hnil : sd = []
    · subst hnil; rfl
    · rw [List.getLast?_cons, ih hnil]; rfl

theorem IsBlocks.head? {sd : Str} (h : IsBlocks sd) (hne : sd ≠ []) : sd.head? = some '[' := by
  cases h with
  | nil => exact absurd rfl hne
  | cons _ _ => rfl

theorem IsSd.getLast? {sd : Str} (h : IsSd sd) : sd.getLast? = some ']' := by
  induction h with
  | one he =>
    obtain ⟨id, p, sp, -, -, -, rfl⟩ := he
    rw [List.getLast?_append]; rfl
  | cons _ _ ih => rw [List.getLast?_append, ih]; rfl

theorem IsSd.head? {sd : Str} (h : IsSd sd) : sd.head? = some '[' := by
  cases h with
  | one he => obtain ⟨id, p, sp, -, -, -, rfl⟩ := he; simp
  | cons he _ => obtain ⟨id, p, sp, -, -, -, rfl⟩ := he; simp

end LogFence
