import Mathlib.Tactic.IntervalCases
import LogFence.Rust.Json

/-!
# The compact text of a JSON value

`Json.text` is what `serde_json::to_string` writes; `readValue` reads such texts back
(`readValue_text`) and keeps an object's members as a `BTreeMap` does. Together they are the `Serde`
`compact`, which shows that the assumptions about `serde_json` hold together (`compact_lawful`).
-/

namespace Rust

/-! ## Writing -/

/-- A character inside a string, with the escapes of `serde_json`. -/
def escapeChar (c : Char) : Str :=
  if c = '"' then ['\\', '"']
  else if c = '\\' then ['\\', '\\']
  else if c.toNat < 32 then
    match c.toNat with
    | 8 => ['\\', 'b']
    | 9 => ['\\', 't']
    | 10 => ['\\', 'n']
    | 12 => ['\\', 'f']
    | 13 => ['\\', 'r']
    | n => ['\\', 'u', '0', '0', Nat.digitChar (n / 16), Nat.digitChar (n % 16)]
  else [c]

def quote (s : Str) : Str := '"' :: (s.flatMap escapeChar ++ ['"'])

mutual

def Json.text : Json → Str
  | .null => ['n', 'u', 'l', 'l']
  | .bool true => ['t', 'r', 'u', 'e']
  | .bool false => ['f', 'a', 'l', 's', 'e']
  | .number n => n.text
  | .string s => quote s
  | .array items => '[' :: (textItems items ++ [']'])
  | .object members => '{' :: (textMembers members ++ ['}'])

def textItems : List Json → Str
  | [] => []
  | [v] => v.text
  | v :: w :: vs => v.text ++ ',' :: textItems (w :: vs)

def textMembers : List (Str × Json) → Str
  | [] => []
  | [(k, v)] => quote k ++ ':' :: v.text
  | (k, v) :: m :: ms => quote k ++ ':' :: (v.text ++ ',' :: textMembers (m :: ms))

end

/-! ## Reading -/

def hexVal (c : Char) : Nat := if c.isDigit then c.toNat - 48 else c.toNat - 87

def unescape (c : Char) : Char :=
  match c with
  | 'b' => Char.ofNat 8
  | 't' => '\t'
  | 'n' => '\n'
  | 'f' => Char.ofNat 12
  | 'r' => '\r'
  | c => c

/-- The rest of a string, up to its closing quote. -/
def readChars : Str → Option (Str × Str)
  | [] => none
  | c :: r =>
    if c = '"' then some ([], r)
    else if c = '\\' then
      match r with
      | 'u' :: '0' :: '0' :: a :: b :: r =>
        (readChars r).map fun p => (Char.ofNat (16 * hexVal a + hexVal b) :: p.1, p.2)
      | e :: r => (readChars r).map fun p => (unescape e :: p.1, p.2)
      | [] => none
    else (readChars r).map fun p => (c :: p.1, p.2)

/-- Array items, up to the closing bracket; `readItem` reads one. -/
def readItems (readItem : Str → Option (Json × Str)) : Nat → Str → Option (List Json × Str)
  | 0, _ => none
  | n + 1, s =>
    match readItem s with
    | some (v, ']' :: r) => some ([v], r)
    | some (v, ',' :: r) => (readItems readItem n r).map fun p => (v :: p.1, p.2)
    | _ => none

def readKey (s : Str) : Option (Str × Str) :=
  match s with
  | '"' :: r =>
    match readChars r with
    | some (k, ':' :: r) => some (k, r)
    | _ => none
  | _ => none

def readMembers (readItem : Str → Option (Json × Str)) : Nat → Str → Option (List (Str × Json) × Str)
  | 0, _ => none
  | n + 1, s =>
    match readKey s with
    | none => none
    | some (k, s) =>
      match readItem s with
      | some (v, '}' :: r) => some ([(k, v)], r)
      | some (v, ',' :: r) => (readMembers readItem n r).map fun p => ((k, v) :: p.1, p.2)
      | _ => none

/-- `null`, a boolean or a number. -/
def readAtom (s : Str) : Option (Json × Str) :=
  match s with
  | 'n' :: 'u' :: 'l' :: 'l' :: r => some (.null, r)
  | 't' :: 'r' :: 'u' :: 'e' :: r => some (.bool true, r)
  | 'f' :: 'a' :: 'l' :: 's' :: 'e' :: r => some (.bool false, r)
  | s =>
    if h : s.takeWhile isNumberChar = [] then none
    else some (.number ⟨s.takeWhile isNumberChar, h, List.all_takeWhile⟩, s.dropWhile isNumberChar)

/-- One value; the first argument bounds the nesting. -/
def readValue : Nat → Str → Option (Json × Str)
  | 0, _ => none
  | n + 1, s =>
    match s with
    | '"' :: r => (readChars r).map fun p => (.string p.1, p.2)
    | '[' :: r =>
      if r.head? = some ']' then some (.array [], r.tail)
      else (readItems (readValue n) r.length r).map fun p => (.array p.1, p.2)
    | '{' :: r =>
      if r.head? = some '}' then some (.object [], r.tail)
      else (readMembers (readValue n) r.length r).map fun p => (.object (toBTreeMap p.1), p.2)
    | s => readAtom s

/-- Compact JSON as a `Serde`. -/
def compact : Serde where
  fromStr s :=
    match readValue s.length s with
    | some (v, []) => .ok v
    | _ => .error "not a compact JSON text".toList
  toString := Json.text

/-! ## Reading undoes writing -/

theorem readChars_escapeChar (c : Char) (r : Str) :
    readChars (escapeChar c ++ r) = (readChars r).map fun p => (c :: p.1, p.2) := by
  by_cases hctl : c.toNat < 32
  · -- a control character is one of thirty-two
    obtain ⟨n, hn, rfl⟩ : ∃ n, n < 32 ∧ c = Char.ofNat n := ⟨c.toNat, hctl, (Char.ofNat_toNat c).symm⟩
    clear hctl
    interval_cases n <;> rfl
  · unfold escapeChar
    by_cases hq : c = '"'
    · subst hq; rfl
    · by_cases hb : c = '\\'
      · subst hb; rfl
      · rw [if_neg hq, if_neg hb, if_neg hctl, List.singleton_append]
        conv => lhs; unfold readChars
        rw [if_neg hq, if_neg hb]

theorem readChars_quoted (s r : Str) : readChars (s.flatMap escapeChar ++ '"' :: r) = some (s, r) := by
  induction s with
  | nil => unfold readChars; simp
  | cons c s ih =>
    rw [List.flatMap_cons, List.append_assoc, readChars_escapeChar, ih]
    rfl

theorem readKey_quote (k r : Str) : readKey (quote k ++ ':' :: r) = some (k, r) := by
  have h : quote k ++ ':' :: r = '"' :: (k.flatMap escapeChar ++ '"' :: ':' :: r) := by simp [quote]
  rw [h]
  simp only [readKey, readChars_quoted]

/-- What follows a value does not continue a number. -/
def Stops (r : Str) : Prop := ∀ c ∈ r.head?, isNumberChar c = false

theorem stops_cons {c : Char} (r : Str) (h : isNumberChar c = false) : Stops (c :: r) := by
  intro d hd
  simp at hd
  rwa [← hd]

theorem takeWhile_number (n : Number) {r : Str} (h : Stops r) : (n.text ++ r).takeWhile isNumberChar = n.text ∧
    (n.text ++ r).dropWhile isNumberChar = r := by
  have hall : ∀ c ∈ n.text, isNumberChar c = true := List.all_eq_true.1 n.chars
  have hr : r.takeWhile isNumberChar = [] ∧ r.dropWhile isNumberChar = r := by
    cases r with
    | nil => simp
    | cons c r => simp [h c (by simp)]
  rw [List.takeWhile_append_of_pos hall, List.dropWhile_append_of_pos hall]
  simp [hr]

theorem Json.text_head (v : Json) : ∃ c t, v.text = c :: t ∧ c ≠ ']' := by
  cases v with
  | null => exact ⟨_, _, by rw [Json.text], by decide⟩
  | bool b => cases b <;> exact ⟨_, _, by rw [Json.text], by decide⟩
  | number n =>
    obtain ⟨c, t, ht⟩ := List.exists_cons_of_ne_nil n.nonempty
    refine ⟨c, t, by rw [Json.text, ht], ?_⟩
    rintro rfl
    have := List.all_eq_true.1 n.chars ']' (by simp [ht])
    simp [isNumberChar] at this
  | string s => exact ⟨_, _, by rw [Json.text, quote], by decide⟩
  | array items => exact ⟨_, _, by rw [Json.text], by decide⟩
  | object members => exact ⟨_, _, by rw [Json.text], by decide⟩

theorem Json.length_text_pos (v : Json) : 0 < v.text.length := by
  obtain ⟨c, t, h, -⟩ := v.text_head
  simp [h]

/-- An array's text is no shorter than its items' texts, nor than the number of them. -/
theorem length_textItems : ∀ items : List Json, items.length ≤ (textItems items).length ∧
    ∀ v ∈ items, v.text.length ≤ (textItems items).length
  | [] => by simp
  | [v] => by
    simp only [textItems, List.length_singleton, List.mem_singleton]
    exact ⟨v.length_text_pos, by rintro x rfl; exact Nat.le_refl _⟩
  | v :: w :: vs => by
    obtain ⟨h1, h2⟩ := length_textItems (w :: vs)
    have hpos := v.length_text_pos
    simp only [textItems, List.length_append, List.length_cons] at h1 ⊢
    refine ⟨by omega, fun x hx => ?_⟩
    rcases List.mem_cons.1 hx with rfl | hx
    · omega
    · have := h2 x hx; omega

theorem length_textMembers : ∀ members : List (Str × Json), members.length ≤ (textMembers members).length ∧
    ∀ m ∈ members, m.2.text.length ≤ (textMembers members).length
  | [] => by simp
  | [(k, v)] => by
    have hpos := v.length_text_pos
    simp only [textMembers, List.length_append, List.length_cons, List.mem_singleton, List.length_nil]
    refine ⟨by omega, ?_⟩
    rintro m rfl
    simp only; omega
  | (k, v) :: m :: ms => by
    obtain ⟨h1, h2⟩ := length_textMembers (m :: ms)
    have hpos := v.length_text_pos
    simp only [textMembers, List.length_append, List.length_cons] at h1 ⊢
    refine ⟨by omega, fun x hx => ?_⟩
    rcases List.mem_cons.1 hx with rfl | hx
    · simp only; omega
    · have := h2 x hx; omega

section
variable {readItem : Str → Option (Json × Str)}

theorem readItems_text : ∀ (items : List Json) (n : Nat) (r : Str), items ≠ [] → items.length ≤ n →
    (∀ v ∈ items, ∀ r, Stops r → readItem (v.text ++ r) = some (v, r)) →
    readItems readItem n (textItems items ++ ']' :: r) = some (items, r)
  | [], _, _, hne, _, _ => absurd rfl hne
  | _ :: _, 0, _, _, hn, _ => by simp at hn
  | [v], n + 1, r, _, _, h => by
    have hv := h v (by simp) (']' :: r) (stops_cons r (by decide))
    rw [textItems, readItems]
    simp only [hv]
  | v :: w :: vs, n + 1, r, _, hn, h => by
    have hv := h v (by simp) (',' :: (textItems (w :: vs) ++ ']' :: r)) (stops_cons _ (by decide))
    have hrest := readItems_text (w :: vs) n r (by simp) (by simpa using hn) fun x hx => h x (by simp [hx])
    rw [textItems, List.append_assoc, List.cons_append, readItems, hv]
    simp only [hrest, Option.map_some]

theorem readMembers_text : ∀ (members : List (Str × Json)) (n : Nat) (r : Str), members ≠ [] → members.length ≤ n →
    (∀ m ∈ members, ∀ r, Stops r → readItem (m.2.text ++ r) = some (m.2, r)) →
    readMembers readItem n (textMembers members ++ '}' :: r) = some (members, r)
  | [], _, _, hne, _, _ => absurd rfl hne
  | _ :: _, 0, _, _, hn, _ => by simp at hn
  | [(k, v)], n + 1, r, _, _, h => by
    have hv := h (k, v) (by simp) ('}' :: r) (stops_cons r (by decide))
    rw [textMembers, List.append_assoc, List.cons_append, readMembers, readKey_quote]
    simp only [hv]
  | (k, v) :: m :: ms, n + 1, r, _, hn, h => by
    have hv := h (k, v) (by simp) (',' :: (textMembers (m :: ms) ++ '}' :: r)) (stops_cons _ (by decide))
    have hrest := readMembers_text (m :: ms) n r (by simp) (by simpa using hn) fun x hx => h x (by simp [hx])
    rw [textMembers, List.append_assoc, List.cons_append, List.append_assoc, List.cons_append, readMembers,
      readKey_quote]
    simp only [hv, hrest, Option.map_some]

end

theorem readAtom_number (n : Number) {r : Str} (h : Stops r) : readAtom (n.text ++ r) = some (.number n, r) := by
  obtain ⟨ht, hd⟩ := takeWhile_number n h
  have hhead : ∀ {c t}, n.text ++ r = c :: t → isNumberChar c = true := by
    intro c t heq
    obtain ⟨d, u, hu⟩ := List.exists_cons_of_ne_nil n.nonempty
    rw [hu, List.cons_append] at heq
    obtain ⟨rfl, -⟩ := List.cons.inj heq
    exact List.all_eq_true.1 n.chars d (by simp [hu])
  unfold readAtom
  split
  · rename_i heq; exact absurd (hhead heq) (by decide)
  · rename_i heq; exact absurd (hhead heq) (by decide)
  · rename_i heq; exact absurd (hhead heq) (by decide)
  · simp only [ht, hd, n.nonempty, dite_false]

theorem readValue_atom {n : Nat} {s : Str} (h : ∀ c ∈ s.head?, c ≠ '"' ∧ c ≠ '[' ∧ c ≠ '{') :
    readValue (n + 1) s = readAtom s := by
  unfold readValue
  split
  · exact absurd rfl (h '"' (by simp)).1
  · exact absurd rfl (h '[' (by simp)).2.1
  · exact absurd rfl (h _ (by simp)).2.2
  · rfl

/-- **A value reads back from its text**, whatever follows that does not continue a number. -/
theorem readValue_text {v : Json} (h : v.Ordered) : ∀ (n : Nat) (r : Str), v.text.length ≤ n → Stops r →
    readValue n (v.text ++ r) = some (v, r) := by
  induction h with
  | null =>
    rintro (_ | n) r hn hr
    · simp [Json.text] at hn
    · rfl
  | bool b =>
    rintro (_ | n) r hn hr
    · cases b <;> simp [Json.text] at hn
    · cases b <;> rfl
  | number k =>
    rintro (_ | n) r hn hr
    · have := (Json.number k).length_text_pos; omega
    · rw [Json.text, readValue_atom, readAtom_number k hr]
      intro c hc
      have hnum : isNumberChar c = true := by
        obtain ⟨d, u, hu⟩ := List.exists_cons_of_ne_nil k.nonempty
        rw [hu, List.cons_append, List.head?_cons, Option.mem_some_iff] at hc
        exact List.all_eq_true.1 k.chars c (by simp [hu, hc])
      refine ⟨?_, ?_, ?_⟩ <;> rintro rfl <;> revert hnum <;> decide
  | string s =>
    rintro (_ | n) r hn hr
    · have := (Json.string s).length_text_pos; omega
    · have hs : (Json.string s).text ++ r = '"' :: (s.flatMap escapeChar ++ '"' :: r) := by simp [Json.text, quote]
      rw [hs, readValue]
      simp only [readChars_quoted, Option.map_some]
  | @array items _ ih =>
    rintro (_ | n) r hn hr
    · have := (Json.array items).length_text_pos; omega
    · have hs : (Json.array items).text ++ r = '[' :: (textItems items ++ ']' :: r) := by simp [Json.text]
      rw [hs, readValue]
      cases items with
      | nil => simp [textItems]
      | cons v vs =>
        obtain ⟨hcount, hlen⟩ := length_textItems (v :: vs)
        have hchild : (textItems (v :: vs)).length ≤ n := by
          simp only [Json.text, List.length_cons, List.length_append] at hn; omega
        have hhead : (textItems (v :: vs) ++ ']' :: r).head? ≠ some ']' := by
          obtain ⟨c, t, hc, hne⟩ := v.text_head
          cases vs <;> simp [textItems, hc, hne]
        rw [if_neg hhead, readItems_text (v :: vs) _ r (by simp) (by simp only [List.length_append]; omega)
          fun x hx r' hr' => ih x hx n r' (Nat.le_trans (hlen x hx) hchild) hr']
        rfl
  | @object members hasc _ ih =>
    rintro (_ | n) r hn hr
    · have := (Json.object members).length_text_pos; omega
    · have hs : (Json.object members).text ++ r = '{' :: (textMembers members ++ '}' :: r) := by simp [Json.text]
      rw [hs, readValue]
      cases members with
      | nil => simp [textMembers]
      | cons m ms =>
        obtain ⟨hcount, hlen⟩ := length_textMembers (m :: ms)
        have hchild : (textMembers (m :: ms)).length ≤ n := by
          simp only [Json.text, List.length_cons, List.length_append] at hn; omega
        have hhead : (textMembers (m :: ms) ++ '}' :: r).head? ≠ some '}' := by
          cases ms <;> simp [textMembers, quote]
        rw [if_neg hhead, readMembers_text (m :: ms) _ r (by simp) (by simp only [List.length_append]; omega)
          fun x hx r' hr' => ih x hx n r' (Nat.le_trans (hlen x hx) hchild) hr']
        simp only [Option.map_some, toBTreeMap_eq_self hasc]

/-! ## What is read is in key order -/

theorem readItems_ordered {readItem : Str → Option (Json × Str)} (h : ∀ {s v r}, readItem s = some (v, r) → v.Ordered) :
    ∀ {n : Nat} {s r : Str} {items : List Json}, readItems readItem n s = some (items, r) → ∀ v ∈ items, v.Ordered
  | 0, _, _, _, hr => by simp [readItems] at hr
  | n + 1, s, r, items, hr => by
    unfold readItems at hr
    split at hr
    · rename_i v r' hv
      obtain ⟨rfl, -⟩ := Prod.mk.inj (Option.some.inj hr)
      intro w hw
      rw [List.mem_singleton.1 hw]
      exact h hv
    · rename_i v r' hv
      obtain ⟨p, hp, hpr⟩ := Option.map_eq_some_iff.1 hr
      obtain ⟨rfl, -⟩ := Prod.mk.inj hpr
      intro w hw
      rcases List.mem_cons.1 hw with rfl | hw
      · exact h hv
      · exact readItems_ordered h hp w hw
    · simp at hr

theorem readMembers_ordered {readItem : Str → Option (Json × Str)}
    (h : ∀ {s v r}, readItem s = some (v, r) → v.Ordered) : ∀ {n : Nat} {s r : Str} {members : List (Str × Json)},
    readMembers readItem n s = some (members, r) → ∀ m ∈ members, m.2.Ordered
  | 0, _, _, _, hr => by simp [readMembers] at hr
  | n + 1, s, r, members, hr => by
    unfold readMembers at hr
    split at hr
    · simp at hr
    · split at hr
      · rename_i v r' hv
        obtain ⟨rfl, -⟩ := Prod.mk.inj (Option.some.inj hr)
        intro m hm
        rw [List.mem_singleton.1 hm]
        exact h hv
      · rename_i v r' hv
        obtain ⟨p, hp, hpr⟩ := Option.map_eq_some_iff.1 hr
        obtain ⟨rfl, -⟩ := Prod.mk.inj hpr
        intro m hm
        rcases List.mem_cons.1 hm with rfl | hm
        · exact h hv
        · exact readMembers_ordered h hp m hm
      · simp at hr

theorem readAtom_ordered {s r : Str} {v : Json} (h : readAtom s = some (v, r)) : v.Ordered := by
  unfold readAtom at h
  split at h
  · cases h; exact .null
  · cases h; exact .bool true
  · cases h; exact .bool false
  · split at h
    · cases h
    · cases h; exact .number _

theorem readValue_ordered : ∀ {n : Nat} {s r : Str} {v : Json}, readValue n s = some (v, r) → v.Ordered
  | 0, _, _, _, h => by simp [readValue] at h
  | n + 1, s, r, v, h => by
    unfold readValue at h
    split at h
    · obtain ⟨p, -, hp⟩ := Option.map_eq_some_iff.1 h
      cases hp; exact .string _
    · split at h
      · cases h; exact .array (by simp)
      · obtain ⟨p, hp, hpr⟩ := Option.map_eq_some_iff.1 h
        cases hpr
        exact .array (readItems_ordered (fun hv => readValue_ordered hv) hp)
    · split at h
      · cases h; exact .object .nil (by simp)
      · obtain ⟨p, hp, hpr⟩ := Option.map_eq_some_iff.1 h
        cases hpr
        refine .object (ascending_toBTreeMap _) fun m hm => ?_
        exact readMembers_ordered (fun hv => readValue_ordered hv) hp m (mem_toBTreeMap hm)
    · exact readAtom_ordered h

theorem compact_eq_ok {s : Str} {v : Json} (h : compact.fromStr s = .ok v) : readValue s.length s = some (v, []) := by
  simp only [compact] at h
  split at h
  · rename_i heq; cases h; exact heq
  · cases h

/-- The assumptions about `serde_json` are met by compact texts and their reader. -/
theorem compact_lawful : compact.Lawful where
  ordered h := readValue_ordered (compact_eq_ok h)
  undoes := by
    intro v hv
    have hread := readValue_text hv v.text.length [] (Nat.le_refl _) (by intro c hc; cases hc)
    rw [List.append_nil] at hread
    simp only [compact, hread]
  braces := fun ms => ⟨textMembers ms, by simp [compact, Json.text]⟩
  start := by
    intro s v h
    have hread := compact_eq_ok h
    cases s with
    | nil => simp [readValue] at hread
    | cons c t =>
      refine ⟨c, t, rfl, ?_⟩
      rintro rfl
      rw [List.length_cons, readValue_atom (by simp)] at hread
      simp [readAtom, isNumberChar] at hread

end Rust
