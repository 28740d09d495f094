import LogFence.Rust.Str

/-!
# JSON values, ordered maps and `serde_json`

A `Json` object lists its members in the order they are iterated. `serde_json::Map` is a
`BTreeMap<String, Value>` unless the `preserve_order` feature is on, so the values it builds are
`Ordered`: in every object, at every depth, the keys ascend (`Ord for String` compares bytes).

`Serde` is the pair `from_str`, `to_string` as a parameter, and `Serde.Lawful` all that is assumed of it.
`compact` is one such pair (`compact_lawful`): the text `to_string` writes, and a reader of such texts.
-/

namespace Rust

variable {α : Type}

/-! ## `BTreeMap<String, _>` -/

/-- `map.insert(k, v)` on the members in key order. -/
def insertKey (k : Str) (v : α) : List (Str × α) → List (Str × α)
  | [] => [(k, v)]
  | m :: ms =>
    if utf8 k < utf8 m.1 then (k, v) :: m :: ms
    else if k = m.1 then (k, v) :: ms
    else m :: insertKey k v ms

/-- `iter.collect::<BTreeMap<_, _>>()`: of two members with one key, the later stays. -/
def toBTreeMap (ms : List (Str × α)) : List (Str × α) := ms.foldl (fun acc m => insertKey m.1 m.2 acc) []

/-- Members in strictly ascending key order. -/
def Ascending (ms : List (Str × α)) : Prop := ms.Pairwise fun a b => utf8 a.1 < utf8 b.1

instance (ms : List (Str × α)) : Decidable (Ascending ms) :=
  inferInstanceAs (Decidable (ms.Pairwise fun a b => utf8 a.1 < utf8 b.1))

theorem mem_insertKey {k : Str} {v : α} {m : Str × α} : ∀ {ms : List (Str × α)},
    m ∈ insertKey k v ms → m = (k, v) ∨ m ∈ ms
  | [], h => by simpa [insertKey] using h
  | x :: ms, h => by
    unfold insertKey at h
    split at h
    · simpa using h
    · split at h
      · rcases List.mem_cons.1 h with h | h
        · exact .inl h
        · exact .inr (List.mem_cons_of_mem _ h)
      · rcases List.mem_cons.1 h with h | h
        · exact .inr (by simp [h])
        · rcases mem_insertKey h with h | h
          · exact .inl h
          · exact .inr (List.mem_cons_of_mem _ h)

theorem ascending_insertKey (k : Str) (v : α) : ∀ {ms : List (Str × α)}, Ascending ms → Ascending (insertKey k v ms)
  | [], _ => by simp [insertKey, Ascending]
  | x :: ms, h => by
    obtain ⟨hx, hms⟩ := List.pairwise_cons.1 h
    unfold insertKey
    split
    · rename_i hlt
      refine List.pairwise_cons.2 ⟨?_, h⟩
      intro m hm
      rcases List.mem_cons.1 hm with rfl | hm
      · exact hlt
      · exact List.lt_trans hlt (hx m hm)
    · rename_i hnlt
      split
      · rename_i heq
        subst heq
        exact List.pairwise_cons.2 ⟨hx, hms⟩
      · rename_i hne
        refine List.pairwise_cons.2 ⟨?_, ascending_insertKey k v hms⟩
        intro m hm
        rcases mem_insertKey hm with rfl | hm
        · by_contra hn
          exact hne (utf8_injective (List.le_antisymm hn hnlt))
        · exact hx m hm

/-- A key above all others goes last. -/
theorem insertKey_last {k : Str} {v : α} : ∀ {ms : List (Str × α)}, (∀ m ∈ ms, utf8 m.1 < utf8 k) →
    insertKey k v ms = ms ++ [(k, v)]
  | [], _ => rfl
  | x :: ms, h => by
    have hx := h x (by simp)
    have hnlt : ¬ utf8 k < utf8 x.1 := fun hlt => List.lt_irrefl _ (List.lt_trans hx hlt)
    have hne : k ≠ x.1 := by rintro rfl; exact List.lt_irrefl _ hx
    rw [insertKey, if_neg hnlt, if_neg hne, insertKey_last fun m hm => h m (by simp [hm])]
    rfl

/-- `map.get(key)` after `map.insert(k, v)`. -/
theorem lookup_insertKey (k : Str) (v : α) (key : Str) : ∀ ms : List (Str × α),
    (insertKey k v ms).lookup key = if key = k then some v else ms.lookup key
  | [] => by
    by_cases hk : key = k
    · simp [insertKey, hk]
    · have hk' : (key == k) = false := by simpa using hk
      simp [insertKey, List.lookup_cons, hk', hk]
  | x :: ms => by
    unfold insertKey
    by_cases hk : key = k
    · subst hk
      split
      · simp
      · split
        · simp
        · rename_i hne
          have hx : (key == x.1) = false := by simpa using hne
          rw [List.lookup_cons, hx]
          simpa using lookup_insertKey key v key ms
    · have hk' : (key == k) = false := by simpa using hk
      rw [if_neg hk]
      split
      · rw [List.lookup_cons, hk']
      · split
        · rename_i heq
          rw [List.lookup_cons, List.lookup_cons, ← heq, hk']
        · rw [List.lookup_cons, List.lookup_cons, lookup_insertKey k v key ms, if_neg hk]

theorem ascending_toBTreeMap (ms : List (Str × α)) : Ascending (toBTreeMap ms) := by
  have hfold : ∀ (ms acc : List (Str × α)), Ascending acc →
      Ascending (ms.foldl (fun acc m => insertKey m.1 m.2 acc) acc) := by
    intro ms
    induction ms with
    | nil => intro acc h; exact h
    | cons m ms ih => intro acc h; exact ih _ (ascending_insertKey m.1 m.2 h)
  exact hfold ms [] .nil

theorem mem_toBTreeMap {ms : List (Str × α)} {m : Str × α} (h : m ∈ toBTreeMap ms) : m ∈ ms := by
  have hfold : ∀ (ms acc : List (Str × α)), m ∈ ms.foldl (fun acc m => insertKey m.1 m.2 acc) acc →
      m ∈ acc ∨ m ∈ ms := by
    intro ms
    induction ms with
    | nil => intro acc h; exact .inl h
    | cons x ms ih =>
      intro acc h
      rcases ih _ h with h | h
      · rcases mem_insertKey h with rfl | h
        · exact .inr (by simp)
        · exact .inl h
      · exact .inr (List.mem_cons_of_mem _ h)
  rcases hfold ms [] h with h | h
  · cases h
  · exact h

/-- Members that are in order stay as they are. -/
theorem toBTreeMap_eq_self {ms : List (Str × α)} (h : Ascending ms) : toBTreeMap ms = ms := by
  have hfold : ∀ (ms acc : List (Str × α)), Ascending (acc ++ ms) →
      ms.foldl (fun acc m => insertKey m.1 m.2 acc) acc = acc ++ ms := by
    intro ms
    induction ms with
    | nil => intro acc _; simp
    | cons m ms ih =>
      intro acc h
      have hlast : ∀ x ∈ acc, utf8 x.1 < utf8 m.1 := fun x hx =>
        (List.pairwise_append.1 h).2.2 x hx m (by simp)
      rw [List.foldl_cons, insertKey_last hlast, ih _ (by simpa using h)]
      simp
  exact hfold ms [] h

/-- A new key adds its member. -/
theorem insertKey_perm {k : Str} {v : α} : ∀ {ms : List (Str × α)}, (∀ m ∈ ms, m.1 ≠ k) →
    (insertKey k v ms).Perm ((k, v) :: ms)
  | [], _ => .refl _
  | x :: ms, h => by
    unfold insertKey
    split
    · exact .refl _
    · rw [if_neg (h x (by simp)).symm]
      exact ((insertKey_perm fun m hm => h m (by simp [hm])).cons x).trans (.swap ..)

/-- Of members with distinct keys none is lost. -/
theorem toBTreeMap_perm {ms : List (Str × α)} (h : (ms.map Prod.fst).Nodup) : (toBTreeMap ms).Perm ms := by
  have hfold : ∀ (ms acc : List (Str × α)), ((acc ++ ms).map Prod.fst).Nodup →
      (ms.foldl (fun acc m => insertKey m.1 m.2 acc) acc).Perm (acc ++ ms) := by
    intro ms
    induction ms with
    | nil =>
      intro acc _
      rw [List.append_nil]
      exact .refl _
    | cons m ms ih =>
      intro acc h
      have hnew : ∀ x ∈ acc, x.1 ≠ m.1 := by
        intro x hx heq
        rw [List.map_append, List.map_cons] at h
        exact (List.nodup_append.1 h).2.2 x.1 (List.mem_map_of_mem hx) m.1 (by simp) heq
      have hperm : (insertKey m.1 m.2 acc ++ ms).Perm (acc ++ m :: ms) :=
        ((insertKey_perm hnew).append_right ms).trans List.perm_middle.symm
      exact (ih _ ((hperm.map Prod.fst).nodup_iff.2 h)).trans hperm
  exact hfold ms [] h

theorem insertKey_map {β : Type} (f : α → β) (k : Str) (v : α) : ∀ ms : List (Str × α),
    insertKey k (f v) (ms.map (Prod.map id f)) = (insertKey k v ms).map (Prod.map id f)
  | [] => rfl
  | x :: ms => by
    have hkey : (Prod.map id f x).1 = x.1 := rfl
    rw [List.map_cons, insertKey, insertKey, insertKey_map f k v ms, hkey]
    split
    · rfl
    · split <;> rfl

/-- The order depends on the keys alone. -/
theorem toBTreeMap_map {β : Type} (f : α → β) (ms : List (Str × α)) :
    toBTreeMap (ms.map (Prod.map id f)) = (toBTreeMap ms).map (Prod.map id f) := by
  have hfold : ∀ (ms acc : List (Str × α)),
      (ms.map (Prod.map id f)).foldl (fun acc m => insertKey m.1 m.2 acc) (acc.map (Prod.map id f)) =
        (ms.foldl (fun acc m => insertKey m.1 m.2 acc) acc).map (Prod.map id f) := by
    intro ms
    induction ms with
    | nil => intro acc; rfl
    | cons m ms ih =>
      intro acc
      rw [List.map_cons, List.foldl_cons, List.foldl_cons, ← ih, ← insertKey_map]
      rfl
  exact hfold ms []

/-- Members in order are determined by what they are. -/
theorem Ascending.eq_of_perm {ms ms' : List (Str × α)} (h : Ascending ms) (h' : Ascending ms') (hperm : ms.Perm ms') :
    ms = ms' :=
  hperm.eq_of_pairwise (fun _ _ _ _ hlt hgt => absurd (List.lt_trans hlt hgt) (List.lt_irrefl _)) h h'

/-! ## Values -/

def isNumberChar (c : Char) : Bool := c.isDigit || c == '-' || c == '+' || c == '.' || c == 'e' || c == 'E'

/-- `serde_json::Number`, by the text its `Display` gives it. -/
structure Number where
  text : Str
  nonempty : text ≠ []
  chars : text.all isNumberChar = true
deriving DecidableEq, Repr

/-- `serde_json::Value`. -/
inductive Json where
  | null
  | bool (b : Bool)
  | number (n : Number)
  | string (s : Str)
  | array (items : List Json)
  | object (members : List (Str × Json))
deriving Repr

namespace Json

/-- `value.is_object()`. -/
def isObject : Json → Bool
  | .object _ => true
  | _ => false

theorem isObject_eq_true {v : Json} : v.isObject = true ↔ ∃ members, v = .object members := by
  cases v <;> simp [isObject]

/-- `value.as_str()`. -/
def asStr : Json → Option Str
  | .string s => some s
  | _ => none

/-- `value.get(key)` for a `&str` key. -/
def get (key : Str) : Json → Option Json
  | .object ms => ms.lookup key
  | _ => none

/-- In every object, at every depth, the keys ascend. -/
inductive Ordered : Json → Prop
  | null : Ordered .null
  | bool (b : Bool) : Ordered (.bool b)
  | number (n : Number) : Ordered (.number n)
  | string (s : Str) : Ordered (.string s)
  | array {items : List Json} : (∀ v ∈ items, Ordered v) → Ordered (.array items)
  | object {members : List (Str × Json)} : Ascending members → (∀ m ∈ members, Ordered m.2) →
      Ordered (.object members)

/-- In every object, at every depth, no key stands twice. -/
inductive Distinct : Json → Prop
  | null : Distinct .null
  | bool (b : Bool) : Distinct (.bool b)
  | number (n : Number) : Distinct (.number n)
  | string (s : Str) : Distinct (.string s)
  | array {items : List Json} : (∀ v ∈ items, Distinct v) → Distinct (.array items)
  | object {members : List (Str × Json)} : (members.map Prod.fst).Nodup → (∀ m ∈ members, Distinct m.2) →
      Distinct (.object members)

/-- Equal up to the order of members, at every depth: the members of an object are put in another order, and
    then agree one by one. -/
inductive Same : Json → Json → Prop
  | null : Same .null .null
  | bool (b : Bool) : Same (.bool b) (.bool b)
  | number (n : Number) : Same (.number n) (.number n)
  | string (s : Str) : Same (.string s) (.string s)
  | array {items items' : List Json} : items.length = items'.length → (∀ p ∈ items.zip items', Same p.1 p.2) →
      Same (.array items) (.array items')
  | object {members members' reordered : List (Str × Json)} : members.Perm reordered →
      reordered.length = members'.length → (∀ p ∈ reordered.zip members', p.1.1 = p.2.1) →
      (∀ p ∈ reordered.zip members', Same p.1.2 p.2.2) → Same (.object members) (.object members')

end Json

/-! ## `serde_json` -/

structure Serde where
  /-- `from_str::<Value>`; the error is its `Display` text. -/
  fromStr : Str → Except Str Json
  /-- `to_string`, and `Display for Value`. -/
  toString : Json → Str

/-- What is assumed of `serde_json`. -/
structure Serde.Lawful (S : Serde) : Prop where
  /-- `Map` is a `BTreeMap`. -/
  ordered : ∀ {s v}, S.fromStr s = .ok v → v.Ordered
  /-- `from_str` undoes `to_string` on values. -/
  undoes : ∀ {v}, v.Ordered → S.fromStr (S.toString v) = .ok v
  /-- The compact text of an object stands in braces. -/
  braces : ∀ ms, ∃ t, S.toString (.object ms) = '{' :: (t ++ ['}'])
  /-- The empty text is no JSON text, nor does any start with `@`. -/
  start : ∀ {s v}, S.fromStr s = .ok v → ∃ c t, s = c :: t ∧ c ≠ '@'

end Rust
