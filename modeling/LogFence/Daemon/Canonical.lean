import LogFence.Daemon.Validator

/-!
# The canonical text is a normal form (`logfence-daemon/src/validator.rs:320-346`)

Nothing here assumes that `serde_json::Map` keeps its keys in order: an object is any list of members with
distinct keys, as with `preserve_order`, and `Json.Same` is equality up to the order of members.
`sortedValue_canonical` says that `sorted_value` picks one value out of those that are the same.
-/

namespace LogFence

open Rust

/-- Sorting an object is sorting its members' values, in key order. -/
theorem sortedValue_object (members : List (Str × Json)) :
    sortedValue (.object members) = .object ((toBTreeMap members).map (Prod.map id sortedValue)) := by
  rw [sortedValue, Validator.sortedMembers_eq_map, toBTreeMap_map]

theorem sortedValue_array (items : List Json) : sortedValue (.array items) = .array (items.map sortedValue) := by
  rw [sortedValue, Validator.sortedItems_eq_map]

theorem ordered_sortedValue {v : Json} (h : v.Distinct) : (sortedValue v).Ordered := by
  induction h with
  | null => exact .null
  | bool b => exact .bool b
  | number n => exact .number n
  | string s => exact .string s
  | array _ ih =>
    rw [sortedValue_array]
    refine .array fun w hw => ?_
    obtain ⟨v, hv, rfl⟩ := List.mem_map.1 hw
    exact ih v hv
  | @object members _ _ ih =>
    rw [sortedValue_object]
    refine .object ?_ fun m hm => ?_
    · rw [← toBTreeMap_map]
      exact ascending_toBTreeMap _
    · obtain ⟨m', hm', rfl⟩ := List.mem_map.1 hm
      exact ih m' (mem_toBTreeMap hm')

theorem same_sortedValue {v : Json} (h : v.Distinct) : v.Same (sortedValue v) := by
  -- each value stands beside what it is sorted to
  have hbeside : ∀ {α : Type} (f : α → α) (l : List α) p, p ∈ l.zip (l.map f) → p.1 ∈ l ∧ p.2 = f p.1 := by
    intro α f l p hp
    have hzip := List.zip_map' (f := id) (g := f) (l := l)
    rw [List.map_id] at hzip
    rw [hzip] at hp
    obtain ⟨a, ha, rfl⟩ := List.mem_map.1 hp
    exact ⟨ha, rfl⟩
  induction h with
  | null => exact .null
  | bool b => exact .bool b
  | number n => exact .number n
  | string s => exact .string s
  | array _ ih =>
    rw [sortedValue_array]
    refine .array (List.length_map _).symm fun p hp => ?_
    obtain ⟨hmem, hp2⟩ := hbeside _ _ p hp
    rw [hp2]
    exact ih _ hmem
  | @object members hnodup _ ih =>
    rw [sortedValue_object]
    refine .object (toBTreeMap_perm hnodup).symm (List.length_map _).symm (fun p hp => ?_) fun p hp => ?_
    · rw [(hbeside _ _ p hp).2]
      rfl
    · obtain ⟨hmem, hp2⟩ := hbeside _ _ p hp
      rw [hp2]
      exact ih _ (mem_toBTreeMap hmem)

theorem map_eq_map_of_zip {α β γ : Type} {f : α → γ} {g : β → γ} : ∀ {l : List α} {l' : List β},
    l.length = l'.length → (∀ p ∈ l.zip l', f p.1 = g p.2) → l.map f = l'.map g
  | [], [], _, _ => rfl
  | a :: l, b :: l', hlen, h => by
    have hhead := h (a, b) (by simp)
    rw [List.map_cons, List.map_cons, hhead,
      map_eq_map_of_zip (Nat.succ.inj hlen) fun p hp => h p (List.mem_cons_of_mem _ hp)]

/-- Values that are the same are sorted to one value. -/
theorem sortedValue_eq_of_same {v w : Json} (hv : v.Distinct) (hw : w.Distinct) (h : v.Same w) :
    sortedValue v = sortedValue w := by
  induction h with
  | null => rfl
  | bool b => rfl
  | number n => rfl
  | string s => rfl
  | array hlen _ ih =>
    cases hv with | array hv =>
    cases hw with | array hw =>
    rw [sortedValue_array, sortedValue_array]
    refine congrArg Json.array (map_eq_map_of_zip hlen fun p hp => ?_)
    obtain ⟨hmem, hmem'⟩ := List.of_mem_zip hp
    exact ih p hp (hv _ hmem) (hw _ hmem')
  | @object members members' reordered hperm hlen hkeys _ ih =>
    cases hv with | object hnodup hv =>
    cases hw with | object hnodup' hw =>
    rw [sortedValue_object, sortedValue_object, ← toBTreeMap_map, ← toBTreeMap_map]
    refine congrArg Json.object ((ascending_toBTreeMap _).eq_of_perm (ascending_toBTreeMap _) ?_)
    have hagree : reordered.map (Prod.map id sortedValue) = members'.map (Prod.map id sortedValue) := by
      refine map_eq_map_of_zip hlen fun p hp => ?_
      obtain ⟨hmem, hmem'⟩ := List.of_mem_zip hp
      exact Prod.ext (hkeys p hp) (ih p hp (hv _ (hperm.mem_iff.2 hmem)) (hw _ hmem'))
    have hnodup_map : ∀ ms : List (Str × Json), (ms.map Prod.fst).Nodup →
        ((ms.map (Prod.map id sortedValue)).map Prod.fst).Nodup := by
      intro ms h
      rw [List.map_map]
      exact h
    calc toBTreeMap (members.map (Prod.map id sortedValue))
        _ |>.Perm (members.map (Prod.map id sortedValue)) := toBTreeMap_perm (hnodup_map _ hnodup)
        _ |>.Perm (reordered.map (Prod.map id sortedValue)) := hperm.map _
        _ |>.Perm (toBTreeMap (members'.map (Prod.map id sortedValue))) :=
          hagree ▸ (toBTreeMap_perm (hnodup_map _ hnodup')).symm

/-- The value `v` has a normal form, and it is what `sorted_value` makes of it. -/
structure CanonicalForm (v : Json) : Prop where
  ordered : (sortedValue v).Ordered
  same : v.Same (sortedValue v)
  idem : sortedValue (sortedValue v) = sortedValue v
  unique : ∀ w : Json, w.Distinct → v.Same w → sortedValue v = sortedValue w
  bytes : ∀ (S : Serde) (s t : Str) (w : Json), S.fromStr s = .ok v → S.fromStr t = .ok w → w.Distinct → v.Same w →
    ∃ text, canonicalizeJson S s = some text ∧ canonicalizeJson S t = some text

/-- **Canonicalisation is a normal form**, whatever the order of members. -/
theorem sortedValue_canonical {v : Json} (h : v.Distinct) : CanonicalForm v where
  ordered := ordered_sortedValue h
  same := same_sortedValue h
  idem := Validator.sortedValue_eq_self (ordered_sortedValue h)
  unique _ hw hsame := sortedValue_eq_of_same h hw hsame
  bytes S s t w hs ht hw hsame := by
    refine ⟨S.toString (sortedValue v), ?_, ?_⟩
    · rw [canonicalizeJson, hs]
    · rw [canonicalizeJson, ht, sortedValue_eq_of_same h hw hsame]

/-- An object in an array in an object, its keys out of order. -/
theorem sortedValue_canonical_nested :
    CanonicalForm (.object [(['b'], .array [.object [(['d'], .null), (['c'], .bool true)]]), (['a'], .string [])]) := by
  refine sortedValue_canonical (.object (by decide) ?_)
  simp only [List.forall_mem_cons, List.not_mem_nil, false_implies, implies_true, and_true]
  refine ⟨.array ?_, .string _⟩
  simp only [List.forall_mem_cons, List.not_mem_nil, false_implies, implies_true, and_true]
  refine .object (by decide) ?_
  simp only [List.forall_mem_cons, List.not_mem_nil, false_implies, implies_true, and_true]
  exact ⟨.null, .bool _⟩

end LogFence
