import LogFence.Rust.Utf8

/-!
# Collecting results

`collect` is `iter.map(f).collect::<Result<Vec<_>, _>>()`: the first error, or what every element gives. A
`HashMap` is the list of its entries in the order they are iterated in; `HashMap.traverse` collects the
values and keeps the keys. Two passes in a row succeed just if both do on every element
(`collect_collect`, `HashMap.traverse_traverse`).
-/

namespace Rust

variable {ε α β γ : Type}

theorem mapError_eq_ok {ε' : Type} {f : ε → ε'} {x : Except ε α} {a : α} : x.mapError f = .ok a ↔ x = .ok a := by
  cases x <;> simp [Except.mapError]

theorem fails_iff {x : Except ε α} : (∃ e, x = .error e) ↔ ¬ ∃ a, x = .ok a := by
  cases x <;> simp

def collect (f : α → Except ε β) : List α → Except ε (List β)
  | [] => .ok []
  | a :: as =>
    match f a with
    | .error e => .error e
    | .ok b =>
      match collect f as with
      | .error e => .error e
      | .ok bs => .ok (b :: bs)

theorem collect_cons_eq_ok {f : α → Except ε β} {a : α} {as : List α} {bs : List β} :
    collect f (a :: as) = .ok bs ↔ ∃ b bs', f a = .ok b ∧ collect f as = .ok bs' ∧ bs = b :: bs' := by
  rw [collect]
  cases f a with
  | error e => simp
  | ok b =>
    cases collect f as with
    | error e => simp
    | ok bs' =>
      constructor
      · intro h; cases h; exact ⟨b, bs', rfl, rfl, rfl⟩
      · rintro ⟨_, _, ⟨⟩, ⟨⟩, rfl⟩; rfl

theorem collect_collect {f : α → Except ε β} {g : β → Except ε γ} {as : List α} :
    (∃ bs, collect f as = .ok bs ∧ ∃ cs, collect g bs = .ok cs) ↔ ∀ a ∈ as, ∃ b, f a = .ok b ∧ ∃ c, g b = .ok c := by
  induction as with
  | nil =>
    constructor
    · intro _ a ha; cases ha
    · intro _; exact ⟨[], rfl, [], rfl⟩
  | cons a as ih =>
    rw [List.forall_mem_cons, ← ih]
    constructor
    · rintro ⟨bs, hbs, cs, hcs⟩
      obtain ⟨b, bs', hb, hbs', rfl⟩ := collect_cons_eq_ok.1 hbs
      obtain ⟨c, cs', hc, hcs', rfl⟩ := collect_cons_eq_ok.1 hcs
      exact ⟨⟨b, hb, c, hc⟩, bs', hbs', cs', hcs'⟩
    · rintro ⟨⟨b, hb, c, hc⟩, bs', hbs', cs', hcs'⟩
      exact ⟨b :: bs', collect_cons_eq_ok.2 ⟨b, bs', hb, hbs', rfl⟩, c :: cs',
        collect_cons_eq_ok.2 ⟨c, cs', hc, hcs', rfl⟩⟩

/-- A `HashMap<String, _>`. -/
structure HashMap (β : Type) where
  entries : List (Str × β)
  /-- It has one value for a key. -/
  distinct : (entries.map Prod.fst).Nodup

namespace HashMap

def empty : HashMap β := ⟨[], .nil⟩

/-- One entry, with its key kept. -/
def visit (f : Str → α → Except ε β) (e : Str × α) : Except ε (Str × β) := (f e.1 e.2).map (Prod.mk e.1)

theorem visit_eq_ok {f : Str → α → Except ε β} {e : Str × α} {e' : Str × β} :
    visit f e = .ok e' ↔ e'.1 = e.1 ∧ f e.1 e.2 = .ok e'.2 := by
  unfold visit
  cases f e.1 e.2 with
  | error x => simp [Except.map]
  | ok y =>
    rw [Except.map, Except.ok.injEq, Except.ok.injEq, Prod.ext_iff]
    constructor
    · rintro ⟨h₁, h₂⟩; exact ⟨h₁.symm, h₂⟩
    · rintro ⟨h₁, h₂⟩; exact ⟨h₁.symm, h₂⟩

theorem keys_collect {f : Str → α → Except ε β} {es : List (Str × α)} {es' : List (Str × β)}
    (h : collect (visit f) es = .ok es') : es'.map Prod.fst = es.map Prod.fst := by
  induction es generalizing es' with
  | nil => cases h; rfl
  | cons e es ih =>
    obtain ⟨e', es'', he, hes, rfl⟩ := collect_cons_eq_ok.1 h
    rw [List.map_cons, List.map_cons, (visit_eq_ok.1 he).1, ih hes]

def traverse (f : Str → α → Except ε β) (m : HashMap α) : Except ε (HashMap β) :=
  match h : collect (visit f) m.entries with
  | .error e => .error e
  | .ok es => .ok ⟨es, by rw [keys_collect h]; exact m.distinct⟩

theorem traverse_eq_ok {f : Str → α → Except ε β} {m : HashMap α} {m' : HashMap β} :
    m.traverse f = .ok m' ↔ collect (visit f) m.entries = .ok m'.entries := by
  unfold traverse
  split
  · rename_i e he; simp [he]
  · rename_i es hes
    constructor
    · intro h
      cases h
      exact hes
    · intro h
      obtain ⟨es', hd⟩ := m'
      obtain rfl : es = es' := Except.ok.inj (hes.symm.trans h)
      rfl

theorem traverse_traverse {f : Str → α → Except ε β} {g : Str → β → Except ε γ} {m : HashMap α} :
    (∃ m', m.traverse f = .ok m' ∧ ∃ m'', m'.traverse g = .ok m'') ↔
      ∀ e ∈ m.entries, ∃ b, f e.1 e.2 = .ok b ∧ ∃ c, g e.1 b = .ok c := by
  have hpass : (∃ m', m.traverse f = .ok m' ∧ ∃ m'', m'.traverse g = .ok m'') ↔
      ∃ es, collect (visit f) m.entries = .ok es ∧ ∃ es', collect (visit g) es = .ok es' := by
    constructor
    · rintro ⟨m', h', m'', h''⟩
      exact ⟨m'.entries, traverse_eq_ok.1 h', m''.entries, traverse_eq_ok.1 h''⟩
    · rintro ⟨es, hes, es', hes'⟩
      have hd : (es.map Prod.fst).Nodup := by rw [keys_collect hes]; exact m.distinct
      have hd' : (es'.map Prod.fst).Nodup := by rw [keys_collect hes']; exact hd
      exact ⟨⟨es, hd⟩, traverse_eq_ok.2 hes, ⟨es', hd'⟩, traverse_eq_ok.2 hes'⟩
  rw [hpass, collect_collect]
  constructor
  · intro h e he
    obtain ⟨⟨_, b⟩, hb, ⟨_, c⟩, hc⟩ := h e he
    obtain ⟨rfl, hb⟩ := visit_eq_ok.1 hb
    exact ⟨b, hb, c, (visit_eq_ok.1 hc).2⟩
  · intro h e he
    obtain ⟨b, hb, c, hc⟩ := h e he
    exact ⟨(e.1, b), visit_eq_ok.2 ⟨rfl, hb⟩, (e.1, c), visit_eq_ok.2 ⟨rfl, hc⟩⟩

end HashMap

end Rust
