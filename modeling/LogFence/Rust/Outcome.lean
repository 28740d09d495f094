import Mathlib.Logic.Relation
import Mathlib.Tactic.Common

/-!
# What a Rust call can end in

A Rust function with return type `Result<T, E>` has three observable ends: `Ok(v)`, `Err(e)` and a
panic. `Outcome ε α` keeps the three apart, so that "never panics" is a statement about the model
and not a convention of it. `bind` is the `?` operator; a panic unwinds through it like an error.

Loops are `loop`: one iteration is an ordinary function that either goes round again (`Turn.next`)
or leaves (`Turn.done`), and the caller shows once that going round decreases a measure. Four rules
say what a loop does: its unfolding (`loop_eq`), one loop carried along another (`loop_sim`), an
invariant (`loop_inv`), and the exit it comes to (`loop_eq_ok`, `loop_eq_panic`).
-/

namespace Rust

/-- The end of a call that may fail with `ε` or panic. -/
inductive Outcome (ε α : Type) where
  | ok (a : α)
  | err (e : ε)
  | panic
deriving DecidableEq, Repr

namespace Outcome

variable {ε ε' α β γ σ τ : Type}

/-- `?`: continue with the value, pass an error or a panic on. -/
def bind (x : Outcome ε α) (f : α → Outcome ε β) : Outcome ε β :=
  match x with
  | ok a => f a
  | err e => err e
  | panic => panic

def map (f : α → β) : Outcome ε α → Outcome ε β
  | ok a => ok (f a)
  | err e => err e
  | panic => panic

instance : Monad (Outcome ε) where
  pure := ok
  bind := bind
  map := map

/-- `Result::map_err`. -/
def mapErr (f : ε → ε') : Outcome ε α → Outcome ε' α
  | ok a => ok a
  | err e => err (f e)
  | panic => panic

/-- `Option::ok_or_else`. -/
def okOr (e : ε) : Option α → Outcome ε α
  | some a => ok a
  | none => err e

/-- `x || y || …`: left to right, stopping at the first `true`. -/
def anyOf : List (Outcome ε Bool) → Outcome ε Bool
  | [] => ok false
  | x :: xs => bind x fun r => if r then ok true else anyOf xs

@[simp] theorem pure_eq (a : α) : (pure a : Outcome ε α) = ok a := rfl
@[simp] theorem ok_bind (a : α) (f : α → Outcome ε β) : (ok a >>= f) = f a := rfl
@[simp] theorem err_bind (e : ε) (f : α → Outcome ε β) : (err e >>= f) = err e := rfl
@[simp] theorem panic_bind (f : α → Outcome ε β) : (panic >>= f) = panic := rfl
@[simp] theorem map_ok (f : α → β) (a : α) : (f <$> (ok a : Outcome ε α)) = ok (f a) := rfl
@[simp] theorem map_err (f : α → β) (e : ε) : (f <$> (err e : Outcome ε α)) = err e := rfl
@[simp] theorem map_panic (f : α → β) : (f <$> (panic : Outcome ε α)) = panic := rfl
@[simp] theorem okOr_some (e : ε) (a : α) : okOr e (some a) = ok a := rfl
@[simp] theorem okOr_none (e : ε) : (okOr e none : Outcome ε α) = err e := rfl
@[simp] theorem mapErr_ok (f : ε → ε') (a : α) : mapErr f (ok a : Outcome ε α) = ok a := rfl
@[simp] theorem mapErr_err (f : ε → ε') (e : ε) : mapErr f (err e : Outcome ε α) = err (f e) := rfl
@[simp] theorem mapErr_panic (f : ε → ε') : mapErr f (panic : Outcome ε α) = panic := rfl

theorem map_some_ne_none (x : Outcome ε α) : some <$> x ≠ ok none := by
  rcases x with a | e | _ <;> simp

theorem map_some_eq_ok {x : Outcome ε α} {a : α} (h : some <$> x = ok (some a)) : x = ok a := by
  rcases x with a' | e | _ <;> simp at h
  rw [h]

theorem map_some_eq_err {x : Outcome ε α} {e : ε} (h : some <$> x = err e) : x = err e := by
  rcases x with a | e' | _ <;> simp at h
  rw [h]

theorem bind_eq_ok {x : Outcome ε α} {f : α → Outcome ε β} {b : β} :
    (x >>= f) = ok b ↔ ∃ a, x = ok a ∧ f a = ok b := by
  cases x <;> simp

theorem bind_eq_panic {x : Outcome ε α} {f : α → Outcome ε β} :
    (x >>= f) = panic ↔ x = panic ∨ ∃ a, x = ok a ∧ f a = panic := by
  cases x <;> simp

theorem okOr_eq_ok {e : ε} {o : Option α} {a : α} : okOr e o = ok a ↔ o = some a := by
  cases o <;> simp

theorem okOr_ne_panic {e : ε} {o : Option α} : okOr e o ≠ panic := by
  cases o <;> simp

theorem mapErr_eq_ok {f : ε → ε'} {x : Outcome ε α} {a : α} : mapErr f x = ok a ↔ x = ok a := by
  cases x <;> simp

@[simp] theorem anyOf_nil : (anyOf [] : Outcome ε Bool) = ok false := rfl

@[simp] theorem anyOf_ok (r : Bool) (xs : List (Outcome ε Bool)) :
    anyOf (ok r :: xs) = if r then ok true else anyOf xs := rfl

/-- A disjunction whose operands do not panic is the Boolean one. -/
theorem anyOf_oks : ∀ rs : List Bool, (anyOf (rs.map ok) : Outcome ε Bool) = ok (rs.any id)
  | [] => rfl
  | r :: rs => by
    rw [List.map_cons, anyOf_ok, anyOf_oks rs]
    cases r <;> rfl

/-- Checks none of which fires just when `p` holds. -/
theorem anyOf_oks_eq_not {bs : List Bool} {p : Prop} [Decidable p] (h : (∀ b ∈ bs, b = false) ↔ p) :
    (anyOf (bs.map ok) : Outcome ε Bool) = ok (!decide p) := by
  rw [anyOf_oks]
  refine congrArg ok (Bool.eq_iff_iff.2 ?_)
  rw [← Bool.not_eq_false, Bool.not_eq_true', decide_eq_false_iff_not, ← h]
  simp

theorem bind_assoc (x : Outcome ε α) (f : α → Outcome ε β) (g : β → Outcome ε γ) :
    (x >>= f) >>= g = x >>= fun a => f a >>= g := by
  cases x <;> rfl

/-! ## Loops -/

/-- How one iteration of a loop ends: go round with a new state, or leave with a value. -/
inductive Turn (σ α : Type) where
  | next (s : σ)
  | done (a : α)
deriving DecidableEq, Repr

/-- `loop { … }` / `while … { … }`: iterate `body`; `dec` says that going round decreases `μ`. -/
def loop (μ : σ → Nat) (body : σ → Outcome ε (Turn σ α))
    (dec : ∀ s s', body s = ok (.next s') → μ s' < μ s) (s : σ) : Outcome ε α :=
  match _h : body s with
  | ok (.next s') => loop μ body dec s'
  | ok (.done a) => ok a
  | err e => err e
  | panic => panic
termination_by μ s
decreasing_by exact dec _ _ _h

section
variable {μ : σ → Nat} {body : σ → Outcome ε (Turn σ α)}
  {dec : ∀ s s', body s = ok (.next s') → μ s' < μ s}

/-- A loop is its first iteration, then the rest of the loop. -/
theorem loop_eq (s : σ) : loop μ body dec s = body s >>= fun
    | .next s' => loop μ body dec s'
    | .done a => ok a := by
  rw [loop]
  split <;> rename_i h <;> rw [h] <;> rfl

theorem loop_next {s s' : σ} (h : body s = ok (.next s')) :
    loop μ body dec s = loop μ body dec s' := by
  rw [loop_eq, h]; rfl

theorem loop_done {s : σ} {a : α} (h : body s = ok (.done a)) : loop μ body dec s = ok a := by
  rw [loop_eq, h]; rfl

theorem loop_err {s : σ} {e : ε} (h : body s = err e) : loop μ body dec s = err e := by
  rw [loop_eq, h]; rfl

theorem loop_panic {s : σ} (h : body s = panic) : loop μ body dec s = panic := by
  rw [loop_eq, h]; rfl

end

/-- The image of an iteration under a map of states and a map of results. -/
def Turn.map (f : σ → τ) (g : α → β) : Turn σ α → Turn τ β
  | .next s => .next (f s)
  | .done a => .done (g a)

/-- **One loop carries another.** If `f` takes each iteration of the loop `bodyA` from a state that
    satisfies `I` to the iteration of `bodyB`, and iterations keep `I`, then it takes the whole run. -/
theorem loop_sim {μA : σ → Nat} {bodyA : σ → Outcome ε (Turn σ α)}
    {decA : ∀ s s', bodyA s = ok (.next s') → μA s' < μA s}
    {μB : τ → Nat} {bodyB : τ → Outcome ε (Turn τ β)}
    {decB : ∀ t t', bodyB t = ok (.next t') → μB t' < μB t}
    (I : σ → Prop) (f : σ → τ) (g : α → β)
    (hstep : ∀ s, I s → bodyB (f s) = Turn.map f g <$> bodyA s)
    (hinv : ∀ s s', I s → bodyA s = ok (.next s') → I s') :
    ∀ s, I s → loop μB bodyB decB (f s) = g <$> loop μA bodyA decA s := by
  intro s
  -- the run of `bodyA` is finite, so induct on its measure
  induction hn : μA s using Nat.strongRecOn generalizing s with
  | ind n ih =>
    intro hI
    have hb := hstep s hI
    cases hA : bodyA s with
    | ok r =>
      rw [hA] at hb
      cases r with
      | next s' =>
        have hb' : bodyB (f s) = ok (.next (f s')) := hb
        rw [loop_next hA, loop_next hb']
        exact ih (μA s') (by rw [← hn]; exact decA _ _ hA) s' rfl (hinv _ _ hI hA)
      | done a =>
        have hb' : bodyB (f s) = ok (.done (g a)) := hb
        rw [loop_done hA, loop_done hb']; rfl
    | err e =>
      rw [hA] at hb
      rw [loop_err hA, loop_err hb]; rfl
    | panic =>
      rw [hA] at hb
      rw [loop_panic hA, loop_panic hb]; rfl

/-- **What every iteration keeps, the loop keeps**: an invariant of the states that the loop's own
    exits turn into `P` holds of the result. -/
theorem loop_inv {μ : σ → Nat} {body : σ → Outcome ε (Turn σ α)}
    {dec : ∀ s s', body s = ok (.next s') → μ s' < μ s} (I : σ → Prop) (P : α → Prop)
    (hnext : ∀ s s', I s → body s = ok (.next s') → I s')
    (hdone : ∀ s a, I s → body s = ok (.done a) → P a) :
    ∀ s a, I s → loop μ body dec s = ok a → P a := by
  intro s
  induction hn : μ s using Nat.strongRecOn generalizing s with
  | ind n ih =>
    intro a hI h
    cases hb : body s with
    | ok r =>
      cases r with
      | next s' =>
        rw [loop_next hb] at h
        exact ih (μ s') (by rw [← hn]; exact dec _ _ hb) s' rfl a (hnext _ _ hI hb) h
      | done a' =>
        rw [loop_done hb] at h
        cases h
        exact hdone _ _ hI hb
    | err e => rw [loop_err hb] at h; cases h
    | panic => rw [loop_panic hb] at h; cases h

/-- `s'` is a state the loop comes to from `s`. -/
abbrev Steps (body : σ → Outcome ε (Turn σ α)) : σ → σ → Prop :=
  Relation.ReflTransGen fun s s' => body s = ok (.next s')

section
variable {μ : σ → Nat} {body : σ → Outcome ε (Turn σ α)}
  {dec : ∀ s s', body s = ok (.next s') → μ s' < μ s}

theorem loop_steps {s s' : σ} (h : Steps body s s') : loop μ body dec s = loop μ body dec s' := by
  induction h with
  | refl => rfl
  | tail _ hstep ih => rw [ih, loop_next hstep]

/-- Every loop comes to a state it leaves from. -/
theorem exists_steps (dec : ∀ s s', body s = ok (.next s') → μ s' < μ s) (s : σ) :
    ∃ s', Steps body s s' ∧ ∀ s'', body s' ≠ ok (.next s'') := by
  induction hn : μ s using Nat.strongRecOn generalizing s with
  | ind n ih =>
    by_cases h : ∃ s', body s = ok (.next s')
    · obtain ⟨s', hs⟩ := h
      obtain ⟨t, ht, hex⟩ := ih (μ s') (by rw [← hn]; exact dec _ _ hs) s' rfl
      exact ⟨t, .head hs ht, hex⟩
    · exact ⟨s, .refl, fun s'' hs => h ⟨s'', hs⟩⟩

/-- **What a loop returns**: the value of the exit it comes to. -/
theorem loop_eq_ok {s : σ} {a : α} :
    loop μ body dec s = ok a ↔ ∃ s', Steps body s s' ∧ body s' = ok (.done a) := by
  constructor
  · intro h
    obtain ⟨t, ht, hex⟩ := exists_steps dec s
    refine ⟨t, ht, ?_⟩
    rw [loop_steps ht, loop_eq] at h
    obtain ⟨r, hr, h⟩ := bind_eq_ok.1 h
    cases r with
    | next s'' => exact absurd hr (hex s'')
    | done a' => cases h; exact hr
  · rintro ⟨t, ht, hd⟩
    rw [loop_steps ht, loop_done hd]

theorem loop_eq_panic {s : σ} :
    loop μ body dec s = panic ↔ ∃ s', Steps body s s' ∧ body s' = panic := by
  constructor
  · intro h
    obtain ⟨t, ht, hex⟩ := exists_steps dec s
    refine ⟨t, ht, ?_⟩
    rw [loop_steps ht, loop_eq] at h
    rcases bind_eq_panic.1 h with h | ⟨r, hr, h⟩
    · exact h
    · cases r with
      | next s'' => exact absurd hr (hex s'')
      | done a' => cases h
  · rintro ⟨t, ht, hd⟩
    rw [loop_steps ht, loop_panic hd]

end

end Outcome
end Rust
