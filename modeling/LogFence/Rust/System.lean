import Mathlib.Data.List.Basic

/-!
# Transition systems

A system is a start state and a guarded step: `step s a` is the state after the action `a`, or `none` if
`a` is not enabled in `s`. A run is a list of actions, each enabled in its turn; what the environment
decides (which task moves, what a system call returns) is part of the action, so that a statement over all
runs is one over every interleaving and every failure. The step is executable: a run on fixed actions is
evaluated.

`restrict` keeps the steps that meet a condition; `Reachable.inv` is the rule every invariant goes through.
-/

namespace Rust

structure System (σ α : Type) where
  start : σ
  step : σ → α → Option σ

namespace System

variable {σ α : Type} {M : System σ α}

/-- The state after the actions. -/
def run (M : System σ α) (s : σ) : List α → Option σ
  | [] => some s
  | a :: as => (M.step s a).bind fun s' => M.run s' as

def Reachable (M : System σ α) (s : σ) : Prop := ∃ as, M.run M.start as = some s

theorem run_cons_eq_some {s s' : σ} {a : α} {as : List α} :
    M.run s (a :: as) = some s' ↔ ∃ t, M.step s a = some t ∧ M.run t as = some s' := by
  simp [run, Option.bind_eq_some_iff]

theorem run_append {s t : σ} {as : List α} (h : M.run s as = some t) (bs : List α) :
    M.run s (as ++ bs) = M.run t bs := by
  induction as generalizing s with
  | nil => cases h; rfl
  | cons a as ih =>
    obtain ⟨u, hu, h⟩ := run_cons_eq_some.1 h
    simp [run, hu, ih h]

theorem Reachable.step {s s' : σ} {a : α} (h : M.Reachable s) (hstep : M.step s a = some s') : M.Reachable s' := by
  obtain ⟨as, has⟩ := h
  exact ⟨as ++ [a], (run_append has [a]).trans (run_cons_eq_some.2 ⟨s', hstep, rfl⟩)⟩

/-- A run of one system is a run of another that takes the same steps. -/
theorem run_map {σ' α' : Type} {M' : System σ' α'} (f : σ → σ') (g : α → α') {as : List α}
    (hstep : ∀ a ∈ as, ∀ s s', M.step s a = some s' → M'.step (f s) (g a) = some (f s')) {s s' : σ}
    (h : M.run s as = some s') : M'.run (f s) (as.map g) = some (f s') := by
  induction as generalizing s with
  | nil => cases h; rfl
  | cons a as ih =>
    obtain ⟨t, ht, h⟩ := run_cons_eq_some.1 h
    rw [List.forall_mem_cons] at hstep
    exact run_cons_eq_some.2 ⟨f t, hstep.1 s t ht, ih hstep.2 h⟩

/-- What every enabled step preserves, a run preserves. -/
theorem run_inv {I : σ → Prop} (hstep : ∀ s a s', I s → M.step s a = some s' → I s') {s s' : σ} {as : List α}
    (hs : I s) (h : M.run s as = some s') : I s' := by
  induction as generalizing s with
  | nil => cases h; exact hs
  | cons a as ih =>
    obtain ⟨t, ht, h⟩ := run_cons_eq_some.1 h
    exact ih (hstep s a t hs ht) h

/-- An invariant holds in every reachable state. -/
theorem Reachable.inv {I : σ → Prop} (h0 : I M.start) (hstep : ∀ s a s', I s → M.step s a = some s' → I s') {s : σ}
    (h : M.Reachable s) : I s := by
  obtain ⟨as, has⟩ := h
  exact run_inv hstep h0 has

/-- A rank that every step lowers, but for those that meet `p`, which raise it by at most `k`: a run is as long as
    its rank and those steps allow. -/
theorem run_rank {I : σ → Prop} {rank : σ → Nat} {p : α → Bool} {k : Nat} {as : List α}
    (hstep : ∀ a ∈ as, ∀ s s', I s → M.step s a = some s' → I s' ∧ rank s' + 1 ≤ rank s + if p a then k + 1 else 0)
    {s s' : σ} (hs : I s) (h : M.run s as = some s') : I s' ∧ as.length + rank s' ≤ rank s + (k + 1) * as.countP p := by
  induction as generalizing s with
  | nil => cases h; exact ⟨hs, by simp⟩
  | cons a as ih =>
    obtain ⟨t, ht, h⟩ := run_cons_eq_some.1 h
    rw [List.forall_mem_cons] at hstep
    obtain ⟨hIt, hone⟩ := hstep.1 s t hs ht
    obtain ⟨hI, hrest⟩ := ih hstep.2 hIt h
    refine ⟨hI, ?_⟩
    rw [List.length_cons, List.countP_cons, Nat.mul_add]
    cases hp : p a
    · rw [hp, if_neg Bool.false_ne_true] at hone
      rw [if_neg Bool.false_ne_true]
      omega
    · rw [hp, if_pos rfl] at hone
      rw [if_pos rfl, Nat.mul_one]
      omega

/-- The system with the steps that meet a condition. -/
def restrict (M : System σ α) (ok : σ → α → Bool) : System σ α where
  start := M.start
  step s a := if ok s a then M.step s a else none

theorem restrict_step {ok : σ → α → Bool} {s s' : σ} {a : α} :
    (M.restrict ok).step s a = some s' ↔ ok s a = true ∧ M.step s a = some s' := by
  simp [restrict]

end System

end Rust
