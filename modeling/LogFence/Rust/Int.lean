import LogFence.Rust.Outcome

/-!
# `i64` and `u64`: checked arithmetic and `as` casts

A value of either type is an `Int` or a `Nat`; an operation whose result is out of range panics (overflow checks
are on), and an `as` cast keeps the low bits. Each gets a lemma that says when nothing happens to the value. For
code that relies on that, `u64ToI64` and its like are the casts with the reliance checked.
-/

namespace Rust

open Outcome

variable {ε : Type}

def i64 (x : Int) : Outcome ε Int := if -9223372036854775808 ≤ x ∧ x ≤ 9223372036854775807 then .ok x else .panic

def i64Add (a b : Int) : Outcome ε Int := i64 (a + b)
def i64Sub (a b : Int) : Outcome ε Int := i64 (a - b)
def i64Mul (a b : Int) : Outcome ε Int := i64 (a * b)

def u64Add (a b : Nat) : Outcome ε Nat := if a + b < 18446744073709551616 then .ok (a + b) else .panic
def u64Sub (a b : Nat) : Outcome ε Nat := if b ≤ a then .ok (a - b) else .panic
def u64Mul (a b : Nat) : Outcome ε Nat := if a * b < 18446744073709551616 then .ok (a * b) else .panic

/-- `n as i64` of a `u64`. -/
def u64AsI64 (n : Nat) : Int := if n < 9223372036854775808 then n else n - 18446744073709551616

/-- `x as u64` of an `i64`. -/
def i64AsU64 (x : Int) : Nat := (x % 18446744073709551616).toNat

/-- `x as i32` of an `i64`. -/
def i64AsI32 (x : Int) : Int := (x + 2147483648) % 4294967296 - 2147483648

/-- `n as u32` of a `u64`. -/
def u64AsU32 (n : Nat) : Nat := n % 4294967296

theorem i64_ok {x : Int} (h : -9223372036854775808 ≤ x ∧ x ≤ 9223372036854775807) : (i64 x : Outcome ε Int) = .ok x :=
  if_pos h

theorem u64Add_ok {a b : Nat} (h : a + b < 18446744073709551616) : (u64Add a b : Outcome ε Nat) = .ok (a + b) := if_pos h

theorem u64Sub_ok {a b : Nat} (h : b ≤ a) : (u64Sub a b : Outcome ε Nat) = .ok (a - b) := if_pos h

theorem u64Mul_ok {a b : Nat} (h : a * b < 18446744073709551616) : (u64Mul a b : Outcome ε Nat) = .ok (a * b) := if_pos h

theorem u64AsI64_eq {n : Nat} (h : n < 9223372036854775808) : u64AsI64 n = n := if_pos h

theorem i64AsU64_natCast {n : Nat} (h : n < 18446744073709551616) : i64AsU64 n = n := by
  unfold i64AsU64
  omega

theorem i64AsI32_eq {x : Int} (h : -2147483648 ≤ x ∧ x < 2147483648) : i64AsI32 x = x := by
  unfold i64AsI32
  omega

theorem u64AsU32_eq {n : Nat} (h : n < 4294967296) : u64AsU32 n = n := Nat.mod_eq_of_lt h

/-! ## Casts that keep the value -/

/-- What a cast gives, if it kept the value; a panic if not. -/
def kept {α : Type} (same : Prop) [Decidable same] (y : α) : Outcome ε α := if same then .ok y else .panic

def u64ToI64 (n : Nat) : Outcome ε Int := kept (u64AsI64 n = n) (u64AsI64 n)
def i64ToU64 (x : Int) : Outcome ε Nat := kept (i64AsU64 x = x) (i64AsU64 x)
def i64ToI32 (x : Int) : Outcome ε Int := kept (i64AsI32 x = x) (i64AsI32 x)
def u64ToU32 (n : Nat) : Outcome ε Nat := kept (u64AsU32 n = n) (u64AsU32 n)

/-- The check changes no result. -/
theorem kept_eq_ok {α : Type} {same : Prop} [Decidable same] {y z : α} (h : (kept same y : Outcome ε α) = .ok z) : y = z := by
  unfold kept at h
  split at h
  · exact Outcome.ok.inj h
  · cases h

theorem u64ToI64_ok {n : Nat} (h : n < 9223372036854775808) : (u64ToI64 n : Outcome ε Int) = .ok n := by
  rw [u64ToI64, u64AsI64_eq h]
  exact if_pos rfl

theorem i64ToU64_natCast {n : Nat} (h : n < 18446744073709551616) : (i64ToU64 n : Outcome ε Nat) = .ok n := by
  rw [i64ToU64, i64AsU64_natCast h]
  exact if_pos rfl

theorem u64ToU32_ok {n : Nat} (h : n < 4294967296) : (u64ToU32 n : Outcome ε Nat) = .ok n := by
  rw [u64ToU32, u64AsU32_eq h]
  exact if_pos rfl

theorem i64ToI32_eq_ok {x y : Int} :
    (i64ToI32 x : Outcome ε Int) = .ok y ↔ y = x ∧ -2147483648 ≤ x ∧ x < 2147483648 := by
  have hrange : i64AsI32 x = x ↔ -2147483648 ≤ x ∧ x < 2147483648 := by
    unfold i64AsI32
    omega
  rw [i64ToI32, kept, ← hrange]
  by_cases h : i64AsI32 x = x
  · rw [if_pos h, h]
    simp [eq_comm]
  · simp [h]

end Rust
