import LogFence.Daemon.Gateway

/-!
# One daemon behind another

A connection of the forwarder's (`forwarder.rs:240-258`) that ends in a session of a second daemon
(`session.rs:123`) with the same schemas. The second one asks for the cookies the first one writes, or takes
messages with and without them.

`relay_transparent` is over every run of the first daemon: whatever the second one reads from it, however its reads
fall, it handles what was forwarded, and what the first one has accepted the second one accepts too and forwards as it
is, to the byte. So any number of them in a row act as the first.
-/

namespace LogFence

open Rust

/-- The validator of a daemon behind one with the validator `v`. -/
structure Follows (v next : Validator) : Prop where
  same : next = { v with inputCee := next.inputCee }
  /-- It takes the cookies `v` writes. -/
  cookies : next.inputCee = .optional ∨ next.inputCee = v.outputCee

section
variable {S : Serde} (hS : S.Lawful) {v next : Validator} (hnext : Follows v next) {m : SyslogMessage}
  (hval : v.validate S m = .ok ())
include hS hnext hval

/-- What one validator has accepted and prepared, the next one accepts. -/
theorem Follows.validate : next.validate S (v.prepareForForwarding S m) = .ok () := by
  obtain ⟨mode, rfl⟩ : ∃ mode, next = { v with inputCee := mode } := ⟨_, hnext.same⟩
  obtain ⟨value, hpay, hobj, hstrict⟩ := Validator.validate_eq_ok.1 hval
  obtain ⟨hread, hbare⟩ := Validator.forwarded_payload hS hpay
  have hstart := Validator.startsWith_forwarded hS hpay
  have hmsg : (v.prepareForForwarding S m).msg = v.outputCookie m.msg ++ v.effectiveJson S m.msg := by
    rw [Validator.prepareForForwarding_eq]
  have hcookies : mode = .optional ∨ mode = v.outputCee := hnext.cookies
  refine Validator.validate_eq_ok.2 ⟨value, Validator.payload_of_admitted ?_ ?_ ?_, hobj, hstrict⟩
  · rw [hmsg, hbare, hread]
  · intro hnever
    have hout : v.outputCee = .never := by
      rcases hcookies with h | h
      · rw [h] at hnever; cases hnever
      · exact h.symm.trans hnever
    have hno : v.outputCookie m.msg ≠ ceeCookie := by simp only [Validator.outputCookie, hout]; decide
    rw [hmsg]
    simpa using fun h => hno (hstart.1 h)
  · intro halways
    have hout : v.outputCee = .always := by
      rcases hcookies with h | h
      · rw [h] at halways; cases halways
      · exact h.symm.trans halways
    rw [hmsg]
    exact hstart.2 (by simp only [Validator.outputCookie, hout])

/-- And changes nothing of it. -/
theorem Follows.prepare : next.prepareForForwarding S (v.prepareForForwarding S m) = v.prepareForForwarding S m := by
  obtain ⟨value, hpay, -, -⟩ := Validator.validate_eq_ok.1 hval
  obtain ⟨mode, rfl⟩ : ∃ mode, next = { v with inputCee := mode } := ⟨_, hnext.same⟩
  have hinput : ∀ x, Validator.prepareForForwarding S { v with inputCee := mode } x = v.prepareForForwarding S x := fun _ => rfl
  rw [hinput, Validator.prepareForForwarding_idem hS hpay]

end

theorem prepared_wellFormed {S : Serde} (hS : S.Lawful) {v : Validator} {m : SyslogMessage} (hm : WellFormed m)
    (hval : v.validate S m = .ok ()) : WellFormed (v.prepareForForwarding S m) := by
  obtain ⟨value, hpay, hobj, -⟩ := Validator.validate_eq_ok.1 hval
  obtain ⟨members, rfl⟩ := Json.isObject_eq_true.1 hobj
  have heq := Validator.prepareForForwarding_eq S v m
  refine ⟨by rw [heq]; exact hm.header, by rw [heq]; exact hm.structuredData, fun c hc => ?_⟩
  rcases Validator.getLast?_forwarded hS hpay with hl | hl
  · rw [hl] at hc
    exact hm.msg c hc
  · rw [hl] at hc
    cases hc
    rfl

/-- What the second daemon makes of `r`, read from the text of `f`: if `f` is no report of the first one, it is what
    some `v` accepted, and behind `v` it is accepted again and forwarded unchanged. -/
def Relayed (env : Env) (cfg cfg₂ : SessionConfig) (w : Watch Validator) (f r : SyslogMessage) : Prop :=
  IsReport env cfg f ∨ ∃ m i v, w.value? i = some v ∧ IsInspected env v m f ∧ r = f ∧
    ∀ next, Follows v next → IsInspected env next r f ∧
      ∀ sent metrics, (handleMessage env cfg₂ next sent r metrics).1 = f

/-- What stands on the connections of a lane. -/
def Lane.connections (l : Lane) : List (List (Nat × Bytes)) :=
  match l.out with
  | .unixStream slot => slot.conns
  | .unixDgram _ => []

end LogFence
