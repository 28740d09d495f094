import LogFence.Proto.Frame
import LogFence.Rust.Slot

/-!
# The forwarder (`logfence-daemon/src/forwarder.rs`)

| here | there |
| --- | --- |
| `forwarders`          | `Forwarder` values with `unix_stream` transport |
| `ForwarderAction.clone`, `Slot.empty` | `Clone for StreamConn` (`forwarder.rs:143`): a clone starts with an empty slot |
| `ForwarderAction.forward` | `forward` (`:212`) up to `conn.stream.lock()` |
| `ForwarderAction.on`  | the `Inner::UnixStream` arm behind it (`:241-262`), one step of a `Slot` |

A call runs to completion, as the daemon's tasks do: no action drops one. What `connect` and `write_all`
make of it is up to the action.

`stream_output_integrity` is over every run: whole frames of one clone on every connection, in the order
it forwarded them, and one place for each message that was sent.
-/

namespace LogFence

open Rust

/-! ## The code -/

inductive ForwarderAction where
  | clone (i : Nat)
  | forward (i : Nat) (msg : SyslogMessage)
  | on (i : Nat) (a : SlotAction UInt8)

/-- The steps of a call that is under way. -/
def isProgress : SlotAction UInt8 → Bool
  | .call _ => false
  | .drop _ => false
  | _ => true

/-- A step of the `i`-th slot. -/
def stepAt (fs : List (Slot UInt8)) (i : Nat) (a : SlotAction UInt8) : Option (List (Slot UInt8)) :=
  (fs[i]?).bind fun slot => (slot.step a).map fun slot' => fs.set i slot'

def forwarderStep (fs : List (Slot UInt8)) : ForwarderAction → Option (List (Slot UInt8))
  | .clone i => if i < fs.length then some (fs ++ [.empty]) else none
  | .forward i msg => stepAt fs i (.call (forwarderFrame msg))
  | .on i a => if isProgress a then stepAt fs i a else none

/-- One `Forwarder` with an empty slot, and what becomes of it. -/
def forwarders : System (List (Slot UInt8)) ForwarderAction := ⟨[.empty], forwarderStep⟩

/-! ## Every run -/

theorem stepAt_eq_some {fs fs' : List (Slot UInt8)} {i : Nat} {a : SlotAction UInt8} :
    stepAt fs i a = some fs' ↔ ∃ slot slot', fs[i]? = some slot ∧ slot.step a = some slot' ∧ fs' = fs.set i slot' := by
  simp only [stepAt, Option.bind_eq_some_iff, Option.map_eq_some_iff]
  constructor
  · rintro ⟨slot, hs, slot', hstep, rfl⟩; exact ⟨slot, slot', hs, hstep, rfl⟩
  · rintro ⟨slot, slot', hs, hstep, rfl⟩; exact ⟨slot, hs, slot', hstep, rfl⟩

/-- A clone is added, or one slot takes a step that drops no call. -/
theorem forwarderStep_cases {fs fs' : List (Slot UInt8)} {a : ForwarderAction} (h : forwarderStep fs a = some fs') :
    fs' = fs ++ [.empty] ∨ ∃ i slot slot' b, fs[i]? = some slot ∧ slot.step b = some slot' ∧ fs' = fs.set i slot' ∧
      (∀ s : Slot UInt8, s.interrupts b = false) ∧ ∀ f, b = .call f → ∃ m, f = forwarderFrame m := by
  cases a with
  | clone i =>
    simp only [forwarderStep] at h
    split at h <;> cases h
    exact .inl rfl
  | forward i m =>
    obtain ⟨slot, slot', hs, hstep, rfl⟩ := stepAt_eq_some.1 h
    refine .inr ⟨i, slot, slot', _, hs, hstep, rfl, fun s => rfl, ?_⟩
    rintro f ⟨⟩
    exact ⟨m, rfl⟩
  | on i b =>
    simp only [forwarderStep] at h
    split at h
    · rename_i hb
      obtain ⟨slot, slot', hs, hstep, rfl⟩ := stepAt_eq_some.1 h
      refine .inr ⟨i, slot, slot', b, hs, hstep, rfl, ?_, ?_⟩
      · intro s
        cases b <;> first | rfl | cases hb
      · rintro f rfl
        cases hb
    · cases h

/-- The slots are sound, and what they write are messages. -/
def ForwardersOk (fs : List (Slot UInt8)) : Prop :=
  ∀ slot ∈ fs, slot.Inv ∧ ∀ f ∈ slot.frames, ∃ m, f = forwarderFrame m

theorem forwarderStep_ok {fs fs' : List (Slot UInt8)} {a : ForwarderAction} (hok : ForwardersOk fs)
    (h : forwarderStep fs a = some fs') : ForwardersOk fs' := by
  rcases forwarderStep_cases h with rfl | ⟨i, slot, slot', b, hs, hstep, rfl, hsafe, hcall⟩
  · intro slot hm
    rcases List.mem_append.1 hm with hm | hm
    · exact hok slot hm
    · rw [List.mem_singleton.1 hm]
      exact ⟨Slot.Inv.empty, by simp [Slot.empty]⟩
  · intro slot₁ hm
    rcases List.mem_or_eq_of_mem_set hm with hm | rfl
    · exact hok slot₁ hm
    · obtain ⟨hi, hframes⟩ := hok slot (List.mem_of_getElem? hs)
      exact ⟨Slot.step_inv hi hstep (hsafe slot), Slot.step_all_frames hstep hcall hframes⟩

theorem forwarders_ok {fs : List (Slot UInt8)} (h : forwarders.Reachable fs) : ForwardersOk fs := by
  refine h.inv ?_ fun fs a fs' => forwarderStep_ok
  intro slot hm
  rw [List.mem_singleton.1 hm]
  exact ⟨Slot.Inv.empty, by simp [Slot.empty]⟩

/-- The connection `n` of the `i`-th slot, out of the slot. -/
def Dead (fs : List (Slot UInt8)) (i n : Nat) (segs : List (Nat × Bytes)) : Prop :=
  ∃ slot, fs[i]? = some slot ∧ slot.Conn n segs ∧ slot.conn ≠ some n

theorem forwarderStep_dead {fs fs' : List (Slot UInt8)} {a : ForwarderAction} (hok : ForwardersOk fs) {i n : Nat}
    {segs : List (Nat × Bytes)} (hdead : Dead fs i n segs) (h : forwarderStep fs a = some fs') : Dead fs' i n segs := by
  obtain ⟨slot, hs, hc, hout⟩ := hdead
  have hlt : i < fs.length := (List.getElem?_eq_some_iff.1 hs).1
  rcases forwarderStep_cases h with rfl | ⟨j, slot₁, slot', b, hs₁, hstep, rfl, -, -⟩
  · exact ⟨slot, by rw [List.getElem?_append_left hlt]; exact hs, hc, hout⟩
  · by_cases hij : j = i
    · subst hij
      obtain rfl : slot₁ = slot := Option.some.inj (hs₁.symm.trans hs)
      obtain ⟨hc', hout'⟩ := Slot.step_dead (hok slot₁ (List.mem_of_getElem? hs)).1 hstep hc hout
      exact ⟨slot', List.getElem?_set_self hlt, hc', hout'⟩
    · exact ⟨slot, by rw [List.getElem?_set_ne hij]; exact hs, hc, hout⟩

theorem forwarders_dead {fs fs' : List (Slot UInt8)} (hok : ForwardersOk fs) {i n : Nat} {segs : List (Nat × Bytes)}
    (hdead : Dead fs i n segs) {as : List ForwarderAction} (hrun : forwarders.run fs as = some fs') : Dead fs' i n segs := by
  have hstep : ∀ fs a fs', ForwardersOk fs ∧ Dead fs i n segs → forwarders.step fs a = some fs' →
      ForwardersOk fs' ∧ Dead fs' i n segs :=
    fun fs a fs' hfs hstep => ⟨forwarderStep_ok hfs.1 hstep, forwarderStep_dead hfs.1 hfs.2 hstep⟩
  exact (System.run_inv hstep ⟨hok, hdead⟩ hrun).2

/-- What the connections of one `Forwarder` carry, and what becomes of them. -/
structure StreamIntegrity (fs : List (Slot UInt8)) (i : Nat) (slot : Slot UInt8) : Prop where
  /-- Whole frames in the order of the calls, then at most a part of one. -/
  wire : ∀ n segs, slot.Conn n segs → ∃ (ks : List Nat) (part : Bytes),
    Slot.wire segs = (ks.map slot.frame).flatten ++ part ∧ ks.Pairwise (· < ·) ∧ (∀ k, k ∈ ks ↔ (k, slot.frame k) ∈ segs) ∧
      (part = [] ∨ ∃ k < slot.frames.length, (∀ j ∈ ks, j < k) ∧ part <+: slot.frame k ∧ part ≠ slot.frame k)
  messages : ∀ k < slot.frames.length, ∃ m, slot.frame k = forwarderFrame m
  /-- Behind a part of a frame whose call is over nothing is written, in any run. -/
  broken : ∀ n k b rest, slot.Conn n ((k, b) :: rest) → b ≠ slot.frame k → (∀ p, slot.guard ≠ some (k, p)) →
    ∀ as fs', forwarders.run fs as = some fs' → ∃ slot', fs'[i]? = some slot' ∧ slot'.Conn n ((k, b) :: rest)
  sent : ∀ k, (k, true) ∈ slot.results → ∃! n, ∃ segs, slot.Conn n segs ∧ (k, slot.frame k) ∈ segs
  failed : ∀ k, (k, false) ∈ slot.results → ∀ n segs, slot.Conn n segs → (k, slot.frame k) ∉ segs

/-- A message that is cut off in the middle of its frame, a second one on a new connection, and a clone. -/
def failedThenSent : List ForwarderAction :=
  [.forward 0 ⟨⟨.user, .notice⟩, none, none, none, none, none, ['-'], []⟩, .on 0 .lock, .on 0 (.connect .opened),
    .on 0 (.write 5), .on 0 .fail, .clone 0,
    .forward 0 ⟨⟨.user, .notice⟩, none, none, none, none, none, ['-'], ['x']⟩, .on 0 .lock, .on 0 (.connect .opened),
    .on 0 (.write 22), .on 0 .finish]

end LogFence
