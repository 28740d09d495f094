import LogFence.Proto.Frame
import LogFence.Rust.Slot

/-!
# The client's stream transport (`logfence-client/src/transport.rs`)

| here | there |
| --- | --- |
| `unixTransport`      | a `UnixTransport` (`transport.rs:85`) and the `send` calls on it |
| `SendAction.send`    | `send` (`:107-119`) up to `self.stream.lock()`; a message over the limit gets no further |
| `SendAction.on`      | the rest of `send` (`:119-146`), one step of a `Slot`; `drop` is the caller dropping the future |

A future that is dropped in `write_all` (`:139`) runs neither the error branch nor anything else of `send`:
its guard is released, and the slot keeps the connection. `send_integrity_iff` says that this is the only
way to lose the framing: a dropped call does no harm unless it had written a part of its frame, and if it
had, the next call writes behind that part.
-/

namespace LogFence

open Rust

/-! ## The code -/

inductive SendAction where
  | send (msg : SyslogMessage)
  | on (a : SlotAction UInt8)

def sendStep (maxSize : Nat) (s : Slot UInt8) : SendAction → Option (Slot UInt8)
  | .send msg =>
    match transportFrame maxSize msg with
    | .ok frame => s.step (.call frame)
    | .error _ => some s
  | .on (.call _) => none
  | .on a => s.step a

def unixTransport (maxSize : Nat) : System (Slot UInt8) SendAction := ⟨.empty, sendStep maxSize⟩

/-! ## Interruptions -/

/-- The drop of a `send` that has written a part of its frame. -/
def interruptsSend (s : Slot UInt8) : SendAction → Bool
  | .send _ => false
  | .on a => s.interrupts a

/-- The runs without an interruption. -/
def uninterrupted (maxSize : Nat) : System (Slot UInt8) SendAction :=
  (unixTransport maxSize).restrict fun s a => !interruptsSend s a

/-- A message is refused, or the slot takes a step. -/
theorem sendStep_cases {maxSize : Nat} {s s' : Slot UInt8} {a : SendAction} (h : sendStep maxSize s a = some s') :
    (s' = s ∧ interruptsSend s a = false) ∨ ∃ b, s.step b = some s' ∧ interruptsSend s a = s.interrupts b ∧
      ∀ f, b = .call f → ∃ m, transportFrame maxSize m = .ok f := by
  cases a with
  | send m =>
    simp only [sendStep] at h
    split at h
    · rename_i frame hf
      refine .inr ⟨_, h, rfl, ?_⟩
      rintro f ⟨⟩
      exact ⟨m, hf⟩
    · cases h; exact .inl ⟨rfl, rfl⟩
  | on b =>
    refine .inr ⟨b, ?_, rfl, ?_⟩
    · cases b <;> first | exact h | cases h
    · rintro f rfl
      cases h

/-- The slot is sound, and what it writes are messages within the limit. -/
def TransportOk (maxSize : Nat) (s : Slot UInt8) : Prop :=
  s.Inv ∧ ∀ f ∈ s.frames, ∃ m, transportFrame maxSize m = .ok f

theorem sendStep_ok {maxSize : Nat} {s s' : Slot UInt8} {a : SendAction} (hok : TransportOk maxSize s)
    (h : sendStep maxSize s a = some s') (hsafe : interruptsSend s a = false) : TransportOk maxSize s' := by
  rcases sendStep_cases h with ⟨rfl, -⟩ | ⟨b, hb, hint, hcall⟩
  · exact hok
  · exact ⟨Slot.step_inv hok.1 hb (hint ▸ hsafe), Slot.step_all_frames hb hcall hok.2⟩

theorem uninterrupted_step {maxSize : Nat} {s s' : Slot UInt8} {a : SendAction} :
    (uninterrupted maxSize).step s a = some s' ↔ interruptsSend s a = false ∧ sendStep maxSize s a = some s' := by
  rw [uninterrupted, System.restrict_step, Bool.not_eq_true']
  rfl

theorem uninterrupted_run_ok {maxSize : Nat} {s s' : Slot UInt8} {as : List SendAction} (hok : TransportOk maxSize s)
    (h : (uninterrupted maxSize).run s as = some s') : TransportOk maxSize s' := by
  refine System.run_inv (fun s a s' hs hstep => ?_) hok h
  obtain ⟨hsafe, hstep⟩ := uninterrupted_step.1 hstep
  exact sendStep_ok hs hstep hsafe

theorem uninterrupted_ok {maxSize : Nat} {s : Slot UInt8} (h : (uninterrupted maxSize).Reachable s) :
    TransportOk maxSize s := by
  obtain ⟨as, has⟩ := h
  refine uninterrupted_run_ok ⟨Slot.Inv.empty, ?_⟩ has
  intro f hf
  cases hf

/-- After an interruption a message that fits is sent, and goes behind a part of another. -/
theorem interrupted_send {maxSize : Nat} {s s' : Slot UInt8} {a : SendAction} (hok : TransportOk maxSize s)
    (h : sendStep maxSize s a = some s') (hint : interruptsSend s a = true) :
    ∃ as s'', (uninterrupted maxSize).run s' as = some s'' ∧ ∃ n segs, s''.Conn n segs ∧ ¬ s''.Whole segs := by
  rcases sendStep_cases h with ⟨-, hno⟩ | ⟨b, hb, heq, -⟩
  · rw [hno] at hint; cases hint
  · rw [heq] at hint
    -- the message of the dropped call is sent again
    obtain ⟨k, c, w, -, hg, -⟩ := Slot.interrupts_eq_true.1 hint
    have hk : k < s.frames.length := hok.1.bounded k (by simp [Slot.order, hg])
    obtain ⟨m, hm⟩ := hok.2 _ (List.getElem_mem hk)
    obtain ⟨s'', hrun, hbad⟩ := hok.1.interrupted hb hint (hok.1.nonempty _ (List.getElem_mem hk))
    refine ⟨[.send m, .on .lock, .on .reuse, .on (.write 1)], s'', ?_, hbad⟩
    rw [← hrun]
    simp [System.run, uninterrupted, System.restrict, unixTransport, interruptsSend, Slot.interrupts, sendStep, hm,
      Slot.system]

/-! ## Frames on the wire -/

/-- Every connection carries whole frames of messages, then at most a part of one, with nothing behind it. -/
structure SendIntegrity (maxSize : Nat) (s : Slot UInt8) : Prop where
  whole : ∀ n segs, s.Conn n segs → s.Whole segs
  wire : ∀ n segs, s.Conn n segs → ∃ (ks : List Nat) (part : Bytes),
    Slot.wire segs = (ks.map s.frame).flatten ++ part ∧ ks.Pairwise (· < ·) ∧ (∀ k, k ∈ ks ↔ (k, s.frame k) ∈ segs) ∧
      (part = [] ∨ ∃ k < s.frames.length, (∀ j ∈ ks, j < k) ∧ part <+: s.frame k ∧ part ≠ s.frame k)
  messages : ∀ k < s.frames.length, ∃ m, transportFrame maxSize m = .ok (s.frame k)

theorem TransportOk.integrity {maxSize : Nat} {s : Slot UInt8} (hok : TransportOk maxSize s) : SendIntegrity maxSize s := by
  refine ⟨fun n segs hc => hok.1.whole hc, fun n segs hc => hok.1.wire_eq hc, fun k hk => ?_⟩
  rw [Slot.frame, List.getElem?_eq_getElem hk]
  exact hok.2 _ (List.getElem_mem hk)

/-- **The framing is kept by all but an interruption**: in every run of concurrent calls, with any failures
    and any drops but of a call that has written a part of its frame, the connections carry whole frames;
    and a step from there keeps it so for all that follows just if it is no such drop. -/
theorem send_integrity_iff {maxSize : Nat} {s : Slot UInt8} (h : (uninterrupted maxSize).Reachable s) :
    SendIntegrity maxSize s ∧ ∀ a s', (unixTransport maxSize).step s a = some s' →
      ((∀ as s'', (uninterrupted maxSize).run s' as = some s'' → SendIntegrity maxSize s'') ↔
        interruptsSend s a = false) := by
  have hok := uninterrupted_ok h
  refine ⟨hok.integrity, fun a s' hstep => ⟨fun hall => ?_, fun hsafe as s'' hrun => ?_⟩⟩
  · rw [← Bool.not_eq_true]
    intro hint
    obtain ⟨as, s'', hrun, n, segs, hc, hbad⟩ := interrupted_send hok hstep hint
    exact hbad ((hall as s'' hrun).whole n segs hc)
  · exact (uninterrupted_run_ok (sendStep_ok hok hstep hsafe) hrun).integrity

/-- A message with the text `msg` and nothing else. -/
def bareMessage (msg : String) : SyslogMessage :=
  ⟨⟨.user, .notice⟩, none, none, none, none, none, ['-'], msg.toList⟩

/-- A `send` that fails behind a part of its frame, one that is dropped before it writes, and one that succeeds. -/
def failedDroppedSent : List SendAction :=
  [.send (bareMessage "hello"), .on .lock, .on (.connect .opened), .on (.write 6), .on .fail,
    .send (bareMessage "there"), .on .lock, .on (.connect .opened), .on (.drop 1),
    .send (bareMessage "hi"), .on .lock, .on .reuse, .on (.write 23), .on .finish]

theorem send_integrity_failed_dropped_sent :
    ∃ s, (uninterrupted 100).run Slot.empty failedDroppedSent = some s ∧ s.results = [(0, false), (2, true)] ∧
      SendIntegrity 100 s := by
  have hrun : (uninterrupted 100).run Slot.empty failedDroppedSent =
      some (((uninterrupted 100).run Slot.empty failedDroppedSent).getD .empty) := by decide
  exact ⟨_, hrun, by decide, (send_integrity_iff ⟨_, hrun⟩).1⟩

/-- A `send` that is dropped behind a part of its frame, and the next one. -/
def droppedThenSent : List SendAction :=
  [.send (bareMessage "hello"), .on .lock, .on (.connect .opened), .on (.write 6), .on (.drop 0),
    .send (bareMessage "hi"), .on .lock, .on .reuse, .on (.write 23), .on .finish]

/-- The second message is spliced into the first, and its `send` returns `Ok`. -/
theorem dropped_send_splices :
    ∃ s segs, (unixTransport 100).run Slot.empty droppedThenSent = some s ∧ s.results = [(1, true)] ∧ s.Conn 0 segs ∧
      Slot.wire segs = utf8 "23 <1320 <13>1 - - - - - - hi".toList ∧ ¬ SendIntegrity 100 s := by
  have hrun : (unixTransport 100).run Slot.empty droppedThenSent =
      some (((unixTransport 100).run Slot.empty droppedThenSent).getD .empty) := by decide
  refine ⟨_, [(1, utf8 "20 <13>1 - - - - - - hi".toList), (0, utf8 "23 <13".toList)], hrun, ?_, ?_, ?_, ?_⟩
  · decide
  · show _ = _
    decide
  · decide
  · intro h
    have hwhole := (h.whole 0 [(1, utf8 "20 <13>1 - - - - - - hi".toList), (0, utf8 "23 <13".toList)] (by
      show _ = _
      decide)).1 (0, utf8 "23 <13".toList) (by simp)
    exact absurd hwhole (by decide)

end LogFence
