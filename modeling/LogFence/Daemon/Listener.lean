import LogFence.Rust.System
import Mathlib.Algebra.Group.Nat.Defs

/-!
# The accept loop (`logfence-daemon/src/listener.rs`)

| here | there |
| --- | --- |
| `AcceptPhase`       | where `Listener::run` (`listener.rs:83-151`) is |
| `SessionPhase`      | where a spawned task (`:136-140`) is |
| `listenerStep`      | a step of the loop, of a session, or of the shutdown token |
| `drainTotal`        | `u32::try_from(cfg.max_connections).unwrap_or(u32::MAX)` (`:144`) |
| `release`           | a permit that is dropped: to the future that waits for one, if there is one |

The loop is the only one that waits for a permit, so who holds one is read off its phase (`held`). Both
`select!` are biased: a cancelled token is seen before a permit or a connection. A future that is dropped
gives back the permits it has been assigned. A session's permit is moved into its task, and dropped at the end of
it, whether `run_session` returns (at the end of the stream, or after an error) or unwinds. The semaphore is
never closed, so the two branches for that are not here.

`permits_conserved` is over every run.
-/

namespace LogFence

open Rust

/-! ## The code -/

inductive AcceptPhase where
  /-- At the first `select!`. -/
  | acquiring
  /-- There, with no permit free: waiting for one. -/
  | queued
  /-- There, with a permit assigned to the future, which is yet to be polled. -/
  | assigned
  /-- At the second `select!`, with a permit. -/
  | accepting
  /-- With a connection and a permit for it. -/
  | accepted
  /-- Out of the loop. -/
  | stopped
  /-- In `acquire_many`, with so many permits assigned. -/
  | draining (got : Nat)
  | finished (drained : Bool)
deriving DecidableEq, Repr

inductive SessionPhase where
  | running
  /-- `run_session` has returned, the permit is yet to be dropped. -/
  | returned
  /-- Unwinding after a panic. -/
  | unwinding
deriving DecidableEq, Repr

inductive SessionEvent where
  | returns | panics | dropsPermit
deriving DecidableEq, Repr

structure ListenerState where
  free : Nat
  sessions : List SessionPhase
  phase : AcceptPhase
  cancelled : Bool
deriving DecidableEq, Repr

inductive ListenerAction where
  | cancel
  /-- The loop is polled at one of its `select!`. -/
  | poll
  | accept (ok : Bool)
  | spawn
  | session (i : Nat) (e : SessionEvent)
  | drain
  | drained
  | timeout
deriving DecidableEq, Repr

def drainTotal (maxConnections : Nat) : Nat := if maxConnections < 2 ^ 32 then maxConnections else 2 ^ 32 - 1

namespace ListenerState

def release (maxConnections : Nat) (s : ListenerState) : ListenerState :=
  match s.phase with
  | .queued => { s with phase := .assigned }
  | .draining got =>
    if got < drainTotal maxConnections then { s with phase := .draining (got + 1) } else { s with free := s.free + 1 }
  | _ => { s with free := s.free + 1 }

/-- The permits of the loop. -/
def held (s : ListenerState) : Nat :=
  match s.phase with
  | .assigned | .accepting | .accepted => 1
  | .draining got => got
  | _ => 0

end ListenerState

def listenerStep (maxConnections : Nat) (s : ListenerState) : ListenerAction → Option ListenerState
  | .cancel => some { s with cancelled := true }
  | .poll =>
    match s.phase, s.cancelled with
    | .acquiring, true => some { s with phase := .stopped }
    | .queued, true => some { s with phase := .stopped }
    | .assigned, true => some { s with free := s.free + 1, phase := .stopped }
    | .accepting, true => some { s with free := s.free + 1, phase := .stopped }
    | .acquiring, false =>
      if 0 < s.free then some { s with free := s.free - 1, phase := .accepting } else some { s with phase := .queued }
    | .assigned, false => some { s with phase := .accepting }
    | _, _ => none
  | .accept ok =>
    match s.phase, s.cancelled with
    | .accepting, false =>
      if ok then some { s with phase := .accepted } else some { s with free := s.free + 1, phase := .acquiring }
    | _, _ => none
  | .spawn =>
    match s.phase with
    | .accepted => some { s with sessions := s.sessions ++ [.running], phase := .acquiring }
    | _ => none
  | .session i e =>
    match s.sessions[i]?, e with
    | some .running, .returns => some { s with sessions := s.sessions.set i .returned }
    | some .running, .panics => some { s with sessions := s.sessions.set i .unwinding }
    | some .returned, .dropsPermit => some ({ s with sessions := s.sessions.eraseIdx i }.release maxConnections)
    | some .unwinding, .dropsPermit => some ({ s with sessions := s.sessions.eraseIdx i }.release maxConnections)
    | _, _ => none
  | .drain =>
    match s.phase with
    | .stopped =>
      let got := min s.free (drainTotal maxConnections)
      some { s with free := s.free - got, phase := .draining got }
    | _ => none
  | .drained =>
    match s.phase with
    | .draining got =>
      if got = drainTotal maxConnections then some { s with free := s.free + got, phase := .finished true } else none
    | _ => none
  | .timeout =>
    match s.phase with
    | .draining got =>
      if got < drainTotal maxConnections then some { s with free := s.free + got, phase := .finished false } else none
    | _ => none

def listener (maxConnections : Nat) : System ListenerState ListenerAction :=
  ⟨⟨maxConnections, [], .acquiring, false⟩, listenerStep maxConnections⟩

/-! ## What a step does -/

/-- The steps, one constructor for each way to take one. -/
inductive ListenerSteps (maxConnections : Nat) (s : ListenerState) : ListenerAction → ListenerState → Prop where
  | cancel : ListenerSteps maxConnections s .cancel { s with cancelled := true }
  | breaks (hp : s.phase = .acquiring ∨ s.phase = .queued) (hc : s.cancelled = true) :
    ListenerSteps maxConnections s .poll { s with phase := .stopped }
  | breaksWith (hp : s.phase = .assigned ∨ s.phase = .accepting) (hc : s.cancelled = true) :
    ListenerSteps maxConnections s .poll { s with free := s.free + 1, phase := .stopped }
  | acquire (hp : s.phase = .acquiring) (hf : 0 < s.free) :
    ListenerSteps maxConnections s .poll { s with free := s.free - 1, phase := .accepting }
  | wait (hp : s.phase = .acquiring) (hf : s.free = 0) : ListenerSteps maxConnections s .poll { s with phase := .queued }
  | acquired (hp : s.phase = .assigned) : ListenerSteps maxConnections s .poll { s with phase := .accepting }
  | accepted (hp : s.phase = .accepting) : ListenerSteps maxConnections s (.accept true) { s with phase := .accepted }
  | refused (hp : s.phase = .accepting) :
    ListenerSteps maxConnections s (.accept false) { s with free := s.free + 1, phase := .acquiring }
  | spawn (hp : s.phase = .accepted) :
    ListenerSteps maxConnections s .spawn { s with sessions := s.sessions ++ [.running], phase := .acquiring }
  | ends {i : Nat} {e : SessionEvent} (p : SessionPhase) (hs : s.sessions[i]? = some .running) :
    ListenerSteps maxConnections s (.session i e) { s with sessions := s.sessions.set i p }
  | dropsPermit {i : Nat} {p : SessionPhase} (hs : s.sessions[i]? = some p) :
    ListenerSteps maxConnections s (.session i .dropsPermit)
      ({ s with sessions := s.sessions.eraseIdx i }.release maxConnections)
  | drain (hp : s.phase = .stopped) :
    ListenerSteps maxConnections s .drain
      { s with
        free := s.free - min s.free (drainTotal maxConnections)
        phase := .draining (min s.free (drainTotal maxConnections)) }
  | drained (hp : s.phase = .draining (drainTotal maxConnections)) :
    ListenerSteps maxConnections s .drained
      { s with free := s.free + drainTotal maxConnections, phase := .finished true }
  | timeout {got : Nat} (hp : s.phase = .draining got) :
    ListenerSteps maxConnections s .timeout { s with free := s.free + got, phase := .finished false }

theorem listenerSteps_of_step {maxConnections : Nat} {s s' : ListenerState} {a : ListenerAction}
    (h : listenerStep maxConnections s a = some s') : ListenerSteps maxConnections s a s' := by
  cases a with
  | cancel => cases h; exact .cancel
  | poll =>
    simp only [listenerStep] at h
    split at h
    · cases h; exact .breaks (.inl ‹_›) ‹_›
    · cases h; exact .breaks (.inr ‹_›) ‹_›
    · cases h; exact .breaksWith (.inl ‹_›) ‹_›
    · cases h; exact .breaksWith (.inr ‹_›) ‹_›
    · split at h <;> cases h
      · exact .acquire ‹_› ‹_›
      · exact .wait ‹_› (by omega)
    · cases h; exact .acquired ‹_›
    · cases h
  | accept ok =>
    simp only [listenerStep] at h
    split at h
    · cases ok <;> cases h
      · exact .refused ‹_›
      · exact .accepted ‹_›
    · cases h
  | spawn =>
    simp only [listenerStep] at h
    split at h <;> cases h
    exact .spawn ‹_›
  | session i e =>
    simp only [listenerStep] at h
    split at h <;> cases h
    · exact .ends _ ‹_›
    · exact .ends _ ‹_›
    · exact .dropsPermit ‹_›
    · exact .dropsPermit ‹_›
  | drain =>
    simp only [listenerStep] at h
    split at h <;> cases h
    exact .drain ‹_›
  | drained =>
    simp only [listenerStep] at h
    split at h
    · rename_i got hp
      by_cases hgot : got = drainTotal maxConnections
      · rw [if_pos hgot] at h
        cases h
        subst hgot
        exact .drained hp
      · rw [if_neg hgot] at h
        cases h
    · cases h
  | timeout =>
    simp only [listenerStep] at h
    split at h
    · split at h <;> cases h
      exact .timeout ‹_›
    · cases h

/-! ## Permits -/

namespace ListenerState

structure Permits (maxConnections : Nat) (s : ListenerState) : Prop where
  conserved : s.free + s.sessions.length + s.held = maxConnections
  /-- The drain asks for no more than there are, and leaves none free while it lacks one. -/
  draining : ∀ got, s.phase = .draining got →
    got ≤ drainTotal maxConnections ∧ (got < drainTotal maxConnections → s.free = 0)

variable {maxConnections : Nat} {s : ListenerState}

theorem release_sum : (s.release maxConnections).free + (s.release maxConnections).held = s.free + s.held + 1 := by
  unfold release
  split
  · rename_i hp
    simp [held, hp]
  · rename_i got hp
    split
    · simp only [held, hp]; omega
    · simp only [held, hp]; omega
  · simp only [held]; omega

@[simp] theorem release_sessions : (s.release maxConnections).sessions = s.sessions := by
  unfold release
  split
  · rfl
  · split <;> rfl
  · rfl

theorem release_draining {got : Nat} (h : (s.release maxConnections).phase = .draining got) :
    ∃ got', s.phase = .draining got' ∧
      (got' < drainTotal maxConnections ∧ got = got' + 1 ∧ (s.release maxConnections).free = s.free ∨
        ¬ got' < drainTotal maxConnections ∧ got = got') := by
  unfold release at h ⊢
  split at h
  · cases h
  · rename_i got' hp
    refine ⟨got', hp, ?_⟩
    split at h
    · rename_i hlt
      cases h
      simp [hlt]
    · rename_i hge
      rw [hp] at h
      cases h
      exact .inr ⟨hge, rfl⟩
  · rename_i hno
    exact absurd h (hno got)

theorem Permits.of_not_draining (hsum : s.free + s.sessions.length + s.held = maxConnections)
    (hp : ∀ got, s.phase ≠ .draining got) : s.Permits maxConnections :=
  ⟨hsum, fun got hgot => absurd hgot (hp got)⟩

theorem Permits.step (hs : s.Permits maxConnections) {a : ListenerAction} {s' : ListenerState}
    (h : listenerStep maxConnections s a = some s') : s'.Permits maxConnections := by
  obtain ⟨hsum, hdrain⟩ := hs
  cases listenerSteps_of_step h with
  | cancel => exact ⟨hsum, hdrain⟩
  | breaks hp =>
    refine .of_not_draining ?_ (by simp)
    rcases hp with hp | hp <;> simpa [held, hp] using hsum
  | breaksWith hp =>
    refine .of_not_draining ?_ (by simp)
    rcases hp with hp | hp <;> simp only [held, hp] at hsum ⊢ <;> omega
  | wait hp | acquired hp | accepted hp =>
    refine .of_not_draining ?_ (by simp)
    simpa [held, hp] using hsum
  | acquire hp | refused hp | drained hp | timeout hp =>
    -- a permit, or all that the drain has got, goes between the semaphore and the loop
    refine .of_not_draining ?_ (by simp)
    simp only [held, hp] at hsum ⊢
    omega
  | spawn hp =>
    refine .of_not_draining ?_ (by simp)
    simp only [held, hp, List.length_append, List.length_singleton] at hsum ⊢
    omega
  | ends p =>
    refine ⟨?_, hdrain⟩
    rw [List.length_set]
    exact hsum
  | dropsPermit hi =>
    rename_i i p
    have hlt : i < s.sessions.length := (List.getElem?_eq_some_iff.1 hi).1
    constructor
    · have hrel := @release_sum maxConnections { s with sessions := s.sessions.eraseIdx i }
      rw [release_sessions, List.length_eraseIdx_of_lt hlt]
      have hheld : held { s with sessions := s.sessions.eraseIdx i } = s.held := rfl
      rw [hheld] at hrel
      simp only at hrel
      omega
    · intro got hgot
      obtain ⟨got', hp, ⟨hlt', rfl, hfree⟩ | ⟨hge, rfl⟩⟩ := release_draining hgot
      · refine ⟨hlt', fun _ => ?_⟩
        rw [hfree]
        exact (hdrain got' hp).2 hlt'
      · exact ⟨(hdrain got hp).1, fun hlt' => absurd hlt' hge⟩
  | drain hp =>
    constructor
    · simp only [held, hp] at hsum ⊢
      omega
    · intro got hgot
      cases hgot
      exact ⟨Nat.min_le_right _ _, fun hlt => by simp only; omega⟩

end ListenerState

theorem listener_permits {maxConnections : Nat} {s : ListenerState} (h : (listener maxConnections).Reachable s) :
    s.Permits maxConnections :=
  h.inv (.of_not_draining rfl (by simp [listener])) fun _ _ _ hs hstep => hs.step hstep

/-! ## The drain -/

section
variable {maxConnections : Nat} (hmax : maxConnections < 2 ^ 32) {s : ListenerState} (hs : s.Permits maxConnections)
include hmax hs

/-- With no session left, `acquire_many` has what it asks for. -/
theorem got_all {got : Nat} (hp : s.phase = .draining got) (hnone : s.sessions = []) : got = drainTotal maxConnections := by
  obtain ⟨hle, hfree⟩ := hs.draining got hp
  have hsum := hs.conserved
  simp only [ListenerState.held, hp, hnone, List.length_nil, Nat.add_zero] at hsum
  rw [drainTotal, if_pos hmax] at hle hfree ⊢
  by_contra hne
  have := hfree (by omega)
  omega

theorem drained_quiet {s' : ListenerState} (h : listenerStep maxConnections s .drained = some s') : s.sessions = [] := by
  cases listenerSteps_of_step h with
  | drained hp =>
    have hsum := hs.conserved
    simp only [ListenerState.held, hp] at hsum
    rw [drainTotal, if_pos hmax] at hsum
    exact List.eq_nil_of_length_eq_zero (by omega)

/-- The drain can finish, from where it starts or from anywhere in it. -/
theorem drains_when_quiet (hnone : s.sessions = []) (hp : s.phase = .stopped ∨ ∃ got, s.phase = .draining got) :
    ∃ as s', (listener maxConnections).run s as = some s' ∧ s'.phase = .finished true := by
  have hdraining : ∀ {t : ListenerState} {got : Nat}, t.Permits maxConnections → t.sessions = [] →
      t.phase = .draining got → ∃ t', listenerStep maxConnections t .drained = some t' ∧ t'.phase = .finished true := by
    intro t got ht htnone htp
    have hgot := got_all hmax ht htp htnone
    exact ⟨{ t with free := t.free + got, phase := .finished true }, by simp [listenerStep, htp, hgot], rfl⟩
  rcases hp with hp | ⟨got, hp⟩
  · obtain ⟨t, hstep, hnone', htp⟩ : ∃ t, listenerStep maxConnections s .drain = some t ∧ t.sessions = [] ∧
        t.phase = .draining (min s.free (drainTotal maxConnections)) := by
      simp [listenerStep, hp, hnone]
    obtain ⟨t', hstep', hfin⟩ := hdraining (hs.step hstep) hnone' htp
    exact ⟨[.drain, .drained], t', by simp [System.run, listener, hstep, hstep'], hfin⟩
  · obtain ⟨t', hstep', hfin⟩ := hdraining hs hnone hp
    exact ⟨[.drained], t', by simp [System.run, listener, hstep'], hfin⟩

end

/-- **Permits are conserved**, in every interleaving of the loop, the sessions and the token. -/
theorem permits_conserved {maxConnections : Nat} (hmax : maxConnections < 2 ^ 32) {s : ListenerState}
    (h : (listener maxConnections).Reachable s) :
    s.free + s.sessions.length + s.held = maxConnections ∧ s.sessions.length ≤ maxConnections ∧
      (∀ s', listenerStep maxConnections s .drained = some s' → s.sessions = []) ∧
      (s.sessions = [] → (s.phase = .stopped ∨ ∃ got, s.phase = .draining got) →
        ∃ as s', (listener maxConnections).run s as = some s' ∧ s'.phase = .finished true) := by
  have hs := listener_permits h
  refine ⟨hs.conserved, ?_, fun s' hstep => drained_quiet hmax hs hstep, fun hnone hp => drains_when_quiet hmax hs hnone hp⟩
  have := hs.conserved
  omega

/-- Two connections with one permit, an accept error, and a shutdown while the second session runs. -/
def acceptAndDrain : List ListenerAction :=
  [.poll, .accept true, .spawn, .poll, .session 0 .panics, .session 0 .dropsPermit, .poll, .accept false, .poll,
    .accept true, .spawn, .cancel, .poll, .drain, .session 0 .returns, .session 0 .dropsPermit]

theorem permits_conserved_drain :
    ∃ s, (listener 1).run (listener 1).start acceptAndDrain = some s ∧ s.sessions = [] ∧ s.phase = .draining 1 ∧
      ∃ as s', (listener 1).run s as = some s' ∧ s'.phase = .finished true := by
  have hrun : (listener 1).run (listener 1).start acceptAndDrain = some ⟨0, [], .draining 1, true⟩ := by decide
  exact ⟨_, hrun, rfl, rfl, (permits_conserved (by decide) ⟨_, hrun⟩).2.2.2 rfl (.inr ⟨1, rfl⟩)⟩

end LogFence
