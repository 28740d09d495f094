import LogFence.Daemon.Dispatch
import LogFence.Daemon.Listener
import LogFence.Daemon.Retry

/-!
# Shutdown (`logfence-daemon/src/main.rs`)

| here | there |
| --- | --- |
| `MainPhase`, `ProcessAction.register`, .. | `handle_signals` (`main.rs:169-237`), then `listener_task.await` (`:159`) |
| `ListenerTask`     | the spawned listener (`:127-148`), on a child of the shutdown token |
| `ProcessAction.forwarded` | a `forward` of a session or of a worker that is over, and may cancel the token (`forwarder.rs:226-234`) |

The listeners are those of `Listener` and `Dispatch`; their token is cancelled with the shutdown token and not
otherwise. The metrics socket ends with the token and holds up nobody.

`main_leaves_iff` compares with the configuration: main gets out of `handle_signals` after every cancellation
just if `forward` cannot cancel. With `dgram_exhausted = "terminate"` the listener drains and ends, and main
waits for a signal that nobody sends.
-/

namespace LogFence

open Rust

/-! ## The code -/

inductive MainPhase where
  /-- With so many of the three handlers registered. -/
  | registering (handlers : Nat)
  /-- At the `select!` over the signals. -/
  | selecting
  /-- Out of `handle_signals`. -/
  | joining
  | exited
deriving DecidableEq, Repr

inductive ListenerTask where
  | stream (l : ListenerState)
  | dgram (d : DispatchState)
deriving DecidableEq

structure ProcessState where
  main : MainPhase
  cancelled : Bool
  listener : ListenerTask
deriving DecidableEq

inductive ProcessAction where
  | register (ok : Bool)
  | sigterm
  | sighup
  | sigusr1
  | stream (a : ListenerAction)
  | dgram (a : DispatchAction)
  | forwarded (i : Nat) (outcomes : List (Except IoError Unit))
  | join

namespace ListenerTask

def cancel : ListenerTask → ListenerTask
  | .stream l => .stream { l with cancelled := true }
  | .dgram d => .dgram { d with cancelled := true }

def finished : ListenerTask → Bool
  | .stream l => match l.phase with
    | .finished _ => true
    | _ => false
  | .dgram d => match d.phase with
    | .finished _ | .crashed => true
    | _ => false

/-- The `i`-th session or worker is where it may call `forward`. -/
def forwards (i : Nat) : ListenerTask → Bool
  | .stream l => l.sessions[i]? == some .running
  | .dgram d => (d.workers[i]?.map Worker.phase) == some .processing

def start (cfg : DaemonConfig) : ListenerTask :=
  match cfg.listenTransport with
  | .unixStream => .stream (listener cfg.maxConnections).start
  | .unixDgram => .dgram (dispatcher cfg.maxConnections cfg.maxMessageSize).start

end ListenerTask

def ProcessState.cancel (s : ProcessState) : ProcessState :=
  { s with cancelled := true, listener := s.listener.cancel }

def processStep (cfg : Config) (s : ProcessState) : ProcessAction → Option ProcessState
  | .register ok =>
    match s.main with
    | .registering n =>
      if ok then some { s with main := if n = 2 then .selecting else .registering (n + 1) }
      else some { s with main := .joining }
    | _ => none
  | .sigterm =>
    match s.main with
    | .selecting => some { s.cancel with main := .joining }
    | _ => none
  | .sighup =>
    match s.main with
    | .selecting => some s
    | _ => none
  | .sigusr1 =>
    match s.main with
    | .selecting => some s
    | _ => none
  | .stream a =>
    match s.listener, a with
    | _, .cancel => none
    | .stream l, a => (listenerStep cfg.daemon.maxConnections l a).map fun l' => { s with listener := .stream l' }
    | _, _ => none
  | .dgram a =>
    match s.listener, a with
    | _, .cancel => none
    | .dgram d, a =>
      (dispatchStep cfg.daemon.maxConnections cfg.daemon.maxMessageSize d a).map fun d' => { s with listener := .dgram d' }
    | _, _ => none
  | .forwarded i outcomes =>
    if s.listener.forwards i then
      if forwardCancels cfg.rsyslog outcomes then some s.cancel else some s
    else none
  | .join =>
    match s.main with
    | .joining => if s.listener.finished then some { s with main := .exited } else none
    | _ => none

def process (cfg : Config) : System ProcessState ProcessAction :=
  ⟨⟨.registering 0, false, .start cfg.daemon⟩, processStep cfg⟩

/-! ## Leaving `handle_signals` -/

def MainPhase.left : MainPhase → Bool
  | .joining | .exited => true
  | _ => false

def ProcessAction.isSignal : ProcessAction → Bool
  | .sigterm | .sighup | .sigusr1 => true
  | _ => false

/-- Main has left `handle_signals`, or can without a signal. -/
def ProcessState.Leaves (cfg : Config) (s : ProcessState) : Prop :=
  s.main.left = true ∨ ∃ a s', a.isSignal = false ∧ processStep cfg s a = some s' ∧ s'.main.left = true

/-- The listener is done, and main waits for a signal. -/
def ProcessState.Stuck (s : ProcessState) : Prop :=
  s.listener.finished = true ∧ s.cancelled = true ∧ s.main = .selecting

/-- What a step does to main and to the token. -/
inductive ProcessSteps (cfg : Config) (s : ProcessState) : ProcessAction → ProcessState → Prop where
  | register {n : Nat} {ok : Bool} {s' : ProcessState} (hm : s.main = .registering n) (hc : s'.cancelled = s.cancelled) :
    ProcessSteps cfg s (.register ok) s'
  | sigterm : ProcessSteps cfg s .sigterm { s.cancel with main := .joining }
  | cancels {i : Nat} {outcomes : List (Except IoError Unit)} (hc : forwardCancels cfg.rsyslog outcomes = true) :
    ProcessSteps cfg s (.forwarded i outcomes) s.cancel
  | exits (hm : s.main = .joining) : ProcessSteps cfg s .join { s with main := .exited }
  | keeps {a : ProcessAction} {s' : ProcessState} (hc : s'.cancelled = s.cancelled) (hm : s'.main = s.main) :
    ProcessSteps cfg s a s'

theorem processSteps_of_step {cfg : Config} {s s' : ProcessState} {a : ProcessAction} (h : processStep cfg s a = some s') :
    ProcessSteps cfg s a s' := by
  cases a with
  | register ok =>
    simp only [processStep] at h
    split at h
    · refine .register ‹_› ?_
      split at h <;> cases h <;> rfl
    · cases h
  | sigterm =>
    simp only [processStep] at h
    split at h <;> cases h
    exact .sigterm
  | sighup | sigusr1 =>
    simp only [processStep] at h
    split at h <;> cases h
    exact .keeps rfl rfl
  | stream a | dgram a =>
    simp only [processStep] at h
    split at h
    · cases h
    · obtain ⟨l', -, rfl⟩ := Option.map_eq_some_iff.1 h
      exact .keeps rfl rfl
    · cases h
  | forwarded i outcomes =>
    simp only [processStep] at h
    split at h
    · split at h <;> cases h
      · exact .cancels ‹_›
      · exact .keeps rfl rfl
    · cases h
  | join =>
    simp only [processStep] at h
    split at h
    · split at h <;> cases h
      exact .exits ‹_›
    · cases h

/-- If `forward` cannot cancel, only SIGTERM does, and main leaves with it. -/
theorem cancelled_left {cfg : Config} (hno : ¬ CanTerminate cfg.rsyslog) {s : ProcessState}
    (h : (process cfg).Reachable s) : s.cancelled = true → s.main.left = true := by
  refine h.inv (I := fun s => s.cancelled = true → s.main.left = true) (by intro hc; cases hc) ?_
  intro s a s' hs hstep hcancelled
  cases processSteps_of_step hstep with
  | register hm hc =>
    have hleft := hs (hc ▸ hcancelled)
    rw [hm] at hleft
    cases hleft
  | sigterm | exits => rfl
  | cancels hc => exact absurd (forwardCancels_iff.1 ⟨_, hc⟩) hno
  | keeps hc hm =>
    rw [hm]
    exact hs (hc ▸ hcancelled)

/-- At the `select!` over the signals, only a signal moves main. -/
theorem selecting_stays {cfg : Config} {s s' : ProcessState} {a : ProcessAction} (hm : s.main = .selecting)
    (ha : a.isSignal = false) (h : processStep cfg s a = some s') : s'.main = .selecting := by
  cases processSteps_of_step h with
  | register hn => rw [hm] at hn; cases hn
  | sigterm => cases ha
  | exits hj => rw [hm] at hj; cases hj
  | cancels => exact hm
  | keeps _ heq => rw [heq, hm]

theorem ProcessState.Stuck.not_leaves {cfg : Config} {s : ProcessState} (h : s.Stuck) : ¬ s.Leaves cfg := by
  obtain ⟨-, -, hm⟩ := h
  rintro (hleft | ⟨a, s', ha, hstep, hleft⟩)
  · rw [hm] at hleft; cases hleft
  · rw [selecting_stays hm ha hstep] at hleft; cases hleft

/-! ## A shutdown nobody sees -/

/-- The listener's own runs are runs of the process. -/
theorem process_stream_run {cfg : Config} {m : MainPhase} {c : Bool} {l l' : ListenerState} {as : List ListenerAction}
    (hno : .cancel ∉ as) (h : (listener cfg.daemon.maxConnections).run l as = some l') :
    (process cfg).run ⟨m, c, .stream l⟩ (as.map .stream) = some ⟨m, c, .stream l'⟩ := by
  refine System.run_map (fun l => (⟨m, c, .stream l⟩ : ProcessState)) ProcessAction.stream ?_ h
  intro a ha s s' hstep
  cases a with
  | cancel => exact absurd ha hno
  | _ => exact Option.map_eq_some_iff.2 ⟨s', hstep, rfl⟩

theorem process_dgram_run {cfg : Config} {m : MainPhase} {c : Bool} {d d' : DispatchState} {as : List DispatchAction}
    (hno : .cancel ∉ as) (h : (dispatcher cfg.daemon.maxConnections cfg.daemon.maxMessageSize).run d as = some d') :
    (process cfg).run ⟨m, c, .dgram d⟩ (as.map .dgram) = some ⟨m, c, .dgram d'⟩ := by
  refine System.run_map (fun d => (⟨m, c, .dgram d⟩ : ProcessState)) ProcessAction.dgram ?_ h
  intro a ha s s' hstep
  cases a with
  | cancel => exact absurd ha hno
  | _ => exact Option.map_eq_some_iff.2 ⟨s', hstep, rfl⟩

/-- A client connects. -/
def connects : List ListenerAction := [.poll, .accept true, .spawn]

/-- The shutdown is seen, the client's session ends, and the drain succeeds. -/
def drains : List ListenerAction := [.poll, .session 0 .returns, .session 0 .dropsPermit, .drain, .drained]

theorem listener_connects (n : Nat) :
    (listener (n + 1)).run (listener (n + 1)).start connects = some ⟨n, [.running], .acquiring, false⟩ := by
  simp [connects, System.run, listener, listenerStep]

theorem listener_drains (n : Nat) :
    (listener (n + 1)).run ⟨n, [.running], .acquiring, true⟩ drains = some ⟨n + 1, [], .finished true, true⟩ := by
  have htotal : drainTotal (n + 1) ≤ n + 1 := by
    unfold drainTotal
    split <;> omega
  simp [drains, System.run, listener, listenerStep, ListenerState.release, Nat.min_eq_right htotal,
    Nat.sub_add_cancel htotal]

/-- A datagram is received and a worker takes it. -/
def receives : List DispatchAction :=
  [.readable true, .recv (some ([], [])), .recv none, .dispatch, .dispatch, .worker 0 .recv]

/-- The shutdown is seen, and the worker is not done in time. -/
def timesOut : List DispatchAction := [.poll, .timeout]

theorem dispatcher_receives (n maxMessageSize : Nat) :
    (dispatcher (n + 1) maxMessageSize).run (dispatcher (n + 1) maxMessageSize).start receives =
      some ⟨.waiting, [], 1 % (n + 1), false, ⟨[], .processing, [([], [])]⟩ :: List.replicate n ⟨[], .idle, []⟩,
        [([], [])], [(0, [], [])]⟩ := by
  simp [receives, System.run, dispatcher, List.replicate_succ, dispatchStep, recvFrom, workerChannelCap,
    DispatchState.enqueue, Worker.step]

theorem dispatcher_timesOut (n maxMessageSize : Nat) {d : DispatchState} (hp : d.phase = .waiting) {w : Worker}
    {ws : List Worker} (hw : d.workers = w :: ws) (hbusy : w.phase = .processing) :
    ∃ d', (dispatcher n maxMessageSize).run { d with cancelled := true } timesOut = some d' ∧ d'.phase = .finished false := by
  simp [timesOut, System.run, dispatcher, dispatchStep, hp, DispatchState.leave, hw, Worker.ended, hbusy]

theorem process_registers {cfg : Config} :
    (process cfg).run (process cfg).start [.register true, .register true, .register true] =
      some ⟨.selecting, false, .start cfg.daemon⟩ := by
  simp [System.run, process, processStep]

/-- A `forward` that uses up its attempts cancels the token. -/
theorem process_exhausts {cfg : Config} {outcomes : List (Except IoError Unit)}
    (hcancels : forwardCancels cfg.rsyslog outcomes = true) {s : ProcessState} (hf : s.listener.forwards 0 = true) :
    (process cfg).run s [.forwarded 0 outcomes] = some s.cancel := by
  simp [System.run, process, processStep, hf, hcancels]

/-- A client connects, its first message finds the receiver's buffer full, and the listener shuts down. -/
def exhaustedStream (outcomes : List (Except IoError Unit)) : List ProcessAction :=
  [.register true, .register true, .register true] ++
    (connects.map .stream ++ ([.forwarded 0 outcomes] ++ drains.map .stream))

/-- The same with a datagram. -/
def exhaustedDgram (outcomes : List (Except IoError Unit)) : List ProcessAction :=
  [.register true, .register true, .register true] ++
    (receives.map .dgram ++ ([.forwarded 0 outcomes] ++ timesOut.map .dgram))

section
variable {cfg : Config} {n : Nat} (hn : cfg.daemon.maxConnections = n + 1) {outcomes : List (Except IoError Unit)}
  (hcancels : forwardCancels cfg.rsyslog outcomes = true)
include hn hcancels

theorem exhaustedStream_stuck (hl : cfg.daemon.listenTransport = .unixStream) :
    ∃ s, (process cfg).run (process cfg).start (exhaustedStream outcomes) = some s ∧ s.Stuck := by
  have hstart : ListenerTask.start cfg.daemon = .stream (listener (n + 1)).start := by rw [ListenerTask.start, hl, hn]
  have hconnects := listener_connects n
  have hdrains := listener_drains n
  rw [← hn] at hconnects hdrains
  refine ⟨⟨.selecting, true, .stream ⟨cfg.daemon.maxConnections, [], .finished true, true⟩⟩, ?_, rfl, rfl, rfl⟩
  rw [exhaustedStream, System.run_append process_registers, hstart, ← hn,
    System.run_append (process_stream_run (by decide) hconnects), System.run_append (process_exhausts hcancels rfl)]
  exact process_stream_run (by decide) hdrains

theorem exhaustedDgram_stuck (hl : cfg.daemon.listenTransport = .unixDgram) :
    ∃ s, (process cfg).run (process cfg).start (exhaustedDgram outcomes) = some s ∧ s.Stuck := by
  have hstart : ListenerTask.start cfg.daemon = .dgram (dispatcher (n + 1) cfg.daemon.maxMessageSize).start := by
    rw [ListenerTask.start, hl, hn]
  have hreceives := dispatcher_receives n cfg.daemon.maxMessageSize
  rw [← hn] at hreceives
  obtain ⟨d', hd', hfin⟩ := dispatcher_timesOut cfg.daemon.maxConnections cfg.daemon.maxMessageSize
    (d := ⟨.waiting, [], 1 % cfg.daemon.maxConnections, false,
      ⟨[], .processing, [([], [])]⟩ :: List.replicate n ⟨[], .idle, []⟩, [([], [])], [(0, [], [])]⟩) rfl rfl rfl
  refine ⟨⟨.selecting, true, .dgram d'⟩, ?_, by simp [ListenerTask.finished, hfin], rfl, rfl⟩
  rw [exhaustedDgram, System.run_append process_registers, hstart, ← hn,
    System.run_append (process_dgram_run (by simp [receives]) hreceives),
    System.run_append (process_exhausts hcancels rfl)]
  exact process_dgram_run (by simp [timesOut]) hd'

end

theorem stuck_reachable {cfg : Config} (hcfg : cfg.validate = .ok ()) (hcan : CanTerminate cfg.rsyslog) :
    ∃ s, (process cfg).Reachable s ∧ s.Stuck := by
  obtain ⟨outcomes, hcancels⟩ := forwardCancels_iff.2 hcan
  obtain ⟨n, hn⟩ := Nat.exists_eq_add_of_le' (Config.validate_eq_ok.1 hcfg).2.1
  cases hl : cfg.daemon.listenTransport with
  | unixStream =>
    obtain ⟨s, hs, hstuck⟩ := exhaustedStream_stuck hn hcancels hl
    exact ⟨s, ⟨_, hs⟩, hstuck⟩
  | unixDgram =>
    obtain ⟨s, hs, hstuck⟩ := exhaustedDgram_stuck hn hcancels hl
    exact ⟨s, ⟨_, hs⟩, hstuck⟩

/-- **Main leaves `handle_signals` after every cancellation just if `forward` cannot cancel**, and only then
    is it never left waiting for signals with the listener done. -/
theorem main_leaves_iff {cfg : Config} (hcfg : cfg.validate = .ok ()) :
    ((∀ s, (process cfg).Reachable s → s.cancelled = true → s.Leaves cfg) ↔ ¬ CanTerminate cfg.rsyslog) ∧
      ((∀ s, (process cfg).Reachable s → ¬ s.Stuck) ↔ ¬ CanTerminate cfg.rsyslog) := by
  refine ⟨⟨fun hall hcan => ?_, fun hno s hs hc => ?_⟩, ⟨fun hall hcan => ?_, fun hno s hs hstuck => ?_⟩⟩
  · obtain ⟨s, hs, hstuck⟩ := stuck_reachable hcfg hcan
    exact hstuck.not_leaves (hall s hs hstuck.2.1)
  · exact .inl (cancelled_left hno hs hc)
  · obtain ⟨s, hs, hstuck⟩ := stuck_reachable hcfg hcan
    exact hall s hs hstuck
  · have hleft := cancelled_left hno hs hstuck.2.1
    rw [hstuck.2.2] at hleft
    cases hleft

/-- A configuration that differs from the defaults in what is done when the attempts are used up. -/
def terminating (exhausted : DgramExhausted) : Config :=
  ⟨⟨"0660".toList, 256, 65536, .unixStream, .octetCount, .original⟩, ⟨.unixDgram, 4, exhausted⟩,
    ⟨.strict, [], none, .empty, .never, .never, false⟩⟩

theorem main_leaves_default : (terminating .drop).validate = .ok () ∧
    ∀ s, (process (terminating .drop)).Reachable s → s.cancelled = true → s.Leaves (terminating .drop) := by
  have hcfg : (terminating .drop).validate = .ok () := by decide
  exact ⟨hcfg, (main_leaves_iff hcfg).1.2 fun h => by cases h.2.1⟩

/-- Four full buffers with `dgram_exhausted = "terminate"`: the listener has drained and ended, and main is
    still waiting for a signal. -/
theorem main_waits_forever :
    ∃ s, (process (terminating .terminate)).run (process (terminating .terminate)).start
        (exhaustedStream (List.replicate 4 (.error bufferFull))) = some s ∧
      s = ⟨.selecting, true, .stream ⟨256, [], .finished true, true⟩⟩ ∧ ¬ s.Leaves (terminating .terminate) := by
  refine ⟨_, ?_, rfl, ProcessState.Stuck.not_leaves ⟨rfl, rfl, rfl⟩⟩
  decide

end LogFence
