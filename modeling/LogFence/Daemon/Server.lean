import LogFence.Daemon.Drain
import LogFence.Daemon.Gateway
import LogFence.Daemon.Listener

/-!
# The listeners with their tasks

`listener` and `dispatcher` say when a task starts and when it is waited for, `gateway` what the tasks do. Here each
listener runs with its tasks.

| here | there |
| --- | --- |
| `sessionConfig`     | the `SessionConfig` of a connection (`listener.rs:126-132`), and that of the workers (`datagram_listener.rs:149-155`) |
| `serverStep`        | `Listener::run` (`listener.rs:83-151`) and the tasks it spawns (`:137-141`) |
| `ServerAction.ends` | `run_session` has returned or unwinds: its loop is over and its last call has returned |
| `workersStep`       | `DatagramListener::run` (`datagram_listener.rs:132-249`) and its `run_worker`s (`:257-271`) |

A task moves only while it runs. A worker that takes a datagram off its channel is in `process_datagram` until the call
that leads to has returned, or until it panics.

* `sessions_drained`, `workers_drained` — what is behind the daemon when a shutdown has not timed out.
-/

namespace LogFence

open Rust

/-! ## The code -/

/-- A connection's, with the path of its client as `peer`. -/
def sessionConfig (cfg : DaemonConfig) (localHostname peer : Str) : SessionConfig :=
  ⟨cfg.framing, cfg.maxMessageSize, cfg.sender, localHostname, peer⟩

def Feed.unwinds : Feed → Bool
  | .stream _ loop => loop.place == .panicked
  | .worker _ _ alive => !alive

/-- It reads no more, and no call is under way. -/
def Lane.isOver (l : Lane) : Bool := l.feed.done && l.task.phase.isIdle && l.task.calls.isEmpty

def Lane.ends (l : Lane) : SessionEvent → Bool
  | .returns => l.isOver && !l.feed.unwinds
  | .panics => l.isOver && l.feed.unwinds
  | .dropsPermit => true

structure ServerState where
  loop : ListenerState
  tasks : GatewayState
  /-- The lane of each session of the loop. -/
  lanes : List Nat

inductive ServerAction where
  /-- The loop or the token; a session starts and ends with the next two. -/
  | listener (a : ListenerAction)
  | spawn (peer : Str)
  | ends (j : Nat) (e : SessionEvent)
  /-- A session moves. -/
  | session (j : Nat) (a : LaneAction)
  | reload (host : Host)

section
variable (env : Env) (configPath : Str) (cfg : Config) (localHostname : Str)

def serverStep (s : ServerState) : ServerAction → Option ServerState
  | .listener a =>
    match a with
    | .spawn | .session _ _ => none
    | a => (listenerStep cfg.daemon.maxConnections s.loop a).map fun loop => { s with loop := loop }
  | .spawn peer =>
    match listenerStep cfg.daemon.maxConnections s.loop .spawn,
      gatewayStep env configPath cfg.rsyslog s.tasks (.session (sessionConfig cfg.daemon localHostname peer)) with
    | some loop, some tasks => some ⟨loop, tasks, s.lanes ++ [s.tasks.lanes.length]⟩
    | _, _ => none
  | .ends j e =>
    match s.lanes[j]?.bind fun i => s.tasks.lanes[i]? with
    | none => none
    | some l =>
      if l.ends e then
        (listenerStep cfg.daemon.maxConnections s.loop (.session j e)).map fun loop =>
          { s with loop := loop, lanes := if e = .dropsPermit then s.lanes.eraseIdx j else s.lanes }
      else none
  | .session j a =>
    match s.loop.sessions[j]?, s.lanes[j]? with
    | some .running, some i =>
      (gatewayStep env configPath cfg.rsyslog s.tasks (.lane i a)).map fun tasks => { s with tasks := tasks }
    | _, _ => none
  | .reload host =>
    (gatewayStep env configPath cfg.rsyslog s.tasks (.reload host)).map fun tasks => { s with tasks := tasks }

def server (validator : Validator) : System ServerState ServerAction :=
  ⟨⟨(listener cfg.daemon.maxConnections).start, (gateway env configPath cfg.rsyslog validator).start, []⟩,
    serverStep env configPath cfg localHostname⟩

end

/-- Worker `i` runs lane `i`. -/
structure WorkersState where
  loop : DispatchState
  tasks : GatewayState

inductive WorkersAction where
  /-- The loop or the token. -/
  | dispatch (a : DispatchAction)
  | worker (i : Nat) (e : WorkerEvent)
  /-- A worker moves, in `process_datagram`. -/
  | task (i : Nat) (a : LaneAction)
  | reload (host : Host)

section
variable (env : Env) (configPath : Str) (cfg : Config) (localHostname : Str)

def workersStep (s : WorkersState) : WorkersAction → Option WorkersState
  | .dispatch a =>
    match a with
    | .worker _ _ => none
    | a =>
      (dispatchStep cfg.daemon.maxConnections cfg.daemon.maxMessageSize s.loop a).map fun loop => { s with loop := loop }
  | .worker i e =>
    match s.loop.workers[i]?, s.tasks.lanes[i]?,
      dispatchStep cfg.daemon.maxConnections cfg.daemon.maxMessageSize s.loop (.worker i e) with
    | some w, some l, some loop =>
      match e with
      | .recv =>
        match w.queue with
        | [] => some { s with loop := loop }
        | item :: _ =>
          (gatewayStep env configPath cfg.rsyslog s.tasks (.lane i (.input (.recv item)))).map fun tasks => ⟨loop, tasks⟩
      | .done => if l.isOver && !l.feed.unwinds then some { s with loop := loop } else none
      | .panics => if l.isOver && l.feed.unwinds then some { s with loop := loop } else none
    | _, _, _ => none
  | .task i a =>
    match a with
    | .input _ => none
    | a =>
      if s.loop.workers[i]?.any fun w => w.phase = .processing then
        (gatewayStep env configPath cfg.rsyslog s.tasks (.lane i a)).map fun tasks => { s with tasks := tasks }
      else none
  | .reload host =>
    (gatewayStep env configPath cfg.rsyslog s.tasks (.reload host)).map fun tasks => { s with tasks := tasks }

/-- `peer` is overwritten for each datagram. -/
def baseConfig : SessionConfig := sessionConfig cfg.daemon localHostname anonymous

def workers (validator : Validator) : System WorkersState WorkersAction :=
  ⟨⟨(dispatcher cfg.daemon.maxConnections cfg.daemon.maxMessageSize).start,
      { (gateway env configPath cfg.rsyslog validator).start with
        lanes := List.replicate cfg.daemon.maxConnections (.start cfg.rsyslog (.worker (baseConfig cfg localHostname) [] true)) }⟩,
    workersStep env configPath cfg⟩

end

/-! ## The sessions of the listener -/

/-- Where a shutdown has waited for all permits, no session is left. -/
theorem finished_quiet {maxConnections : Nat} (hmax : maxConnections < 2 ^ 32) {s : ListenerState}
    (h : (listener maxConnections).Reachable s) : s.phase = .finished true → s.sessions = [] := by
  have hboth : s.Permits maxConnections ∧ (s.phase = .finished true → s.sessions = []) := by
    refine h.inv (I := fun s => s.Permits maxConnections ∧ (s.phase = .finished true → s.sessions = []))
      ⟨listener_permits ⟨[], rfl⟩, fun _ => rfl⟩ ?_
    rintro s a s' ⟨hpermits, hquiet⟩ hstep
    refine ⟨hpermits.step hstep, ?_⟩
    cases listenerSteps_of_step hstep with
    | cancel => exact hquiet
    | breaks | breaksWith | acquire | wait | acquired | accepted | refused | spawn | drain | timeout =>
      intro hp
      cases hp
    | drained hp =>
      intro _
      show s.sessions = []
      exact drained_quiet hmax hpermits hstep
    | ends p hs =>
      intro hp
      rw [hquiet hp] at hs
      cases hs
    | dropsPermit hs =>
      intro hp
      unfold ListenerState.release at hp
      split at hp
      · cases hp
      · split at hp
        · cases hp
        · rw [hquiet hp] at hs
          cases hs
      · rw [hquiet hp] at hs
        cases hs
  exact hboth.2

theorem sessions_of_step {maxConnections : Nat} {s s' : ListenerState} {a : ListenerAction}
    (h : listenerStep maxConnections s a = some s') (hspawn : a ≠ .spawn) (hsession : ∀ j e, a ≠ .session j e) :
    s'.sessions = s.sessions := by
  cases listenerSteps_of_step h with
  | spawn => exact absurd rfl hspawn
  | ends | dropsPermit => exact absurd rfl (hsession _ _)
  | _ => rfl

theorem of_getElem?_concat {α : Type} {l : List α} {a b : α} {j : Nat} (h : (l ++ [b])[j]? = some a) :
    l[j]? = some a ∨ j = l.length ∧ a = b := by
  rcases Nat.lt_trichotomy j l.length with hlt | rfl | hgt
  · rw [List.getElem?_append_left hlt] at h
    exact .inl h
  · rw [List.getElem?_concat_length] at h
    exact .inr ⟨rfl, (Option.some.inj h).symm⟩
  · rw [List.getElem?_eq_none (by simp; omega)] at h
    cases h

section
variable {env : Env} {configPath : Str} {rsyslog : RsyslogConfig} {g g' : GatewayState}

theorem lanes_of_lane {i : Nat} {a : LaneAction} (h : gatewayStep env configPath rsyslog g (.lane i a) = some g') :
    ∃ l r, g.lanes[i]? = some l ∧ l.step env rsyslog g.watch a = some r ∧ g'.lanes = g.lanes.set i r.1 := by
  simp only [gatewayStep, Option.bind_eq_some_iff, Option.map_eq_some_iff] at h
  obtain ⟨l, hl, r, hr, rfl⟩ := h
  exact ⟨l, r, hl, hr, rfl⟩

theorem lanes_of_reload {host : Host} (h : gatewayStep env configPath rsyslog g (.reload host) = some g') :
    g'.lanes = g.lanes := by
  simp only [gatewayStep] at h
  split at h <;> cases h <;> rfl

end

/-- What the loop and its sessions have in common. -/
structure ServerState.Ok (env : Env) (configPath : Str) (cfg : Config) (validator : Validator) (s : ServerState) : Prop where
  tasks : (gateway env configPath cfg.rsyslog validator).Reachable s.tasks
  loop : (listener cfg.daemon.maxConnections).Reachable s.loop
  paired : s.lanes.length = s.loop.sessions.length
  distinct : s.lanes.Nodup
  present : ∀ i ∈ s.lanes, i < s.tasks.lanes.length
  ended : ∀ (j i : Nat) (p : SessionPhase) l, s.lanes[j]? = some i → s.loop.sessions[j]? = some p → p ≠ .running →
    s.tasks.lanes[i]? = some l → l.isOver = true
  /-- A lane that is not one of a session of the loop is over. -/
  gone : ∀ (i : Nat) l, s.tasks.lanes[i]? = some l → i ∈ s.lanes ∨ l.isOver = true

namespace ServerState

variable {env : Env} {configPath : Str} {cfg : Config} {localHostname : Str} {validator : Validator} {s : ServerState}

/-- Nothing but the loop has moved, and no session of it. -/
theorem Ok.of_loop (h : s.Ok env configPath cfg validator) {a : ListenerAction} {loop : ListenerState}
    (hl : listenerStep cfg.daemon.maxConnections s.loop a = some loop) (hspawn : a ≠ .spawn)
    (hsession : ∀ j e, a ≠ .session j e) : Ok env configPath cfg validator { s with loop := loop } := by
  have hsame := sessions_of_step hl hspawn hsession
  exact ⟨h.tasks, h.loop.step hl, hsame ▸ h.paired, h.distinct, h.present, by rw [hsame]; exact h.ended, h.gone⟩

theorem Ok.spawn (h : s.Ok env configPath cfg validator) {loop : ListenerState}
    (hl : listenerStep cfg.daemon.maxConnections s.loop .spawn = some loop) {tasks : GatewayState}
    {session : SessionConfig} (hg : gatewayStep env configPath cfg.rsyslog s.tasks (.session session) = some tasks) :
    Ok env configPath cfg validator ⟨loop, tasks, s.lanes ++ [s.tasks.lanes.length]⟩ := by
  have htasks : (gateway env configPath cfg.rsyslog validator).Reachable tasks := h.tasks.step (a := .session session) hg
  have hloop : (listener cfg.daemon.maxConnections).Reachable loop := h.loop.step (a := .spawn) hl
  have hsessions : loop.sessions = s.loop.sessions ++ [.running] := by
    cases listenerSteps_of_step hl with
    | spawn => rfl
  have hlanes : tasks.lanes = s.tasks.lanes ++ [.start cfg.rsyslog (.stream session .start)] := by
    cases hg
    rfl
  refine ⟨htasks, hloop, ?_, ?_, ?_, ?_, ?_⟩
  · simp only [hsessions, List.length_append, h.paired, List.length_singleton]
  · rw [List.nodup_append]
    refine ⟨h.distinct, by simp, fun i hi k hk => ?_⟩
    rw [List.mem_singleton.1 hk]
    exact Nat.ne_of_lt (h.present i hi)
  · intro i hi
    simp only [hlanes, List.length_append, List.length_singleton]
    rcases List.mem_append.1 hi with hi | hi
    · exact Nat.lt_succ_of_lt (h.present i hi)
    · rw [List.mem_singleton.1 hi]
      exact Nat.lt_succ_self _
  · intro j i p l hi hp hne hl
    simp only [hsessions] at hp
    rcases of_getElem?_concat hp with hp | ⟨-, rfl⟩
    · rcases of_getElem?_concat hi with hi | ⟨rfl, -⟩
      · rw [hlanes, List.getElem?_append_left (h.present i (List.mem_of_getElem? hi))] at hl
        exact h.ended j i p l hi hp hne hl
      · rw [h.paired, List.getElem?_length] at hp
        cases hp
    · exact absurd rfl hne
  · intro i l hl
    simp only [hlanes] at hl
    rcases of_getElem?_concat hl with hl | ⟨rfl, -⟩
    · exact (h.gone i l hl).imp_left (List.mem_append_left _)
    · exact .inl (by simp)

/-- A session that still runs moves its own lane. -/
theorem Ok.session (h : s.Ok env configPath cfg validator) {j i : Nat} (hj : s.loop.sessions[j]? = some .running)
    (hi : s.lanes[j]? = some i) {a : LaneAction} {tasks : GatewayState}
    (hg : gatewayStep env configPath cfg.rsyslog s.tasks (.lane i a) = some tasks) :
    Ok env configPath cfg validator { s with tasks := tasks } := by
  have htasks : (gateway env configPath cfg.rsyslog validator).Reachable tasks := h.tasks.step (a := .lane i a) hg
  obtain ⟨_, r, -, -, hlanes⟩ := lanes_of_lane hg
  have hother : ∀ k l, k ≠ i → tasks.lanes[k]? = some l → s.tasks.lanes[k]? = some l := by
    intro k l hk hl
    rwa [hlanes, List.getElem?_set_ne hk.symm] at hl
  refine ⟨htasks, h.loop, h.paired, h.distinct, ?_, ?_, ?_⟩
  · simp only [hlanes, List.length_set]
    exact h.present
  · intro j' i' p l hi' hp hne hl
    have hjj : j' ≠ j := by
      rintro rfl
      rw [hj] at hp
      exact hne (Option.some.inj hp).symm
    have hii : i' ≠ i := by
      rintro rfl
      obtain ⟨hlt, heq⟩ := List.getElem?_eq_some_iff.1 hi
      obtain ⟨hlt', heq'⟩ := List.getElem?_eq_some_iff.1 hi'
      exact hjj (h.distinct.getElem_inj_iff.1 (heq'.trans heq.symm))
    exact h.ended j' i' p l hi' hp hne (hother i' l hii hl)
  · intro k l hl
    by_cases hk : k = i
    · exact .inl (hk ▸ List.mem_of_getElem? hi)
    · exact h.gone k l (hother k l hk hl)

theorem Ok.reload (h : s.Ok env configPath cfg validator) {host : Host} {tasks : GatewayState}
    (hg : gatewayStep env configPath cfg.rsyslog s.tasks (.reload host) = some tasks) :
    Ok env configPath cfg validator { s with tasks := tasks } := by
  have htasks : (gateway env configPath cfg.rsyslog validator).Reachable tasks := h.tasks.step (a := .reload host) hg
  have hsame := lanes_of_reload hg
  exact ⟨htasks, h.loop, h.paired, h.distinct, by rw [hsame]; exact h.present, by rw [hsame]; exact h.ended,
    by rw [hsame]; exact h.gone⟩

/-- A session leaves `run_session`. -/
theorem Ok.leaves (h : s.Ok env configPath cfg validator) {j i : Nat} {l : Lane} (hi : s.lanes[j]? = some i)
    (hl : s.tasks.lanes[i]? = some l) (hover : l.isOver = true) {p : SessionPhase}
    (hloop : (listener cfg.daemon.maxConnections).Reachable { s.loop with sessions := s.loop.sessions.set j p }) :
    Ok env configPath cfg validator { s with loop := { s.loop with sessions := s.loop.sessions.set j p } } := by
  refine ⟨h.tasks, hloop, by rw [List.length_set]; exact h.paired, h.distinct, h.present, ?_, h.gone⟩
  intro j' i' p' l' hi' hp' hne hl'
  by_cases hj : j' = j
  · subst hj
    rw [hi] at hi'
    cases hi'
    rw [hl] at hl'
    cases hl'
    exact hover
  · rw [List.getElem?_set_ne (Ne.symm hj)] at hp'
    exact h.ended j' i' p' l' hi' hp' hne hl'

/-- The permit of a session that has left is dropped. -/
theorem Ok.drops (h : s.Ok env configPath cfg validator) {j : Nat} {p : SessionPhase}
    (hp : s.loop.sessions[j]? = some p) (hne : p ≠ .running) {loop : ListenerState}
    (hloop : (listener cfg.daemon.maxConnections).Reachable loop) (hsessions : loop.sessions = s.loop.sessions.eraseIdx j) :
    Ok env configPath cfg validator { s with loop := loop, lanes := s.lanes.eraseIdx j } := by
  refine ⟨h.tasks, hloop, ?_, h.distinct.sublist (List.eraseIdx_sublist ..), fun i hi => h.present i (List.mem_of_mem_eraseIdx hi),
    ?_, ?_⟩
  · rw [hsessions, List.length_eraseIdx, List.length_eraseIdx, h.paired]
  · intro j' i' p' l' hi' hp' hne' hl'
    rw [hsessions, List.getElem?_eraseIdx] at hp'
    rw [List.getElem?_eraseIdx] at hi'
    split at hi'
    · rename_i hlt
      rw [if_pos hlt] at hp'
      exact h.ended j' i' p' l' hi' hp' hne' hl'
    · rename_i hge
      rw [if_neg hge] at hp'
      exact h.ended (j' + 1) i' p' l' hi' hp' hne' hl'
  · intro k l hl
    rcases h.gone k l hl with hk | hover
    · obtain ⟨j', hj', rfl⟩ := List.getElem_of_mem hk
      by_cases hjj : j' = j
      · subst hjj
        exact .inr (h.ended j' _ p l (List.getElem?_eq_getElem hj') hp hne hl)
      · exact .inl (List.mem_eraseIdx_iff_getElem.2 ⟨j', hj', hjj, rfl⟩)
    · exact .inr hover

theorem Ok.step (h : s.Ok env configPath cfg validator) {a : ServerAction} {s' : ServerState}
    (hstep : serverStep env configPath cfg localHostname s a = some s') : s'.Ok env configPath cfg validator := by
  cases a with
  | listener a =>
    simp only [serverStep] at hstep
    split at hstep
    · cases hstep
    · cases hstep
    · rename_i hspawn hsession
      obtain ⟨loop, hl, rfl⟩ := Option.map_eq_some_iff.1 hstep
      exact h.of_loop hl hspawn hsession
  | spawn peer =>
    simp only [serverStep] at hstep
    split at hstep
    · rename_i loop tasks hl hg
      cases hstep
      exact h.spawn hl hg
    · cases hstep
  | ends j e =>
    simp only [serverStep] at hstep
    split at hstep
    · cases hstep
    · rename_i l hlane
      obtain ⟨i, hi, hl⟩ := Option.bind_eq_some_iff.1 hlane
      split at hstep
      · rename_i hends
        obtain ⟨loop, hloop, rfl⟩ := Option.map_eq_some_iff.1 hstep
        have hreach : (LogFence.listener cfg.daemon.maxConnections).Reachable loop := h.loop.step (a := .session j e) hloop
        simp only [listenerStep] at hloop
        split at hloop
        · cases hloop
          exact h.leaves hi hl (Bool.and_eq_true_iff.1 hends).1 hreach
        · cases hloop
          exact h.leaves hi hl (Bool.and_eq_true_iff.1 hends).1 hreach
        · rename_i hp
          cases hloop
          exact h.drops hp (by simp) hreach (by simp)
        · rename_i hp
          cases hloop
          exact h.drops hp (by simp) hreach (by simp)
        · cases hloop
      · cases hstep
  | session j a =>
    simp only [serverStep] at hstep
    split at hstep
    · rename_i i hj hi
      obtain ⟨tasks, hg, rfl⟩ := Option.map_eq_some_iff.1 hstep
      exact h.session hj hi hg
    · cases hstep
  | reload host =>
    obtain ⟨tasks, hg, rfl⟩ := Option.map_eq_some_iff.1 hstep
    exact h.reload hg

end ServerState

theorem server_ok {env : Env} {configPath : Str} {cfg : Config} {localHostname : Str} {validator : Validator}
    {s : ServerState} (h : (server env configPath cfg localHostname validator).Reachable s) :
    s.Ok env configPath cfg validator := by
  refine h.inv (I := fun s => s.Ok env configPath cfg validator) ?_ fun _ _ _ hs hstep => hs.step hstep
  exact ⟨⟨[], rfl⟩, ⟨[], rfl⟩, rfl, .nil, (by intro i hi; cases hi), (by intro j i p l hi; cases hi),
    (by intro i l hl; cases hl)⟩

/-! ## Nothing under way -/

/-- Every call of every task has been answered, `forward` has returned for each answer, and the counters balance. -/
structure Settled (env : Env) (g : GatewayState) : Prop where
  answered : ∀ l ∈ g.lanes, List.Forall₂ (Answers env g.watch) (l.feed.allCalls env) l.sent ∧
    l.out.returned.length = l.sent.length
  balanced : g.metrics.received = g.metrics.forwarded + g.metrics.dropped + g.metrics.errors

theorem Lane.isOver_eq_true (l : Lane) :
    l.isOver = true ↔ l.feed.done = true ∧ l.task.phase = .idle ∧ l.task.calls = [] := by
  simp [isOver, Phase.isIdle_eq_true, and_assoc]

theorem Lane.Ok.answers_all {env : Env} {rsyslog : RsyslogConfig} {w : Watch Validator} {l : Lane} (h : l.Ok env rsyslog w)
    (hover : l.isOver = true) : List.Forall₂ (Answers env w) (l.feed.allCalls env) l.sent ∧
      l.out.returned.length = l.sent.length := by
  obtain ⟨hdone, hidle, hcalls⟩ := l.isOver_eq_true.1 hover
  obtain ⟨answered, hmade, hans⟩ := h.answered
  have hall := h.calls
  rw [hcalls, List.append_nil, hmade, hidle] at hall
  refine ⟨?_, h.out.busy_eq_false.1 (h.quiet (by rw [hidle]; rfl))⟩
  rw [← h.feed.calls_extend.2 hdone, ← hall]
  simpa [Phase.unanswered] using hans

/-- What was received is forwarded, dropped, failed or in flight. -/
theorem gateway_balanced {env : Env} {rsyslog : RsyslogConfig} {g : GatewayState} (h : g.Ok env rsyslog) :
    g.metrics.received = g.metrics.forwarded + g.metrics.dropped + g.metrics.errors +
      UInt64.ofNat (g.lanes.countP fun l => l.task.phase.inFlight) := by
  have hsum : g.count .received = g.count .forwarded + g.count .dropped + g.count .errors +
      g.lanes.countP fun l => l.task.phase.inFlight := by
    have htasks : ∀ t ∈ g.lanes.map Lane.task, t.Ok env g.watch := by
      intro t ht
      obtain ⟨l, hl, rfl⟩ := List.mem_map.1 ht
      exact (h.lanes l hl).task
    simpa [GatewayState.count, List.map_map, List.countP_map, Function.comp_def] using tasks_balanced _ htasks
  have hmetrics : ∀ c, UInt64.ofNat (g.count c) = g.metrics.get c := fun c => (h.counted c).symm
  calc g.metrics.received = UInt64.ofNat (g.count .received) := h.counted .received
    _ = UInt64.ofNat (g.count .forwarded) + UInt64.ofNat (g.count .dropped) + UInt64.ofNat (g.count .errors) +
        UInt64.ofNat (g.lanes.countP fun l => l.task.phase.inFlight) := by
      rw [hsum, UInt64.ofNat_add, UInt64.ofNat_add, UInt64.ofNat_add]
    _ = _ := by rw [hmetrics, hmetrics, hmetrics]; rfl

theorem settled_of_over {env : Env} {rsyslog : RsyslogConfig} {g : GatewayState} (h : g.Ok env rsyslog)
    (hover : ∀ l ∈ g.lanes, l.isOver = true) : Settled env g := by
  refine ⟨fun l hl => (h.lanes l hl).answers_all (hover l hl), ?_⟩
  have hnone : (g.lanes.countP fun l => l.task.phase.inFlight) = 0 := by
    refine List.countP_eq_zero.2 fun l hl => ?_
    rw [(l.isOver_eq_true.1 (hover l hl)).2.1]
    decide
  rw [gateway_balanced h, hnone]
  exact UInt64.add_zero _

/-- No more elements have a property than there are numbers, if those that have it have their places among them. -/
theorem countP_le_of_mem {α : Type} (p : α → Bool) {l : List α} {is : List Nat}
    (h : ∀ (i : Nat) x, l[i]? = some x → p x = true → i ∈ is) : l.countP p ≤ is.length := by
  induction l generalizing is with
  | nil => exact Nat.zero_le _
  | cons x l ih =>
    have hrest : l.countP p ≤ ((is.erase 0).map Nat.pred).length := by
      refine ih fun i y hy hp => ?_
      have hi : i + 1 ∈ is := h (i + 1) y (by simpa using hy) hp
      exact List.mem_map.2 ⟨i + 1, (List.mem_erase_of_ne (Nat.succ_ne_zero i)).2 hi, rfl⟩
    rw [List.length_map] at hrest
    cases hp : p x with
    | false =>
      rw [List.countP_cons_of_neg (by simp [hp])]
      exact hrest.trans List.length_erase_le
    | true =>
      have h0 : 0 ∈ is := h 0 x rfl hp
      rw [List.countP_cons_of_pos hp]
      rw [List.length_erase_of_mem h0] at hrest
      have := List.length_pos_of_mem h0
      omega

/-- One connection, or worker, at a time, and datagram output. -/
def sampleDaemonConfig : Config :=
  ⟨⟨"0660".toList, 1, 64, .unixStream, .newline, .original⟩, ⟨.unixDgram, 4, .drop⟩,
    ⟨.strict, [], none, .empty, .never, .never, false⟩⟩

/-- What a task does with a message that is accepted and sent. -/
def forwardedOnce : List LaneAction :=
  List.replicate 5 .task ++ [.on (.attempt (.ok ())), .task, .task]

def sampleServer : System ServerState ServerAction :=
  server sampleEnv "conf".toList sampleDaemonConfig "gw".toList (Validator.new .strict [])

/-- A whole session with one message. -/
def oneMessage : List LaneAction :=
  [.input (.loop .decode), .input (.loop (.read (utf8 "<13>1 - - - - - - \x7b\x7d\n".toList))), .input (.loop .decode)] ++
  forwardedOnce ++ [.input (.loop .decode), .input (.loop .eof), .input (.loop .decode)]

/-- It is waited for. -/
def sessionThenShutdown : List ServerAction :=
  [.listener .poll, .listener (.accept true), .spawn anonymous] ++ oneMessage.map (.session 0) ++
  [.listener .cancel, .listener .poll, .listener .drain, .ends 0 .returns, .ends 0 .dropsPermit, .listener .drained]

/-- Where a shutdown has joined the workers, all have ended. -/
theorem finished_ended {numWorkers maxMessageSize : Nat} {s : DispatchState}
    (h : (dispatcher numWorkers maxMessageSize).Reachable s) : s.phase = .finished true → ∀ w ∈ s.workers, w.ended = true := by
  refine h.inv (I := fun s => s.phase = .finished true → ∀ w ∈ s.workers, w.ended = true) (by intro hp; cases hp) ?_
  intro s a s' hs hstep
  cases dispatchSteps_of_step hstep with
  | cancel | unreadable => exact hs
  | breaks | readable | received | dispatched | full | closed | crashed | timeout =>
    intro hp
    cases hp
  | recv _ _ hq =>
    intro hp
    rw [show s.phase = _ from hp] at hq
    cases hq
  | trySend hq =>
    intro hp
    rw [show s.phase = _ from hp] at hq
    cases hq
  | send =>
    intro hp
    cases hp
  | worker hw hwork =>
    intro hp w hmem
    -- a worker that has ended does not move
    rename_i i e v v'
    have hended := hs hp v (List.mem_of_getElem? hw)
    simp only [Worker.ended, Bool.or_eq_true, decide_eq_true_eq] at hended
    cases e <;> rcases hended with hv | hv <;> simp [Worker.step, hv] at hwork
  | join _ hall => exact fun _ => hall

/-- What the loop does to the workers: it enqueues, or it aborts those that have not ended. -/
theorem workers_of_step {numWorkers maxMessageSize : Nat} {s s' : DispatchState} {a : DispatchAction}
    (h : dispatchStep numWorkers maxMessageSize s a = some s') (ha : ∀ i e, a ≠ .worker i e) {i : Nat} {w' : Worker}
    (hw' : s'.workers[i]? = some w') :
    ∃ w, s.workers[i]? = some w ∧ w'.processed = w.processed ∧ (w'.phase = w.phase ∨ w'.phase = .aborted) := by
  have henqueue : ∀ {v : Worker} {item : Datagram}, s.workers[s.workerIdx]? = some v →
      (s.workers.set s.workerIdx { v with queue := v.queue ++ [item] })[i]? = some w' →
      ∃ w, s.workers[i]? = some w ∧ w'.processed = w.processed ∧ (w'.phase = w.phase ∨ w'.phase = .aborted) := by
    intro v item hv hset
    rcases DispatchState.worker_of_set hset with ⟨rfl, rfl⟩ | ⟨-, hset⟩
    · exact ⟨v, hv, rfl, .inl rfl⟩
    · exact ⟨w', hset, rfl, .inl rfl⟩
  cases dispatchSteps_of_step h with
  | cancel | breaks | readable | unreadable | recv | received | dispatched | full | closed | crashed | join =>
    exact ⟨w', hw', rfl, .inl rfl⟩
  | trySend _ _ hv => exact henqueue hv hw'
  | send _ hv => exact henqueue hv hw'
  | worker => exact absurd rfl (ha _ _)
  | timeout =>
    rw [List.getElem?_map, Option.map_eq_some_iff] at hw'
    obtain ⟨w, hw, rfl⟩ := hw'
    refine ⟨w, hw, ?_⟩
    unfold Worker.abort
    split
    · exact ⟨rfl, .inl rfl⟩
    · exact ⟨rfl, .inr rfl⟩

/-- A lane has received what its worker has processed, and is over where that is between two datagrams. -/
structure Runs (baseCfg : SessionConfig) (w : Worker) (l : Lane) : Prop where
  received : ∃ alive, l.feed = .worker baseCfg w.processed alive
  rests : w.phase = .idle ∨ w.phase = .exited → l.isOver = true ∧ l.feed.unwinds = false
  panicked : w.phase = .panicked → l.isOver = true

structure WorkersState.Ok (env : Env) (configPath : Str) (cfg : Config) (localHostname : Str) (validator : Validator)
    (s : WorkersState) : Prop where
  tasks : (gateway env configPath cfg.rsyslog validator).Reachable s.tasks
  loop : (dispatcher cfg.daemon.maxConnections cfg.daemon.maxMessageSize).Reachable s.loop
  count : s.tasks.lanes.length = cfg.daemon.maxConnections
  runs : ∀ (i : Nat) w l, s.loop.workers[i]? = some w → s.tasks.lanes[i]? = some l →
    Runs (baseConfig cfg localHostname) w l

namespace WorkersState

variable {env : Env} {configPath : Str} {cfg : Config} {localHostname : Str} {validator : Validator} {s : WorkersState}

theorem Ok.dispatch (h : s.Ok env configPath cfg localHostname validator) {a : DispatchAction} {loop : DispatchState}
    (hl : dispatchStep cfg.daemon.maxConnections cfg.daemon.maxMessageSize s.loop a = some loop)
    (ha : ∀ i e, a ≠ .worker i e) : Ok env configPath cfg localHostname validator { s with loop := loop } := by
  refine ⟨h.tasks, h.loop.step hl, h.count, fun i w' l hw' hlane => ?_⟩
  obtain ⟨w, hw, hproc, hphase⟩ := workers_of_step hl ha hw'
  have hruns := h.runs i w l hw hlane
  refine ⟨hproc ▸ hruns.received, fun hp => ?_, fun hp => ?_⟩
  · rcases hphase with hphase | hphase
    · exact hruns.rests (hphase ▸ hp)
    · simp [hphase] at hp
  · rcases hphase with hphase | hphase
    · exact hruns.panicked (hphase ▸ hp)
    · simp [hphase] at hp

/-- The lane of a worker, after one of them or both have moved. -/
theorem runs_set {baseCfg : SessionConfig} {ws : List Worker} {ls : List Lane}
    (h : ∀ (i : Nat) w l, ws[i]? = some w → ls[i]? = some l → Runs baseCfg w l) {i : Nat} {w' : Worker} {l' : Lane}
    (hnew : Runs baseCfg w' l') : ∀ (j : Nat) w l, (ws.set i w')[j]? = some w → (ls.set i l')[j]? = some l → Runs baseCfg w l := by
  intro j w l hw hl
  rw [List.getElem?_set] at hw hl
  split at hw
  · rename_i hij
    rw [if_pos hij] at hl
    split at hw <;> cases hw
    split at hl <;> cases hl
    exact hnew
  · rename_i hij
    rw [if_neg hij] at hl
    exact h j w l hw hl

/-- A list with one of its members set to what it is. -/
theorem set_of_getElem? {α : Type} {l : List α} {i : Nat} {a : α} (h : l[i]? = some a) : l.set i a = l := by
  obtain ⟨hi, rfl⟩ := List.getElem?_eq_some_iff.1 h
  exact List.set_getElem_self hi

/-- A lane that receives a datagram. -/
theorem feed_of_recv {rsyslog : RsyslogConfig} {v : Watch Validator} {l : Lane} {r : Lane × Option Counter × Option Effect}
    {baseCfg : SessionConfig} {received : List Datagram} {alive : Bool} (hfeed : l.feed = .worker baseCfg received alive)
    {item : Datagram} (hr : l.step env rsyslog v (.input (.recv item)) = some r) :
    ∃ alive', r.1.feed = .worker baseCfg (received ++ [item]) alive' := by
  simp only [Lane.step] at hr
  split at hr
  · obtain ⟨⟨feed, call⟩, hstep, rfl⟩ := Option.map_eq_some_iff.1 hr
    rw [hfeed] at hstep
    cases alive with
    | false => cases hstep
    | true =>
      simp only [Feed.step] at hstep
      split at hstep
      · cases hstep
        exact ⟨true, rfl⟩
      · rename_i e _
        cases e
      · cases hstep
        exact ⟨false, rfl⟩
  · cases hr

theorem Ok.worker (h : s.Ok env configPath cfg localHostname validator) {i : Nat} {e : WorkerEvent} {s' : WorkersState}
    (hstep : workersStep env configPath cfg s (.worker i e) = some s') : s'.Ok env configPath cfg localHostname validator := by
  simp only [workersStep] at hstep
  split at hstep
  · rename_i w l loop hw hl hloop
    have hreach : (dispatcher cfg.daemon.maxConnections cfg.daemon.maxMessageSize).Reachable loop :=
      h.loop.step (a := .worker i e) hloop
    have hruns := h.runs i w l hw hl
    simp only [dispatchStep, hw] at hloop
    obtain ⟨w', hwork, rfl⟩ := Option.map_eq_some_iff.1 hloop
    -- where only the worker moves
    have hmoves : Runs (baseConfig cfg localHostname) w' l →
        Ok env configPath cfg localHostname validator { s with loop := { s.loop with workers := s.loop.workers.set i w' } } := by
      intro hnew
      have hset := runs_set (i := i) h.runs hnew
      rw [set_of_getElem? hl] at hset
      exact ⟨h.tasks, hreach, h.count, hset⟩
    cases e with
    | recv =>
      simp only [Worker.step] at hwork
      split at hwork
      · rename_i item queue hp hq
        cases hwork
        simp only [hq] at hstep
        obtain ⟨tasks, hg, rfl⟩ := Option.map_eq_some_iff.1 hstep
        obtain ⟨alive, hfeed⟩ := hruns.received
        obtain ⟨l₁, r, hl₁, hr, hlanes⟩ := lanes_of_lane hg
        obtain rfl : l = l₁ := Option.some.inj (hl.symm.trans hl₁)
        obtain ⟨alive', hfeed'⟩ := feed_of_recv hfeed hr
        refine ⟨h.tasks.step (a := .lane i (.input (.recv item))) hg, hreach, ?_, ?_⟩
        · simp only [hlanes, List.length_set]
          exact h.count
        · simp only [hlanes]
          exact runs_set h.runs ⟨⟨alive', hfeed'⟩, (fun hno => by simp at hno), by intro hno; cases hno⟩
      · rename_i hp hq
        simp only [hq] at hstep
        split at hwork <;> cases hwork
        cases hstep
        exact hmoves ⟨hruns.received, fun _ => hruns.rests (.inl hp), by intro hno; cases hno⟩
      · cases hwork
    | done =>
      simp only [Worker.step] at hwork
      split at hwork <;> cases hwork
      dsimp only at hstep
      split at hstep <;> cases hstep
      rename_i hover
      rw [Bool.and_eq_true, Bool.not_eq_true'] at hover
      exact hmoves ⟨hruns.received, fun _ => hover, by intro hno; cases hno⟩
    | panics =>
      simp only [Worker.step] at hwork
      split at hwork <;> cases hwork
      dsimp only at hstep
      split at hstep <;> cases hstep
      rename_i hover
      rw [Bool.and_eq_true] at hover
      exact hmoves ⟨hruns.received, (fun hno => by simp at hno), fun _ => hover.1⟩
  · cases hstep

theorem feed_of_task {rsyslog : RsyslogConfig} {v : Watch Validator} {l : Lane} {r : Lane × Option Counter × Option Effect}
    {a : LaneAction} (ha : ∀ b, a ≠ .input b) (hr : l.step env rsyslog v a = some r) : r.1.feed = l.feed := by
  cases a with
  | input b => exact absurd rfl (ha b)
  | task =>
    simp only [Lane.step, Option.bind_eq_some_iff, Option.map_eq_some_iff] at hr
    obtain ⟨ok, -, t, -, out, -, rfl⟩ := hr
    rfl
  | on a =>
    obtain ⟨o, -, rfl⟩ := Option.map_eq_some_iff.1 hr
    rfl

/-- In `process_datagram`. -/
theorem Ok.task (h : s.Ok env configPath cfg localHostname validator) {i : Nat} {a : LaneAction} {s' : WorkersState}
    (hstep : workersStep env configPath cfg s (.task i a) = some s') : s'.Ok env configPath cfg localHostname validator := by
  simp only [workersStep] at hstep
  split at hstep
  · cases hstep
  · rename_i hinput
    split at hstep
    · rename_i hany
      obtain ⟨w, hw, hp⟩ : ∃ w, s.loop.workers[i]? = some w ∧ w.phase = .processing := by
        simpa [Option.any_eq_true] using hany
      obtain ⟨tasks, hg, rfl⟩ := Option.map_eq_some_iff.1 hstep
      obtain ⟨l, r, hl, hr, hlanes⟩ := lanes_of_lane hg
      have hnew : Runs (baseConfig cfg localHostname) w r.1 := by
        refine ⟨?_, fun hno => by simp [hp] at hno, fun hno => by simp [hp] at hno⟩
        rw [feed_of_task hinput hr]
        exact (h.runs i w l hw hl).received
      have hset := runs_set (i := i) h.runs hnew
      rw [set_of_getElem? hw] at hset
      refine ⟨h.tasks.step (a := .lane i a) hg, h.loop, ?_, ?_⟩
      · simp only [hlanes, List.length_set]
        exact h.count
      · simp only [hlanes]
        exact hset
    · cases hstep

theorem Ok.reload (h : s.Ok env configPath cfg localHostname validator) {host : Host} {s' : WorkersState}
    (hstep : workersStep env configPath cfg s (.reload host) = some s') : s'.Ok env configPath cfg localHostname validator := by
  obtain ⟨tasks, hg, rfl⟩ := Option.map_eq_some_iff.1 hstep
  have hsame := lanes_of_reload hg
  exact ⟨h.tasks.step (a := .reload host) hg, h.loop, by rw [hsame]; exact h.count, by rw [hsame]; exact h.runs⟩

theorem Ok.step (h : s.Ok env configPath cfg localHostname validator) {a : WorkersAction} {s' : WorkersState}
    (hstep : workersStep env configPath cfg s a = some s') : s'.Ok env configPath cfg localHostname validator := by
  cases a with
  | dispatch a =>
    simp only [workersStep] at hstep
    split at hstep
    · cases hstep
    · rename_i hworker
      obtain ⟨loop, hl, rfl⟩ := Option.map_eq_some_iff.1 hstep
      exact h.dispatch hl hworker
  | worker i e => exact h.worker hstep
  | task i a => exact h.task hstep
  | reload host => exact h.reload hstep

end WorkersState

/-- The workers are spawned before anything else. -/
theorem gateway_workers (env : Env) (configPath : Str) (rsyslog : RsyslogConfig) (validator : Validator)
    (baseCfg : SessionConfig) (n : Nat) : (gateway env configPath rsyslog validator).Reachable
      { (gateway env configPath rsyslog validator).start with
        lanes := List.replicate n (.start rsyslog (.worker baseCfg [] true)) } := by
  induction n with
  | zero => exact ⟨[], rfl⟩
  | succ n ih =>
    refine ih.step (a := .worker baseCfg) ?_
    rw [List.replicate_succ']
    rfl

theorem workers_ok {env : Env} {configPath : Str} {cfg : Config} {localHostname : Str} {validator : Validator}
    {s : WorkersState} (h : (workers env configPath cfg localHostname validator).Reachable s) :
    s.Ok env configPath cfg localHostname validator := by
  refine h.inv (I := fun s => s.Ok env configPath cfg localHostname validator) ?_ fun _ _ _ hs hstep => hs.step hstep
  refine ⟨gateway_workers .., ⟨[], rfl⟩, List.length_replicate, fun i w l hw hl => ?_⟩
  obtain rfl : w = ⟨[], .idle, []⟩ := List.eq_of_mem_replicate (List.mem_of_getElem? hw)
  obtain rfl : l = .start cfg.rsyslog (.worker (baseConfig cfg localHostname) [] true) :=
    List.eq_of_mem_replicate (List.mem_of_getElem? hl)
  exact ⟨⟨true, rfl⟩, fun _ => ⟨rfl, rfl⟩, by intro hno; cases hno⟩

/-- **Shutdown waits for the workers**: when the datagram listener returns before the timeout and no worker has
    panicked, every datagram that was taken off the socket has been processed, by the worker whose turn it was; each has
    been handled and answered, `forward` has returned for every answer, and the counters balance. -/
theorem workers_drained {env : Env} {configPath : Str} {cfg : Config} (hN : 0 < cfg.daemon.maxConnections)
    {localHostname : Str} {validator : Validator} {s : WorkersState}
    (h : (workers env configPath cfg localHostname validator).Reachable s) (hend : s.loop.phase = .finished true)
    (hpanic : ∀ w ∈ s.loop.workers, w.phase ≠ .panicked) :
    (∀ (i : Nat) l, s.tasks.lanes[i]? = some l → ∃ alive, l.feed =
      .worker (baseConfig cfg localHostname) (share cfg.daemon.maxConnections i s.loop.taken) alive) ∧
    Settled env s.tasks := by
  have hok := workers_ok h
  have hhealthy : s.loop.Healthy := ⟨fun i w hw => hpanic w (List.mem_of_getElem? hw), by simp [hend]⟩
  obtain ⟨hshares, hkept⟩ := dispatcher_inv hN hok.loop hhealthy
  have hexited : ∀ w ∈ s.loop.workers, w.phase = .exited := by
    intro w hw
    have hended := finished_ended hok.loop hend w hw
    simp only [Worker.ended, Bool.or_eq_true, decide_eq_true_eq] at hended
    exact hended.resolve_right (hpanic w hw)
  have hworker : ∀ (i : Nat) l, s.tasks.lanes[i]? = some l → ∃ w, s.loop.workers[i]? = some w ∧
      Runs (baseConfig cfg localHostname) w l := by
    intro i l hl
    have hi : i < s.loop.workers.length := by
      rw [hshares.count, ← hok.count]
      exact (List.getElem?_eq_some_iff.1 hl).1
    exact ⟨_, List.getElem?_eq_getElem hi, hok.runs i _ l (List.getElem?_eq_getElem hi) hl⟩
  constructor
  · intro i l hl
    obtain ⟨w, hw, hruns⟩ := hworker i l hl
    obtain ⟨hleft, hqueue⟩ := hkept.exited i w hw (hexited w (List.mem_of_getElem? hw))
    have hgot := hshares.queued i w hw
    have htaken := hkept.taken
    rw [hkept.settled (.inr hleft), List.append_nil] at htaken
    rw [hqueue, List.append_nil, ← htaken] at hgot
    exact hgot ▸ hruns.received
  · refine settled_of_over (gateway_ok hok.tasks) fun l hl => ?_
    obtain ⟨i, hi, rfl⟩ := List.getElem_of_mem hl
    obtain ⟨w, hw, hruns⟩ := hworker i _ (List.getElem?_eq_getElem hi)
    exact (hruns.rests (.inr (hexited w (List.mem_of_getElem? hw)))).1

def sampleWorkers : System WorkersState WorkersAction :=
  workers sampleEnv "conf".toList sampleDaemonConfig "gw".toList (Validator.new .strict [])

/-- A datagram that is forwarded while the token is cancelled. -/
def datagramThenShutdown : List WorkersAction :=
  [.dispatch (.readable true), .dispatch (.recv (some (utf8 "<13>1 - - - - - - \x7b\x7d".toList, anonymous))),
    .dispatch (.recv none), .dispatch .dispatch, .dispatch .dispatch, .worker 0 .recv, .dispatch .cancel, .dispatch .poll] ++
  forwardedOnce.map (.task 0) ++ [.worker 0 .done, .worker 0 .recv, .dispatch .join]

theorem workers_drained_one :
    ∃ s, sampleWorkers.run sampleWorkers.start datagramThenShutdown = some s ∧ s.loop.phase = .finished true ∧
      s.tasks.metrics = ⟨1, 1, 0, 0⟩ ∧ Settled sampleEnv s.tasks := by
  have hrun : (sampleWorkers.run sampleWorkers.start datagramThenShutdown).map
      (fun s => (s.loop.phase, s.tasks.metrics, s.loop.workers.map Worker.phase)) =
        some (.finished true, ⟨1, 1, 0, 0⟩, [.exited]) := by decide
  obtain ⟨s, hs, heq⟩ := Option.map_eq_some_iff.1 hrun
  simp only [Prod.mk.injEq] at heq
  obtain ⟨hphase, hmetrics, hworkers⟩ := heq
  have hpanic : ∀ w ∈ s.loop.workers, w.phase ≠ .panicked := by
    intro w hw hp
    have hmem : w.phase ∈ s.loop.workers.map Worker.phase := List.mem_map_of_mem hw
    rw [hworkers, hp] at hmem
    simp at hmem
  exact ⟨s, hs, hphase, hmetrics, (workers_drained (by decide) ⟨_, hs⟩ hphase hpanic).2⟩

end LogFence
