import LogFence.Daemon.Datagram
import LogFence.Daemon.Reload
import LogFence.Rust.System

/-!
# Handlers running concurrently (`session.rs`, `datagram_listener.rs`, `main.rs`)

| here | there |
| --- | --- |
| `Watch`              | `watch::channel`: the current value, and for the statements those before it |
| `Metrics.inc`, `Counter` | the `inc_*` of `MetricsStore` (`metrics.rs:46-60`), each one atomic step |
| `Source`             | what a session or a worker is given to read |
| `Phase`, `taskStep`  | where a task is in `handle_message` (`session.rs:209-248`), in `report_rejection` (`:185`) behind `handle_frame_error` or `process_datagram`, or between two calls |
| `DaemonAction.reload` | the SIGHUP arm of `handle_signals` (`main.rs:206-218`) |

The steps of a task are cut at every access to shared state (a counter, the watch channel, the forwarder),
so any number of tasks interleave with each other and with reloads as they can in the daemon. The calls a task
makes are those of `runWithCodec` and `workerCalls`. What forwarding a message returns is part of the action.
If `send` finds no receiver it keeps the old value, and then there is no task to see either.

* `reload_atomic` — one validator decides on a message and prepares it;
* `counters_conserved` — received, and what became of it;
* `dropped_counts_reports_iff` — what `dropped` does not count.
-/

namespace LogFence

open Rust

/-! ## The code -/

structure Watch (α : Type) where
  earlier : List α
  current : α

namespace Watch

variable {α : Type}

def send (w : Watch α) (a : α) : Watch α := ⟨w.earlier ++ [w.current], a⟩

/-- The number of the current value. -/
def version (w : Watch α) : Nat := w.earlier.length

/-- The value with a number. -/
def value? (w : Watch α) (i : Nat) : Option α := (w.earlier ++ [w.current])[i]?

end Watch

inductive Counter where
  | received | forwarded | dropped | errors
deriving DecidableEq, Repr

def Metrics.inc (m : Metrics) : Counter → Metrics
  | .received => { m with received := m.received + 1 }
  | .forwarded => { m with forwarded := m.forwarded + 1 }
  | .dropped => { m with dropped := m.dropped + 1 }
  | .errors => { m with errors := m.errors + 1 }

def Metrics.get (m : Metrics) : Counter → UInt64
  | .received => m.received
  | .forwarded => m.forwarded
  | .dropped => m.dropped
  | .errors => m.errors

inductive Source where
  | session (cfg : SessionConfig) (chunks : List Bytes) (ending : Ending)
  | worker (baseCfg : SessionConfig) (datagrams : List (Bytes × Str))

def Source.calls (env : Env) : Source → List (SessionConfig × Call)
  | .session cfg chunks ending => (runWithCodec env cfg chunks ending).map (Prod.mk cfg)
  | .worker baseCfg datagrams => workerCalls env baseCfg datagrams

/-- A call of `handle_message`. -/
structure Handling where
  cfg : SessionConfig
  msg : SyslogMessage
  /-- The version current when it began. -/
  begun : Nat
  /-- The counters it has incremented. -/
  incs : List Counter

/-- With `validator` taken from the watch channel. -/
structure Held extends Handling where
  used : Nat
  validator : Validator

/-- With `validate` behind it. -/
structure Decided extends Held where
  /-- The version current when it was decided. -/
  decided : Nat
  verdict : Except ValidationError Unit

/-- With a message handed to `forward`: the prepared one, or a report. -/
structure Handed extends Decided where
  handed : SyslogMessage

inductive Phase where
  | idle
  | entered (h : Handling)
  | received (h : Handling)
  | holding (h : Held)
  | decided (d : Decided)
  | dropped (d : Decided) (e : ValidationError)
  | reportingDrop (x : Handed)
  | forwarding (x : Handed)
  | returned (x : Handed) (sent : Bool)
  /-- In `report_rejection`, with nothing that reached `handle_message`. -/
  | reporting (r : SyslogMessage)

structure Task where
  /-- The calls it has made, and those before it. -/
  made : List (SessionConfig × Call)
  calls : List (SessionConfig × Call)
  phase : Phase
  /-- The calls of `handle_message` that have returned, and what `forward` returned in each. -/
  past : List (Handed × Bool)
  /-- How often it has called `report_rejection`. -/
  reports : Nat

/-- `to_forward` of `handle_message` (`session.rs:234-240`). -/
def toForward (env : Env) (cfg : SessionConfig) (validator : Validator) (msg : SyslogMessage) : SyslogMessage :=
  let prepared := validator.prepareForForwarding env.serde msg
  match cfg.senderMode with
  | .original => prepared
  | .logfenced => rewriteSender env.pid prepared cfg.localHostname

/-- The next step of a task, and the counter it increments; `sent` is what `forward` returns, where it is
    awaited. -/
def taskStep (env : Env) (w : Watch Validator) (t : Task) (sent : Bool) : Option (Task × Option Counter) :=
  match t.phase with
  | .idle =>
    match t.calls with
    | [] => none
    | (cfg, .handleMessage m) :: calls =>
      some ({ t with
        made := t.made ++ [(cfg, .handleMessage m)], calls := calls, phase := .entered ⟨cfg, m, w.version, []⟩ }, none)
    | (cfg, .reportRejection r) :: calls =>
      some ({ t with
        made := t.made ++ [(cfg, .reportRejection r)], calls := calls, phase := .reporting r, reports := t.reports + 1 }, none)
  | .entered h => some ({ t with phase := .received { h with incs := h.incs ++ [.received] } }, some .received)
  | .received h => some ({ t with phase := .holding ⟨h, w.version, w.current⟩ }, none)
  | .holding h =>
    some ({ t with phase := .decided ⟨h, w.version, h.validator.validate env.serde h.msg⟩ }, none)
  | .decided d =>
    match d.verdict with
    | .error e => some ({ t with phase := .dropped { d with incs := d.incs ++ [.dropped] } e }, some .dropped)
    | .ok () => some ({ t with phase := .forwarding ⟨d, toForward env d.cfg d.validator d.msg⟩ }, none)
  | .dropped d e =>
    some ({ t with
      phase := .reportingDrop ⟨d, report env d.cfg.localHostname (dropPayload d.cfg d.msg e)⟩
      reports := t.reports + 1 }, none)
  | .reportingDrop x => some ({ t with phase := .idle, past := t.past ++ [(x, sent)] }, none)
  | .forwarding x => some ({ t with phase := .returned x sent }, none)
  | .returned x sent =>
    let c := if sent then .forwarded else .errors
    some ({ t with phase := .idle, past := t.past ++ [({ x with incs := x.incs ++ [c] }, sent)] }, some c)
  | .reporting _ => some ({ t with phase := .idle }, none)

structure DaemonState where
  watch : Watch Validator
  metrics : Metrics
  tasks : List Task

inductive DaemonAction where
  | reload (host : Host)
  | spawn (source : Source)
  | task (i : Nat) (sent : Bool)

def daemonStep (env : Env) (configPath : Str) (s : DaemonState) : DaemonAction → Option DaemonState
  | .reload host =>
    match reloadValidator env.serde host configPath with
    | .ok (_, v) => some { s with watch := s.watch.send v }
    | .error _ => some s
  | .spawn source => some { s with tasks := s.tasks ++ [⟨[], source.calls env, .idle, [], 0⟩] }
  | .task i sent =>
    match s.tasks[i]? with
    | none => none
    | some t =>
      (taskStep env s.watch t sent).map fun r =>
        { s with tasks := s.tasks.set i r.1, metrics := r.2.elim s.metrics s.metrics.inc }

/-- The daemon with its first validator. -/
def daemon (env : Env) (configPath : Str) (validator : Validator) : System DaemonState DaemonAction :=
  ⟨⟨⟨[], validator⟩, ⟨0, 0, 0, 0⟩, []⟩, daemonStep env configPath⟩

/-! ## What a task keeps -/

namespace Watch

variable {α : Type} (w : Watch α)

@[simp] theorem version_send (a : α) : (w.send a).version = w.version + 1 := by simp [send, version]

@[simp] theorem value?_version : w.value? w.version = some w.current := by simp [value?, version]

theorem version_le_of_value? {i : Nat} {a : α} (h : w.value? i = some a) : i ≤ w.version := by
  have hlt := (List.getElem?_eq_some_iff.1 h).1
  rw [List.length_append, List.length_singleton] at hlt
  exact Nat.le_of_lt_succ hlt

/-- Nothing that was current changes. -/
theorem value?_send {i : Nat} {a : α} (h : w.value? i = some a) (b : α) : (w.send b).value? i = some a := by
  have hlt := (List.getElem?_eq_some_iff.1 h).1
  rw [value?, send, List.getElem?_append_left hlt]
  exact h

end Watch

/-- The validator is one that was current between the beginning and now. -/
structure Held.Ok (w : Watch Validator) (h : Held) : Prop where
  begun : h.begun ≤ h.used
  current : w.value? h.used = some h.validator

structure Decided.Ok (env : Env) (w : Watch Validator) (d : Decided) : Prop where
  held : d.toHeld.Ok w
  used : d.used ≤ d.decided
  decided : d.decided ≤ w.version
  verdict : d.verdict = d.validator.validate env.serde d.msg

/-- **One validator decides and prepares**, one that was current between the beginning and the decision. -/
structure Handed.Ok (env : Env) (w : Watch Validator) (x : Handed) : Prop where
  decided : x.toDecided.Ok env w
  handed : ∀ sent metrics, (handleMessage env x.cfg x.validator sent x.msg metrics).1 = x.handed

namespace Phase

/-- The call of `handle_message` it is in. -/
@[simp] def handling : Phase → Option Handling
  | .idle | .reporting _ => none
  | .entered h | .received h => some h
  | .holding h => some h.toHandling
  | .decided d | .dropped d _ => some d.toHandling
  | .reportingDrop x | .forwarding x | .returned x _ => some x.toHandling

/-- What it has handed to `forward`. -/
def handed : Phase → Option Handed
  | .reportingDrop x | .forwarding x | .returned x _ => some x
  | _ => none

@[simp] def incs (p : Phase) : List Counter := (p.handling.map Handling.incs).getD []

/-- `received` is incremented, and none of the other three yet. -/
def inFlight : Phase → Bool
  | .received _ | .holding _ | .decided _ | .forwarding _ | .returned _ _ => true
  | _ => false

def isIdle : Phase → Bool
  | .idle => true
  | _ => false

theorem isIdle_eq_true {p : Phase} : p.isIdle = true ↔ p = .idle := by
  cases p <;> simp [isIdle]

/-- Counted as dropped, and not yet reported. -/
@[simp] def unreported : Phase → Nat
  | .dropped _ _ => 1
  | _ => 0

/-- What a task knows in each place. -/
def Ok (env : Env) (w : Watch Validator) : Phase → Prop
  | .idle | .reporting _ => True
  | .entered h => h.begun ≤ w.version ∧ h.incs = []
  | .received h => h.begun ≤ w.version ∧ h.incs = [.received]
  | .holding h => h.Ok w ∧ h.incs = [.received]
  | .decided d => d.Ok env w ∧ d.incs = [.received]
  | .dropped d e => d.Ok env w ∧ d.incs = [.received, .dropped] ∧ d.verdict = .error e
  | .reportingDrop x => x.Ok env w ∧ x.incs = [.received, .dropped] ∧ ∃ e, x.verdict = .error e
  | .forwarding x | .returned x _ => x.Ok env w ∧ x.incs = [.received] ∧ x.verdict = .ok ()

end Phase

/-- The counter for the end of a call. -/
def outcome (verdict : Except ValidationError Unit) (sent : Bool) : Counter :=
  match verdict with
  | .error _ => .dropped
  | .ok () => if sent then .forwarded else .errors

namespace Task

/-- The calls of `handle_message` that have got to `forward`. -/
def executions (t : Task) : List Handed := t.past.map Prod.fst ++ t.phase.handed.toList

def incs (t : Task) : List Counter := (t.past.map fun x => x.1.incs).flatten ++ t.phase.incs

/-- The rejections it has reported that never reached `handle_message`. -/
def early (t : Task) : Nat := (rejections (t.made.map Prod.snd)).length

structure Ok (env : Env) (w : Watch Validator) (t : Task) : Prop where
  phase : t.phase.Ok env w
  past : ∀ x ∈ t.past, x.1.Ok env w ∧ x.1.incs = [.received, outcome x.1.verdict x.2]
  ordered : (t.past.map fun x => x.1.used).Pairwise (· ≤ ·)
  /-- What it began last, it began with all it had used before. -/
  behind : ∀ h ∈ t.phase.handling, ∀ x ∈ t.past, x.1.used ≤ h.begun
  reported : t.reports + t.phase.unreported = t.early + t.incs.count .dropped

end Task

/-! ## What a step does -/

/-- The steps, one constructor for each way to take one. -/
inductive TaskSteps (env : Env) (w : Watch Validator) (t : Task) : Task → Option Counter → Prop where
  | handles {cfg : SessionConfig} {m : SyslogMessage} {calls : List (SessionConfig × Call)} (hp : t.phase = .idle) :
    TaskSteps env w t { t with
      made := t.made ++ [(cfg, .handleMessage m)], calls := calls, phase := .entered ⟨cfg, m, w.version, []⟩ } none
  | rejects {cfg : SessionConfig} {r : SyslogMessage} {calls : List (SessionConfig × Call)} (hp : t.phase = .idle) :
    TaskSteps env w t { t with
      made := t.made ++ [(cfg, .reportRejection r)], calls := calls, phase := .reporting r, reports := t.reports + 1 } none
  | counts {h : Handling} (hp : t.phase = .entered h) :
    TaskSteps env w t { t with phase := .received { h with incs := h.incs ++ [.received] } } (some .received)
  | borrows {h : Handling} (hp : t.phase = .received h) :
    TaskSteps env w t { t with phase := .holding ⟨h, w.version, w.current⟩ } none
  | decides {h : Held} (hp : t.phase = .holding h) :
    TaskSteps env w t { t with phase := .decided ⟨h, w.version, h.validator.validate env.serde h.msg⟩ } none
  | drops {d : Decided} {e : ValidationError} (hp : t.phase = .decided d) (hv : d.verdict = .error e) :
    TaskSteps env w t { t with phase := .dropped { d with incs := d.incs ++ [.dropped] } e } (some .dropped)
  | prepares {d : Decided} (hp : t.phase = .decided d) (hv : d.verdict = .ok ()) :
    TaskSteps env w t { t with phase := .forwarding ⟨d, toForward env d.cfg d.validator d.msg⟩ } none
  | reports {d : Decided} {e : ValidationError} (hp : t.phase = .dropped d e) :
    TaskSteps env w t { t with
      phase := .reportingDrop ⟨d, report env d.cfg.localHostname (dropPayload d.cfg d.msg e)⟩
      reports := t.reports + 1 } none
  | reported {x : Handed} (sent : Bool) (hp : t.phase = .reportingDrop x) :
    TaskSteps env w t { t with phase := .idle, past := t.past ++ [(x, sent)] } none
  | forwards {x : Handed} (sent : Bool) (hp : t.phase = .forwarding x) :
    TaskSteps env w t { t with phase := .returned x sent } none
  | ends {x : Handed} {sent : Bool} {c : Counter} (hp : t.phase = .returned x sent)
    (hc : c = if sent then .forwarded else .errors) :
    TaskSteps env w t { t with phase := .idle, past := t.past ++ [({ x with incs := x.incs ++ [c] }, sent)] } (some c)
  | rejected {r : SyslogMessage} (hp : t.phase = .reporting r) : TaskSteps env w t { t with phase := .idle } none

theorem taskSteps_of_step {env : Env} {w : Watch Validator} {t t' : Task} {sent : Bool} {c : Option Counter}
    (h : taskStep env w t sent = some (t', c)) : TaskSteps env w t t' c := by
  cases hp : t.phase with
  | idle =>
    simp only [taskStep, hp] at h
    split at h <;> cases h
    · exact .handles hp
    · exact .rejects hp
  | entered h₀ => simp only [taskStep, hp] at h; cases h; exact .counts hp
  | received h₀ => simp only [taskStep, hp] at h; cases h; exact .borrows hp
  | holding h₀ => simp only [taskStep, hp] at h; cases h; exact .decides hp
  | decided d =>
    simp only [taskStep, hp] at h
    split at h <;> cases h
    · exact .drops hp ‹_›
    · exact .prepares hp ‹_›
  | dropped d e => simp only [taskStep, hp] at h; cases h; exact .reports hp
  | reportingDrop x => simp only [taskStep, hp] at h; cases h; exact .reported _ hp
  | forwarding x => simp only [taskStep, hp] at h; cases h; exact .forwards _ hp
  | returned x sent' => simp only [taskStep, hp] at h; cases h; exact .ends hp rfl
  | reporting r => simp only [taskStep, hp] at h; cases h; exact .rejected hp

/-- A task's increments are those the shared counters get. -/
theorem taskStep_incs {env : Env} {w : Watch Validator} {t t' : Task} {sent : Bool} {c : Option Counter}
    (h : taskStep env w t sent = some (t', c)) : t'.incs = t.incs ++ c.toList := by
  cases taskSteps_of_step h with
  | handles hp | rejects hp | counts hp | borrows hp | decides hp | drops hp | prepares hp | reports hp | reported _ hp
  | forwards _ hp | ends hp | rejected hp =>
    simp [Task.incs, hp]

/-- What `handle_message` hands to `forward` when the message is rejected, and when it is not. -/
theorem handleMessage_rejected {env : Env} {cfg : SessionConfig} {v : Validator} {m : SyslogMessage} {e : ValidationError}
    (h : v.validate env.serde m = .error e) (sent : Bool) (metrics : Metrics) :
    (handleMessage env cfg v sent m metrics).1 = report env cfg.localHostname (dropPayload cfg m e) := by
  simp only [handleMessage, h]

theorem handleMessage_accepted {env : Env} {cfg : SessionConfig} {v : Validator} {m : SyslogMessage}
    (h : v.validate env.serde m = .ok ()) (sent : Bool) (metrics : Metrics) :
    (handleMessage env cfg v sent m metrics).1 = toForward env cfg v m := by
  simp only [handleMessage, h]
  rfl

namespace Task

variable {env : Env} {w : Watch Validator} {t : Task}

/-- A step within a call. -/
theorem Ok.move (hok : t.Ok env w) {p : Phase} (hp : p.Ok env w)
    (hbegun : ∀ h ∈ p.handling, ∃ h₀ ∈ t.phase.handling, h₀.begun = h.begun)
    (hdropped : p.incs.count .dropped + t.phase.unreported = t.phase.incs.count .dropped + p.unreported) :
    Ok env w { t with phase := p } := by
  refine ⟨hp, hok.past, hok.ordered, fun h hh x hx => ?_, ?_⟩
  · obtain ⟨h₀, hh₀, heq⟩ := hbegun h hh
    rw [← heq]
    exact hok.behind h₀ hh₀ x hx
  · have hrep := hok.reported
    simp only [early, incs, List.count_append] at hrep ⊢
    omega

/-- The end of a call. -/
theorem Ok.ends (hok : t.Ok env w) {x : Handed} {sent : Bool} (hx : x.Ok env w)
    (hincs : x.incs = [.received, outcome x.verdict sent]) {h : Handling} (hh : h ∈ t.phase.handling)
    (hused : h.begun ≤ x.used) (hdropped : x.incs.count .dropped + t.phase.unreported = t.phase.incs.count .dropped) :
    Ok env w { t with phase := .idle, past := t.past ++ [(x, sent)] } := by
  refine ⟨trivial, ?_, ?_, by simp, ?_⟩
  · intro y hy
    rcases List.mem_append.1 hy with hy | hy
    · exact hok.past y hy
    · rw [List.mem_singleton.1 hy]
      exact ⟨hx, hincs⟩
  · rw [List.map_append, List.pairwise_append]
    refine ⟨hok.ordered, List.pairwise_singleton _ _, ?_⟩
    rintro _ hu v hv
    obtain ⟨y, hy, rfl⟩ := List.mem_map.1 hu
    rw [List.map_singleton, List.mem_singleton] at hv
    rw [hv]
    exact (hok.behind h hh y hy).trans hused
  · have hrep := hok.reported
    have hidle : Phase.incs .idle = [] ∧ Phase.unreported .idle = 0 := ⟨rfl, rfl⟩
    simp only [early, incs, List.map_append, List.flatten_append, List.count_append, List.map_singleton,
      List.flatten_singleton, hidle, List.count_nil] at hrep ⊢
    omega

theorem early_handleMessage (made : List (SessionConfig × Call)) (cfg : SessionConfig) (m : SyslogMessage) :
    (rejections ((made ++ [(cfg, Call.handleMessage m)]).map Prod.snd)).length = (rejections (made.map Prod.snd)).length := by
  simp [rejections]

theorem early_reportRejection (made : List (SessionConfig × Call)) (cfg : SessionConfig) (r : SyslogMessage) :
    (rejections ((made ++ [(cfg, Call.reportRejection r)]).map Prod.snd)).length = (rejections (made.map Prod.snd)).length + 1 := by
  simp [rejections]

theorem Ok.step (hok : t.Ok env w) {t' : Task} {sent : Bool} {c : Option Counter}
    (h : taskStep env w t sent = some (t', c)) : t'.Ok env w := by
  have hphase := hok.phase
  cases taskSteps_of_step h with
  | handles hp =>
    have hused : ∀ x ∈ t.past, x.1.used ≤ w.version :=
      fun x hx => w.version_le_of_value? (hok.past x hx).1.decided.held.current
    have hrep := hok.reported
    refine ⟨⟨Nat.le_refl _, rfl⟩, hok.past, hok.ordered, ?_, ?_⟩
    · intro h₀ hh x hx
      cases hh
      exact hused x hx
    · simp only [early, incs, Phase.incs, Phase.handling, Phase.unreported, hp] at hrep ⊢
      rw [early_handleMessage]
      exact hrep
  | rejects hp =>
    have hrep := hok.reported
    refine ⟨trivial, hok.past, hok.ordered, by simp, ?_⟩
    simp only [early, incs, Phase.incs, Phase.handling, Phase.unreported, hp] at hrep ⊢
    rw [early_reportRejection]
    omega
  | counts hp =>
    rw [hp] at hphase
    refine hok.move ⟨hphase.1, ?_⟩ (by simp [hp]) (by simp [hp])
    rw [hphase.2]
    rfl
  | borrows hp =>
    rw [hp] at hphase
    exact hok.move ⟨⟨hphase.1, w.value?_version⟩, hphase.2⟩ (by simp [hp]) (by simp [hp])
  | decides hp =>
    rw [hp] at hphase
    refine hok.move ⟨⟨hphase.1, ?_, Nat.le_refl _, rfl⟩, hphase.2⟩ (by simp [hp]) (by simp [hp])
    exact w.version_le_of_value? hphase.1.current
  | drops hp hv =>
    rw [hp] at hphase
    obtain ⟨⟨hheld, hused, hdec, hverdict⟩, hincs⟩ := hphase
    refine hok.move ⟨⟨⟨hheld.1, hheld.2⟩, hused, hdec, hverdict⟩, ?_, hv⟩ (by simp [hp]) (by simp [hp])
    rw [hincs]
    rfl
  | prepares hp hv =>
    rw [hp] at hphase
    refine hok.move ⟨⟨hphase.1, fun sent metrics => ?_⟩, hphase.2, hv⟩ (by simp [hp]) (by simp [hp])
    exact handleMessage_accepted (hphase.1.verdict.symm.trans hv) sent metrics
  | reports hp =>
    rw [hp] at hphase
    have hrep := hok.reported
    obtain ⟨hdec, hincs, hv⟩ := hphase
    refine ⟨⟨⟨hdec, fun sent metrics => ?_⟩, hincs, _, hv⟩, hok.past, hok.ordered, ?_, ?_⟩
    · exact handleMessage_rejected (hdec.verdict.symm.trans hv) sent metrics
    · intro h₀ hh
      cases hh
      exact hok.behind _ (by rw [hp]; rfl)
    · simp only [early, incs, Phase.incs, Phase.handling, Phase.unreported, hp] at hrep ⊢
      simp only [Option.map_some, Option.getD_some] at hrep ⊢
      omega
  | reported sent hp =>
    rw [hp] at hphase
    obtain ⟨hx, hincs, e, hv⟩ := hphase
    refine hok.ends hx ?_ (by rw [hp]; rfl) hx.decided.held.begun (by simp [hp])
    rw [hincs, hv]
    rfl
  | forwards sent hp =>
    rw [hp] at hphase
    exact hok.move hphase (by simp [hp]) (by simp [hp])
  | ends hp hc =>
    rename_i x sent c
    rw [hp] at hphase
    obtain ⟨⟨⟨hheld, hused, hdec, hverdict⟩, hhanded⟩, hincs, hv⟩ := hphase
    have hx : Handed.Ok env w { x with incs := x.incs ++ [c] } :=
      ⟨⟨⟨hheld.1, hheld.2⟩, hused, hdec, hverdict⟩, hhanded⟩
    refine hok.ends hx ?_ (by rw [hp]; rfl) hheld.begun ?_
    · show x.incs ++ [c] = _
      rw [hincs, hc]
      simp [outcome, hv]
    · have hne : c ≠ .dropped := by
        rw [hc]
        split <;> decide
      simp [hp, hne]
  | rejected hp => exact hok.move trivial (by simp) (by simp [hp])

/-- A reload takes nothing from what a task knows. -/
theorem Ok.send (hok : t.Ok env w) (v : Validator) : t.Ok env (w.send v) := by
  have hheld : ∀ {h : Held}, h.Ok w → h.Ok (w.send v) := fun hh => ⟨hh.begun, w.value?_send hh.current v⟩
  have hdecided : ∀ {d : Decided}, d.Ok env w → d.Ok env (w.send v) := fun hd =>
    ⟨hheld hd.held, hd.used, by rw [w.version_send]; exact Nat.le_succ_of_le hd.decided, hd.verdict⟩
  have hhanded : ∀ {x : Handed}, x.Ok env w → x.Ok env (w.send v) := fun hx => ⟨hdecided hx.decided, hx.handed⟩
  refine ⟨?_, fun x hx => ⟨hhanded (hok.past x hx).1, (hok.past x hx).2⟩, hok.ordered, hok.behind, hok.reported⟩
  have hphase := hok.phase
  cases hp : t.phase <;> rw [hp] at hphase <;> simp only [Phase.Ok] at hphase ⊢
  · exact ⟨by rw [w.version_send]; omega, hphase.2⟩
  · exact ⟨by rw [w.version_send]; omega, hphase.2⟩
  · exact ⟨hheld hphase.1, hphase.2⟩
  · exact ⟨hdecided hphase.1, hphase.2⟩
  · exact ⟨hdecided hphase.1, hphase.2⟩
  · exact ⟨hhanded hphase.1, hphase.2⟩
  · exact ⟨hhanded hphase.1, hphase.2⟩
  · exact ⟨hhanded hphase.1, hphase.2⟩

end Task

/-! ## Counting over the tasks -/

namespace DaemonState

/-- A count over all tasks. -/
def total (f : Task → Nat) (s : DaemonState) : Nat := (s.tasks.map f).sum

/-- How often a counter was incremented. -/
def count (s : DaemonState) (c : Counter) : Nat := s.total fun t => t.incs.count c

/-- The calls of `report_rejection`, and those of them that are not from `handle_message`. -/
def reports (s : DaemonState) : Nat := s.total Task.reports

def early (s : DaemonState) : Nat := s.total Task.early

/-- The executions of `handle_message` that are counted as received only. -/
def inFlight (s : DaemonState) : Nat := s.tasks.countP fun t => t.phase.inFlight

/-- No task is in a call. -/
def quiet (s : DaemonState) : Bool := s.tasks.all fun t => t.phase.isIdle

structure Ok (env : Env) (s : DaemonState) : Prop where
  tasks : ∀ t ∈ s.tasks, t.Ok env s.watch
  counted : ∀ c, s.metrics.get c = UInt64.ofNat (s.count c)

end DaemonState

theorem sum_map_set {α : Type} (f : α → Nat) {l : List α} {i : Nat} {a : α} (h : l[i]? = some a) (b : α) :
    ((l.set i b).map f).sum + f a = (l.map f).sum + f b := by
  induction l generalizing i with
  | nil => cases h
  | cons x l ih =>
    cases i with
    | zero =>
      obtain rfl : x = a := Option.some.inj h
      simp only [List.set_cons_zero, List.map_cons, List.sum_cons]
      omega
    | succ i =>
      have := ih h
      simp only [List.set_cons_succ, List.map_cons, List.sum_cons]
      omega

theorem Metrics.get_inc (m : Metrics) (c d : Counter) :
    (m.inc c).get d = m.get d + UInt64.ofNat ([c].count d) := by
  cases c <;> cases d <;> simp [Metrics.inc, Metrics.get]

theorem daemonStep_ok {env : Env} {configPath : Str} {s s' : DaemonState} {a : DaemonAction} (hok : s.Ok env)
    (h : daemonStep env configPath s a = some s') : s'.Ok env := by
  cases a with
  | reload host =>
    simp only [daemonStep] at h
    split at h <;> cases h
    · exact ⟨fun t ht => (hok.tasks t ht).send _, hok.counted⟩
    · exact hok
  | spawn source =>
    cases h
    constructor
    · intro t ht
      rcases List.mem_append.1 ht with ht | ht
      · exact hok.tasks t ht
      · rw [List.mem_singleton.1 ht]
        exact ⟨trivial, by simp, by simp, by simp, by simp [Task.early, rejections, Task.incs]⟩
    · intro c
      rw [hok.counted c]
      simp [DaemonState.count, DaemonState.total, Task.incs]
  | task i sent =>
    simp only [daemonStep] at h
    split at h
    · cases h
    · rename_i t ht
      obtain ⟨⟨t', c⟩, hstep, rfl⟩ := Option.map_eq_some_iff.1 h
      constructor
      · intro t₁ ht₁
        rcases List.mem_or_eq_of_mem_set ht₁ with ht₁ | rfl
        · exact hok.tasks t₁ ht₁
        · exact (hok.tasks t (List.mem_of_getElem? ht)).step hstep
      · intro d
        have hsum := sum_map_set (fun t => t.incs.count d) ht t'
        simp only [taskStep_incs hstep, List.count_append] at hsum
        have hcount : DaemonState.count { s with tasks := s.tasks.set i t', metrics := c.elim s.metrics s.metrics.inc } d =
            s.count d + c.toList.count d := by
          simp only [DaemonState.count, DaemonState.total]
          omega
        rw [hcount, UInt64.ofNat_add, ← hok.counted d]
        cases c with
        | none => simp
        | some c => exact Metrics.get_inc s.metrics c d

theorem daemon_ok {env : Env} {configPath : Str} {validator : Validator} {s : DaemonState}
    (h : (daemon env configPath validator).Reachable s) : s.Ok env := by
  refine h.inv (I := fun s => s.Ok env) ⟨(fun t ht => nomatch ht), fun c => ?_⟩ fun _ _ _ hs hstep => daemonStep_ok hs hstep
  cases c <;> rfl

/-! ## Reloads -/

theorem Phase.Ok.handed_ok {env : Env} {w : Watch Validator} {p : Phase} (hok : p.Ok env w) {x : Handed}
    (hx : p.handed = some x) : x.Ok env w ∧ p.handling = some x.toHandling := by
  cases p with
  | reportingDrop y | forwarding y | returned y => cases hx; exact ⟨hok.1, rfl⟩
  | _ => cases hx

theorem Task.Ok.executions_ok {env : Env} {w : Watch Validator} {t : Task} (hok : t.Ok env w) {x : Handed}
    (hx : x ∈ t.executions) : x.Ok env w := by
  rcases List.mem_append.1 hx with hx | hx
  · obtain ⟨y, hy, rfl⟩ := List.mem_map.1 hx
    exact (hok.past y hy).1
  · exact (hok.phase.handed_ok (Option.mem_toList.1 hx)).1

theorem Task.Ok.executions_ordered {env : Env} {w : Watch Validator} {t : Task} (hok : t.Ok env w) :
    (t.executions.map fun x => x.used).Pairwise (· ≤ ·) := by
  rw [Task.executions, List.map_append, List.map_map, List.pairwise_append]
  refine ⟨hok.ordered, ?_, ?_⟩
  · cases t.phase.handed <;> simp
  · rintro _ hu _ hv
    obtain ⟨y, hy, rfl⟩ := List.mem_map.1 hu
    obtain ⟨x, hx, rfl⟩ := List.mem_map.1 hv
    obtain ⟨hxok, hhandling⟩ := hok.phase.handed_ok (Option.mem_toList.1 hx)
    exact (hok.behind _ hhandling y hy).trans hxok.decided.held.begun

/-- **Reloads are atomic for each message.** What was handed to the forwarder was decided on and prepared by
    one validator, current at some moment between the beginning of its handling and the decision; a task
    never goes back to an older one; and a reload that fails changes nothing. -/
theorem reload_atomic {env : Env} {configPath : Str} {validator : Validator} {s : DaemonState}
    (h : (daemon env configPath validator).Reachable s) :
    (∀ t ∈ s.tasks, (∀ x ∈ t.executions, x.begun ≤ x.used ∧ x.used ≤ x.decided ∧
        s.watch.value? x.used = some x.validator ∧ x.verdict = x.validator.validate env.serde x.msg ∧
        ∀ sent metrics, (handleMessage env x.cfg x.validator sent x.msg metrics).1 = x.handed) ∧
      (t.executions.map fun x => x.used).Pairwise (· ≤ ·)) ∧
    ∀ host s', daemonStep env configPath s (.reload host) = some s' →
      (∀ cfg, load host configPath = .ok cfg →
        (∃ path ∈ cfg.validation.schemas, ¬ GoodSchema env.serde host path) ∨
          cfg.validation.discriminator.isSome = true ∧
            ∃ e ∈ cfg.validation.schemaMap.entries, ¬ GoodSchema env.serde host e.2) → s' = s := by
  have hok := daemon_ok h
  constructor
  · intro t ht
    have htask := hok.tasks t ht
    refine ⟨fun x hx => ?_, htask.executions_ordered⟩
    obtain ⟨⟨hheld, hused, -, hverdict⟩, hhanded⟩ := htask.executions_ok hx
    exact ⟨hheld.begun, hused, hheld.current, hverdict, hhanded⟩
  · intro host s' hstep hfails
    obtain ⟨e, he⟩ := reloadValidator_fails_iff.2 hfails
    simp only [daemonStep, he] at hstep
    cases hstep
    rfl

/-- A configuration with one schema, and a host on which it compiles. -/
def sampleHost : Host where
  readToString _ := .ok "\x7b\x7d".toList
  tomlFromStr _ := .ok ⟨⟨"0660".toList, 1, 64, .unixStream, .newline, .original⟩, ⟨.unixDgram, 4, .drop⟩,
    ⟨.strict, ["schema".toList], none, .empty, .never, .never, false⟩⟩
  validatorFor _ := .ok fun _ => true

/-- A client that sends one line. -/
def oneLine (line : String) : Source := .session (sampleConfig .newline 64) [utf8 (line.toList ++ ['\n'])] .eof

/-- A message that is being handled while the validator is replaced, in vain at first. -/
def handledAcrossReload : List DaemonAction :=
  [.spawn (oneLine "<13>1 - - - - - - \x7b\x7d"), .task 0 true, .task 0 true,
    .reload { sampleHost with validatorFor := fun _ => .error "no schema".toList }, .reload sampleHost, .task 0 true,
    .reload sampleHost, .task 0 true, .task 0 true, .task 0 true, .task 0 true]

/-- The daemon that accepts any object at first. -/
def sampleDaemon : System DaemonState DaemonAction := daemon sampleEnv "conf".toList (Validator.new .strict [])

theorem calls_oneLine {line : String} (hfit : Fits (sampleConfig .newline 64) (utf8 line.toList)) :
    (oneLine line).calls sampleEnv = ((Decoder.eventOf (readBody (utf8 line.toList))).toList.filterMap
      (callOf sampleEnv (sampleConfig .newline 64))).map (Prod.mk (sampleConfig .newline 64)) := by
  rw [oneLine, Source.calls, utf8_append]
  exact congrArg _ (runWithCodec_frameOf sampleEnv hfit .eof)

/-- A line that fits is a task with the call it leads to. -/
theorem run_oneLine {line : String} (hfit : Fits (sampleConfig .newline 64) (utf8 line.toList)) (s : DaemonState)
    (as : List DaemonAction) :
    sampleDaemon.run s (.spawn (oneLine line) :: as) = sampleDaemon.run
      { s with tasks := s.tasks ++ [⟨[], ((Decoder.eventOf (readBody (utf8 line.toList))).toList.filterMap
        (callOf sampleEnv (sampleConfig .newline 64))).map (Prod.mk (sampleConfig .newline 64)), .idle, [], 0⟩] } as := by
  rw [← calls_oneLine hfit]
  rfl

theorem reload_atomic_across :
    ∃ s, sampleDaemon.run sampleDaemon.start handledAcrossReload = some s ∧
      (s.tasks.map fun t => t.past.map fun x => (x.1.begun, x.1.used, x.1.decided)) = [[(0, 1, 2)]] ∧
      ∀ t ∈ s.tasks, ∀ x ∈ t.executions, s.watch.value? x.used = some x.validator := by
  have hrun : (sampleDaemon.run sampleDaemon.start handledAcrossReload).map
      (fun s => s.tasks.map fun t => t.past.map fun x => (x.1.begun, x.1.used, x.1.decided)) = some [[(0, 1, 2)]] := by
    rw [handledAcrossReload, run_oneLine (fits_sample (by decide) (by decide))]
    decide
  obtain ⟨s, hs, hpast⟩ := Option.map_eq_some_iff.1 hrun
  exact ⟨s, hs, hpast, fun t ht x hx => (((reload_atomic ⟨_, hs⟩).1 t ht).1 x hx).2.2.1⟩

/-! ## Counters -/

/-- How often one of the other three was incremented. -/
def settled (incs : List Counter) : Nat := incs.count .forwarded + incs.count .dropped + incs.count .errors

theorem settled_append (l l' : List Counter) : settled (l ++ l') = settled l + settled l' := by
  simp only [settled, List.count_append]
  omega

theorem balanced_outcome (verdict : Except ValidationError Unit) (sent : Bool) :
    [Counter.received, outcome verdict sent].count .received = settled [Counter.received, outcome verdict sent] := by
  rcases verdict with e | _
  · rfl
  · cases sent <;> rfl

theorem balanced_past (past : List (Handed × Bool))
    (h : ∀ x ∈ past, x.1.incs = [.received, outcome x.1.verdict x.2]) :
    (past.map fun x => x.1.incs).flatten.count .received = settled (past.map fun x => x.1.incs).flatten := by
  induction past with
  | nil => rfl
  | cons x past ih =>
    rw [List.forall_mem_cons] at h
    rw [List.map_cons, List.flatten_cons, List.count_append, settled_append, ih h.2, h.1, balanced_outcome]

theorem Phase.Ok.balanced {env : Env} {w : Watch Validator} {p : Phase} (hok : p.Ok env w) :
    p.incs.count .received = settled p.incs + if p.inFlight then 1 else 0 := by
  cases p with
  | idle | reporting => rfl
  | entered h | received h | holding h | decided h => rw [Phase.incs, Phase.handling, Option.map_some, hok.2]; rfl
  | dropped d | reportingDrop d | forwarding d | returned d =>
    rw [Phase.incs, Phase.handling, Option.map_some, hok.2.1]; rfl

/-- Every call is counted as received, and once more when it ends. -/
theorem Task.Ok.balanced {env : Env} {w : Watch Validator} {t : Task} (hok : t.Ok env w) :
    t.incs.count .received = settled t.incs + if t.phase.inFlight then 1 else 0 := by
  rw [Task.incs, List.count_append, settled_append, balanced_past t.past fun x hx => (hok.past x hx).2,
    hok.phase.balanced, Nat.add_assoc]

theorem tasks_balanced {env : Env} {w : Watch Validator} (tasks : List Task) (h : ∀ t ∈ tasks, t.Ok env w) :
    (tasks.map fun t => t.incs.count .received).sum = (tasks.map fun t => t.incs.count .forwarded).sum +
      (tasks.map fun t => t.incs.count .dropped).sum + (tasks.map fun t => t.incs.count .errors).sum +
      tasks.countP fun t => t.phase.inFlight := by
  induction tasks with
  | nil => rfl
  | cons t tasks ih =>
    rw [List.forall_mem_cons] at h
    have ht := h.1.balanced
    have hrest := ih h.2
    simp only [List.map_cons, List.sum_cons, List.countP_cons, settled] at ht ⊢
    omega

/-- **The counters are conserved**, in every interleaving: what was received is forwarded, dropped, failed or
    in flight; and each call of `handle_message` that has returned has incremented `received` and one of the
    other three. -/
theorem counters_conserved {env : Env} {configPath : Str} {validator : Validator} {s : DaemonState}
    (h : (daemon env configPath validator).Reachable s) :
    s.metrics.received = s.metrics.forwarded + s.metrics.dropped + s.metrics.errors + UInt64.ofNat s.inFlight ∧
    (∀ c, s.metrics.get c = UInt64.ofNat (s.count c)) ∧
    ∀ t ∈ s.tasks, ∀ x ∈ t.past, ∃ c, x.1.incs = [.received, c] ∧ c ≠ .received ∧
      (c = .dropped ↔ ∃ e, x.1.validator.validate env.serde x.1.msg = .error e) ∧
      (c = .forwarded ↔ x.1.validator.validate env.serde x.1.msg = .ok () ∧ x.2 = true) := by
  have hok := daemon_ok h
  refine ⟨?_, hok.counted, ?_⟩
  · have hsum : s.count .received = s.count .forwarded + s.count .dropped + s.count .errors + s.inFlight :=
      tasks_balanced s.tasks hok.tasks
    have hmetrics : ∀ c, UInt64.ofNat (s.count c) = s.metrics.get c := fun c => (hok.counted c).symm
    calc s.metrics.received = UInt64.ofNat (s.count .received) := hok.counted .received
      _ = UInt64.ofNat (s.count .forwarded) + UInt64.ofNat (s.count .dropped) + UInt64.ofNat (s.count .errors) +
          UInt64.ofNat s.inFlight := by rw [hsum, UInt64.ofNat_add, UInt64.ofNat_add, UInt64.ofNat_add]
      _ = _ := by rw [hmetrics, hmetrics, hmetrics]; rfl
  · intro t ht x hx
    obtain ⟨hx, hincs⟩ := (hok.tasks t ht).past x hx
    rw [← hx.decided.verdict]
    refine ⟨_, hincs, ?_⟩
    rcases x.1.verdict with e | _ <;> cases x.2 <;> simp [outcome]

/-- A message that is dropped, beside one that is forwarded but not yet counted. -/
def droppedAndForwarded : List DaemonAction :=
  [.spawn (oneLine "<13>1 - - - - - - x"), .spawn (oneLine "<13>1 - - - - - - \x7b\x7d"), .task 0 true, .task 1 true,
    .task 1 true, .task 0 true, .task 0 true, .task 1 true, .task 1 true, .task 0 true, .task 0 true, .task 1 true,
    .task 0 false, .task 0 false, .task 1 true]

theorem counters_conserved_two :
    ∃ s, sampleDaemon.run sampleDaemon.start droppedAndForwarded = some s ∧ s.metrics = ⟨2, 0, 1, 0⟩ ∧ s.inFlight = 1 ∧
      s.metrics.received = s.metrics.forwarded + s.metrics.dropped + s.metrics.errors + UInt64.ofNat s.inFlight := by
  have hrun : (sampleDaemon.run sampleDaemon.start droppedAndForwarded).map (fun s => (s.metrics, s.inFlight)) =
      some (⟨2, 0, 1, 0⟩, 1) := by
    rw [droppedAndForwarded, run_oneLine (fits_sample (by decide) (by decide)),
      run_oneLine (fits_sample (by decide) (by decide))]
    decide
  obtain ⟨s, hs, heq⟩ := Option.map_eq_some_iff.1 hrun
  obtain ⟨hm, hf⟩ := Prod.mk.inj heq
  exact ⟨s, hs, hm, hf, (counters_conserved ⟨_, hs⟩).1⟩

theorem tasks_reported {env : Env} {w : Watch Validator} (tasks : List Task) (h : ∀ t ∈ tasks, t.Ok env w)
    (hidle : ∀ t ∈ tasks, t.phase = .idle) :
    (tasks.map Task.reports).sum = (tasks.map Task.early).sum + (tasks.map fun t => t.incs.count .dropped).sum := by
  induction tasks with
  | nil => rfl
  | cons t tasks ih =>
    rw [List.forall_mem_cons] at h hidle
    have ht := h.1.reported
    have hrest := ih h.2 hidle.2
    have hnone : Phase.unreported .idle = 0 := rfl
    rw [hidle.1, hnone] at ht
    simp only [List.map_cons, List.sum_cons]
    omega

/-- **`dropped` counts the reports just if nothing was rejected earlier**: once no message is in flight it is
    the number of the messages that validation rejected, and a frame or a datagram that is rejected before
    `handle_message` is reported without being counted. -/
theorem dropped_counts_reports_iff {env : Env} {configPath : Str} {validator : Validator} {s : DaemonState}
    (h : (daemon env configPath validator).Reachable s) (hq : s.quiet = true) :
    s.metrics.dropped = UInt64.ofNat s.reports ↔ UInt64.ofNat s.early = 0 := by
  have hok := daemon_ok h
  have hidle : ∀ t ∈ s.tasks, t.phase = .idle :=
    fun t ht => Phase.isIdle_eq_true.1 (List.all_eq_true.1 hq t ht)
  have hreports : s.reports = s.early + s.count .dropped := tasks_reported s.tasks hok.tasks hidle
  have hdropped : s.metrics.dropped = UInt64.ofNat (s.count .dropped) := hok.counted .dropped
  rw [hdropped, hreports, UInt64.ofNat_add]
  exact UInt64.right_eq_add

/-- One line that is no JSON, and one that is no syslog message. -/
def rejectedLate : List DaemonAction := .spawn (oneLine "<13>1 - - - - - - x") :: List.replicate 7 (.task 0 true)

def rejectedEarly : List DaemonAction := .spawn (oneLine "x") :: List.replicate 2 (.task 0 true)

theorem dropped_counts_late :
    ∃ s, sampleDaemon.run sampleDaemon.start rejectedLate = some s ∧ s.quiet = true ∧ s.reports = 1 ∧
      s.metrics.dropped = UInt64.ofNat s.reports := by
  have hrun : (sampleDaemon.run sampleDaemon.start rejectedLate).map (fun s => (s.quiet, s.reports, s.early)) =
      some (true, 1, 0) := by
    rw [rejectedLate, run_oneLine (fits_sample (by decide) (by decide))]
    decide
  obtain ⟨s, hs, heq⟩ := Option.map_eq_some_iff.1 hrun
  simp only [Prod.mk.injEq] at heq
  obtain ⟨hq, hr, he⟩ := heq
  exact ⟨s, hs, hq, hr, (dropped_counts_reports_iff ⟨_, hs⟩ hq).2 (by rw [he]; rfl)⟩

/-- The line that does not parse is reported, and `dropped` stays at zero. -/
theorem dropped_misses_early :
    ∃ s, sampleDaemon.run sampleDaemon.start rejectedEarly = some s ∧ s.quiet = true ∧ s.reports = 1 ∧
      s.metrics = ⟨0, 0, 0, 0⟩ ∧ s.metrics.dropped ≠ UInt64.ofNat s.reports := by
  have hrun : (sampleDaemon.run sampleDaemon.start rejectedEarly).map (fun s => (s.quiet, s.reports, s.metrics)) =
      some (true, 1, ⟨0, 0, 0, 0⟩) := by
    rw [rejectedEarly, run_oneLine (fits_sample (by decide) (by decide))]
    decide
  obtain ⟨s, hs, heq⟩ := Option.map_eq_some_iff.1 hrun
  simp only [Prod.mk.injEq] at heq
  obtain ⟨hq, hr, hm⟩ := heq
  exact ⟨s, hs, hq, hr, hm, by rw [hr, hm]; decide⟩

end LogFence
