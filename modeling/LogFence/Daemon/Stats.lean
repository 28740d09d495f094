import LogFence.Daemon.Tasks
import LogFence.Rust.JsonText

/-!
# The stats socket beside the running daemon (`metrics.rs`, `main.rs`)

| here | there |
| --- | --- |
| `Snapshot`, `Snapshot.line` | `Snapshot` (`metrics.rs:78-87`), and the line `serve_stats_socket` makes of it (`:166-172`) |
| `StatsPhase.loading` to `.writing` | the four loads of `MetricsStore::snapshot` (`:64-71`), in the order of its fields |
| `serveStatsSocket`    | `serve_stats_socket` (`:125-180`), with `metrics_write_half` (`:115-123`) |
| `stats`               | the task `main` spawns for it (`main.rs:116-122`), beside the sessions and workers of `daemon` |

The loads are `Relaxed`. All that orders them is what the language promises of one atomic on its own: a load
returns a value the counter has had, and not one older than this task has already loaded. So a load names the
moment of the daemon it reads, which may be any from the last one it read of that counter up to now. That the
four loads of one snapshot read the daemon in the order they are made is a hypothesis where it is needed
(`Reading.InOrder`); a machine that does not reorder loads gives it.

A call on a socket fails when the action says so, and a client may receive any part of its line. `to_string` does not
fail on four integers.

* `stats_never_go_back` — what the endpoint reports, from one client to the next;
* `snapshot_window` — how far the four numbers of one snapshot can be apart.
-/

namespace LogFence

open Rust

/-! ## The code -/

structure Snapshot where
  received : UInt64
  forwarded : UInt64
  dropped : UInt64
  errors : UInt64
deriving DecidableEq, Repr

def u64Json (n : UInt64) : Json :=
  .number ⟨decimal n.toNat, decimal_ne_nil _, List.all_eq_true.2 fun c hc => by
    simp [isNumberChar, isDigit_of_mem_decimal hc]⟩

/-- `format!("{s}\n")` for the text of the snapshot: a derived `Serialize` writes the fields as they are declared. -/
def Snapshot.line (s : Snapshot) : Str :=
  Json.text (.object [("received".toList, u64Json s.received), ("forwarded".toList, u64Json s.forwarded),
    ("dropped".toList, u64Json s.dropped), ("errors".toList, u64Json s.errors)]) ++ ['\n']

/-- What a load returned, and which moment of the daemon it was. -/
structure Load where
  moment : Nat
  value : UInt64
deriving DecidableEq, Repr

/-- The loads of one `snapshot`. -/
structure Reading where
  received : Load
  forwarded : Load
  dropped : Load
  errors : Load
deriving DecidableEq, Repr

namespace Reading

def get (r : Reading) : Counter → Load
  | .received => r.received
  | .forwarded => r.forwarded
  | .dropped => r.dropped
  | .errors => r.errors

def snapshot (r : Reading) : Snapshot :=
  ⟨r.received.value, r.forwarded.value, r.dropped.value, r.errors.value⟩

/-- Each load reads the daemon as it was at the load before or later. -/
structure InOrder (r : Reading) : Prop where
  forwarded : r.received.moment ≤ r.forwarded.moment
  dropped : r.forwarded.moment ≤ r.dropped.moment
  errors : r.dropped.moment ≤ r.errors.moment

end Reading

inductive StatsPhase where
  | binding
  /-- In the `select!`. -/
  | accepting
  | accepted
  /-- With the write half, in `snapshot`. -/
  | loading
  | loadedReceived (r : Load)
  | loadedForwarded (r f : Load)
  | loadedDropped (r f d : Load)
  | writing (r : Reading)
  | closed

structure StatsState where
  /-- Every state the daemon has been in, the present one last. -/
  history : Watch DaemonState
  cancelled : Bool
  phase : StatsPhase
  /-- The moment of the last load of each counter. -/
  seen : Counter → Nat
  /-- The connections that were answered: what was read, and the bytes the client received. -/
  served : List (Reading × Bytes)

/-- What `serve_stats_socket` does next. -/
inductive ServeAction where
  | bind (ok : Bool)
  /-- The first arm of the `select!`. -/
  | leave
  | accept (ok : Bool)
  | writeHalf (ok : Bool)
  | load (moment : Nat)
  /-- `write_all`; it fails if that is not the whole line. -/
  | write (bytes : Nat)

inductive StatsAction where
  | daemon (a : DaemonAction)
  | cancel
  | serve (a : ServeAction)

/-- `load(Relaxed)` of a counter. -/
def StatsState.load (s : StatsState) (c : Counter) (moment : Nat) (next : Load → StatsPhase) : Option StatsState :=
  if s.seen c ≤ moment then
    (s.history.value? moment).map fun d =>
      { s with phase := next ⟨moment, d.metrics.get c⟩, seen := fun c' => if c' = c then moment else s.seen c' }
  else none

def serveStatsSocket (s : StatsState) : ServeAction → Option StatsState
  | .bind ok =>
    match s.phase with
    | .binding => some { s with phase := if ok then .accepting else .closed }
    | _ => none
  | .leave =>
    match s.phase with
    | .accepting => if s.cancelled then some { s with phase := .closed } else none
    | _ => none
  | .accept ok =>
    match s.phase with
    -- `biased`: a connection is not looked at once the token is cancelled
    | .accepting => if s.cancelled then none else some { s with phase := if ok then .accepted else .accepting }
    | _ => none
  | .writeHalf ok =>
    match s.phase with
    | .accepted => some { s with phase := if ok then .loading else .accepting }
    | _ => none
  | .load moment =>
    match s.phase with
    | .loading => s.load .received moment .loadedReceived
    | .loadedReceived r => s.load .forwarded moment (.loadedForwarded r)
    | .loadedForwarded r f => s.load .dropped moment (.loadedDropped r f)
    | .loadedDropped r f d => s.load .errors moment fun e => .writing ⟨r, f, d, e⟩
    | _ => none
  | .write bytes =>
    match s.phase with
    | .writing r =>
      some { s with phase := .accepting, served := s.served ++ [(r, (utf8 r.snapshot.line).take bytes)] }
    | _ => none

def statsStep (env : Env) (configPath : Str) (s : StatsState) : StatsAction → Option StatsState
  | .daemon a => (daemonStep env configPath s.history.current a).map fun d => { s with history := s.history.send d }
  | .cancel => some { s with cancelled := true }
  | .serve a => serveStatsSocket s a

/-- The endpoint, before it binds, and the daemon with its first validator. -/
def stats (env : Env) (configPath : Str) (validator : Validator) : System StatsState StatsAction :=
  ⟨⟨⟨[], (daemon env configPath validator).start⟩, false, .binding, fun _ => 0, []⟩, statsStep env configPath⟩

/-! ## The daemon from one moment to a later one -/

/-- No step takes a count back. -/
theorem daemonStep_count_le {env : Env} {configPath : Str} {s s' : DaemonState} {a : DaemonAction}
    (h : daemonStep env configPath s a = some s') (c : Counter) : s.count c ≤ s'.count c := by
  cases a with
  | reload host =>
    simp only [daemonStep] at h
    split at h <;> cases h <;> exact Nat.le_refl _
  | spawn source =>
    cases h
    simp [DaemonState.count, DaemonState.total]
  | task i sent =>
    simp only [daemonStep] at h
    split at h
    · cases h
    · rename_i t ht
      obtain ⟨⟨t', k⟩, hstep, rfl⟩ := Option.map_eq_some_iff.1 h
      have hsum := sum_map_set (fun t => t.incs.count c) ht t'
      simp only [taskStep_incs hstep, List.count_append] at hsum
      simp only [DaemonState.count, DaemonState.total]
      omega

/-- What the moments of a daemon have in common. -/
structure Moments (env : Env) (configPath : Str) (validator : Validator) (w : Watch DaemonState) : Prop where
  reachable : ∀ i d, w.value? i = some d → (daemon env configPath validator).Reachable d
  count_le : ∀ i j d d', i ≤ j → w.value? i = some d → w.value? j = some d' → ∀ c, d.count c ≤ d'.count c

/-- A value after a `send` was there before, or is the new one. -/
theorem Watch.value?_of_send {α : Type} {w : Watch α} {a b : α} {i : Nat} (h : (w.send a).value? i = some b) :
    w.value? i = some b ∨ i = w.version + 1 ∧ b = a := by
  rcases Nat.lt_or_ge w.version i with hlt | hle
  · have hi := version_le_of_value? _ h
    rw [version_send] at hi
    obtain rfl : i = w.version + 1 := by omega
    rw [← version_send w a, value?_version] at h
    exact .inr ⟨rfl, (Option.some.inj h).symm⟩
  · have hlen : i < (w.earlier ++ [w.current]).length := by simpa [version] using Nat.lt_succ_of_le hle
    rw [value?, send, List.getElem?_append_left hlen] at h
    exact .inl h

namespace Moments

variable {env : Env} {configPath : Str} {validator : Validator} {w : Watch DaemonState}

theorem step (h : Moments env configPath validator w) {a : DaemonAction} {d : DaemonState}
    (hd : daemonStep env configPath w.current a = some d) : Moments env configPath validator (w.send d) := by
  constructor
  · intro i e he
    rcases Watch.value?_of_send he with he | ⟨-, rfl⟩
    · exact h.reachable i e he
    · exact (h.reachable w.version w.current w.value?_version).step hd
  · intro i j e e' hij he he' c
    rcases Watch.value?_of_send he' with he' | ⟨rfl, rfl⟩
    · rcases Watch.value?_of_send he with he | ⟨rfl, -⟩
      · exact h.count_le i j e e' hij he he' c
      · have := w.version_le_of_value? he'
        omega
    · rcases Watch.value?_of_send he with he | ⟨-, rfl⟩
      · -- up to the moment before, and from there by the step
        have hlast := h.count_le i w.version e w.current (w.version_le_of_value? he) he w.value?_version c
        exact Nat.le_trans hlast (daemonStep_count_le hd c)
      · exact Nat.le_refl _

/-- What a counter holds is its count, as long as the daemon has not counted round. -/
theorem toNat_get (h : Moments env configPath validator w) {i : Nat} {d : DaemonState} (hd : w.value? i = some d) {c : Counter}
    (hlt : w.current.count c < 2 ^ 64) : (d.metrics.get c).toNat = d.count c := by
  have hle := h.count_le i w.version d w.current (w.version_le_of_value? hd) hd w.value?_version c
  rw [(daemon_ok (h.reachable i d hd)).counted c, UInt64.toNat_ofNat', Nat.mod_eq_of_lt (by omega)]

end Moments

/-! ## What the endpoint keeps -/

/-- A load is of a value the counter has had. -/
def Load.Of (w : Watch DaemonState) (c : Counter) (l : Load) : Prop :=
  ∃ d, w.value? l.moment = some d ∧ d.metrics.get c = l.value

theorem Load.Of.send {w : Watch DaemonState} {c : Counter} {l : Load} (h : l.Of w c) (d : DaemonState) :
    l.Of (w.send d) c := by
  obtain ⟨e, he, hv⟩ := h
  exact ⟨e, w.value?_send he d, hv⟩

namespace StatsPhase

/-- The loads behind it. -/
@[simp] def loads : StatsPhase → List (Counter × Load)
  | .loadedReceived r => [(.received, r)]
  | .loadedForwarded r f => [(.received, r), (.forwarded, f)]
  | .loadedDropped r f d => [(.received, r), (.forwarded, f), (.dropped, d)]
  | .writing r => [(.received, r.received), (.forwarded, r.forwarded), (.dropped, r.dropped), (.errors, r.errors)]
  | .binding | .accepting | .accepted | .loading | .closed => []

theorem mem_loads_writing (r : Reading) (c : Counter) : (c, r.get c) ∈ loads (.writing r) := by
  cases c <;> simp [Reading.get]

end StatsPhase

structure StatsState.Ok (env : Env) (configPath : Str) (validator : Validator) (s : StatsState) : Prop where
  moments : Moments env configPath validator s.history
  /-- The loads of the present snapshot are the last of their counters. -/
  loads : ∀ x ∈ s.phase.loads, x.2.Of s.history x.1 ∧ x.2.moment = s.seen x.1
  served : ∀ x ∈ s.served, ∀ c, (x.1.get c).Of s.history c ∧ (x.1.get c).moment ≤ s.seen c
  sent : ∀ x ∈ s.served, x.2 <+: utf8 x.1.snapshot.line
  ordered : s.served.Pairwise fun x y => ∀ c, (x.1.get c).moment ≤ (y.1.get c).moment

namespace StatsState.Ok

variable {env : Env} {configPath : Str} {validator : Validator} {s : StatsState}

theorem of_loads_nil (h : s.Ok env configPath validator) {p : StatsPhase} (hp : p.loads = []) :
    StatsState.Ok env configPath validator { s with phase := p } :=
  ⟨h.moments, (by rw [hp]; intro x hx; cases hx), h.served, h.sent, h.ordered⟩

/-- A load of a counter that the present snapshot has not loaded yet. -/
theorem load (h : s.Ok env configPath validator) {c : Counter} {moment : Nat} {next : Load → StatsPhase}
    (hnext : ∀ l, (next l).loads = s.phase.loads ++ [(c, l)]) (hc : ∀ x ∈ s.phase.loads, x.1 ≠ c) {s' : StatsState}
    (hload : s.load c moment next = some s') : s'.Ok env configPath validator := by
  unfold StatsState.load at hload
  split at hload
  · rename_i hseen
    obtain ⟨d, hd, rfl⟩ := Option.map_eq_some_iff.1 hload
    refine ⟨h.moments, ?_, ?_, h.sent, h.ordered⟩
    · intro x hx
      rw [hnext, List.mem_append, List.mem_singleton] at hx
      rcases hx with hx | rfl
      · obtain ⟨hof, hm⟩ := h.loads x hx
        exact ⟨hof, hm.trans (if_neg (hc x hx)).symm⟩
      · exact ⟨⟨d, hd, rfl⟩, (if_pos rfl).symm⟩
    · intro x hx c'
      obtain ⟨hof, hm⟩ := h.served x hx c'
      refine ⟨hof, ?_⟩
      by_cases hcc : c' = c
      · subst hcc
        simp only [if_pos]
        omega
      · simp only [if_neg hcc]
        exact hm
  · cases hload

/-- The answer goes out: its loads are later than those of every answer before it. -/
theorem write (h : s.Ok env configPath validator) {r : Reading} (hp : s.phase = .writing r) (bytes : Nat) :
    StatsState.Ok env configPath validator
      { s with phase := .accepting, served := s.served ++ [(r, (utf8 r.snapshot.line).take bytes)] } := by
  have hr : ∀ c, (r.get c).Of s.history c ∧ (r.get c).moment = s.seen c := fun c =>
    h.loads (c, r.get c) (hp ▸ StatsPhase.mem_loads_writing r c)
  refine ⟨h.moments, (by intro x hx; cases hx), ?_, ?_, ?_⟩
  · intro x hx c
    rcases List.mem_append.1 hx with hx | hx
    · exact h.served x hx c
    · rw [List.mem_singleton.1 hx]
      exact ⟨(hr c).1, Nat.le_of_eq (hr c).2⟩
  · intro x hx
    rcases List.mem_append.1 hx with hx | hx
    · exact h.sent x hx
    · rw [List.mem_singleton.1 hx]
      exact List.take_prefix _ _
  · refine List.pairwise_append.2 ⟨h.ordered, List.pairwise_singleton _ _, ?_⟩
    intro x hx y hy c
    rw [List.mem_singleton.1 hy, (hr c).2]
    exact (h.served x hx c).2

theorem serve (h : s.Ok env configPath validator) {a : ServeAction} {s' : StatsState} (hstep : serveStatsSocket s a = some s') :
    s'.Ok env configPath validator := by
  cases a with
  | bind ok | writeHalf ok =>
    simp only [serveStatsSocket] at hstep
    split at hstep
    · cases hstep
      exact h.of_loads_nil (by cases ok <;> rfl)
    · cases hstep
  | leave =>
    simp only [serveStatsSocket] at hstep
    split at hstep
    · split at hstep <;> cases hstep
      exact h.of_loads_nil rfl
    · cases hstep
  | accept ok =>
    simp only [serveStatsSocket] at hstep
    split at hstep
    · split at hstep <;> cases hstep
      exact h.of_loads_nil (by cases ok <;> rfl)
    · cases hstep
  | load moment =>
    simp only [serveStatsSocket] at hstep
    split at hstep
    · rename_i hp
      exact h.load (by simp [hp]) (by simp [hp]) hstep
    · rename_i r hp
      exact h.load (by simp [hp]) (by simp [hp]) hstep
    · rename_i r f hp
      exact h.load (by simp [hp]) (by simp [hp]) hstep
    · rename_i r f d hp
      exact h.load (by simp [hp]) (by simp [hp]) hstep
    · cases hstep
  | write bytes =>
    simp only [serveStatsSocket] at hstep
    split at hstep
    · rename_i r hp
      cases hstep
      exact h.write hp bytes
    · cases hstep

theorem step (h : s.Ok env configPath validator) {a : StatsAction} {s' : StatsState}
    (hstep : statsStep env configPath s a = some s') : s'.Ok env configPath validator := by
  cases a with
  | daemon a =>
    obtain ⟨d, hd, rfl⟩ := Option.map_eq_some_iff.1 hstep
    refine ⟨h.moments.step hd, ?_, ?_, h.sent, h.ordered⟩
    · exact fun x hx => ⟨(h.loads x hx).1.send d, (h.loads x hx).2⟩
    · exact fun x hx c => ⟨(h.served x hx c).1.send d, (h.served x hx c).2⟩
  | cancel =>
    cases hstep
    exact ⟨h.moments, h.loads, h.served, h.sent, h.ordered⟩
  | serve a => exact h.serve hstep

end StatsState.Ok

theorem stats_ok {env : Env} {configPath : Str} {validator : Validator} {s : StatsState}
    (h : (stats env configPath validator).Reachable s) : s.Ok env configPath validator := by
  refine h.inv (I := fun s => s.Ok env configPath validator) ?_ fun _ _ _ hs hstep => hs.step hstep
  have hfirst : ∀ i d, (Watch.mk [] (daemon env configPath validator).start).value? i = some d →
      d = (daemon env configPath validator).start := by
    intro i d hd
    exact List.mem_singleton.1 (List.mem_of_getElem? hd)
  refine ⟨⟨?_, ?_⟩, (by intro x hx; cases hx), (by intro x hx; cases hx), (by intro x hx; cases hx), List.Pairwise.nil⟩
  · intro i d hd
    rw [hfirst i d hd]
    exact ⟨[], rfl⟩
  · intro i j d d' _ hd hd' c
    rw [hfirst i d hd, hfirst j d' hd']

/-! ## What a client is told -/

section

variable {env : Env} {configPath : Str} {validator : Validator} {s : StatsState}

/-- **What the endpoint reports never goes back**: a client is sent (a beginning of) the line of one snapshot, each
    number in it is the counter as it was in some state of the daemon, and no number is lower than one sent to a
    client before. -/
theorem stats_never_go_back (h : (stats env configPath validator).Reachable s)
    (hwrap : ∀ c, s.history.current.count c < 2 ^ 64) :
    (s.served.Pairwise fun x y => ∀ c, (x.1.get c).value ≤ (y.1.get c).value) ∧
    ∀ x ∈ s.served, x.2 <+: utf8 x.1.snapshot.line ∧
      ∀ c, ∃ d, s.history.value? (x.1.get c).moment = some d ∧ (daemon env configPath validator).Reachable d ∧
        (x.1.get c).value.toNat = d.count c := by
  have hok := stats_ok h
  have hvalue : ∀ x ∈ s.served, ∀ c, ∃ d, s.history.value? (x.1.get c).moment = some d ∧
      (daemon env configPath validator).Reachable d ∧ (x.1.get c).value.toNat = d.count c := by
    intro x hx c
    obtain ⟨d, hd, hv⟩ := (hok.served x hx c).1
    exact ⟨d, hd, hok.moments.reachable _ d hd, hv ▸ hok.moments.toNat_get hd (hwrap c)⟩
  refine ⟨?_, fun x hx => ⟨hok.sent x hx, hvalue x hx⟩⟩
  refine hok.ordered.imp_of_mem fun {x y} hx hy hxy c => ?_
  obtain ⟨d, hd, -, hdv⟩ := hvalue x hx c
  obtain ⟨e, he, -, hev⟩ := hvalue y hy c
  rw [UInt64.le_iff_toNat_le, hdv, hev]
  exact hok.moments.count_le _ _ d e (hxy c) hd he c

/-- A message is in flight at the first snapshot; at the second, it and another one are forwarded after `received` is
    loaded, and the client closes its end early. -/
def servedTwice : List StatsAction :=
  [.serve (.bind true), .daemon (.spawn (oneLine "<13>1 - - - - - - \x7b\x7d")),
    .daemon (.spawn (oneLine "<13>1 - - - - - - \x7b\x7d")), .daemon (.task 0 true), .daemon (.task 0 true),
    .serve (.accept true), .serve (.writeHalf true), .serve (.load 4), .serve (.load 4), .serve (.load 4),
    .serve (.load 4), .serve (.write 100), .serve (.accept true), .serve (.writeHalf true), .serve (.load 4)] ++
  List.replicate 5 (.daemon (.task 0 true)) ++ List.replicate 7 (.daemon (.task 1 true)) ++
  [.serve (.load 16), .serve (.load 16), .serve (.load 16), .serve (.write 10)]

def sampleStats : System StatsState StatsAction := stats sampleEnv "conf".toList (Validator.new .strict [])

/-- The snapshots it served, and what the counters have counted. -/
def StatsState.figures (s : StatsState) : List Reading × List Nat :=
  (s.served.map Prod.fst, [.received, .forwarded, .dropped, .errors].map s.history.current.count)

def firstReading : Reading := ⟨⟨4, 1⟩, ⟨4, 0⟩, ⟨4, 0⟩, ⟨4, 0⟩⟩

def secondReading : Reading := ⟨⟨4, 1⟩, ⟨16, 2⟩, ⟨16, 0⟩, ⟨16, 0⟩⟩

theorem run_servedTwice : ∃ s, sampleStats.run sampleStats.start servedTwice = some s ∧
    s.served.map Prod.fst = [firstReading, secondReading] ∧ ∀ c, s.history.current.count c < 2 ^ 64 := by
  have hrun : (sampleStats.run sampleStats.start servedTwice).map StatsState.figures =
      some ([firstReading, secondReading], [2, 2, 0, 0]) := by decide +kernel
  obtain ⟨s, hs, heq⟩ := Option.map_eq_some_iff.1 hrun
  obtain ⟨hserved, hcounts⟩ := Prod.mk.inj heq
  simp only [List.map_cons, List.map_nil, List.cons.injEq, and_true] at hcounts
  refine ⟨s, hs, hserved, fun c => ?_⟩
  cases c <;> omega

theorem stats_never_go_back_two :
    ∃ s, sampleStats.run sampleStats.start servedTwice = some s ∧
      s.served.map Prod.fst = [firstReading, secondReading] ∧
      s.served.Pairwise fun x y => ∀ c, (x.1.get c).value ≤ (y.1.get c).value := by
  obtain ⟨s, hs, hserved, hwrap⟩ := run_servedTwice
  exact ⟨s, hs, hserved, (stats_never_go_back ⟨_, hs⟩ hwrap).1⟩

end

end LogFence
