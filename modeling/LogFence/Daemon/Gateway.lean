import LogFence.Daemon.Connection
import LogFence.Daemon.Output
import LogFence.Daemon.Tasks
import LogFence.Rust.ReadLoop

/-!
# From the clients' bytes to what rsyslog reads

The daemon as one system: any number of sessions and datagram workers, each with its own clone of the forwarder,
beside reloads.

| here | there |
| --- | --- |
| `Feed.stream`   | `run_with_codec` (`session.rs:123`): the read loop, one `decode` or one read at a time |
| `Feed.worker`   | `run_worker` (`datagram_listener.rs:257`): one `recv` at a time |
| `Lane`          | a session or a worker: what it reads, where it is in a call, and its clone of the forwarder |
| `Lane.step`     | the three interleaved: a call is made when the one before has returned, and `forward` has returned when its output says so |
| `GatewayAction.session`, `.worker` | `forwarder.clone()` and `spawn` in `Listener::run` and `DatagramListener::run` |
| `GatewayState.datagrams`, `.cancelled` | what the clones have put into the datagram socket, and whether one of them has cancelled the token |

`Task` and `taskStep` are those of `Tasks`, and `Inner` is the forwarder's output: here the outcome of
`forward` is no longer up to the action, it is what the output returned.

* `gateway_delivers` — what rsyslog reads, on any connection or off the datagram socket, over every run;
* `counters_match_wire` — what the counters say about it;
* `token_cancelled_iff` — when the forwarder ends the daemon.
-/

namespace LogFence

open Rust Decoder

/-! ## The code -/

inductive Feed where
  | stream (cfg : SessionConfig) (loop : Loop FrameError SyslogMessage)
  /-- With what it has received, and whether it has not panicked. -/
  | worker (baseCfg : SessionConfig) (received : List (Bytes × Str)) (alive : Bool)

inductive FeedAction where
  | loop (a : LoopAction)
  | recv (datagram : Bytes × Str)

namespace Feed

def cfg : Feed → SessionConfig
  | .stream cfg _ => cfg
  | .worker baseCfg _ _ => baseCfg

/-- A step, and the call it leads to. -/
def step (env : Env) : Feed → FeedAction → Option (Feed × Option (SessionConfig × Call))
  | .stream cfg loop, .loop a =>
    (loop.step (codec cfg) .io a).map fun r => (.stream cfg r.1, (r.2.bind (callOf env cfg)).map (Prod.mk cfg))
  | .worker baseCfg received true, .recv (msgBytes, peer) =>
    let msgCfg := { baseCfg with peer := peer }
    match processDatagram env msgCfg msgBytes with
    | .ok call => some (.worker baseCfg (received ++ [(msgBytes, peer)]) true, some (msgCfg, call))
    | .err e => nomatch e
    | .panic => some (.worker baseCfg (received ++ [(msgBytes, peer)]) false, none)
  | _, _ => none

end Feed

/-- What the task is waiting for `forward` to send. -/
def Phase.outgoing : Phase → Option SyslogMessage
  | .reportingDrop x | .forwarding x => some x.handed
  | .reporting r => some r
  | _ => none

structure Lane where
  feed : Feed
  task : Task
  out : Inner
  /-- What it has given to `forward`, in order. -/
  sent : List SyslogMessage

inductive LaneAction where
  | input (a : FeedAction)
  | task
  | on (a : InnerAction)

namespace Lane

def start (rsyslog : RsyslogConfig) (feed : Feed) : Lane := ⟨feed, ⟨[], [], .idle, [], 0⟩, .new rsyslog, []⟩

/-- What `forward` has returned, if the task waits for it; anything, if it does not. -/
def awaited (l : Lane) : Option Bool :=
  match l.task.phase.outgoing with
  | none => some true
  | some _ => if l.out.busy then none else l.out.returned.getLast?

/-- The beginning of `forward`. -/
def enter (out : Inner) : Option SyslogMessage → Option Inner
  | none => some out
  | some msg => out.call msg

def step (env : Env) (rsyslog : RsyslogConfig) (w : Watch Validator) (l : Lane) :
    LaneAction → Option (Lane × Option Counter × Option Effect)
  | .input a =>
    if l.task.phase.isIdle && l.task.calls.isEmpty then
      (l.feed.step env a).map fun r => ({ l with feed := r.1, task := { l.task with calls := r.2.toList } }, none, none)
    else none
  | .task =>
    l.awaited.bind fun ok =>
      (taskStep env w l.task ok).bind fun r =>
        (enter l.out r.1.phase.outgoing).map fun out =>
          ({ l with task := r.1, out := out, sent := l.sent ++ r.1.phase.outgoing.toList }, r.2, none)
  | .on a => (l.out.step rsyslog a).map fun r => ({ l with out := r.1 }, none, r.2)

end Lane

structure GatewayState where
  watch : Watch Validator
  metrics : Metrics
  lanes : List Lane
  /-- Each with the number of its lane. -/
  datagrams : List (Nat × Bytes)
  cancelled : Bool

inductive GatewayAction where
  | reload (host : Host)
  | session (cfg : SessionConfig)
  | worker (baseCfg : SessionConfig)
  | lane (i : Nat) (a : LaneAction)

def gatewayStep (env : Env) (configPath : Str) (rsyslog : RsyslogConfig) (g : GatewayState) : GatewayAction → Option GatewayState
  | .reload host =>
    match reloadValidator env.serde host configPath with
    | .ok (_, v) => some { g with watch := g.watch.send v }
    | .error _ => some g
  | .session cfg => some { g with lanes := g.lanes ++ [.start rsyslog (.stream cfg .start)] }
  | .worker baseCfg => some { g with lanes := g.lanes ++ [.start rsyslog (.worker baseCfg [] true)] }
  | .lane i a =>
    (g.lanes[i]?).bind fun l =>
      (l.step env rsyslog g.watch a).map fun r =>
        { g with
          lanes := g.lanes.set i r.1
          metrics := r.2.1.elim g.metrics g.metrics.inc
          datagrams := g.datagrams ++ (Effect.datagrams r.2.2).map (Prod.mk i)
          cancelled := g.cancelled || Effect.cancels r.2.2 }

def gateway (env : Env) (configPath : Str) (rsyslog : RsyslogConfig) (validator : Validator) :
    System GatewayState GatewayAction :=
  ⟨⟨⟨[], validator⟩, ⟨0, 0, 0, 0⟩, [], [], false⟩, gatewayStep env configPath rsyslog⟩

/-! ## What a feed has called -/

namespace Feed

/-- The calls it has led to. -/
def calls (env : Env) : Feed → List (SessionConfig × Call)
  | .stream cfg loop => (loop.events.filterMap (callOf env cfg)).map (Prod.mk cfg)
  | .worker baseCfg received _ => workerCalls env baseCfg received

/-- How the reads of a session end, if they end now. -/
def ending (loop : Loop FrameError SyslogMessage) : Ending := if loop.place = .failed then .readError else .eof

/-- The calls of all it has read. -/
def allCalls (env : Env) : Feed → List (SessionConfig × Call)
  | .stream cfg loop => (runWithCodec env cfg loop.chunks (ending loop)).map (Prod.mk cfg)
  | .worker baseCfg received _ => workerCalls env baseCfg received

/-- It has got through all it has read. -/
def done : Feed → Bool
  | .stream _ loop => loop.place == .closed || loop.place == .failed || loop.place == .panicked
  | .worker _ _ _ => true

/-- A loop stands where `feed` does, and a worker that lives has got through all it received. -/
def Ok (env : Env) : Feed → Prop
  | .stream cfg loop => loop.Ok (codec cfg) .io
  | .worker baseCfg received alive =>
    alive = true → ∀ more, workerCalls env baseCfg (received ++ more) =
      workerCalls env baseCfg received ++ workerCalls env baseCfg more

end Feed

theorem workerCalls_cons_ok {env : Env} {baseCfg : SessionConfig} {b : Bytes} {peer : Str} {call : Call}
    (h : processDatagram env { baseCfg with peer := peer } b = .ok call) (rest : List (Bytes × Str)) :
    workerCalls env baseCfg ((b, peer) :: rest) =
      ({ baseCfg with peer := peer }, call) :: workerCalls env baseCfg rest := by
  simp only [workerCalls, h]

theorem workerCalls_cons_panic {env : Env} {baseCfg : SessionConfig} {b : Bytes} {peer : Str}
    (h : processDatagram env { baseCfg with peer := peer } b = .panic) (rest : List (Bytes × Str)) :
    workerCalls env baseCfg ((b, peer) :: rest) = [] := by
  simp only [workerCalls, h]

namespace Feed

variable {env : Env} {f f' : Feed} {a : FeedAction} {call : Option (SessionConfig × Call)}

theorem Ok.stream (cfg : SessionConfig) : (Feed.stream cfg .start).Ok env :=
  @Loop.Ok.start _ _ (codec cfg) .io

theorem Ok.worker (baseCfg : SessionConfig) : (Feed.worker baseCfg [] true).Ok env := fun _ _ => rfl

/-- A step makes the call it says, and no other. -/
theorem step_calls (hok : f.Ok env) (h : f.step env a = some (f', call)) :
    f'.Ok env ∧ f'.calls env = f.calls env ++ call.toList ∧ f'.cfg = f.cfg := by
  cases f with
  | stream cfg loop =>
    cases a with
    | recv d => cases h
    | loop a =>
      obtain ⟨⟨loop', e⟩, hstep, heq⟩ := Option.map_eq_some_iff.1 h
      cases heq
      refine ⟨Loop.Ok.step hok hstep, ?_, rfl⟩
      simp only [calls, Loop.step_events hstep, List.filterMap_append, List.map_append]
      rcases e with _ | e
      · rfl
      · cases he : callOf env cfg e <;> simp [he]
  | worker baseCfg received alive =>
    cases a with
    | loop a => cases alive <;> cases h
    | recv d =>
      obtain ⟨b, peer⟩ := d
      cases alive with
      | false => cases h
      | true =>
        have hall := hok rfl
        simp only [step] at h
        split at h
        · rename_i c hc
          cases h
          have hone : workerCalls env baseCfg [(b, peer)] = [({ baseCfg with peer := peer }, c)] :=
            workerCalls_cons_ok hc []
          refine ⟨fun _ more => ?_, ?_, rfl⟩
          · rw [List.append_assoc, hall, hall, hone, List.singleton_append, workerCalls_cons_ok hc, List.append_assoc]
            rfl
          · simp only [calls]
            rw [hall, hone]
            rfl
        · rename_i e _
          exact nomatch e
        · rename_i hc
          cases h
          refine ⟨(fun hfalse => nomatch hfalse), ?_, rfl⟩
          simp only [calls]
          rw [hall, workerCalls_cons_panic hc]
          rfl

theorem events_extend {cfg : SessionConfig} {loop : Loop FrameError SyslogMessage} (hok : (Feed.stream cfg loop).Ok env) :
    ∃ events, runWithCodec env cfg loop.chunks (ending loop) = events.filterMap (callOf env cfg) ∧ loop.events <+: events ∧
      ((Feed.stream cfg loop).done = true → loop.events = events) := by
  have hloop : loop.Ok (codec cfg) .io := hok
  by_cases hfailed : loop.place = .failed
  · simp only [Loop.Ok, hfailed] at hloop
    refine ⟨((codec cfg).feed [] loop.chunks).1, by simp only [runWithCodec, ending, if_pos hfailed], ?_⟩
    exact ⟨hloop ▸ List.prefix_rfl, fun _ => hloop⟩
  · refine ⟨(codec cfg).run .io loop.chunks, by simp only [runWithCodec, ending, if_neg hfailed], hloop.run_extends, fun hdone => ?_⟩
    simp only [done, Bool.or_eq_true, beq_iff_eq, hfailed, or_false] at hdone
    rcases hdone with hp | hp <;> simpa only [Loop.Ok, hp] using hloop

/-- What was called is the beginning of what the reads lead to, and all of it in the end. -/
theorem Ok.calls_extend (hok : f.Ok env) :
    f.calls env <+: f.allCalls env ∧ (f.done = true → f.calls env = f.allCalls env) := by
  cases f with
  | stream cfg loop =>
    obtain ⟨events, hrun, hext, hdone⟩ := events_extend hok
    simp only [calls, allCalls, hrun]
    exact ⟨(hext.filterMap (callOf env cfg)).map _, fun h => by rw [hdone h]⟩
  | worker => exact ⟨List.prefix_rfl, fun _ => rfl⟩

end Feed

/-! ## What a task answers -/

/-- One message answers a call: a report for a rejection, and for `handle_message` what one validator that
    was current makes of it. -/
def Answers (env : Env) (w : Watch Validator) : SessionConfig × Call → SyslogMessage → Prop
  | (cfg, .handleMessage m), f =>
    ∃ i v, w.value? i = some v ∧ ∀ sent metrics, (handleMessage env cfg v sent m metrics).1 = f
  | (_, .reportRejection r), f => f = r

theorem Answers.send {env : Env} {w : Watch Validator} {c : SessionConfig × Call} {f : SyslogMessage}
    (h : Answers env w c f) (v : Validator) : Answers env (w.send v) c f := by
  obtain ⟨cfg, m | r⟩ := c
  · obtain ⟨i, v', hi, hf⟩ := h
    exact ⟨i, v', w.value?_send hi v, hf⟩
  · exact h

namespace Phase

/-- The call that has given nothing to `forward` yet. -/
def unanswered (p : Phase) : List (SessionConfig × Call) :=
  match p with
  | .entered h | .received h => [(h.cfg, .handleMessage h.msg)]
  | .holding h => [(h.cfg, .handleMessage h.msg)]
  | .decided d | .dropped d _ => [(d.cfg, .handleMessage d.msg)]
  | _ => []

/-- What the call it is in has given to `forward`. -/
def current : Phase → Option SyslogMessage
  | .reportingDrop x | .forwarding x | .returned x _ => some x.handed
  | .reporting r => some r
  | _ => none

theorem length_unanswered_le (p : Phase) : p.unanswered.length ≤ 1 := by cases p <;> simp [unanswered]

end Phase

section
variable {env : Env} {w : Watch Validator} {t t' : Task} {ok : Bool} {c : Option Counter}

theorem taskStep_calls (h : taskStep env w t ok = some (t', c)) : t'.made ++ t'.calls = t.made ++ t.calls := by
  unfold taskStep at h
  split at h
  case h_1 => split at h <;> cases h <;> simp_all
  case h_5 => split at h <;> cases h <;> rfl
  all_goals cases h; rfl

/-- What a step gives to `forward` answers the call it is in. -/
theorem taskStep_answers (h : taskStep env w t ok = some (t', c)) (hok' : t'.Ok env w)
    {answered : List (SessionConfig × Call)} (hmade : t.made = answered ++ t.phase.unanswered) :
    ∃ new, t'.made = answered ++ new ++ t'.phase.unanswered ∧
      List.Forall₂ (Answers env w) new t'.phase.outgoing.toList := by
  have hphase := hok'.phase
  have hhanded : ∀ {x : Handed}, x.Ok env w → Answers env w (x.cfg, .handleMessage x.msg) x.handed :=
    fun hx => ⟨_, _, hx.decided.held.current, hx.handed⟩
  cases taskSteps_of_step h with
  | handles hp => exact ⟨[], by simp [hmade, hp, Phase.unanswered], .nil⟩
  | @rejects cfg r calls hp => exact ⟨[(cfg, .reportRejection r)], by simp [hmade, hp, Phase.unanswered], .cons rfl .nil⟩
  | counts hp | borrows hp | decides hp | drops hp =>
    exact ⟨[], by simp [hmade, hp, Phase.unanswered], .nil⟩
  | @prepares d hp =>
    exact ⟨[(d.cfg, .handleMessage d.msg)], by simp [hmade, hp, Phase.unanswered], .cons (hhanded hphase.1) .nil⟩
  | @reports d e hp =>
    exact ⟨[(d.cfg, .handleMessage d.msg)], by simp [hmade, hp, Phase.unanswered], .cons (hhanded hphase.1) .nil⟩
  | reported _ hp | forwards _ hp | ends hp | rejected hp => exact ⟨[], by simp [hmade, hp, Phase.unanswered], .nil⟩

end

/-! ## What a lane keeps -/

/-- The call `x` of `handle_message` gave its message to `forward` as the `k`-th, with this result. -/
def SentAs (sent : List SyslogMessage) (results : List Bool) (x : Handed × Bool) (k : Nat) : Prop :=
  sent[k]? = some x.1.handed ∧ results[k]? = some x.2

/-- The calls of `handle_message` that have returned, at the numbers `ks` among what was sent before the call
    the task is in. -/
structure Accounted (sent : List SyslogMessage) (results : List Bool) (t : Task) (before : List SyslogMessage)
    (ks : List Nat) : Prop where
  split : sent = before ++ t.phase.current.toList
  increasing : ks.Pairwise (· < ·)
  earlier : ∀ k ∈ ks, k < before.length
  past : List.Forall₂ (SentAs sent results) t.past ks
  returned : ∀ x ok, t.phase = .returned x ok → results[before.length]? = some ok

structure Lane.Ok (env : Env) (rsyslog : RsyslogConfig) (w : Watch Validator) (l : Lane) : Prop where
  feed : l.feed.Ok env
  calls : l.task.made ++ l.task.calls = l.feed.calls env
  task : l.task.Ok env w
  out : l.out.Ok rsyslog l.sent
  answered : ∃ answered, l.task.made = answered ++ l.task.phase.unanswered ∧
    List.Forall₂ (Answers env w) answered l.sent
  /-- Where it waits for no `forward`, its output is not busy. -/
  quiet : l.task.phase.outgoing = none → l.out.busy = false
  accounted : ∃ before ks, Accounted l.sent l.out.returned l.task before ks

namespace Lane

variable {env : Env} {rsyslog : RsyslogConfig} {w : Watch Validator} {l l' : Lane}

theorem Ok.start {feed : Feed} (hfeed : feed.Ok env) (hcalls : feed.calls env = []) :
    (start rsyslog feed).Ok env rsyslog w := by
  have hout : (Inner.new rsyslog).Ok rsyslog [] := .new
  have hnone : (Inner.new rsyslog).returned = [] := by
    unfold Inner.new
    split <;> rfl
  refine ⟨hfeed, hcalls.symm, ?_, hout, ⟨[], rfl, .nil⟩, fun _ => hout.busy_eq_false.2 (by rw [hnone]; rfl), [], [], ?_⟩
  · exact ⟨trivial, by simp [Lane.start], by simp [Lane.start], by simp [Lane.start], rfl⟩
  · exact ⟨rfl, .nil, by simp, .nil, by simp [Lane.start]⟩

/-- A new call of `forward` is one more in the output, and takes nothing back. -/
theorem enter_eq {out out' : Inner} {sent : List SyslogMessage} {m? : Option SyslogMessage} (hok : out.Ok rsyslog sent)
    (h : enter out m? = some out') :
    out'.Ok rsyslog (sent ++ m?.toList) ∧ out'.returned = out.returned ∧ out'.delivered = out.delivered ∧
      out'.cancelled rsyslog = out.cancelled rsyslog ∧ (m? = none → out' = out) := by
  cases m? with
  | none =>
    cases h
    exact ⟨by simpa using hok, rfl, rfl, rfl, fun _ => rfl⟩
  | some m =>
    obtain ⟨hok', hret, hdel, hcan⟩ := hok.call h
    exact ⟨hok', hret, hdel, hcan, fun hm => nomatch hm⟩

/-- A step of the output. -/
theorem Ok.on (hok : l.Ok env rsyslog w) {a : InnerAction} {out : Inner} {e : Option Effect}
    (h : l.out.step rsyslog a = some (out, e)) : Ok env rsyslog w { l with out := out } := by
  obtain ⟨hout, hresults, -⟩ := hok.out.step h
  obtain ⟨before, ks, hacc⟩ := hok.accounted
  have hmore : ∀ {k : Nat} {ok : Bool}, l.out.returned[k]? = some ok → out.returned[k]? = some ok := by
    intro k ok hk
    obtain ⟨more, hmore⟩ := hresults
    rw [← hmore, List.getElem?_append_left (List.getElem?_eq_some_iff.1 hk).1, hk]
  refine ⟨hok.feed, hok.calls, hok.task, hout, hok.answered, ?_,
    before, ks, hacc.split, hacc.increasing, hacc.earlier, ?_, ?_⟩
  · -- an output that is not busy takes no step
    intro hidle
    rw [hok.out.step_idle (hok.quiet hidle) a] at h
    cases h
  · exact hacc.past.imp fun x k hx => ⟨hx.1, hmore hx.2⟩
  · exact fun x ok hp => hmore (hacc.returned x ok hp)

/-- Where `forward` was awaited, it has returned, as the last of the calls. -/
theorem Ok.awaited_result (hok : l.Ok env rsyslog w) {m : SyslogMessage} (hout : l.task.phase.outgoing = some m) {ok : Bool}
    (h : l.awaited = some ok) : l.out.busy = false ∧ ∃ j, j + 1 = l.sent.length ∧ l.out.returned[j]? = some ok := by
  simp only [awaited, hout] at h
  split at h
  · cases h
  · rename_i hbusy
    rw [Bool.not_eq_true] at hbusy
    exact ⟨hbusy, hok.out.last_returned hbusy h⟩

end Lane

section
variable {sent : List SyslogMessage} {results : List Bool} {t t' : Task} {before : List SyslogMessage} {ks : List Nat}

/-- A step that ends no call of `handle_message`. -/
theorem Accounted.move (hacc : Accounted sent results t before ks) {sent' before' : List SyslogMessage}
    (hsent : sent <+: sent') (hbefore : before.length ≤ before'.length) (heq : sent' = before' ++ t'.phase.current.toList)
    (hpast : t'.past = t.past) (hreturned : ∀ x ok, t'.phase = .returned x ok → results[before'.length]? = some ok) :
    Accounted sent' results t' before' ks := by
  refine ⟨heq, hacc.increasing, fun k hk => (hacc.earlier k hk).trans_le hbefore, ?_, hreturned⟩
  rw [hpast]
  refine hacc.past.imp fun x k hx => ⟨?_, hx.2⟩
  obtain ⟨more, rfl⟩ := hsent
  rw [List.getElem?_append_left (List.getElem?_eq_some_iff.1 hx.1).1]
  exact hx.1

/-- The end of a call of `handle_message`. -/
theorem Accounted.ends (hacc : Accounted sent results t before ks) {x : Handed} {ok : Bool}
    (hcur : t.phase.current = some x.handed) (hidle : t'.phase = .idle) (hpast : t'.past = t.past ++ [(x, ok)])
    (hresult : results[before.length]? = some ok) : Accounted sent results t' sent (ks ++ [before.length]) := by
  have hlen : sent.length = before.length + 1 := by rw [hacc.split, hcur]; simp
  refine ⟨by simp [hidle, Phase.current], ?_, ?_, ?_, fun x ok hp => by rw [hidle] at hp; cases hp⟩
  · rw [List.pairwise_append]
    refine ⟨hacc.increasing, List.pairwise_singleton _ _, fun k hk j hj => ?_⟩
    rw [List.mem_singleton.1 hj]
    exact hacc.earlier k hk
  · intro k hk
    rcases List.mem_append.1 hk with hk | hk
    · have := hacc.earlier k hk
      omega
    · rw [List.mem_singleton.1 hk]
      omega
  · rw [hpast]
    refine List.rel_append hacc.past (.cons ⟨?_, hresult⟩ .nil)
    rw [hacc.split, hcur]
    simp

end

namespace Lane

variable {env : Env} {rsyslog : RsyslogConfig} {w : Watch Validator} {l l' : Lane} {ok : Bool} {t : Task} {c : Option Counter}
  {e : Option Effect}

/-- What a step of the task does to the account. -/
theorem Ok.accounts (hok : l.Ok env rsyslog w) (ha : l.awaited = some ok) (ht : taskStep env w l.task ok = some (t, c)) :
    ∃ before ks, Accounted (l.sent ++ t.phase.outgoing.toList) l.out.returned t before ks := by
  obtain ⟨before, ks, hacc⟩ := hok.accounted
  -- a step from a place where the call has given nothing to `forward`
  have hmove : l.task.phase.current = none → t.phase.current = t.phase.outgoing → t.past = l.task.past →
      ∃ before ks, Accounted (l.sent ++ t.phase.outgoing.toList) l.out.returned t before ks := by
    intro hcur hsame hpast
    have hbefore : before = l.sent := by rw [hacc.split, hcur]; simp
    refine ⟨l.sent, ks, hacc.move (List.prefix_append _ _) (by rw [hbefore]) (by rw [hsame]) hpast ?_⟩
    intro x ok hp
    rw [hp] at hsame
    cases hsame
  -- where `forward` has returned, it is the last that was sent
  have hresult : ∀ m, l.task.phase.outgoing = some m → l.task.phase.current = some m → l.out.returned[before.length]? = some ok := by
    intro m hout hcur
    obtain ⟨-, j, hj, hres⟩ := hok.awaited_result hout ha
    have hlen : l.sent.length = before.length + 1 := by rw [hacc.split, hcur]; simp
    obtain rfl : j = before.length := by omega
    exact hres
  cases taskSteps_of_step ht with
  | handles hp | rejects hp | counts hp | borrows hp | decides hp | drops hp | prepares hp | reports hp =>
    exact hmove (by rw [hp]; rfl) rfl rfl
  | @reported x ok' hp =>
    obtain rfl : ok = ok' := by simpa [taskStep, hp] using ht
    refine ⟨l.sent, ks ++ [before.length], ?_⟩
    show Accounted (l.sent ++ []) _ _ _ _
    rw [List.append_nil]
    exact hacc.ends (by rw [hp]; rfl) rfl rfl (hresult x.handed (by rw [hp]; rfl) (by rw [hp]; rfl))
  | @forwards x ok' hp =>
    obtain rfl : ok = ok' := by simpa [taskStep, hp] using ht
    refine ⟨before, ks, ?_⟩
    show Accounted (l.sent ++ []) _ _ _ _
    rw [List.append_nil]
    refine hacc.move List.prefix_rfl (Nat.le_refl _) (by rw [hacc.split, hp]; rfl) rfl ?_
    rintro y ok' hy
    cases hy
    exact hresult x.handed (by rw [hp]; rfl) (by rw [hp]; rfl)
  | @ends x ok' c hp hc =>
    refine ⟨l.sent, ks ++ [before.length], ?_⟩
    show Accounted (l.sent ++ []) _ _ _ _
    rw [List.append_nil]
    exact hacc.ends (by rw [hp]; rfl) rfl rfl (hacc.returned x ok' hp)
  | @rejected r hp =>
    refine ⟨l.sent, ks, ?_⟩
    show Accounted (l.sent ++ []) _ _ _ _
    rw [List.append_nil]
    refine hacc.move List.prefix_rfl (by rw [hacc.split, List.length_append]; omega) (by simp [Phase.current]) rfl ?_
    intro x ok hx
    cases hx

/-- **Every step of a lane keeps it.** -/
theorem Ok.step (hok : l.Ok env rsyslog w) {a : LaneAction} (h : l.step env rsyslog w a = some (l', c, e)) :
    l'.Ok env rsyslog w := by
  cases a with
  | input a =>
    simp only [Lane.step] at h
    split at h
    · rename_i hidle
      simp only [Bool.and_eq_true, List.isEmpty_iff] at hidle
      obtain ⟨⟨feed, call⟩, hf, heq⟩ := Option.map_eq_some_iff.1 h
      cases heq
      obtain ⟨hfeed, hcalls, -⟩ := Feed.step_calls hok.feed hf
      have hbefore := hok.calls
      rw [hidle.2, List.append_nil] at hbefore
      obtain ⟨before, ks, hacc⟩ := hok.accounted
      exact ⟨hfeed, by rw [hcalls, ← hbefore], ⟨hok.task.phase, hok.task.past, hok.task.ordered, hok.task.behind, hok.task.reported⟩,
        hok.out, hok.answered, hok.quiet,
        before, ks, hacc.move List.prefix_rfl (Nat.le_refl _) hacc.split rfl hacc.returned⟩
    · cases h
  | task =>
    simp only [Lane.step, Option.bind_eq_some_iff, Option.map_eq_some_iff] at h
    obtain ⟨ok, ha, ⟨t, c⟩, ht, out, hout, heq⟩ := h
    cases heq
    obtain ⟨hout', hresults, -, -, hsame⟩ := enter_eq hok.out hout
    have htask := hok.task.step ht
    obtain ⟨answered, hmade, hans⟩ := hok.answered
    obtain ⟨new, hmade', hnew⟩ := taskStep_answers ht htask hmade
    refine ⟨hok.feed, (taskStep_calls ht).trans hok.calls, htask, hout',
      ⟨answered ++ new, hmade', List.rel_append hans hnew⟩, ?_, ?_⟩
    · -- no call is under way where none was, or where the one that was has returned
      intro hnone
      show out.busy = false
      rw [hsame hnone]
      cases hgo : l.task.phase.outgoing with
      | none => exact hok.quiet hgo
      | some m => exact (hok.awaited_result hgo ha).1
    · obtain ⟨before, ks, hacc⟩ := hok.accounts ha ht
      exact ⟨before, ks, by rw [hresults]; exact hacc⟩
  | on a =>
    obtain ⟨⟨out, e⟩, hs, heq⟩ := Option.map_eq_some_iff.1 h
    cases heq
    exact hok.on hs

/-- A reload takes nothing from it. -/
theorem Ok.send (hok : l.Ok env rsyslog w) (v : Validator) : l.Ok env rsyslog (w.send v) := by
  obtain ⟨answered, hmade, hans⟩ := hok.answered
  exact ⟨hok.feed, hok.calls, hok.task.send v, hok.out, ⟨answered, hmade, hans.imp fun _ _ h => h.send v⟩, hok.quiet,
    hok.accounted⟩

/-- Only an input moves the feed. -/
theorem step_feed {a : LaneAction} (h : l.step env rsyslog w a = some (l', c, e)) :
    l'.feed = l.feed ∨ ∃ a call, l.feed.step env a = some (l'.feed, call) := by
  cases a with
  | input a =>
    simp only [Lane.step] at h
    split at h
    · obtain ⟨⟨feed, call⟩, hf, heq⟩ := Option.map_eq_some_iff.1 h
      cases heq
      exact .inr ⟨a, call, hf⟩
    · cases h
  | task =>
    simp only [Lane.step, Option.bind_eq_some_iff, Option.map_eq_some_iff] at h
    obtain ⟨ok, -, r, -, out, -, heq⟩ := h
    cases heq
    exact .inl rfl
  | on a =>
    obtain ⟨r, -, heq⟩ := Option.map_eq_some_iff.1 h
    cases heq
    exact .inl rfl

/-- The increments of a step are those its task notes, and its effects those its output accounts for. -/
theorem Ok.step_effects (hok : l.Ok env rsyslog w) {a : LaneAction} (h : l.step env rsyslog w a = some (l', c, e)) :
    l'.task.incs = l.task.incs ++ c.toList ∧ l'.out.delivered = l.out.delivered ++ Effect.datagrams e ∧
      l'.out.cancelled rsyslog = (l.out.cancelled rsyslog || Effect.cancels e) := by
  cases a with
  | input a =>
    simp only [Lane.step] at h
    split at h
    · obtain ⟨r, -, heq⟩ := Option.map_eq_some_iff.1 h
      cases heq
      exact ⟨(List.append_nil _).symm, (List.append_nil _).symm, (Bool.or_false _).symm⟩
    · cases h
  | task =>
    simp only [Lane.step, Option.bind_eq_some_iff, Option.map_eq_some_iff] at h
    obtain ⟨ok, -, r, ht, out, hout, heq⟩ := h
    cases heq
    obtain ⟨-, -, hdel, hcan, -⟩ := enter_eq hok.out hout
    refine ⟨taskStep_incs ht, ?_, ?_⟩
    · rw [hdel]
      exact (List.append_nil _).symm
    · rw [hcan]
      exact (Bool.or_false _).symm
  | on a =>
    obtain ⟨⟨out, e⟩, hs, heq⟩ := Option.map_eq_some_iff.1 h
    cases heq
    obtain ⟨-, -, hdel, hcan⟩ := hok.out.step hs
    exact ⟨(List.append_nil _).symm, hdel, hcan⟩

end Lane

/-! ## What the system keeps -/

namespace GatewayState

/-- How often the lanes have incremented a counter. -/
def count (g : GatewayState) (c : Counter) : Nat := (g.lanes.map fun l => l.task.incs.count c).sum

/-- The datagrams of a lane. -/
def datagramsOf (g : GatewayState) (i : Nat) : List Bytes := (g.datagrams.filter fun d => d.1 == i).map Prod.snd

structure Ok (env : Env) (rsyslog : RsyslogConfig) (g : GatewayState) : Prop where
  lanes : ∀ l ∈ g.lanes, l.Ok env rsyslog g.watch
  counted : ∀ c, g.metrics.get c = UInt64.ofNat (g.count c)
  datagrams : ∀ i l, g.lanes[i]? = some l → g.datagramsOf i = l.out.delivered
  /-- No datagram is of a lane that is not there. -/
  known : ∀ d ∈ g.datagrams, d.1 < g.lanes.length
  cancelled : g.cancelled = g.lanes.any fun l => l.out.cancelled rsyslog

variable {env : Env} {rsyslog : RsyslogConfig} {g : GatewayState}

theorem Ok.spawn (hok : g.Ok env rsyslog) {feed : Feed} (hfeed : feed.Ok env) (hcalls : feed.calls env = []) :
    Ok env rsyslog { g with lanes := g.lanes ++ [.start rsyslog feed] } := by
  have hnone : (Inner.new rsyslog).delivered = [] ∧ (Inner.new rsyslog).cancelled rsyslog = false := by
    unfold Inner.new
    split <;> exact ⟨rfl, rfl⟩
  constructor
  · intro l hl
    rcases List.mem_append.1 hl with hl | hl
    · exact hok.lanes l hl
    · rw [List.mem_singleton.1 hl]
      exact Lane.Ok.start hfeed hcalls
  · intro c
    rw [hok.counted c]
    simp [count, Lane.start, Task.incs]
  · intro i l hl
    show g.datagramsOf i = l.out.delivered
    rcases Nat.lt_trichotomy i g.lanes.length with hlt | rfl | hgt
    · exact hok.datagrams i l (by rwa [List.getElem?_append_left hlt] at hl)
    · rw [List.getElem?_concat_length] at hl
      cases hl
      have hempty : g.datagrams.filter (fun d => d.1 == g.lanes.length) = [] := by
        refine List.filter_eq_nil_iff.2 fun d hd => ?_
        have := hok.known d hd
        simp only [beq_iff_eq]
        omega
      rw [datagramsOf, hempty]
      exact hnone.1.symm
    · rw [List.getElem?_eq_none (by simp; omega)] at hl
      cases hl
  · intro d hd
    have := hok.known d hd
    rw [List.length_append, List.length_singleton]
    omega
  · show g.cancelled = _
    rw [List.any_append, ← hok.cancelled]
    simp [Lane.start, hnone.2]

end GatewayState

theorem any_set {α : Type} (p : α → Bool) {l : List α} {i : Nat} {x : α} (hx : l[i]? = some x) {y : α}
    (h : p x = true → p y = true) : (l.set i y).any p = (l.any p || p y) := by
  obtain ⟨hi, rfl⟩ := List.getElem?_eq_some_iff.1 hx
  rw [Bool.eq_iff_iff, Bool.or_eq_true, List.any_eq_true, List.any_eq_true]
  constructor
  · rintro ⟨z, hz, hpz⟩
    rcases List.mem_or_eq_of_mem_set hz with hz | rfl
    · exact .inl ⟨z, hz, hpz⟩
    · exact .inr hpz
  · rintro (⟨z, hz, hpz⟩ | hpy)
    · obtain ⟨j, hj, rfl⟩ := List.getElem_of_mem hz
      by_cases hij : i = j
      · subst hij
        exact ⟨y, List.mem_set hi y, h hpz⟩
      · exact ⟨l[j], List.mem_iff_getElem.2 ⟨j, by simpa using hj, by rw [List.getElem_set_ne hij]⟩, hpz⟩
    · exact ⟨y, List.mem_set hi y, hpy⟩

theorem gatewayStep_ok {env : Env} {configPath : Str} {rsyslog : RsyslogConfig} {g g' : GatewayState} {a : GatewayAction}
    (hok : g.Ok env rsyslog) (h : gatewayStep env configPath rsyslog g a = some g') : g'.Ok env rsyslog := by
  cases a with
  | reload host =>
    simp only [gatewayStep] at h
    split at h <;> cases h
    · exact ⟨fun l hl => (hok.lanes l hl).send _, hok.counted, hok.datagrams, hok.known, hok.cancelled⟩
    · exact hok
  | session cfg => cases h; exact hok.spawn (.stream cfg) rfl
  | worker baseCfg => cases h; exact hok.spawn (.worker baseCfg) rfl
  | lane i a =>
    simp only [gatewayStep, Option.bind_eq_some_iff, Option.map_eq_some_iff] at h
    obtain ⟨l, hl, ⟨l', c, e⟩, hstep, rfl⟩ := h
    have hlane := hok.lanes l (List.mem_of_getElem? hl)
    obtain ⟨hincs, hdel, hcan⟩ := hlane.step_effects hstep
    have hi := (List.getElem?_eq_some_iff.1 hl).1
    constructor
    · intro l₁ hl₁
      rcases List.mem_or_eq_of_mem_set hl₁ with hl₁ | rfl
      · exact hok.lanes l₁ hl₁
      · exact hlane.step hstep
    · intro d
      have hsum := sum_map_set (fun l => l.task.incs.count d) hl l'
      simp only [hincs, List.count_append] at hsum
      have hcount : ((g.lanes.set i l').map fun l => l.task.incs.count d).sum = g.count d + c.toList.count d := by
        simp only [GatewayState.count]
        omega
      show (c.elim g.metrics g.metrics.inc).get d = UInt64.ofNat _
      rw [GatewayState.count, hcount, UInt64.ofNat_add, ← hok.counted d]
      cases c with
      | none => simp
      | some c => exact Metrics.get_inc g.metrics c d
    · intro j l₁ hl₁
      have hbefore : ∀ l₂, g.lanes[j]? = some l₂ → (g.datagrams.filter fun d => d.1 == j).map Prod.snd = l₂.out.delivered :=
        hok.datagrams j
      simp only [GatewayState.datagramsOf, List.filter_append, List.map_append]
      by_cases hij : i = j
      · subst hij
        rw [List.getElem?_set_self hi] at hl₁
        cases hl₁
        rw [hbefore l hl, hdel, List.filter_eq_self.2 (by simp), List.map_map]
        simp [Function.comp_def]
      · rw [List.getElem?_set_ne hij] at hl₁
        rw [hbefore l₁ hl₁, List.filter_eq_nil_iff.2 (by simp [hij]), List.map_nil, List.append_nil]
    · intro d hd
      rw [List.length_set]
      rcases List.mem_append.1 hd with hd | hd
      · exact hok.known d hd
      · obtain ⟨b, -, rfl⟩ := List.mem_map.1 hd
        exact hi
    · show (g.cancelled || Effect.cancels e) = _
      rw [any_set (fun l => l.out.cancelled rsyslog) hl (by rw [hcan]; intro h; rw [h]; rfl), ← hok.cancelled, hcan]
      cases hg : g.cancelled with
      | true => rfl
      | false =>
        have hnone : l.out.cancelled rsyslog = false := by
          have hall := hok.cancelled
          rw [hg, eq_comm, List.any_eq_false] at hall
          simpa using hall l (List.mem_of_getElem? hl)
        rw [hnone]
        rfl

theorem gateway_ok {env : Env} {configPath : Str} {rsyslog : RsyslogConfig} {validator : Validator} {g : GatewayState}
    (h : (gateway env configPath rsyslog validator).Reachable g) : g.Ok env rsyslog := by
  refine h.inv (I := fun g => g.Ok env rsyslog) ?_ fun _ _ _ hg hstep => gatewayStep_ok hg hstep
  refine ⟨(fun l hl => nomatch hl), fun c => ?_, (fun i l hl => nomatch hl), (fun d hd => nomatch hd), rfl⟩
  cases c <;> rfl

/-- What every step of a feed keeps holds of every feed. -/
theorem gateway_feeds {env : Env} {configPath : Str} {rsyslog : RsyslogConfig} {validator : Validator} {P : Feed → Prop}
    (hstream : ∀ cfg, P (.stream cfg .start)) (hworker : ∀ cfg, P (.worker cfg [] true))
    (hstep : ∀ f a f' call, P f → f.step env a = some (f', call) → P f') {g : GatewayState}
    (h : (gateway env configPath rsyslog validator).Reachable g) : ∀ l ∈ g.lanes, P l.feed := by
  refine h.inv (I := fun g => ∀ l ∈ g.lanes, P l.feed) (by intro l hl; cases hl) fun g a g' hg hgstep => ?_
  have hspawn : ∀ feed, P feed → ∀ l ∈ g.lanes ++ [Lane.start rsyslog feed], P l.feed := by
    intro feed hfeed l hl
    rcases List.mem_append.1 hl with hl | hl
    · exact hg l hl
    · rw [List.mem_singleton.1 hl]
      exact hfeed
  cases a with
  | reload host =>
    simp only [gateway, gatewayStep] at hgstep
    split at hgstep <;> cases hgstep <;> exact hg
  | session cfg => cases hgstep; exact hspawn _ (hstream cfg)
  | worker cfg => cases hgstep; exact hspawn _ (hworker cfg)
  | lane i a =>
    simp only [gateway, gatewayStep, Option.bind_eq_some_iff, Option.map_eq_some_iff] at hgstep
    obtain ⟨l, hl, ⟨l', c, e⟩, hlstep, rfl⟩ := hgstep
    intro l₁ hl₁
    rcases List.mem_or_eq_of_mem_set hl₁ with hl₁ | rfl
    · exact hg l₁ hl₁
    · rcases Lane.step_feed hlstep with hsame | ⟨a, call, hf⟩
      · rw [hsame]
        exact hg l (List.mem_of_getElem? hl)
      · exact hstep _ _ _ _ (hg l (List.mem_of_getElem? hl)) hf

/-! ## What is sent, and what is read -/

/-- A call with what `gateway_delivers` needs of it, in a lane with the configuration `cfg`. -/
structure CallOk (env : Env) (cfg : SessionConfig) (c : SessionConfig × Call) : Prop where
  senderMode : c.1.senderMode = cfg.senderMode
  localHostname : c.1.localHostname = cfg.localHostname
  message : ∀ m, c.2 = .handleMessage m → WellFormed m
  report : ∀ r, c.2 = .reportRejection r → IsReport env cfg r

theorem mem_workerCalls {env : Env} {baseCfg : SessionConfig} {c : SessionConfig × Call} :
    ∀ {received : List (Bytes × Str)}, c ∈ workerCalls env baseCfg received →
      ∃ b peer, c.1 = { baseCfg with peer := peer } ∧ processDatagram env c.1 b = .ok c.2
  | (b, peer) :: rest, h => by
    cases hp : processDatagram env { baseCfg with peer := peer } b with
    | ok call =>
      rw [workerCalls_cons_ok hp] at h
      rcases List.mem_cons.1 h with rfl | h
      · exact ⟨b, peer, rfl, hp⟩
      · exact mem_workerCalls h
    | err e => exact nomatch e
    | panic => rw [workerCalls_cons_panic hp] at h; cases h

section
variable {env : Env} (hS : env.serde.Lawful) {cfg : SessionConfig} (hh : IsLocalHostname cfg.localHostname)
include hS hh

theorem processDatagram_callOk {c : SessionConfig × Call} {peer : Str} (hc : c.1 = { cfg with peer := peer }) {b : Bytes}
    (h : processDatagram env c.1 b = .ok c.2) : CallOk env cfg c := by
  have hreport : ∀ problem, IsReport env cfg (dropReport env c.1 problem) := by
    intro problem
    rw [hc]
    exact isReport_jsonObject hS hh _
  refine ⟨by rw [hc], by rw [hc], fun m hm => ?_, fun r hr => ?_⟩
  · rw [hm] at h
    simp only [processDatagram] at h
    split at h
    · cases h
    · split at h <;> cases h
      exact wellFormed_of_readsAs ‹_›
  · rw [hr] at h
    simp only [processDatagram] at h
    split at h
    · cases h; exact hreport _
    · split at h <;> cases h
      exact hreport _

/-- What a feed calls is a message of the parser, or a report. -/
theorem Feed.callOk {f : Feed} (hcfg : f.cfg = cfg) : ∀ c ∈ f.allCalls env, CallOk env cfg c := by
  intro c hc
  cases f with
  | stream cfg₀ loop =>
    obtain rfl : cfg₀ = cfg := hcfg
    obtain ⟨call, hcall, rfl⟩ := List.mem_map.1 hc
    refine ⟨rfl, rfl, fun m hm => ?_, fun r hr => ?_⟩
    · refine handled_wellFormed env cfg₀ loop.chunks _ m (List.mem_filterMap.2 ⟨call, hcall, ?_⟩)
      rw [show call = .handleMessage m from hm]
    · have hrej : r ∈ rejections (runWithCodec env cfg₀ loop.chunks (Feed.ending loop)) := by
        refine List.mem_filterMap.2 ⟨call, hcall, ?_⟩
        rw [show call = .reportRejection r from hr]
      obtain ⟨e, he⟩ := mem_rejections hrej
      exact handleFrameError_reports hS hh he
  | worker baseCfg received alive =>
    obtain rfl : baseCfg = cfg := hcfg
    obtain ⟨b, peer, hc, hp⟩ := mem_workerCalls hc
    exact processDatagram_callOk hS hh hc hp

/-- What answers a call is a report, or an inspected message. -/
theorem Answers.policy (horig : cfg.senderMode = .original) {w : Watch Validator} {c : SessionConfig × Call}
    {f : SyslogMessage} (hc : CallOk env cfg c) (h : Answers env w c f) :
    IsReport env cfg f ∨ ∃ m i v, c.2 = .handleMessage m ∧ w.value? i = some v ∧ IsInspected env v m f := by
  obtain ⟨cfg', m | r⟩ := c
  · obtain ⟨i, v, hi, hf⟩ := h
    have hwf := hc.message m rfl
    have hhost : cfg'.localHostname = cfg.localHostname := hc.localHostname
    have hmode : cfg'.senderMode = .original := hc.senderMode.trans horig
    have hhere : IsLocalHostname cfg'.localHostname := by rw [hhost]; exact hh
    have hfw := handleMessage_forwards hS hhere hmode v true hwf ⟨0, 0, 0, 0⟩
    rw [hf] at hfw
    rcases hfw with hrep | hins
    · unfold IsReport at hrep
      rw [hhost] at hrep
      exact .inl hrep
    · exact .inr ⟨m, i, v, rfl, hi, hins⟩
  · have hf : f = r := h
    rw [hf]
    exact .inl (hc.report r rfl)

end

/-- What becomes of the messages of a lane. -/
structure Delivers (env : Env) (w : Watch Validator) (l : Lane) : Prop where
  /-- Its calls are those of the bytes it has read, in order. -/
  calls : l.task.made <+: l.feed.allCalls env
  /-- One message answers each, in order; the last may have no answer yet. -/
  answered : ∃ answered pending, l.task.made = answered ++ pending ∧ pending.length ≤ 1 ∧
    List.Forall₂ (Answers env w) answered l.sent
  /-- None is lost: between two calls, with all it has read behind it, it has made and answered every one. -/
  complete : l.feed.done = true → l.task.phase = .idle → l.task.calls = [] →
    List.Forall₂ (Answers env w) (l.feed.allCalls env) l.sent
  policy : ∀ f ∈ l.sent, IsReport env l.feed.cfg f ∨
    ∃ cfg m i v, (cfg, Call.handleMessage m) ∈ l.task.made ∧ w.value? i = some v ∧ IsInspected env v m f

/-- What a reader of its connections gets. -/
structure StreamReads (l : Lane) (slot : Slot UInt8) : Prop where
  /-- However the reads of a connection fall, the messages that stand whole on it, in the order they were sent,
      and nothing else. -/
  read : ∀ maxSize, (∀ f ∈ l.sent, len f.toStr ≤ maxSize ∧ len f.toStr ≤ isizeMax) →
    ∀ n segs, slot.Conn n segs → ∀ chunks : List Bytes, chunks.flatten = Slot.wire segs →
    ∃ ks : List Nat, ks.Pairwise (· < ·) ∧ (∀ k, k ∈ ks ↔ (k, slot.frame k) ∈ segs) ∧
      List.Forall₂ (fun ev k => ∃ f r, l.sent[k]? = some f ∧ ev = .item r ∧ parse f.toStr = .ok r)
        ((octetCountCodec maxSize).feed [] chunks).1 ks
  /-- What `forward` has sent stands on one connection. -/
  once : ∀ k, l.out.returned[k]? = some true → ∃! n, ∃ segs, slot.Conn n segs ∧ (k, slot.frame k) ∈ segs

/-- What a reader of the datagram socket gets of its messages. -/
structure DgramReads (rsyslog : RsyslogConfig) (l : Lane) (s : DgramSender) (datagrams : List Bytes) : Prop where
  /-- Those that `forward` has sent, each once and in order. -/
  read : ∃ ks : List Nat, ks.Pairwise (· < ·) ∧ (∀ k, k ∈ ks ↔ l.out.returned[k]? = some true) ∧
    List.Forall₂ (fun d k => ∃ f r, l.sent[k]? = some f ∧ readBody d = .ok r ∧ parse f.toStr = .ok r) datagrams ks
  attempts : ∀ x ∈ s.past, x.1.Returned rsyslog.dgramMaxAttempts.toNat x.2

/-- Where the members of a filtered list stood. -/
theorem filter_places {α : Type} (p : α → Bool) (l : List α) :
    ∃ ks : List Nat, ks.Pairwise (· < ·) ∧ (∀ k, k ∈ ks ↔ ∃ x, l[k]? = some x ∧ p x = true) ∧
      List.Forall₂ (fun x k => l[k]? = some x) (l.filter p) ks := by
  induction l with
  | nil => exact ⟨[], .nil, by simp, .nil⟩
  | cons a l ih =>
    obtain ⟨ks, hsorted, hks, hall⟩ := ih
    have hshift : List.Forall₂ (fun x k => (a :: l)[k]? = some x) (l.filter p) (ks.map (· + 1)) :=
      List.forall₂_map_right_iff.2 (hall.imp fun x k hx => by simpa using hx)
    have hsorted' : (ks.map (· + 1)).Pairwise (· < ·) := hsorted.map _ fun _ _ h => Nat.succ_lt_succ h
    have hmem : ∀ k, k ∈ ks.map (· + 1) ↔ ∃ j x, k = j + 1 ∧ l[j]? = some x ∧ p x = true := by
      intro k
      rw [List.mem_map]
      constructor
      · rintro ⟨j, hj, rfl⟩
        obtain ⟨x, hx⟩ := (hks j).1 hj
        exact ⟨j, x, rfl, hx⟩
      · rintro ⟨j, x, rfl, hx⟩
        exact ⟨j, (hks j).2 ⟨x, hx⟩, rfl⟩
    cases hp : p a with
    | true =>
      refine ⟨0 :: ks.map (· + 1), ?_, fun k => ?_, ?_⟩
      · refine List.pairwise_cons.2 ⟨fun k hk => ?_, hsorted'⟩
        obtain ⟨j, x, rfl, -⟩ := (hmem k).1 hk
        exact Nat.succ_pos j
      · rw [List.mem_cons, hmem]
        cases k with
        | zero => simp [hp]
        | succ k => simp
      · rw [List.filter_cons_of_pos hp]
        exact .cons rfl hshift
    | false =>
      refine ⟨ks.map (· + 1), hsorted', fun k => ?_, ?_⟩
      · rw [hmem]
        cases k with
        | zero => simp [hp]
        | succ k => simp
      · rw [List.filter_cons_of_neg (by simp [hp])]
        exact hshift

section
variable {sent : List SyslogMessage} {slot : Slot UInt8}

/-- The results of the slot, as those of the output. -/
theorem StreamOk.returned_iff (hok : StreamOk sent slot) {k : Nat} {ok : Bool} :
    (Inner.unixStream slot).returned[k]? = some ok ↔ (k, ok) ∈ slot.results :=
  (Slot.mem_results_iff hok.order).symm

/-- The datagrams of a clone are its messages that were sent. -/
theorem DgramSender.Ok.reads {rsyslog : RsyslogConfig} {s : DgramSender} (hok : s.Ok rsyslog sent)
    (hparse : ∀ f ∈ sent, ∃ r, parse f.toStr = .ok r) :
    ∃ ks : List Nat, ks.Pairwise (· < ·) ∧ (∀ k, k ∈ ks ↔ (Inner.unixDgram s).returned[k]? = some true) ∧
      List.Forall₂ (fun d k => ∃ f r, sent[k]? = some f ∧ readBody d = .ok r ∧ parse f.toStr = .ok r)
        (Inner.unixDgram s).delivered ks := by
  obtain ⟨ks, hsorted, hks, hall⟩ := filter_places (fun x : DgramCall × Except IoError Unit => x.2.isOk) s.past
  refine ⟨ks, hsorted, fun k => ?_, ?_⟩
  · rw [hks, Inner.returned, List.getElem?_map, Option.map_eq_some_iff]
  · refine List.forall₂_map_left_iff.2 (hall.imp fun x k hx => ?_)
    have hkf : sent[k]? = some x.1.msg := by
      rw [← hok.sent, List.getElem?_append_left (by simpa using (List.getElem?_eq_some_iff.1 hx).1), List.getElem?_map, hx]
      rfl
    obtain ⟨r, hr⟩ := hparse _ (List.mem_of_getElem? hkf)
    exact ⟨x.1.msg, r, hkf, by simp [readBody, hr], hr⟩

end

namespace Lane

variable {env : Env} {rsyslog : RsyslogConfig} {w : Watch Validator} {l : Lane}

theorem Ok.made_of_read (hok : l.Ok env rsyslog w) : l.task.made <+: l.feed.allCalls env :=
  (List.prefix_append _ _).trans (hok.calls ▸ hok.feed.calls_extend.1)

section
variable (hok : l.Ok env rsyslog w) (hS : env.serde.Lawful) (hh : IsLocalHostname l.feed.cfg.localHostname)
include hok hS hh

theorem Ok.made_wellFormed {cfg : SessionConfig} {m : SyslogMessage} (h : (cfg, Call.handleMessage m) ∈ l.task.made) :
    WellFormed m := (Feed.callOk hS hh rfl _ (hok.made_of_read.subset h)).message m rfl

variable (horig : l.feed.cfg.senderMode = .original)
include horig

/-- What it sends is a report, or an inspected message. -/
theorem Ok.policy : ∀ f ∈ l.sent, IsReport env l.feed.cfg f ∨
    ∃ cfg m i v, (cfg, Call.handleMessage m) ∈ l.task.made ∧ w.value? i = some v ∧ IsInspected env v m f := by
  intro f hf
  obtain ⟨answered, hmade, hans⟩ := hok.answered
  obtain ⟨i, hi, rfl⟩ := List.getElem_of_mem hf
  have hlt : i < answered.length := by rw [hans.length_eq]; exact hi
  have hc : answered[i] ∈ l.task.made := by rw [hmade]; exact List.mem_append_left _ (List.getElem_mem hlt)
  have hcall := Feed.callOk hS hh rfl _ (hok.made_of_read.subset hc)
  rcases (hans.get hlt hi).policy hS hh horig hcall with hrep | ⟨m, j, v, hm, hj, hins⟩
  · exact .inl hrep
  · exact .inr ⟨answered[i].1, m, j, v, by rw [← hm]; exact hc, hj, hins⟩

theorem Ok.parses : ∀ f ∈ l.sent, ∃ r, parse f.toStr = .ok r := by
  intro f hf
  rcases hok.policy hS hh horig f hf with ⟨members, r, -, hr, -⟩ | ⟨cfg, m, i, v, -, -, -, -, r, value, hr, -⟩
  · exact ⟨r, hr⟩
  · exact ⟨r, hr⟩

end

end Lane

/-- The gateway that accepts any object at first. -/
def sampleGateway (rsyslog : RsyslogConfig) : System GatewayState GatewayAction :=
  gateway sampleEnv "conf".toList rsyslog (Validator.new .strict [])

def streamOutput : RsyslogConfig := ⟨.unixStream, 4, .drop⟩

/-- One line that is accepted and written whole, and one that does not parse, whose report is cut off. -/
def sentThenCutOff : List GatewayAction :=
  .session (sampleConfig .newline 64) ::
    ([.input (.loop .decode), .input (.loop (.read (utf8 "<13>1 - - - - - - \x7b\x7d\nx\n".toList))), .input (.loop .decode),
      .task, .task, .task, .task, .task, .on (.slot .lock), .on (.slot (.connect .opened)), .on (.slot (.write 20)),
      .on (.slot (.write 3)), .on (.slot .finish), .task, .task, .input (.loop .decode), .task, .on (.slot .lock),
      .on (.slot .reuse), .on (.slot (.write 9)), .on (.slot .fail), .task].map (.lane 0))

/-- What a call of `handle_message` that has returned counted, and where its message is. -/
structure CountedAs (l : Lane) (x : Handed × Bool) (k : Nat) : Prop where
  sent : l.sent[k]? = some x.1.handed
  result : l.out.returned[k]? = some x.2
  incs : x.1.incs = [.received, outcome x.1.verdict x.2]
  whole : x.2 = true → ∀ slot, l.out = .unixStream slot →
    ∃! n, ∃ segs, slot.Conn n segs ∧ (k, forwarderFrame x.1.handed) ∈ segs
  nowhere : x.2 = false → ∀ slot, l.out = .unixStream slot →
    ∀ n segs, slot.Conn n segs → (k, forwarderFrame x.1.handed) ∉ segs

theorem count_past {past : List (Handed × Bool)} (h : ∀ x ∈ past, x.1.incs = [.received, outcome x.1.verdict x.2])
    {c : Counter} (hc : c ≠ .received) :
    (past.map fun x => x.1.incs).flatten.count c = past.countP fun x => outcome x.1.verdict x.2 == c := by
  induction past with
  | nil => rfl
  | cons x past ih =>
    rw [List.forall_mem_cons] at h
    rw [List.map_cons, List.flatten_cons, List.count_append, ih h.2, h.1, List.countP_cons, List.count_cons_of_ne hc.symm,
      List.count_singleton]
    omega

/-- The messages `forward` has returned `Ok` for. -/
def Lane.delivered (l : Lane) : List SyslogMessage := ((l.sent.zip l.out.returned).filter Prod.snd).map Prod.fst

theorem DgramSender.Ok.delivered_eq {rsyslog : RsyslogConfig} {sent : List SyslogMessage} {s : DgramSender}
    (hok : s.Ok rsyslog sent) :
    (Inner.unixDgram s).delivered =
      (((sent.zip (Inner.unixDgram s).returned).filter Prod.snd).map Prod.fst).map fun f => utf8 f.toStr := by
  have hzip : sent.zip (Inner.unixDgram s).returned = s.past.map fun x => (x.1.msg, x.2.isOk) := by
    rw [← hok.sent, Inner.returned, ← List.append_nil (s.past.map fun x => x.2.isOk), List.zip_append (by simp), List.zip_nil_right,
      List.append_nil, List.zip_map']
  rw [hzip, List.filter_map, List.map_map, List.map_map]
  rfl

/-- **The counters match the wire.** Each counter is the number of its increments, modulo `2 ^ 64`. Where no call
    is under way, `forwarded` counts the accepted messages that stand whole on one connection to rsyslog, each at
    its own place, `errors` those that stand whole on none, and `dropped` the rejected ones; with datagram output
    the datagrams of a lane are the messages whose call succeeded. -/
theorem counters_match_wire {env : Env} {configPath : Str} {rsyslog : RsyslogConfig} {validator : Validator}
    {g : GatewayState} (h : (gateway env configPath rsyslog validator).Reachable g) :
    (∀ c, g.metrics.get c = UInt64.ofNat (g.count c)) ∧
    ∀ i l, g.lanes[i]? = some l →
      (∃ ks : List Nat, ks.Pairwise (· < ·) ∧ List.Forall₂ (CountedAs l) l.task.past ks) ∧
      (l.task.phase = .idle → ∀ c, c ≠ .received →
        l.task.incs.count c = l.task.past.countP fun x => outcome x.1.verdict x.2 == c) ∧
      ∀ s, l.out = .unixDgram s → g.datagramsOf i = l.delivered.map fun f => utf8 f.toStr := by
  have hok := gateway_ok h
  refine ⟨hok.counted, fun i l hl => ?_⟩
  have hlane := hok.lanes l (List.mem_of_getElem? hl)
  refine ⟨?_, ?_, ?_⟩
  · obtain ⟨before, ks, hacc⟩ := hlane.accounted
    refine ⟨ks, hacc.increasing, ?_⟩
    refine ((List.forall₂_and_left _ _).2 ⟨fun x hx => (hlane.task.past x hx).2, hacc.past⟩).imp ?_
    rintro x k ⟨hincs, hsent, hres⟩
    have hat : ∀ slot, l.out = .unixStream slot → StreamOk l.sent slot ∧ (k, x.2) ∈ slot.results := by
      intro slot hslot
      have hout := hlane.out
      rw [hslot] at hout hres
      exact ⟨hout, (StreamOk.returned_iff hout).1 hres⟩
    refine ⟨hsent, hres, hincs, fun htrue slot hslot => ?_, fun hfalse slot hslot => ?_⟩
    · obtain ⟨hout, hmem⟩ := hat slot hslot
      rw [htrue] at hmem
      rw [← frame_of_sent hout.frames hsent]
      exact hout.inv.ok_once hmem
    · obtain ⟨hout, hmem⟩ := hat slot hslot
      rw [hfalse] at hmem
      rw [← frame_of_sent hout.frames hsent]
      exact fun n segs hc => hout.inv.err_nowhere hmem hc
  · intro hidle c hc
    have hnone : Phase.incs .idle = [] := rfl
    rw [Task.incs, hidle, hnone, List.append_nil]
    exact count_past (fun x hx => (hlane.task.past x hx).2) hc
  · intro s hs
    have hout := hlane.out
    rw [hs] at hout
    rw [hok.datagrams i l hl, Lane.delivered, hs]
    exact DgramSender.Ok.delivered_eq hout

theorem counters_match_wire_one :
    ∃ g, (sampleGateway streamOutput).run (sampleGateway streamOutput).start sentThenCutOff = some g ∧
      g.metrics = ⟨1, 1, 0, 0⟩ ∧
      ∀ (i : Nat) l, g.lanes[i]? = some l → ∃ ks : List Nat, ks.Pairwise (· < ·) ∧ List.Forall₂ (CountedAs l) l.task.past ks := by
  have hrun : ((sampleGateway streamOutput).run (sampleGateway streamOutput).start sentThenCutOff).map
      GatewayState.metrics = some ⟨1, 1, 0, 0⟩ := by decide +kernel
  obtain ⟨g, hg, hm⟩ := Option.map_eq_some_iff.1 hrun
  exact ⟨g, hg, hm, fun i l hl => ((counters_match_wire ⟨_, hg⟩).2 i l hl).1⟩

/-! ## When the forwarder ends the daemon -/

/-- A call that used up its attempts: as many as are configured, each on a full buffer. -/
def DgramCall.Exhausted (rsyslog : RsyslogConfig) (c : DgramCall) : Prop :=
  c.outcomes.length = rsyslog.dgramMaxAttempts.toNat ∧ ∀ o ∈ c.outcomes, settles o = false

theorem DgramCall.Returned.cancels_iff {rsyslog : RsyslogConfig} {c : DgramCall} {result : Except IoError Unit}
    (h : c.Returned rsyslog.dgramMaxAttempts.toNat result) :
    forwardCancels rsyslog c.outcomes = true ↔ CanTerminate rsyslog ∧ c.Exhausted rsyslog := by
  constructor
  · intro hc
    have hcan := forwardCancels_iff.1 ⟨_, hc⟩
    obtain ⟨-, -, n, hn, hfull⟩ := forwardCancels_eq_true.1 hc
    have hle := h.limit n hn
    rw [hcan.effectiveLimit] at hn
    cases hn
    have hlen := Nat.le_antisymm hle hfull.1
    have hall := hfull.2
    rw [List.take_of_length_le (Nat.le_of_eq hlen)] at hall
    exact ⟨hcan, hlen, hall⟩
  · rintro ⟨hcan, hlen, hall⟩
    refine forwardCancels_eq_true.2 ⟨hcan.1, hcan.2.1, _, hcan.effectiveLimit, Nat.le_of_eq hlen.symm, ?_⟩
    rwa [List.take_of_length_le (Nat.le_of_eq hlen)]

/-- **When the forwarder cancels the token**: over every run, exactly if it is configured to and some call, of any
    clone, has used up its attempts. -/
theorem token_cancelled_iff {env : Env} {configPath : Str} {rsyslog : RsyslogConfig} {validator : Validator}
    {g : GatewayState} (h : (gateway env configPath rsyslog validator).Reachable g) :
    g.cancelled = true ↔ CanTerminate rsyslog ∧
      ∃ l ∈ g.lanes, ∃ s, l.out = .unixDgram s ∧ ∃ x ∈ s.past, x.1.Exhausted rsyslog := by
  have hok := gateway_ok h
  have hone : ∀ l ∈ g.lanes, ∀ s, l.out = .unixDgram s → ∀ x ∈ s.past,
      (forwardCancels rsyslog x.1.outcomes = true ↔ CanTerminate rsyslog ∧ x.1.Exhausted rsyslog) := by
    intro l hl s hs x hx
    have hout := (hok.lanes l hl).out
    rw [hs] at hout
    exact (DgramSender.Ok.past hout x hx).cancels_iff
  rw [hok.cancelled, List.any_eq_true]
  constructor
  · rintro ⟨l, hl, hc⟩
    cases hs : l.out with
    | unixStream slot => rw [hs] at hc; cases hc
    | unixDgram s =>
      rw [hs] at hc
      obtain ⟨x, hx, hcancel⟩ := List.any_eq_true.1 hc
      obtain ⟨hcan, hex⟩ := (hone l hl s hs x hx).1 hcancel
      exact ⟨hcan, l, hl, s, hs, x, hx, hex⟩
  · rintro ⟨hcan, l, hl, s, hs, x, hx, hex⟩
    refine ⟨l, hl, ?_⟩
    rw [hs]
    exact List.any_eq_true.2 ⟨x, hx, (hone l hl s hs x hx).2 ⟨hcan, hex⟩⟩

def terminatingOutput : RsyslogConfig := ⟨.unixDgram, 2, .terminate⟩

/-- The first message is sent at the second attempt, the report of the second at none. -/
def sentThenExhausted : List GatewayAction :=
  .session (sampleConfig .newline 64) ::
    ([.input (.loop .decode), .input (.loop (.read (utf8 "<13>1 - - - - - - \x7b\x7d\nx\n".toList))), .input (.loop .decode),
      .task, .task, .task, .task, .task, .on (.attempt (.error bufferFull)), .on (.attempt (.ok ())), .task, .task,
      .input (.loop .decode), .task, .on (.attempt (.error bufferFull)), .on (.attempt (.error bufferFull)), .task].map (.lane 0))

theorem token_cancelled_sample :
    ∃ g, (sampleGateway terminatingOutput).run (sampleGateway terminatingOutput).start sentThenExhausted = some g ∧
      g.datagrams = [(0, utf8 "<13>1 - - - - - - \x7b\x7d".toList)] ∧ g.cancelled = true ∧
      ∃ l ∈ g.lanes, ∃ s, l.out = .unixDgram s ∧ ∃ x ∈ s.past, x.1.Exhausted terminatingOutput := by
  have hrun : ((sampleGateway terminatingOutput).run (sampleGateway terminatingOutput).start sentThenExhausted).map
      (fun g => (g.datagrams, g.cancelled)) = some ([(0, utf8 "<13>1 - - - - - - \x7b\x7d".toList)], true) := by
    decide
  obtain ⟨g, hg, heq⟩ := Option.map_eq_some_iff.1 hrun
  rw [Prod.mk.injEq] at heq
  exact ⟨g, hg, heq.1, heq.2, ((token_cancelled_iff ⟨_, hg⟩).1 heq.2).2⟩

end LogFence
