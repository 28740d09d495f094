import LogFence.Daemon.Datagram
import LogFence.Rust.System

/-!
# Datagram dispatch (`logfence-daemon/src/datagram_listener.rs`)

| here | there |
| --- | --- |
| `DispatchPhase`   | where `DatagramListener::run` (`datagram_listener.rs:132-249`) is |
| `Worker`          | a task of `run_worker` (`:257-271`) with its channel |
| `workerChannelCap` | `WORKER_CHANNEL_CAP` (`:63`) |
| `dispatchStep`    | a step of the receive loop, of a worker, or of the shutdown token |

A channel is closed for its sender when its worker has panicked, and for its worker when the senders are
dropped. `taken` and `sent` are kept for the statements: what came off the socket, and which worker it was
enqueued to, both in order. `try_recv_from` ends the drain with `WouldBlock` or with any other error.

`dispatch_lossless` is over every run in which no worker has panicked and the drain has not timed out.
-/

namespace LogFence

open Rust

/-! ## The code -/

/-- The bytes of a datagram, and the peer. -/
abbrev Datagram := Bytes × Str

def workerChannelCap : Nat := 256

inductive WorkerPhase where
  | idle | processing | exited | panicked
  /-- Aborted when the `JoinSet` is dropped. -/
  | aborted
deriving DecidableEq, Repr

structure Worker where
  queue : List Datagram
  phase : WorkerPhase
  /-- What it has passed to `process_datagram`. -/
  processed : List Datagram
deriving DecidableEq

inductive DispatchPhase where
  /-- At the `select!`. -/
  | waiting
  | receiving
  | dispatching
  /-- In `send(item).await`. -/
  | blocked (item : Datagram)
  /-- Out of the loop, with the senders dropped. -/
  | joining
  | finished (drained : Bool)
  /-- `worker_idx` is out of range. -/
  | crashed
deriving DecidableEq

structure DispatchState where
  phase : DispatchPhase
  batch : List Datagram
  workerIdx : Nat
  cancelled : Bool
  workers : List Worker
  taken : List Datagram
  sent : List (Nat × Datagram)
deriving DecidableEq

inductive WorkerEvent where
  | recv | done | panics
deriving DecidableEq, Repr

inductive DispatchAction where
  | cancel
  | poll
  | readable (ok : Bool)
  | recv (r : Option Datagram)
  | dispatch
  | send
  | worker (i : Nat) (e : WorkerEvent)
  | join
  | timeout

def Worker.ended (w : Worker) : Bool := w.phase = .exited || w.phase = .panicked

def Worker.abort (w : Worker) : Worker := if w.ended then w else { w with phase := .aborted }

namespace DispatchState

/-- `break`, and `drop(senders)`. -/
def leave (s : DispatchState) : DispatchState := { s with phase := .joining, batch := [] }

def left (s : DispatchState) : Bool :=
  match s.phase with
  | .joining | .finished _ => true
  | _ => false

/-- `item` goes into the channel of `w`, the worker at `worker_idx`. -/
def enqueue (numWorkers : Nat) (s : DispatchState) (w : Worker) (item : Datagram) : DispatchState :=
  { s with
    workers := s.workers.set s.workerIdx { w with queue := w.queue ++ [item] }
    workerIdx := (s.workerIdx + 1) % numWorkers
    sent := s.sent ++ [(s.workerIdx, item)] }

end DispatchState

/-- `run_worker`; `closed` if the senders are dropped. -/
def Worker.step (closed : Bool) (w : Worker) : WorkerEvent → Option Worker
  | .recv =>
    match w.phase, w.queue with
    | .idle, item :: queue => some ⟨queue, .processing, w.processed ++ [item]⟩
    | .idle, [] => if closed then some { w with phase := .exited } else none
    | _, _ => none
  | .done =>
    match w.phase with
    | .processing => some { w with phase := .idle }
    | _ => none
  | .panics =>
    match w.phase with
    | .processing => some { w with phase := .panicked, queue := [] }
    | _ => none

def dispatchStep (numWorkers maxMessageSize : Nat) (s : DispatchState) : DispatchAction → Option DispatchState
  | .cancel => some { s with cancelled := true }
  | .poll =>
    match s.phase, s.cancelled with
    | .waiting, true => some s.leave
    | _, _ => none
  | .readable ok =>
    match s.phase, s.cancelled with
    | .waiting, false => if ok then some { s with phase := .receiving } else some s
    | _, _ => none
  | .recv r =>
    match s.phase, r with
    | .receiving, some (bytes, peer) =>
      let item := (recvFrom maxMessageSize bytes, peer)
      some { s with batch := s.batch ++ [item], taken := s.taken ++ [item] }
    | .receiving, none => some { s with phase := .dispatching }
    | _, _ => none
  | .dispatch =>
    match s.phase, s.batch with
    | .dispatching, [] => some { s with phase := .waiting }
    | .dispatching, item :: batch =>
      match s.workers[s.workerIdx]? with
      | none => some { s with phase := .crashed }
      | some w =>
        -- `try_send`
        if w.phase = .panicked then some s.leave
        else if w.queue.length < workerChannelCap then some ({ s with batch := batch }.enqueue numWorkers w item)
        else some { s with phase := .blocked item, batch := batch }
    | _, _ => none
  | .send =>
    match s.phase with
    | .blocked item =>
      match s.workers[s.workerIdx]? with
      | none => some { s with phase := .crashed }
      | some w =>
        if w.phase = .panicked then some s.leave
        else if w.queue.length < workerChannelCap then some ({ s with phase := .dispatching }.enqueue numWorkers w item)
        else none
    | _ => none
  | .worker i e =>
    match s.workers[i]? with
    | some w => (w.step s.left e).map fun w' => { s with workers := s.workers.set i w' }
    | none => none
  | .join =>
    match s.phase with
    | .joining => if s.workers.all Worker.ended then some { s with phase := .finished true } else none
    | _ => none
  | .timeout =>
    match s.phase with
    | .joining =>
      if s.workers.all Worker.ended then none
      else some { s with phase := .finished false, workers := s.workers.map Worker.abort }
    | _ => none

def dispatcher (numWorkers maxMessageSize : Nat) : System DispatchState DispatchAction where
  start := ⟨.waiting, [], 0, false, List.replicate numWorkers ⟨[], .idle, []⟩, [], []⟩
  step := dispatchStep numWorkers maxMessageSize

/-! ## What a step does -/

/-- What a worker's step does to what it has got, if it does not panic. -/
theorem Worker.step_cases {closed : Bool} {w w' : Worker} {e : WorkerEvent} (h : w.step closed e = some w') :
    w'.phase = .panicked ∨ w.phase ≠ .panicked ∧ w'.processed ++ w'.queue = w.processed ++ w.queue ∧
      (w'.phase = .exited → closed = true ∧ w'.queue = []) := by
  cases e with
  | recv =>
    simp only [Worker.step] at h
    split at h
    · rename_i item queue hp hq
      cases h
      exact .inr ⟨by simp [hp], by simp [hq], by simp⟩
    · rename_i hp hq
      split at h <;> cases h
      rename_i hc
      exact .inr ⟨by simp [hp], rfl, fun _ => ⟨hc, hq⟩⟩
    · cases h
  | done =>
    simp only [Worker.step] at h
    split at h
    · rename_i hp
      cases h
      exact .inr ⟨by simp [hp], rfl, by simp⟩
    · cases h
  | panics =>
    simp only [Worker.step] at h
    split at h <;> cases h
    exact .inl rfl

/-- The steps, one constructor for each way to take one. -/
inductive DispatchSteps (numWorkers maxMessageSize : Nat) (s : DispatchState) : DispatchAction → DispatchState → Prop where
  | cancel : DispatchSteps numWorkers maxMessageSize s .cancel { s with cancelled := true }
  | breaks (hp : s.phase = .waiting) (hc : s.cancelled = true) : DispatchSteps numWorkers maxMessageSize s .poll s.leave
  | readable (hp : s.phase = .waiting) :
    DispatchSteps numWorkers maxMessageSize s (.readable true) { s with phase := .receiving }
  | unreadable : DispatchSteps numWorkers maxMessageSize s (.readable false) s
  | recv (bytes : Bytes) (peer : Str) (hp : s.phase = .receiving) :
    DispatchSteps numWorkers maxMessageSize s (.recv (some (bytes, peer)))
      { s with
        batch := s.batch ++ [(recvFrom maxMessageSize bytes, peer)]
        taken := s.taken ++ [(recvFrom maxMessageSize bytes, peer)] }
  | received (hp : s.phase = .receiving) :
    DispatchSteps numWorkers maxMessageSize s (.recv none) { s with phase := .dispatching }
  | dispatched (hp : s.phase = .dispatching) (hb : s.batch = []) :
    DispatchSteps numWorkers maxMessageSize s .dispatch { s with phase := .waiting }
  | trySend {item : Datagram} {batch : List Datagram} {w : Worker} (hp : s.phase = .dispatching)
    (hb : s.batch = item :: batch) (hw : s.workers[s.workerIdx]? = some w) :
    DispatchSteps numWorkers maxMessageSize s .dispatch ({ s with batch := batch }.enqueue numWorkers w item)
  | full {item : Datagram} {batch : List Datagram} (hp : s.phase = .dispatching) (hb : s.batch = item :: batch) :
    DispatchSteps numWorkers maxMessageSize s .dispatch { s with phase := .blocked item, batch := batch }
  | send {item : Datagram} {w : Worker} (hp : s.phase = .blocked item) (hw : s.workers[s.workerIdx]? = some w) :
    DispatchSteps numWorkers maxMessageSize s .send ({ s with phase := .dispatching }.enqueue numWorkers w item)
  | closed {a : DispatchAction} {w : Worker} (hleft : s.left = false) (hw : s.workers[s.workerIdx]? = some w)
    (hp : w.phase = .panicked) : DispatchSteps numWorkers maxMessageSize s a s.leave
  | crashed {a : DispatchAction} (hleft : s.left = false) (hw : s.workers[s.workerIdx]? = none) :
    DispatchSteps numWorkers maxMessageSize s a { s with phase := .crashed }
  | worker {i : Nat} {e : WorkerEvent} {w w' : Worker} (hw : s.workers[i]? = some w) (hstep : w.step s.left e = some w') :
    DispatchSteps numWorkers maxMessageSize s (.worker i e) { s with workers := s.workers.set i w' }
  | join (hp : s.phase = .joining) (hall : ∀ w ∈ s.workers, w.ended = true) :
    DispatchSteps numWorkers maxMessageSize s .join { s with phase := .finished true }
  | timeout (hp : s.phase = .joining) :
    DispatchSteps numWorkers maxMessageSize s .timeout
      { s with phase := .finished false, workers := s.workers.map Worker.abort }

theorem dispatchSteps_of_step {numWorkers maxMessageSize : Nat} {s s' : DispatchState} {a : DispatchAction}
    (h : dispatchStep numWorkers maxMessageSize s a = some s') : DispatchSteps numWorkers maxMessageSize s a s' := by
  cases a with
  | cancel => cases h; exact .cancel
  | poll =>
    simp only [dispatchStep] at h
    split at h <;> cases h
    exact .breaks ‹_› ‹_›
  | readable ok =>
    simp only [dispatchStep] at h
    split at h
    · cases ok <;> cases h
      · exact .unreadable
      · exact .readable ‹_›
    · cases h
  | recv r =>
    simp only [dispatchStep] at h
    split at h <;> cases h
    · exact .recv _ _ ‹_›
    · exact .received ‹_›
  | dispatch =>
    simp only [dispatchStep] at h
    split at h
    · cases h; exact .dispatched ‹_› ‹_›
    · rename_i hp _
      split at h
      · cases h; exact .crashed (by simp [DispatchState.left, hp]) ‹_›
      · split at h
        · cases h; exact .closed (by simp [DispatchState.left, hp]) ‹_› ‹_›
        · split at h <;> cases h
          · exact .trySend ‹_› ‹_› ‹_›
          · exact .full ‹_› ‹_›
    · cases h
  | send =>
    simp only [dispatchStep] at h
    split at h
    · rename_i hp
      split at h
      · cases h; exact .crashed (by simp [DispatchState.left, hp]) ‹_›
      · split at h
        · cases h; exact .closed (by simp [DispatchState.left, hp]) ‹_› ‹_›
        · split at h <;> cases h
          exact .send ‹_› ‹_›
    · cases h
  | worker i e =>
    simp only [dispatchStep] at h
    split at h
    · obtain ⟨w', hw', rfl⟩ := Option.map_eq_some_iff.1 h
      exact .worker ‹_› hw'
    · cases h
  | join =>
    simp only [dispatchStep] at h
    split at h
    · split at h <;> cases h
      rename_i hall
      exact .join ‹_› (List.all_eq_true.1 hall)
    · cases h
  | timeout =>
    simp only [dispatchStep] at h
    split at h
    · split at h <;> cases h
      exact .timeout ‹_›
    · cases h

/-! ## The invariant -/

/-- The datagrams at the positions `i`, `i + N`, `i + 2 * N`, ... -/
def share (numWorkers i : Nat) (items : List Datagram) : List Datagram :=
  (items.zipIdx.filter fun p => p.2 % numWorkers == i).map Prod.fst

/-- Each datagram with the worker whose turn it is. -/
def inTurn (numWorkers : Nat) (items : List Datagram) : List (Nat × Datagram) :=
  items.zipIdx.map fun p => (p.2 % numWorkers, p.1)

theorem inTurn_append (numWorkers : Nat) (items : List Datagram) (item : Datagram) :
    inTurn numWorkers (items ++ [item]) = inTurn numWorkers items ++ [(items.length % numWorkers, item)] := by
  simp [inTurn, List.zipIdx_append]

theorem share_eq_inTurn (numWorkers i : Nat) (items : List Datagram) :
    share numWorkers i items = ((inTurn numWorkers items).filter fun p => p.1 == i).map Prod.snd := by
  simp [share, inTurn, List.filter_map, Function.comp_def]

namespace DispatchState

/-- Taken off the socket and not yet in a channel. -/
def pending (s : DispatchState) : List Datagram :=
  match s.phase with
  | .blocked item => item :: s.batch
  | _ => s.batch

/-- No worker has ended early, and the drain has not timed out. -/
def Healthy (s : DispatchState) : Prop :=
  (∀ (i : Nat) (w : Worker), s.workers[i]? = some w → w.phase ≠ .panicked) ∧ s.phase ≠ .finished false

/-- What has been enqueued went round the workers, and each has got its share. -/
structure Shares (numWorkers : Nat) (s : DispatchState) : Prop where
  count : s.workers.length = numWorkers
  index : s.workerIdx = s.sent.length % numWorkers
  turns : s.sent = inTurn numWorkers (s.sent.map Prod.snd)
  queued : ∀ i w, s.workers[i]? = some w → w.processed ++ w.queue = share numWorkers i (s.sent.map Prod.snd)

/-- Nothing that was taken is lost on the way to the channels. -/
structure Kept (s : DispatchState) : Prop where
  taken : s.taken = s.sent.map Prod.snd ++ s.pending
  settled : s.phase = .waiting ∨ s.left = true → s.pending = []
  exited : ∀ (i : Nat) (w : Worker), s.workers[i]? = some w → w.phase = .exited → s.left = true ∧ w.queue = []
  running : s.phase ≠ .crashed

/-- The worker at `j` after the one at `i` took a step, or got an item. -/
theorem worker_of_set {workers : List Worker} {i j : Nat} {w v : Worker} (h : (workers.set i w)[j]? = some v) :
    i = j ∧ v = w ∨ i ≠ j ∧ workers[j]? = some v := by
  rw [List.getElem?_set] at h
  split at h
  · rename_i hij
    split at h <;> cases h
    exact .inl ⟨hij, rfl⟩
  · exact .inr ⟨‹_›, h⟩

/-- A worker that has panicked stays so, and so does a drain that has timed out. -/
theorem healthy_of_step {numWorkers maxMessageSize : Nat} {s s' : DispatchState} {a : DispatchAction}
    (h : dispatchStep numWorkers maxMessageSize s a = some s') (hh : s'.Healthy) : s.Healthy := by
  -- the worker at `i` with another channel
  have hset : ∀ {i : Nat} {w w' : Worker}, s.workers[i]? = some w → (w'.phase ≠ .panicked → w.phase ≠ .panicked) →
      (∀ (j : Nat) (v : Worker), (s.workers.set i w')[j]? = some v → v.phase ≠ .panicked) →
      ∀ (j : Nat) (v : Worker), s.workers[j]? = some v → v.phase ≠ .panicked := by
    intro i w w' hw himp hall j v hv
    have hlt : i < s.workers.length := (List.getElem?_eq_some_iff.1 hw).1
    by_cases hij : i = j
    · subst hij
      obtain rfl : v = w := Option.some.inj (hv.symm.trans hw)
      exact himp (hall i w' (List.getElem?_set_self hlt))
    · exact hall j v (by rw [List.getElem?_set_ne hij]; exact hv)
  cases dispatchSteps_of_step h with
  | cancel | unreadable => exact hh
  | breaks hp | readable hp | recv bytes peer hp | received hp | dispatched hp | full hp | join hp =>
    exact ⟨hh.1, by rw [hp]; simp⟩
  | trySend hp hb hw | send hp hw =>
    refine ⟨hset hw ?_ hh.1, by rw [hp]; simp⟩
    exact fun hne => hne
  | closed hleft | crashed hleft =>
    refine ⟨hh.1, fun hf => ?_⟩
    simp [left, hf] at hleft
  | worker hw hstep =>
    refine ⟨hset hw (fun hne => ?_) hh.1, hh.2⟩
    rcases Worker.step_cases hstep with hp | ⟨hp, -⟩
    · exact absurd hp hne
    · exact hp
  | timeout hp => exact absurd rfl hh.2

/-- An item goes to the worker whose turn it is. -/
theorem Shares.enqueue {numWorkers : Nat} {s : DispatchState} (hs : s.Shares numWorkers) {w : Worker}
    (hw : s.workers[s.workerIdx]? = some w) (item : Datagram) : (s.enqueue numWorkers w item).Shares numWorkers := by
  have hturns : s.sent ++ [(s.workerIdx, item)] = inTurn numWorkers (s.sent.map Prod.snd ++ [item]) := by
    rw [inTurn_append, ← hs.turns, List.length_map, ← hs.index]
  have hmap : (s.enqueue numWorkers w item).sent.map Prod.snd = s.sent.map Prod.snd ++ [item] := by
    simp [DispatchState.enqueue]
  have hshare : ∀ i, share numWorkers i (s.sent.map Prod.snd ++ [item]) =
      share numWorkers i (s.sent.map Prod.snd) ++ if s.workerIdx = i then [item] else [] := by
    intro i
    rw [share_eq_inTurn, share_eq_inTurn, ← hturns, ← hs.turns, List.filter_append, List.map_append]
    by_cases hi : s.workerIdx = i <;> simp [hi]
  refine ⟨by simp [DispatchState.enqueue, hs.count], ?_, by rw [hmap]; exact hturns, ?_⟩
  · simp [DispatchState.enqueue, hs.index]
  · intro i v hv
    rw [hmap, hshare]
    rcases worker_of_set hv with ⟨rfl, rfl⟩ | ⟨hi, hv⟩
    · simp [← List.append_assoc, hs.queued _ w hw]
    · simp [hi, hs.queued i v hv]

/-- A worker takes an item out of its channel, or takes none. -/
theorem Shares.work {numWorkers : Nat} {s : DispatchState} (hs : s.Shares numWorkers) {i : Nat} {w w' : Worker}
    (hw : s.workers[i]? = some w) (heq : w'.processed ++ w'.queue = w.processed ++ w.queue) :
    Shares numWorkers { s with workers := s.workers.set i w' } := by
  refine ⟨by simp [hs.count], hs.index, hs.turns, ?_⟩
  intro j v hv
  rcases worker_of_set hv with ⟨rfl, rfl⟩ | ⟨-, hv⟩
  · rw [heq]
    exact hs.queued i w hw
  · exact hs.queued j v hv

theorem enqueue_phase {numWorkers : Nat} {s : DispatchState} {w : Worker} (hw : s.workers[s.workerIdx]? = some w)
    {item : Datagram} (i : Nat) (v : Worker) (hv : (s.enqueue numWorkers w item).workers[i]? = some v) :
    ∃ w', s.workers[i]? = some w' ∧ v.phase = w'.phase := by
  rcases worker_of_set hv with ⟨rfl, rfl⟩ | ⟨-, hv⟩
  · exact ⟨w, hw, rfl⟩
  · exact ⟨v, hv, rfl⟩

theorem Kept.not_exited {s : DispatchState} (hk : s.Kept) (hleft : s.left = false) {i : Nat} {w : Worker}
    (hw : s.workers[i]? = some w) : w.phase ≠ .exited := by
  intro hp
  have := (hk.exited i w hw hp).1
  rw [hleft] at this
  cases this

section
variable {numWorkers maxMessageSize : Nat} (hN : 0 < numWorkers) {s s' : DispatchState} {a : DispatchAction}

theorem step_shares (hs : s.Shares numWorkers) (h : dispatchStep numWorkers maxMessageSize s a = some s')
    (hh : s'.Healthy) : s'.Shares numWorkers := by
  cases dispatchSteps_of_step h with
  | trySend hp hb hw | send hp hw =>
    apply Shares.enqueue
    · exact ⟨hs.count, hs.index, hs.turns, hs.queued⟩
    · exact hw
  | worker hw hstep =>
    rename_i i e w w'
    have hlt : i < s.workers.length := (List.getElem?_eq_some_iff.1 hw).1
    rcases Worker.step_cases hstep with hp | ⟨-, heq, -⟩
    · exact absurd hp (hh.1 i w' (List.getElem?_set_self hlt))
    · exact hs.work hw heq
  | timeout => exact absurd rfl hh.2
  | _ => exact ⟨hs.count, hs.index, hs.turns, hs.queued⟩

include hN in
theorem step_kept (hs : s.Shares numWorkers) (hk : s.Kept) (h : dispatchStep numWorkers maxMessageSize s a = some s')
    (hh : s'.Healthy) : s'.Kept := by
  have htaken := hk.taken
  -- a step of the loop: no worker has exited yet
  have hloop : ∀ {t : DispatchState}, s.left = false →
      (∀ (i : Nat) (v : Worker), t.workers[i]? = some v → ∃ w, s.workers[i]? = some w ∧ v.phase = w.phase) →
      t.taken = t.sent.map Prod.snd ++ t.pending → (t.phase = .waiting ∨ t.left = true → t.pending = []) →
      t.phase ≠ .crashed → t.Kept := by
    intro t hleft hsame ht hsettled hrun
    refine ⟨ht, hsettled, fun i v hi hp => ?_, hrun⟩
    obtain ⟨w, hw, heq⟩ := hsame i v hi
    exact absurd (heq ▸ hp) (hk.not_exited hleft hw)
  have hsame : ∀ (i : Nat) (v : Worker), s.workers[i]? = some v → ∃ w, s.workers[i]? = some w ∧ v.phase = w.phase :=
    fun i v hv => ⟨v, hv, rfl⟩
  cases dispatchSteps_of_step h with
  | cancel => exact ⟨hk.taken, hk.settled, hk.exited, hk.running⟩
  | unreadable => exact hk
  | breaks hp =>
    have hnone := hk.settled (.inl hp)
    refine hloop (by simp [left, hp]) hsame ?_ (fun _ => rfl) (by simp [leave])
    rw [hnone] at htaken
    exact htaken
  | readable hp =>
    refine hloop (by simp [left, hp]) hsame ?_ (by simp [left]) (by simp)
    simpa [pending, hp] using htaken
  | recv bytes peer hp =>
    refine hloop (by simp [left, hp]) hsame ?_ (by simp [left, hp]) (by simp [hp])
    simp [pending, hp, htaken]
  | received hp =>
    refine hloop (by simp [left, hp]) hsame ?_ (by simp [left]) (by simp)
    simpa [pending, hp] using htaken
  | dispatched hp hb =>
    refine hloop (by simp [left, hp]) hsame ?_ (by simp [pending, hb]) (by simp)
    simpa [pending, hp] using htaken
  | full hp hb =>
    refine hloop (by simp [left, hp]) hsame ?_ (by simp [left]) (by simp)
    simpa [pending, hp, hb] using htaken
  | trySend hp hb hw =>
    refine hloop (by simp [left, hp]) ?_ ?_ (by simp [DispatchState.enqueue, left, hp])
      (by simp [DispatchState.enqueue, hp])
    · apply enqueue_phase
      exact hw
    · simpa [DispatchState.enqueue, pending, hp, hb] using htaken
  | send hp hw =>
    refine hloop (by simp [left, hp]) ?_ ?_ (by simp [DispatchState.enqueue, left])
      (by simp [DispatchState.enqueue])
    · apply enqueue_phase
      exact hw
    · simpa [DispatchState.enqueue, pending, hp] using htaken
  | closed hleft hw hp => exact absurd hp (hh.1 _ _ hw)
  | crashed hleft hw =>
    rw [List.getElem?_eq_none_iff, hs.count, hs.index] at hw
    exact absurd (Nat.mod_lt _ hN) (Nat.not_lt.2 hw)
  | worker hw hstep =>
    refine ⟨hk.taken, hk.settled, fun j v hv hp => ?_, hk.running⟩
    rcases worker_of_set hv with ⟨rfl, rfl⟩ | ⟨-, hv⟩
    · rcases Worker.step_cases hstep with hpan | ⟨-, -, hexit⟩
      · rw [hpan] at hp; cases hp
      · exact hexit hp
    · exact hk.exited j v hv hp
  | join hp =>
    have hleft : s.left = true := by simp [left, hp]
    have hnone := hk.settled (.inr hleft)
    have hpending : pending { s with phase := .finished true } = s.pending := by simp [pending, hp]
    exact ⟨by rw [hpending]; exact htaken, fun _ => by rw [hpending]; exact hnone,
      fun i w hw he => ⟨rfl, (hk.exited i w hw he).2⟩, by simp⟩
  | timeout => exact absurd rfl hh.2

end

end DispatchState

theorem dispatcher_inv {numWorkers maxMessageSize : Nat} (hN : 0 < numWorkers) {s : DispatchState}
    (h : (dispatcher numWorkers maxMessageSize).Reachable s) : s.Healthy → s.Shares numWorkers ∧ s.Kept := by
  have hinit : ∀ (i : Nat) (w : Worker), (dispatcher numWorkers maxMessageSize).start.workers[i]? = some w →
      w = ⟨[], .idle, []⟩ :=
    fun i w hw => List.eq_of_mem_replicate (List.mem_of_getElem? hw)
  have hshares : (dispatcher numWorkers maxMessageSize).start.Shares numWorkers := by
    refine ⟨by simp [dispatcher], by simp [dispatcher], rfl, fun i w hw => ?_⟩
    rw [hinit i w hw]
    rfl
  have hkept : (dispatcher numWorkers maxMessageSize).start.Kept := by
    refine ⟨rfl, fun _ => rfl, fun i w hw hp => ?_, by simp [dispatcher]⟩
    rw [hinit i w hw] at hp
    cases hp
  refine h.inv (I := fun s => s.Healthy → s.Shares numWorkers ∧ s.Kept) (fun _ => ⟨hshares, hkept⟩) ?_
  intro s a s' hs hstep hh
  obtain ⟨hshares, hkept⟩ := hs (DispatchState.healthy_of_step hstep hh)
  exact ⟨DispatchState.step_shares hshares hstep hh, DispatchState.step_kept hN hshares hkept hstep hh⟩

/-- What becomes of the datagrams taken off the socket. -/
structure DispatchState.Lossless (numWorkers : Nat) (s : DispatchState) : Prop where
  index : s.workerIdx < numWorkers
  /-- They are enqueued once each, in turn, up to those still pending. -/
  enqueued : s.sent = inTurn numWorkers (s.taken.take s.sent.length) ∧ s.taken.drop s.sent.length = s.pending
  /-- A worker processes its share in order. -/
  order : ∀ (i : Nat) (w : Worker), s.workers[i]? = some w →
    w.processed ++ w.queue = share numWorkers i (s.taken.take s.sent.length)
  /-- At the `select!` that sees the shutdown, and once the senders are dropped, nothing is pending. -/
  shutdown : s.phase = .waiting ∨ s.left = true → s.batch = [] ∧ s.sent = inTurn numWorkers s.taken
  exited : ∀ (i : Nat) (w : Worker), s.workers[i]? = some w → w.phase = .exited →
    w.processed = share numWorkers i s.taken

/-- **Dispatch loses and duplicates nothing**, for any batches, channels full or not, and any schedule of the
    workers. -/
theorem dispatch_lossless {numWorkers maxMessageSize : Nat} (hN : 0 < numWorkers) {s : DispatchState}
    (h : (dispatcher numWorkers maxMessageSize).Reachable s) (hh : s.Healthy) : s.Lossless numWorkers := by
  obtain ⟨hs, hk⟩ := dispatcher_inv hN h hh
  have hlen : s.sent.length = (s.sent.map Prod.snd).length := (List.length_map _).symm
  have htake : s.taken.take s.sent.length = s.sent.map Prod.snd := by
    rw [hk.taken, hlen, List.take_left]
  have hnone : s.pending = [] → s.taken = s.sent.map Prod.snd := fun hp => by
    rw [hk.taken, hp, List.append_nil]
  refine ⟨?_, ⟨?_, ?_⟩, ?_, ?_, ?_⟩
  · rw [hs.index]
    exact Nat.mod_lt _ hN
  · rw [htake]
    exact hs.turns
  · rw [hlen, hk.taken, List.drop_left]
  · intro i w hw
    rw [htake]
    exact hs.queued i w hw
  · intro hp
    have hpending := hk.settled hp
    refine ⟨?_, by rw [hnone hpending]; exact hs.turns⟩
    unfold DispatchState.pending at hpending
    split at hpending
    · cases hpending
    · exact hpending
  · intro i w hw hp
    obtain ⟨hleft, hqueue⟩ := hk.exited i w hw hp
    have hall := hs.queued i w hw
    rw [hqueue, List.append_nil] at hall
    rw [hall, ← hnone (hk.settled (.inr hleft))]

/-- Three datagrams to two workers, and a shutdown. -/
def threeDatagrams : List DispatchAction :=
  [.readable true, .recv (some ([1], [])), .recv (some ([2], [])), .recv (some ([3], [])), .recv none,
    .dispatch, .worker 0 .recv, .dispatch, .cancel, .dispatch, .dispatch, .poll,
    .worker 0 .done, .worker 0 .recv, .worker 0 .done, .worker 0 .recv]

theorem dispatch_lossless_three :
    ∃ s, (dispatcher 2 8).run (dispatcher 2 8).start threeDatagrams = some s ∧ s.phase = .joining ∧
      s.workers[0]?.map Worker.processed = some [([1], []), ([3], [])] ∧ s.Healthy ∧ s.Lossless 2 := by
  have hrun : (dispatcher 2 8).run (dispatcher 2 8).start threeDatagrams =
      some ⟨.joining, [], 1, true, [⟨[], .exited, [([1], []), ([3], [])]⟩, ⟨[([2], [])], .idle, []⟩],
        [([1], []), ([2], []), ([3], [])], [(0, [1], []), (1, [2], []), (0, [3], [])]⟩ := by decide
  have hh : DispatchState.Healthy ⟨.joining, [], 1, true, [⟨[], .exited, [([1], []), ([3], [])]⟩, ⟨[([2], [])], .idle, []⟩],
      [([1], []), ([2], []), ([3], [])], [(0, [1], []), (1, [2], []), (0, [3], [])]⟩ := by
    refine ⟨fun i w hw => ?_, by decide⟩
    have hm := List.mem_of_getElem? hw
    simp only [List.mem_cons, List.not_mem_nil, or_false] at hm
    rcases hm with rfl | rfl <;> decide
  exact ⟨_, hrun, rfl, rfl, hh, dispatch_lossless (by decide) ⟨_, hrun⟩ hh⟩

end LogFence
