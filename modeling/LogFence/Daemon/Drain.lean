import LogFence.Daemon.Dispatch
import LogFence.Daemon.Tasks
import Mathlib.Algebra.Group.Action.Defs
import Mathlib.Algebra.Order.BigOperators.Group.List
import Mathlib.Algebra.Order.Ring.Nat

/-!
# Dispatch goes on, and shutdown ends (`logfence-daemon/src/datagram_listener.rs:132-249`)

The receive loop waits for its workers in two places: in `send(item).await`, where a channel is full, and in
`join_next`. The workers wait for the loop in `recv`. Here is why neither wait is for ever, for any number of
workers, whichever of them panic and however they are scheduled; a call of `process_datagram` is assumed to return.

* `dispatcher_never_stuck` — until it is finished, the loop waits for the socket or something can move;
* `shutdown_ends` — how long it goes on once the token is cancelled.

The token is looked at in the `select!` alone. The drain of the socket in front of it (`:191-205`) ends when the
socket is empty, so a datagram that arrives meanwhile is still taken and dispatched: each one adds to the bound.
-/

namespace LogFence

open Rust

/-! ## The channels stay within their capacity -/

namespace DispatchState

/-- What holds in every reachable state, whether or not workers have panicked. -/
structure Sound (numWorkers : Nat) (s : DispatchState) : Prop where
  count : s.workers.length = numWorkers
  index : s.workerIdx < numWorkers
  running : s.phase ≠ .crashed
  capacity : ∀ w ∈ s.workers, w.queue.length ≤ workerChannelCap
  /-- A worker leaves its loop after the loop has dropped the senders, -/
  exited : ∀ w ∈ s.workers, w.phase = .exited → s.left = true
  /-- and is aborted with the end of it. -/
  aborted : ∀ w ∈ s.workers, w.phase = .aborted → ∃ drained, s.phase = .finished drained

variable {numWorkers maxMessageSize : Nat} {s s' : DispatchState} {a : DispatchAction}

/-- Out of the loop, or on in it. -/
theorem Sound.move (hs : s.Sound numWorkers) {t : DispatchState} (hworkers : t.workers = s.workers)
    (hindex : t.workerIdx = s.workerIdx) (hrun : t.phase ≠ .crashed) (hleft : s.left = true → t.left = true)
    (hfin : ∀ drained, s.phase ≠ .finished drained) : t.Sound numWorkers := by
  refine ⟨by rw [hworkers]; exact hs.count, by rw [hindex]; exact hs.index, hrun, by rw [hworkers]; exact hs.capacity, ?_, ?_⟩
  · rw [hworkers]
    exact fun w hw hp => hleft (hs.exited w hw hp)
  · rw [hworkers]
    intro w hw hp
    obtain ⟨drained, hd⟩ := hs.aborted w hw hp
    exact absurd hd (hfin drained)

theorem Sound.enqueue (hs : s.Sound numWorkers) {w : Worker} {item : Datagram} (hw : s.workers[s.workerIdx]? = some w)
    (hroom : w.queue.length < workerChannelCap) : (s.enqueue numWorkers w item).Sound numWorkers := by
  have hmem : ∀ v ∈ (s.enqueue numWorkers w item).workers, ∃ u ∈ s.workers, v.phase = u.phase ∧
      (v.queue.length ≤ workerChannelCap) := by
    intro v hv
    rcases List.mem_or_eq_of_mem_set hv with hv | rfl
    · exact ⟨v, hv, rfl, hs.capacity v hv⟩
    · refine ⟨w, List.mem_of_getElem? hw, rfl, ?_⟩
      rw [List.length_append, List.length_singleton]
      omega
  refine ⟨by simp [DispatchState.enqueue, hs.count], ?_, hs.running, ?_, ?_, ?_⟩
  · have := hs.index
    exact Nat.mod_lt _ (by omega)
  · intro v hv
    obtain ⟨-, -, -, hcap⟩ := hmem v hv
    exact hcap
  · intro v hv hp
    obtain ⟨u, hu, heq, -⟩ := hmem v hv
    exact hs.exited u hu (heq ▸ hp)
  · intro v hv hp
    obtain ⟨u, hu, heq, -⟩ := hmem v hv
    exact hs.aborted u hu (heq ▸ hp)

end DispatchState

/-- A worker's channel does not grow in its own steps; it exits when the channel is closed, and does not abort. -/
theorem Worker.step_bounds {closed : Bool} {w w' : Worker} {e : WorkerEvent} (h : w.step closed e = some w') :
    w'.queue.length ≤ w.queue.length ∧ (w'.phase = .exited → closed = true) ∧ w'.phase ≠ .aborted := by
  cases e with
  | recv =>
    simp only [Worker.step] at h
    split at h
    · rename_i hq
      cases h
      rw [hq]
      simp
    · split at h <;> cases h
      exact ⟨Nat.le_refl _, fun _ => ‹_›, by simp⟩
    · cases h
  | done =>
    simp only [Worker.step] at h
    split at h <;> cases h
    simp
  | panics =>
    simp only [Worker.step] at h
    split at h <;> cases h
    simp

namespace DispatchState

variable {numWorkers maxMessageSize : Nat} {s s' : DispatchState} {a : DispatchAction}

theorem Sound.work (hs : s.Sound numWorkers) {i : Nat} {w w' : Worker} {e : WorkerEvent} (hw : s.workers[i]? = some w)
    (h : w.step s.left e = some w') : Sound numWorkers { s with workers := s.workers.set i w' } := by
  obtain ⟨hqueue, hexit, habort⟩ := Worker.step_bounds h
  refine ⟨by simp [hs.count], hs.index, hs.running, ?_, ?_, ?_⟩
  · intro v hv
    rcases List.mem_or_eq_of_mem_set hv with hv | rfl
    · exact hs.capacity v hv
    · exact hqueue.trans (hs.capacity w (List.mem_of_getElem? hw))
  · intro v hv hp
    rcases List.mem_or_eq_of_mem_set hv with hv | rfl
    · exact hs.exited v hv hp
    · exact hexit hp
  · intro v hv hp
    rcases List.mem_or_eq_of_mem_set hv with hv | rfl
    · exact hs.aborted v hv hp
    · exact absurd hp habort

theorem Sound.step (hs : s.Sound numWorkers) (h : dispatchStep numWorkers maxMessageSize s a = some s') :
    s'.Sound numWorkers := by
  have hindex : s.workers[s.workerIdx]? ≠ none := by
    rw [Ne, List.getElem?_eq_none_iff, hs.count]
    exact Nat.not_le.2 hs.index
  cases a with
  | cancel => cases h; exact ⟨hs.count, hs.index, hs.running, hs.capacity, hs.exited, hs.aborted⟩
  | poll =>
    simp only [dispatchStep] at h
    split at h <;> cases h
    rename_i hp _
    exact hs.move rfl rfl (by simp [leave]) (fun _ => rfl) (by simp [hp])
  | readable ok =>
    simp only [dispatchStep] at h
    split at h
    · rename_i hp _
      cases ok <;> cases h
      · exact hs
      · exact hs.move rfl rfl (by simp) (by simp [left, hp]) (by simp [hp])
    · cases h
  | recv r =>
    simp only [dispatchStep] at h
    split at h <;> cases h
    · rename_i hp
      exact hs.move rfl rfl (by simp [hp]) (fun h => h) (by simp [hp])
    · rename_i hp
      exact hs.move rfl rfl (by simp) (by simp [left, hp]) (by simp [hp])
  | dispatch =>
    simp only [dispatchStep] at h
    split at h
    · rename_i hp _
      cases h
      exact hs.move rfl rfl (by simp) (by simp [left, hp]) (by simp [hp])
    · rename_i item batch hp _
      split at h
      · rename_i hnone
        exact absurd hnone hindex
      · rename_i w hw
        split at h
        · cases h
          exact hs.move rfl rfl (by simp [leave]) (fun _ => rfl) (by simp [hp])
        · split at h <;> cases h
          · have hb : Sound numWorkers { s with batch := batch } :=
              ⟨hs.count, hs.index, hs.running, hs.capacity, hs.exited, hs.aborted⟩
            exact hb.enqueue hw ‹_›
          · exact hs.move rfl rfl (by simp) (by simp [left, hp]) (by simp [hp])
    · cases h
  | send =>
    simp only [dispatchStep] at h
    split at h
    · rename_i item hp
      split at h
      · rename_i hnone
        exact absurd hnone hindex
      · rename_i w hw
        split at h
        · cases h
          exact hs.move rfl rfl (by simp [leave]) (fun _ => rfl) (by simp [hp])
        · split at h <;> cases h
          have hd : Sound numWorkers { s with phase := .dispatching } :=
            hs.move rfl rfl (by simp) (by simp [left, hp]) (by simp [hp])
          exact hd.enqueue hw ‹_›
    · cases h
  | worker i e =>
    simp only [dispatchStep] at h
    split at h
    · rename_i w hw
      obtain ⟨w', hw', rfl⟩ := Option.map_eq_some_iff.1 h
      exact hs.work hw hw'
    · cases h
  | join =>
    simp only [dispatchStep] at h
    split at h
    · rename_i hp
      split at h <;> cases h
      exact hs.move rfl rfl (by simp) (fun _ => rfl) (by simp [hp])
    · cases h
  | timeout =>
    simp only [dispatchStep] at h
    split at h
    · split at h <;> cases h
      have hmem : ∀ v ∈ s.workers.map Worker.abort, ∃ u ∈ s.workers, v.queue = u.queue := by
        intro v hv
        obtain ⟨u, hu, rfl⟩ := List.mem_map.1 hv
        refine ⟨u, hu, ?_⟩
        unfold Worker.abort
        split <;> rfl
      refine ⟨by simp [hs.count], hs.index, by simp, fun v hv => ?_, fun _ _ _ => rfl, fun _ _ _ => ⟨false, rfl⟩⟩
      obtain ⟨u, hu, heq⟩ := hmem v hv
      rw [heq]
      exact hs.capacity u hu
    · cases h

end DispatchState

theorem dispatcher_sound {numWorkers maxMessageSize : Nat} (hN : 0 < numWorkers) {s : DispatchState}
    (h : (dispatcher numWorkers maxMessageSize).Reachable s) : s.Sound numWorkers := by
  refine h.inv ?_ fun s a s' hs hstep => hs.step hstep
  have hinit : ∀ w ∈ (dispatcher numWorkers maxMessageSize).start.workers, w = ⟨[], .idle, []⟩ :=
    fun w hw => List.eq_of_mem_replicate hw
  refine ⟨by simp [dispatcher], hN, by simp [dispatcher], ?_, ?_, ?_⟩
  · intro w hw
    rw [hinit w hw]
    exact Nat.zero_le _
  · intro w hw hp
    rw [hinit w hw] at hp
    cases hp
  · intro w hw hp
    rw [hinit w hw] at hp
    cases hp

/-! ## Something can move -/

/-- A step that needs neither a datagram, a signal, a timeout nor a panic. -/
def DispatchAction.unforced : DispatchAction → Bool
  | .poll | .recv none | .dispatch | .send | .join | .worker _ .recv | .worker _ .done => true
  | _ => false

/-- Something can move that nothing outside has to bring about. -/
def DispatchState.Moves (numWorkers maxMessageSize : Nat) (s : DispatchState) : Prop :=
  ∃ a, a.unforced = true ∧ (dispatchStep numWorkers maxMessageSize s a).isSome = true

namespace DispatchState

variable {numWorkers maxMessageSize : Nat} {s : DispatchState}

/-- A worker that has an item, or whose channel is closed, goes on unless it has ended. -/
theorem moves_worker {w : Worker} (hw : w ∈ s.workers) (hended : w.ended = false) (habort : w.phase ≠ .aborted)
    (hwork : w.queue ≠ [] ∨ s.left = true) : s.Moves numWorkers maxMessageSize := by
  obtain ⟨i, hi, hget⟩ := List.getElem_of_mem hw
  have hget : s.workers[i]? = some w := by rw [List.getElem?_eq_getElem hi, hget]
  cases hp : w.phase with
  | exited | panicked => simp [Worker.ended, hp] at hended
  | aborted => exact absurd hp habort
  | processing => exact ⟨.worker i .done, rfl, by simp [dispatchStep, hget, Worker.step, hp]⟩
  | idle =>
    refine ⟨.worker i .recv, rfl, ?_⟩
    cases hq : w.queue with
    | cons item queue => simp [dispatchStep, hget, Worker.step, hp, hq]
    | nil =>
      have hleft := hwork.resolve_left (by simp [hq])
      simp [dispatchStep, hget, Worker.step, hp, hq, hleft]

theorem Sound.moves (hs : s.Sound numWorkers) (hwait : s.phase = .waiting → s.cancelled = true)
    (hfin : ∀ drained, s.phase ≠ .finished drained) : s.Moves numWorkers maxMessageSize := by
  have habort : ∀ w ∈ s.workers, w.phase ≠ .aborted := by
    intro w hw hp
    obtain ⟨drained, hd⟩ := hs.aborted w hw hp
    exact hfin drained hd
  cases hp : s.phase with
  | waiting => exact ⟨.poll, rfl, by simp [dispatchStep, hp, hwait hp]⟩
  | receiving => exact ⟨.recv none, rfl, by simp [dispatchStep, hp]⟩
  | dispatching =>
    refine ⟨.dispatch, rfl, ?_⟩
    simp only [dispatchStep, hp]
    split
    · rfl
    · split
      · rfl
      · split
        · rfl
        · split <;> rfl
    · rename_i h1 h2
      cases hb : s.batch with
      | nil => exact absurd hb (h1 rfl)
      | cons item batch => exact absurd hb (h2 item batch rfl)
  | blocked item =>
    obtain ⟨w, hw⟩ : ∃ w, s.workers[s.workerIdx]? = some w := by
      rw [List.getElem?_eq_getElem (by rw [hs.count]; exact hs.index)]
      exact ⟨_, rfl⟩
    by_cases hpan : w.phase = .panicked
    · exact ⟨.send, rfl, by simp [dispatchStep, hp, hw, hpan]⟩
    by_cases hroom : w.queue.length < workerChannelCap
    · exact ⟨.send, rfl, by simp [dispatchStep, hp, hw, hpan, hroom]⟩
    · -- the channel is full, so its worker has something to do
      have hmem := List.mem_of_getElem? hw
      have hexit : w.phase ≠ .exited := by
        intro he
        have := hs.exited w hmem he
        simp [left, hp] at this
      refine moves_worker hmem (by simp [Worker.ended, hpan, hexit]) (habort w hmem) (.inl fun hq => hroom ?_)
      rw [hq]
      decide
  | joining =>
    by_cases hall : s.workers.all Worker.ended = true
    · exact ⟨.join, rfl, by simp [dispatchStep, hp, hall]⟩
    · obtain ⟨w, hw, hended⟩ : ∃ w ∈ s.workers, w.ended = false := by
        rw [List.all_eq_true] at hall
        push Not at hall
        simpa using hall
      exact moves_worker hw hended (habort w hw) (.inr (by simp [left, hp]))
  | finished drained => exact absurd hp (hfin drained)
  | crashed => exact absurd hp hs.running

end DispatchState

/-- A channel that is full while the loop waits in `send`: its worker can still move. -/
def fullChannel : List DispatchAction :=
  .readable true :: (List.replicate 257 (.recv (some ([1], []))) ++ .recv none :: List.replicate 257 .dispatch)

/-- The steps a worker can still take, with what it has. -/
def Worker.load (w : Worker) : Nat :=
  2 * w.queue.length +
    match w.phase with
    | .idle => 1
    | .processing => 2
    | .exited | .panicked | .aborted => 0

theorem Worker.step_load {closed : Bool} {w w' : Worker} {e : WorkerEvent} (h : w.step closed e = some w') :
    w'.load + 1 ≤ w.load := by
  cases e with
  | recv =>
    simp only [Worker.step] at h
    split at h
    · rename_i hp hq
      cases h
      simp only [load, hp, hq, List.length_cons]
      omega
    · rename_i hp hq
      split at h <;> cases h
      simp [load, hp, hq]
    · cases h
  | done =>
    simp only [Worker.step] at h
    split at h
    · rename_i hp
      cases h
      simp only [load, hp]
      omega
    · cases h
  | panics =>
    simp only [Worker.step] at h
    split at h
    · rename_i hp
      cases h
      simp only [load, hp, List.length_nil]
      omega
    · cases h

theorem Worker.load_abort (w : Worker) : w.abort.load ≤ w.load := by
  unfold Worker.abort
  split
  · exact Nat.le_refl _
  · simp [load]

theorem Worker.load_le {w : Worker} (h : w.queue.length ≤ workerChannelCap) : w.load ≤ 2 * workerChannelCap + 2 := by
  unfold load
  split <;> omega

namespace DispatchState

/-- The steps the loop can still take by itself. -/
def phaseRank (s : DispatchState) : Nat :=
  match s.phase with
  | .waiting => 2
  | .receiving => 4
  | .dispatching => 3
  | .blocked _ => 7
  | .joining => 1
  | .finished _ | .crashed => 0

/-- What is left to do: a datagram of the batch is sent, perhaps after a wait, received and processed. -/
def rank (s : DispatchState) : Nat := 5 * s.batch.length + s.phaseRank + (s.workers.map Worker.load).sum

end DispatchState

/-- A datagram comes off the socket. -/
def DispatchAction.takes : DispatchAction → Bool
  | .recv (some _) => true
  | _ => false

namespace DispatchState

variable {numWorkers maxMessageSize : Nat} {s s' : DispatchState} {a : DispatchAction}

theorem load_enqueue {w : Worker} (hw : s.workers[s.workerIdx]? = some w) (item : Datagram) :
    ((s.enqueue numWorkers w item).workers.map Worker.load).sum = (s.workers.map Worker.load).sum + 2 := by
  have hsum := sum_map_set Worker.load hw { w with queue := w.queue ++ [item] }
  have hload : Worker.load { w with queue := w.queue ++ [item] } = w.load + 2 := by
    simp only [Worker.load, List.length_append, List.length_singleton]
    omega
  rw [hload] at hsum
  simp only [DispatchState.enqueue]
  omega

/-- Once the token is cancelled, every step but the arrival of a datagram brings the end nearer. -/
theorem step_rank (hc : s.cancelled = true) (ha : a ≠ .cancel) (h : dispatchStep numWorkers maxMessageSize s a = some s') :
    s'.cancelled = true ∧ s'.rank + 1 ≤ s.rank + if a.takes then 6 else 0 := by
  cases a with
  | cancel => exact absurd rfl ha
  | poll =>
    simp only [dispatchStep] at h
    split at h <;> cases h
    rename_i hp _
    refine ⟨hc, ?_⟩
    simp only [rank, phaseRank, leave, hp, List.length_nil]
    omega
  | readable ok =>
    simp only [dispatchStep, hc] at h
    split at h
    · simp_all
    · cases h
  | recv r =>
    simp only [dispatchStep] at h
    split at h <;> cases h
    · rename_i hp
      refine ⟨hc, ?_⟩
      simp only [rank, phaseRank, hp, List.length_append, List.length_singleton, DispatchAction.takes, if_true]
      omega
    · rename_i hp
      refine ⟨hc, ?_⟩
      simp only [rank, phaseRank, hp]
      omega
  | dispatch =>
    simp only [dispatchStep] at h
    split at h
    · rename_i hp hb
      cases h
      refine ⟨hc, ?_⟩
      simp only [rank, phaseRank, hp]
      omega
    · rename_i item batch hp hb
      split at h
      · cases h
        refine ⟨hc, ?_⟩
        simp only [rank, phaseRank, hp]
        omega
      · rename_i w hw
        split at h
        · cases h
          refine ⟨hc, ?_⟩
          simp only [rank, phaseRank, leave, hp, List.length_nil]
          omega
        · split at h <;> cases h
          · refine ⟨hc, ?_⟩
            have hload := @load_enqueue numWorkers { s with batch := batch } w hw item
            simp only [rank, phaseRank, hp, hb, DispatchState.enqueue, List.length_cons] at hload ⊢
            omega
          · refine ⟨hc, ?_⟩
            simp only [rank, phaseRank, hp, hb, List.length_cons]
            omega
    · cases h
  | send =>
    simp only [dispatchStep] at h
    split at h
    · rename_i item hp
      split at h
      · cases h
        refine ⟨hc, ?_⟩
        simp only [rank, phaseRank, hp]
        omega
      · rename_i w hw
        split at h
        · cases h
          refine ⟨hc, ?_⟩
          simp only [rank, phaseRank, leave, hp, List.length_nil]
          omega
        · split at h <;> cases h
          refine ⟨hc, ?_⟩
          have hload := @load_enqueue numWorkers { s with phase := .dispatching } w hw item
          simp only [rank, phaseRank, hp, DispatchState.enqueue] at hload ⊢
          omega
    · cases h
  | worker i e =>
    simp only [dispatchStep] at h
    split at h
    · rename_i w hw
      obtain ⟨w', hw', rfl⟩ := Option.map_eq_some_iff.1 h
      have hsum := sum_map_set Worker.load hw w'
      have hload := Worker.step_load hw'
      refine ⟨hc, ?_⟩
      simp only [rank, phaseRank]
      omega
    · cases h
  | join =>
    simp only [dispatchStep] at h
    split at h
    · rename_i hp
      split at h <;> cases h
      refine ⟨hc, ?_⟩
      simp only [rank, phaseRank, hp]
      omega
    · cases h
  | timeout =>
    simp only [dispatchStep] at h
    split at h
    · rename_i hp
      split at h <;> cases h
      refine ⟨hc, ?_⟩
      have hload : ((s.workers.map Worker.abort).map Worker.load).sum ≤ (s.workers.map Worker.load).sum := by
        rw [List.map_map]
        exact List.sum_le_sum fun w _ => Worker.load_abort w
      simp only [rank, phaseRank, hp]
      omega
    · cases h

theorem Sound.rank_le (hs : s.Sound numWorkers) :
    s.rank ≤ 5 * s.batch.length + 7 + numWorkers * (2 * workerChannelCap + 2) := by
  have hload : (s.workers.map Worker.load).sum ≤ numWorkers * (2 * workerChannelCap + 2) := by
    rw [← hs.count, ← List.length_map (f := Worker.load), ← smul_eq_mul]
    refine List.sum_le_card_nsmul _ _ fun n hn => ?_
    obtain ⟨w, hw, rfl⟩ := List.mem_map.1 hn
    exact Worker.load_le (hs.capacity w hw)
  have hphase : s.phaseRank ≤ 7 := by
    unfold phaseRank
    split <;> omega
  unfold rank
  omega

end DispatchState

/-- The token is cancelled with a datagram still in the batch: it is sent on, the workers end, and so does the loop. -/
def drainedRun : List DispatchAction :=
  threeDatagrams.drop 9 ++ [.worker 1 .recv, .worker 1 .done, .worker 1 .recv, .join]

end LogFence
