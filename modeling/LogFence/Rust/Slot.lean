import LogFence.Rust.System
import Mathlib.Data.List.Nodup

/-!
# A lazily connected stream behind a mutex

A `Mutex<Option<Stream>>` that is shared by concurrent calls. A call takes the lock, connects if the slot is
empty, writes its frame with `write_all`, and empties the slot if the write fails:

    let mut guard = slot.lock().await;
    if guard.is_none() { *guard = Some(connect().await?); }
    if let Err(e) = guard.write_all(frame).await { *guard = None; return Err(e); }

The lock is fair: it is given in the order in which it was asked for. `write_all` is a series of writes of
any size, and fails, if it does, with a part of the frame still to be written. A call can be dropped where
it is suspended: waiting for the lock, connecting, or in `write_all`.

A connection is the list of what was written on it, by which call; `Whole` says that every frame on it is
complete but the last. `Inv` is kept by every step but one, the drop of a call that has written a part of
its frame (`step_inv`): the guard is gone, and the slot still holds the connection.
-/

namespace Rust

variable {α : Type}

/-- How far the call is that holds the guard. -/
inductive Progress where
  /-- Before the slot is looked at, or connecting. -/
  | looking
  /-- In `write_all` on a connection, with so much written. -/
  | writing (conn written : Nat)
deriving DecidableEq, Repr

structure Slot (α : Type) where
  /-- What each call writes, in the order the lock was asked for. -/
  frames : List (List α)
  /-- The calls that wait for the lock. -/
  queue : List Nat
  guard : Option (Nat × Progress)
  /-- The connection in the slot. -/
  conn : Option Nat
  /-- Every connection opened so far: what each call wrote on it, the latest first. -/
  conns : List (List (Nat × List α))
  /-- The calls that have returned, and whether with `Ok`. -/
  results : List (Nat × Bool)
deriving DecidableEq

inductive Connect where
  | refused
  /-- Connected, but a later step of the set-up failed. -/
  | aborted
  | opened
deriving DecidableEq, Repr

inductive SlotAction (α : Type) where
  | call (frame : List α)
  | lock
  | reuse
  | connect (r : Connect)
  | write (n : Nat)
  | finish
  | fail
  | drop (call : Nat)
deriving DecidableEq, Repr

namespace Slot

def empty : Slot α := ⟨[], [], none, none, [], []⟩

def frame (s : Slot α) (k : Nat) : List α := (s.frames[k]?).getD []

/-- The call returns, and its guard is dropped. -/
def release (s : Slot α) (k : Nat) (ok : Bool) : Slot α :=
  { s with guard := none, results := s.results ++ [(k, ok)] }

/-- Bytes of call `k` at the end of a connection. -/
def put (k : Nat) (chunk : List α) : List (Nat × List α) → List (Nat × List α)
  | (j, b) :: segs => if j = k then (j, b ++ chunk) :: segs else (k, chunk) :: (j, b) :: segs
  | [] => [(k, chunk)]

/-- The wire, oldest byte first. -/
def wire (segs : List (Nat × List α)) : List α := (segs.reverse.map Prod.snd).flatten

def step (s : Slot α) : SlotAction α → Option (Slot α)
  | .call frame =>
    if frame.isEmpty then none
    else some { s with frames := s.frames ++ [frame], queue := s.queue ++ [s.frames.length] }
  | .lock =>
    match s.guard, s.queue with
    | none, k :: queue => some { s with guard := some (k, .looking), queue := queue }
    | _, _ => none
  | .reuse =>
    match s.guard, s.conn with
    | some (k, .looking), some n => some { s with guard := some (k, .writing n 0) }
    | _, _ => none
  | .connect r =>
    match s.guard, s.conn with
    | some (k, .looking), none =>
      match r with
      | .refused => some (s.release k false)
      | .aborted => some ({ s with conns := s.conns ++ [[]] }.release k false)
      | .opened =>
        some { s with conns := s.conns ++ [[]], conn := some s.conns.length, guard := some (k, .writing s.conns.length 0) }
    | _, _ => none
  | .write n =>
    match s.guard with
    | some (k, .writing c w) =>
      if 0 < n ∧ w + n ≤ (s.frame k).length then
        some { s with
          conns := s.conns.modify c (put k (((s.frame k).drop w).take n))
          guard := some (k, .writing c (w + n)) }
      else none
    | _ => none
  | .finish =>
    match s.guard with
    | some (k, .writing _ w) => if w = (s.frame k).length then some (s.release k true) else none
    | _ => none
  | .fail =>
    match s.guard with
    | some (k, .writing _ w) => if w < (s.frame k).length then some ({ s with conn := none }.release k false) else none
    | _ => none
  | .drop k =>
    match s.guard with
    | some (j, p) =>
      if j = k then
        match p with
        | .looking => some { s with guard := none }
        | .writing _ w => if w < (s.frame k).length then some { s with guard := none } else none
      else if k ∈ s.queue then some { s with queue := s.queue.erase k } else none
    | none => if k ∈ s.queue then some { s with queue := s.queue.erase k } else none

def system (α : Type) : System (Slot α) (SlotAction α) := ⟨empty, step⟩

/-! ## What a step does -/

/-- The steps, one constructor for each way to take one. -/
inductive Steps (s : Slot α) : SlotAction α → Slot α → Prop where
  | call {f : List α} (hf : f ≠ []) :
    Steps s (.call f) { s with frames := s.frames ++ [f], queue := s.queue ++ [s.frames.length] }
  | lock {k : Nat} {queue : List Nat} (hg : s.guard = none) (hq : s.queue = k :: queue) :
    Steps s .lock { s with guard := some (k, .looking), queue := queue }
  | reuse {k n : Nat} (hg : s.guard = some (k, .looking)) (hc : s.conn = some n) :
    Steps s .reuse { s with guard := some (k, .writing n 0) }
  | refused {k : Nat} (hg : s.guard = some (k, .looking)) (hc : s.conn = none) :
    Steps s (.connect .refused) (s.release k false)
  | aborted {k : Nat} (hg : s.guard = some (k, .looking)) (hc : s.conn = none) :
    Steps s (.connect .aborted) ({ s with conns := s.conns ++ [[]] }.release k false)
  | opened {k : Nat} (hg : s.guard = some (k, .looking)) (hc : s.conn = none) :
    Steps s (.connect .opened)
      { s with conns := s.conns ++ [[]], conn := some s.conns.length, guard := some (k, .writing s.conns.length 0) }
  | write {k c w n : Nat} (hg : s.guard = some (k, .writing c w)) (hn : 0 < n) (hw : w + n ≤ (s.frame k).length) :
    Steps s (.write n)
      { s with
        conns := s.conns.modify c (put k (((s.frame k).drop w).take n))
        guard := some (k, .writing c (w + n)) }
  | finish {k c : Nat} (hg : s.guard = some (k, .writing c (s.frame k).length)) : Steps s .finish (s.release k true)
  | fail {k c w : Nat} (hg : s.guard = some (k, .writing c w)) (hw : w < (s.frame k).length) :
    Steps s .fail ({ s with conn := none }.release k false)
  | dropQueued {k : Nat} (hk : k ∈ s.queue) (hg : ∀ p, s.guard ≠ some (k, p)) :
    Steps s (.drop k) { s with queue := s.queue.erase k }
  | dropLooking {k : Nat} (hg : s.guard = some (k, .looking)) : Steps s (.drop k) { s with guard := none }
  | dropWriting {k c w : Nat} (hg : s.guard = some (k, .writing c w)) (hw : w < (s.frame k).length) :
    Steps s (.drop k) { s with guard := none }

theorem steps_of_step {s s' : Slot α} {a : SlotAction α} (h : s.step a = some s') : Steps s a s' := by
  cases a with
  | call f =>
    simp only [step] at h
    split at h <;> cases h
    rename_i hf
    exact .call (by simpa using hf)
  | lock =>
    simp only [step] at h
    split at h <;> cases h
    exact .lock ‹_› ‹_›
  | reuse =>
    simp only [step] at h
    split at h <;> cases h
    exact .reuse ‹_› ‹_›
  | connect r =>
    simp only [step] at h
    split at h
    · cases r <;> cases h
      · exact .refused ‹_› ‹_›
      · exact .aborted ‹_› ‹_›
      · exact .opened ‹_› ‹_›
    · cases h
  | write n =>
    simp only [step] at h
    split at h
    · split at h <;> cases h
      rename_i hw
      exact .write ‹_› hw.1 hw.2
    · cases h
  | finish =>
    simp only [step] at h
    split at h
    · rename_i k c w hg
      split at h <;> cases h
      rename_i hw
      exact .finish (by rw [hg, hw])
    · cases h
  | fail =>
    simp only [step] at h
    split at h
    · split at h <;> cases h
      exact .fail ‹_› ‹_›
    · cases h
  | drop k =>
    simp only [step] at h
    split at h
    · rename_i j p hg
      split at h
      · rename_i hj
        subst hj
        split at h
        · cases h; exact .dropLooking hg
        · split at h <;> cases h
          exact .dropWriting hg ‹_›
      · rename_i hj
        split at h <;> cases h
        exact .dropQueued ‹_› (by rw [hg]; simp [hj])
    · rename_i hg
      split at h <;> cases h
      exact .dropQueued ‹_› (by rw [hg]; simp)

/-- Only a new call brings a new frame. -/
theorem step_frames {s s' : Slot α} {a : SlotAction α} (h : s.step a = some s') :
    s'.frames = s.frames ∨ ∃ f, a = .call f ∧ s'.frames = s.frames ++ [f] := by
  cases steps_of_step h with
  | call => exact .inr ⟨_, rfl, rfl⟩
  | _ => exact .inl rfl

theorem step_all_frames {P : List α → Prop} {s s' : Slot α} {a : SlotAction α} (h : s.step a = some s')
    (hcall : ∀ f, a = .call f → P f) (hall : ∀ f ∈ s.frames, P f) : ∀ f ∈ s'.frames, P f := by
  intro f hf
  rcases step_frames h with heq | ⟨g, hg, heq⟩ <;> rw [heq] at hf
  · exact hall f hf
  · rcases List.mem_append.1 hf with hf | hf
    · exact hall f hf
    · rw [List.mem_singleton.1 hf]; exact hcall g hg

/-! ## The invariant -/

/-- The calls that have returned, then the holder of the guard, then those who wait. -/
def order (s : Slot α) : List Nat := s.results.map Prod.fst ++ ((s.guard.map Prod.fst).toList ++ s.queue)

/-- What call `seg.1` has on connection `n`: its frame if it returned `Ok`, a strict part of it if it
    returned `Err`, and what it has written so far if it is writing. -/
def Segment (s : Slot α) (n : Nat) (seg : Nat × List α) : Prop :=
  seg.2 ≠ [] ∧
    ((seg.1, true) ∈ s.results ∧ seg.2 = s.frame seg.1 ∨
      (seg.1, false) ∈ s.results ∧ seg.2 <+: s.frame seg.1 ∧ seg.2 ≠ s.frame seg.1 ∨
      ∃ w, s.guard = some (seg.1, .writing n w) ∧ seg.2 = (s.frame seg.1).take w)

/-- What has been written on connection `n`. -/
abbrev Conn (s : Slot α) (n : Nat) (segs : List (Nat × List α)) : Prop := s.conns[n]? = some segs

structure Inv (s : Slot α) : Prop where
  sorted : s.order.Pairwise (· < ·)
  bounded : ∀ k ∈ s.order, k < s.frames.length
  nonempty : ∀ f ∈ s.frames, f ≠ []
  writing : ∀ k n w, s.guard = some (k, .writing n w) → s.conn = some n ∧ w ≤ (s.frame k).length ∧
    (0 < w → ∃ segs, s.Conn n ((k, (s.frame k).take w) :: segs))
  opened : ∀ n, s.conn = some n → n < s.conns.length
  segment : ∀ n segs, s.Conn n segs → ∀ seg ∈ segs, s.Segment n seg
  complete : ∀ n segs, s.Conn n segs → ∀ seg ∈ segs.tail, seg.2 = s.frame seg.1
  latest : ∀ n segs, s.Conn n segs → (segs.map Prod.fst).Pairwise (· > ·)
  /-- The connection in the slot ends in a whole frame, or in the one being written. -/
  live : ∀ n segs, s.conn = some n → s.Conn n segs → ∀ seg ∈ segs.head?,
    seg.2 = s.frame seg.1 ∨ ∃ w, s.guard = some (seg.1, .writing n w)
  delivered : ∀ k, (k, true) ∈ s.results → ∃ n segs, s.Conn n segs ∧ (k, s.frame k) ∈ segs
  unique : ∀ n n' segs segs' k b b', s.Conn n segs → s.Conn n' segs' →
    (k, b) ∈ segs → (k, b') ∈ segs' → n = n'

theorem mem_order_of_segment {s : Slot α} {n : Nat} {seg : Nat × List α} (h : s.Segment n seg) : seg.1 ∈ s.order := by
  obtain ⟨-, ⟨h, -⟩ | ⟨h, -⟩ | ⟨w, h, -⟩⟩ := h
  · exact List.mem_append_left _ (List.mem_map.2 ⟨_, h, rfl⟩)
  · exact List.mem_append_left _ (List.mem_map.2 ⟨_, h, rfl⟩)
  · simp [order, h]

theorem frame_lt {s s' : Slot α} {fs : List (List α)} (h : s'.frames = s.frames ++ fs) {k : Nat}
    (hk : k < s.frames.length) : s'.frame k = s.frame k := by
  rw [frame, frame, h, List.getElem?_append_left hk]

/-- The holder comes after every call that has returned. -/
theorem Inv.lt_holder {s : Slot α} (hi : s.Inv) {k : Nat} {p : Progress} (hg : s.guard = some (k, p)) {j : Nat}
    {ok : Bool} (hj : (j, ok) ∈ s.results) : j < k := by
  have hs := hi.sorted
  rw [order, List.pairwise_append] at hs
  exact hs.2.2 j (List.mem_map.2 ⟨_, hj, rfl⟩) k (by simp [hg])

/-- The holder has nothing on any connection but the one it writes on. -/
theorem Inv.segment_holder {s : Slot α} (hi : s.Inv) {k : Nat} {p : Progress} (hg : s.guard = some (k, p)) {n : Nat}
    {b : List α} (h : s.Segment n (k, b)) : ∃ w, p = .writing n w ∧ 0 < w ∧ b = (s.frame k).take w := by
  obtain ⟨hne, ⟨h, -⟩ | ⟨h, -⟩ | ⟨w, h, hb⟩⟩ := h
  · exact absurd (hi.lt_holder hg h) (Nat.lt_irrefl _)
  · exact absurd (hi.lt_holder hg h) (Nat.lt_irrefl _)
  · rw [hg] at h
    cases h
    refine ⟨w, rfl, Nat.pos_of_ne_zero fun h0 => hne ?_, hb⟩
    subst h0
    simpa using hb

/-- What the holder has written so far is the last on its connection. -/
theorem Inv.holder_segment {s : Slot α} (hi : s.Inv) {k n w : Nat} (hg : s.guard = some (k, .writing n w)) (hw : 0 < w) :
    s.Segment n (k, (s.frame k).take w) := by
  obtain ⟨-, -, hsegs⟩ := hi.writing k n w hg
  obtain ⟨segs, hc⟩ := hsegs hw
  exact hi.segment n _ hc _ (by simp)

/-- The invariant after a step that writes nothing: connections are kept, or opened, and what the holder
    has written is accounted for. -/
theorem Inv.of_kept {s s' : Slot α} (hi : s.Inv) (hsorted : s'.order.Pairwise (· < ·))
    (hbounded : ∀ k ∈ s'.order, k < s'.frames.length) (hnonempty : ∀ f ∈ s'.frames, f ≠ [])
    (hwriting : ∀ k n w, s'.guard = some (k, .writing n w) → s'.conn = some n ∧ w ≤ (s'.frame k).length ∧
      (0 < w → ∃ segs, s'.Conn n ((k, (s'.frame k).take w) :: segs)))
    (hopened : ∀ n, s'.conn = some n → n < s'.conns.length)
    (hframe : ∀ k < s.frames.length, s'.frame k = s.frame k)
    (hold : ∀ n segs, s.Conn n segs → s'.Conn n segs)
    (hnew : ∀ n segs, s'.Conn n segs → segs = [] ∨ s.Conn n segs)
    (hresults : ∀ x ∈ s.results, x ∈ s'.results)
    (hholder : ∀ k n w, s.guard = some (k, .writing n w) → 0 < w → s'.Segment n (k, (s.frame k).take w))
    (hlive : ∀ n segs, s'.conn = some n → s.Conn n segs → ∀ seg ∈ segs.head?,
      seg.2 = s.frame seg.1 ∨ ∃ w, s'.guard = some (seg.1, .writing n w))
    (hdelivered : ∀ k, (k, true) ∈ s'.results → (k, true) ∈ s.results ∨
      ∃ n segs, s.Conn n segs ∧ (k, s.frame k) ∈ segs) : s'.Inv := by
  have hseg : ∀ n segs, s.Conn n segs → ∀ seg ∈ segs, seg.1 < s.frames.length :=
    fun n segs h seg hm => hi.bounded _ (mem_order_of_segment (hi.segment n segs h seg hm))
  refine ⟨hsorted, hbounded, hnonempty, hwriting, hopened, ?_, ?_, ?_, ?_, ?_, ?_⟩
  · intro n segs h seg hm
    rcases hnew n segs h with rfl | h
    · cases hm
    have hf := hframe _ (hseg n segs h seg hm)
    obtain ⟨k, b⟩ := seg
    have hs := hi.segment n segs h _ hm
    obtain ⟨hne, ⟨hr, hb⟩ | ⟨hr, hb⟩ | ⟨w, hg, hb⟩⟩ := hs
    · exact ⟨hne, .inl ⟨hresults _ hr, hb.trans hf.symm⟩⟩
    · exact ⟨hne, .inr (.inl ⟨hresults _ hr, by rw [hf]; exact hb⟩)⟩
    · obtain ⟨w', hp, hw, -⟩ := hi.segment_holder hg ⟨hne, .inr (.inr ⟨w, hg, hb⟩)⟩
      cases hp
      have hb : b = (s.frame k).take w := hb
      rw [hb]
      exact hholder k n w hg hw
  · intro n segs h seg hm
    rcases hnew n segs h with rfl | h
    · cases hm
    rw [hframe _ (hseg n segs h seg (List.mem_of_mem_tail hm))]
    exact hi.complete n segs h seg hm
  · intro n segs h
    rcases hnew n segs h with rfl | h
    · exact .nil
    · exact hi.latest n segs h
  · intro n segs hc h seg hm
    rcases hnew n segs h with rfl | h
    · cases hm
    rw [hframe _ (hseg n segs h seg (List.mem_of_mem_head? hm))]
    exact hlive n segs hc h seg hm
  · intro k hk
    have hfound : ∃ n segs, s.Conn n segs ∧ (k, s.frame k) ∈ segs := by
      rcases hdelivered k hk with h | h
      · exact hi.delivered k h
      · exact h
    obtain ⟨n, segs, h, hm⟩ := hfound
    exact ⟨n, segs, hold n segs h, by rw [hframe _ (hseg n segs h _ hm)]; exact hm⟩
  · intro n n' segs segs' k b b' h h' hm hm'
    rcases hnew n segs h with rfl | h
    · cases hm
    rcases hnew n' segs' h' with rfl | h'
    · cases hm'
    exact hi.unique n n' segs segs' k b b' h h' hm hm'

/-! ## Every step but one keeps it -/

/-- The drop of a call that has written a part of its frame. -/
def interrupts (s : Slot α) : SlotAction α → Bool
  | .drop k =>
    match s.guard with
    | some (j, .writing _ w) => j == k && decide (0 < w)
    | _ => false
  | _ => false

theorem interrupts_eq_true {s : Slot α} {a : SlotAction α} :
    s.interrupts a = true ↔ ∃ k c w, a = .drop k ∧ s.guard = some (k, .writing c w) ∧ 0 < w := by
  cases a with
  | drop k =>
    rcases hg : s.guard with _ | ⟨j, _ | ⟨c, w⟩⟩ <;> simp [interrupts, hg]
  | _ => simp [interrupts]

section
variable {s : Slot α} (hi : s.Inv)
include hi

theorem Inv.call {f : List α} (hf : f ≠ []) :
    Inv { s with frames := s.frames ++ [f], queue := s.queue ++ [s.frames.length] } := by
  have horder : order { s with frames := s.frames ++ [f], queue := s.queue ++ [s.frames.length] } =
      s.order ++ [s.frames.length] := by simp [order]
  have hframe : ∀ k < s.frames.length,
      frame { s with frames := s.frames ++ [f], queue := s.queue ++ [s.frames.length] } k = s.frame k :=
    fun k hk => frame_lt rfl hk
  have hholder : ∀ {k p}, s.guard = some (k, p) → k < s.frames.length :=
    fun hg => hi.bounded _ (by simp [order, hg])
  refine hi.of_kept ?_ ?_ ?_ ?_ hi.opened hframe (fun _ _ h => h) (fun _ _ h => .inr h) (fun _ h => h) ?_ ?_ ?_
  · rw [horder, List.pairwise_append]
    exact ⟨hi.sorted, List.pairwise_singleton _ _, fun j hj k hk => by rw [List.mem_singleton.1 hk]; exact hi.bounded j hj⟩
  · intro k hk
    rw [horder] at hk
    rw [List.length_append]
    rcases List.mem_append.1 hk with hk | hk
    · exact Nat.lt_add_right _ (hi.bounded k hk)
    · rw [List.mem_singleton.1 hk]; simp
  · intro g hg
    rcases List.mem_append.1 hg with hg | hg
    · exact hi.nonempty g hg
    · rw [List.mem_singleton.1 hg]; exact hf
  · intro k n w hg
    rw [hframe k (hholder hg)]
    exact hi.writing k n w hg
  · intro k n w hg hw
    refine ⟨(hi.holder_segment hg hw).1, .inr (.inr ⟨w, hg, ?_⟩)⟩
    rw [hframe k (hholder hg)]
  · exact hi.live
  · exact fun k hk => .inl hk

/-- A step that moves the guard, or fills the slot, with nothing of the holder on any connection. -/
theorem Inv.move {guard : Option (Nat × Progress)} {queue : List Nat} {conn : Option Nat}
    {conns : List (List (Nat × List α))} (hnone : ∀ k n w, s.guard = some (k, .writing n w) → w = 0)
    (hsub : (order { s with guard := guard, queue := queue }).Sublist s.order)
    (hold : ∀ n segs, s.Conn n segs → conns[n]? = some segs)
    (hnew : ∀ n segs, conns[n]? = some segs → segs = [] ∨ s.Conn n segs)
    (hopened : ∀ n, conn = some n → n < conns.length ∧ (n < s.conns.length → s.conn = some n))
    (hguard : ∀ k n w, guard = some (k, .writing n w) → conn = some n ∧ w = 0) :
    Inv { s with guard := guard, queue := queue, conn := conn, conns := conns } := by
  refine hi.of_kept (hi.sorted.sublist hsub) (fun k hk => hi.bounded k (hsub.subset hk)) hi.nonempty ?_
    (fun n hn => (hopened n hn).1) (fun _ _ => rfl) hold hnew (fun _ h => h) ?_ ?_ (fun k hk => .inl hk)
  · intro k n w hg
    obtain ⟨hc, rfl⟩ := hguard k n w hg
    exact ⟨hc, Nat.zero_le _, fun h => absurd h (Nat.lt_irrefl _)⟩
  · intro k n w hg hw
    rw [hnone k n w hg] at hw
    exact absurd hw (Nat.lt_irrefl _)
  · intro n segs hn h seg hm
    have hc := (hopened n hn).2 (List.getElem?_eq_some_iff.1 h).1
    rcases hi.live n segs hc h seg hm with hwhole | ⟨w, hg⟩
    · exact .inl hwhole
    · -- the holder would have written nothing there
      exfalso
      obtain ⟨w', hp, hw, -⟩ := hi.segment_holder hg (hi.segment n segs h _ (List.mem_of_mem_head? hm))
      cases hp
      rw [hnone _ _ _ hg] at hw
      exact Nat.lt_irrefl _ hw

theorem Inv.dropQueued (k : Nat) : Inv { s with queue := s.queue.erase k } := by
  have hsub : (order { s with queue := s.queue.erase k }).Sublist s.order :=
    List.Sublist.append (.refl _) (List.Sublist.append (.refl _) List.erase_sublist)
  exact hi.of_kept (hi.sorted.sublist hsub) (fun k hk => hi.bounded k (hsub.subset hk)) hi.nonempty hi.writing hi.opened
    (fun _ _ => rfl) (fun _ _ h => h) (fun _ _ h => .inr h) (fun _ h => h) (fun _ _ _ => hi.holder_segment) hi.live
    (fun k hk => .inl hk)

theorem Inv.frame_ne_nil {k : Nat} (hk : k ∈ s.order) : s.frame k ≠ [] := by
  have hlt := hi.bounded k hk
  rw [frame, List.getElem?_eq_getElem hlt]
  exact hi.nonempty _ (List.getElem_mem hlt)

/-- The holder returns: `Ok` with its whole frame written, `Err` with the slot emptied. -/
theorem Inv.released {k : Nat} {p : Progress} (hg : s.guard = some (k, p)) {ok : Bool} {conn : Option Nat}
    {conns : List (List (Nat × List α))} (hold : ∀ n segs, s.Conn n segs → conns[n]? = some segs)
    (hnew : ∀ n segs, conns[n]? = some segs → segs = [] ∨ s.Conn n segs)
    (hok : ok = true → conn = s.conn ∧ ∃ n, p = .writing n (s.frame k).length)
    (herr : ok = false → conn = none ∧ ∀ n w, p = .writing n w → w < (s.frame k).length) :
    Inv (release { s with conn := conn, conns := conns } k ok) := by
  have horder : (release { s with conn := conn, conns := conns } k ok).order = s.order := by
    simp [order, release, hg]
  have hk : k ∈ s.order := by simp [order, hg]
  have hresult : (k, ok) ∈ (release { s with conn := conn, conns := conns } k ok).results := by simp [release]
  refine hi.of_kept (horder ▸ hi.sorted) (horder ▸ hi.bounded) hi.nonempty (fun k n w h => by cases h) ?_
    (fun _ _ => rfl) hold hnew (fun x hx => List.mem_append_left _ hx) ?_ ?_ ?_
  · intro n hn
    cases ok with
    | true =>
      obtain ⟨rfl, -⟩ := hok rfl
      have hlt := hi.opened n hn
      have hkept := hold n _ (List.getElem?_eq_getElem hlt)
      exact (List.getElem?_eq_some_iff.1 hkept).1
    | false =>
      obtain ⟨rfl, -⟩ := herr rfl
      cases hn
  · intro j n w hj hw
    rw [hg] at hj
    cases hj
    refine ⟨(hi.holder_segment hg hw).1, ?_⟩
    cases ok with
    | true =>
      obtain ⟨-, n', hp⟩ := hok rfl
      cases hp
      exact .inl ⟨hresult, by simp [release, frame]⟩
    | false =>
      have hlt := (herr rfl).2 n w rfl
      refine .inr (.inl ⟨hresult, List.take_prefix _ _, fun heq => ?_⟩)
      have hlen := congrArg List.length heq
      simp only [release, frame] at hlen hlt
      rw [List.length_take] at hlen
      omega
  · intro n segs hn hc seg hm
    left
    cases ok with
    | true =>
      obtain ⟨rfl, n', rfl⟩ := hok rfl
      rcases hi.live n segs hn hc seg hm with hwhole | ⟨w, hw⟩
      · exact hwhole
      · obtain ⟨j, b⟩ := seg
        obtain ⟨w', hp, -, hb⟩ := hi.segment_holder hw (hi.segment n segs hc _ (List.mem_of_mem_head? hm))
        rw [hg] at hw
        cases hw
        cases hp
        rw [hb, List.take_length]
    | false =>
      obtain ⟨rfl, -⟩ := herr rfl
      cases hn
  · intro j hj
    rcases List.mem_append.1 hj with hj | hj
    · exact .inl hj
    · obtain ⟨rfl, rfl⟩ := Prod.mk.inj (List.mem_singleton.1 hj)
      obtain ⟨-, n, rfl⟩ := hok rfl
      have hpos : 0 < (s.frame j).length := List.length_pos_iff.2 (hi.frame_ne_nil hk)
      obtain ⟨segs, hc⟩ := (hi.writing j n _ hg).2.2 hpos
      refine .inr ⟨n, _, hc, ?_⟩
      simp

/-- `s` after call `k`, with `w` of its frame on connection `c`, wrote `n` more. -/
def wrote (s : Slot α) (k c w n : Nat) : Slot α :=
  { s with
    conns := s.conns.modify c (put k (((s.frame k).drop w).take n))
    guard := some (k, .writing c (w + n)) }

omit hi in
theorem wrote_conn_self {k c w n : Nat} {segs : List (Nat × List α)} (h : s.Conn c segs) :
    (s.wrote k c w n).Conn c (put k (((s.frame k).drop w).take n) segs) := by
  show (s.conns.modify c _)[c]? = _
  rw [List.getElem?_modify, h]
  simp

omit hi in
theorem wrote_conn_other {k c w n m : Nat} (hm : m ≠ c) {segs : List (Nat × List α)} :
    (s.wrote k c w n).Conn m segs ↔ s.Conn m segs := by
  show (s.conns.modify c _)[m]? = _ ↔ _
  rw [List.getElem?_modify]
  simp [Ne.symm hm]

/-- More of the holder's frame stands behind whole frames of earlier calls. -/
theorem Inv.put_eq {k c w n : Nat} (hg : s.guard = some (k, .writing c w)) {segs : List (Nat × List α)}
    (hc : s.Conn c segs) :
    ∃ rest, put k (((s.frame k).drop w).take n) segs = (k, (s.frame k).take (w + n)) :: rest ∧
      (∀ seg ∈ rest, seg ∈ segs ∧ seg.2 = s.frame seg.1 ∧ seg.1 < k) ∧ (rest.map Prod.fst).Pairwise (· > ·) ∧
      ∀ seg ∈ segs, seg.1 ≠ k → seg ∈ rest := by
  have hlast : ∀ seg ∈ segs, seg.1 ≠ k → seg.1 < k := by
    intro seg hm hne
    obtain ⟨-, ⟨hr, -⟩ | ⟨hr, -⟩ | ⟨w', hw', -⟩⟩ := hi.segment c segs hc seg hm
    · exact hi.lt_holder hg hr
    · exact hi.lt_holder hg hr
    · rw [hg] at hw'; cases hw'; exact absurd rfl hne
  obtain ⟨hconn, -, hhead⟩ := hi.writing k c w hg
  by_cases hw : w = 0
  · subst hw
    -- nothing of the call is there yet, and the last frame is whole
    have hno : ∀ seg ∈ segs, seg.1 ≠ k := by
      rintro ⟨j, b⟩ hm rfl
      obtain ⟨w', hp, hw', -⟩ := hi.segment_holder hg (hi.segment c segs hc _ hm)
      cases hp
      exact absurd hw' (Nat.lt_irrefl _)
    have hput : put k ((s.frame k).take n) segs = (k, (s.frame k).take n) :: segs := by
      cases segs with
      | nil => rfl
      | cons seg segs => rw [put, if_neg (hno seg (by simp))]
    refine ⟨segs, by simpa using hput, fun seg hm => ⟨hm, ?_, hlast seg hm (hno seg hm)⟩, hi.latest c segs hc, fun seg hm _ => hm⟩
    cases segs with
    | nil => cases hm
    | cons seg' segs =>
      rcases List.mem_cons.1 hm with rfl | hm
      · rcases hi.live c _ hconn hc seg (by simp) with hwhole | ⟨w', hw'⟩
        · exact hwhole
        · rw [hg] at hw'
          cases hw'
          exact absurd rfl (hno seg (by simp))
      · exact hi.complete c _ hc seg hm
  · obtain ⟨rest, hrest⟩ := hhead (Nat.pos_of_ne_zero hw)
    obtain rfl : segs = (k, (s.frame k).take w) :: rest := Option.some.inj (hc.symm.trans hrest)
    have hlatest := hi.latest c _ hc
    rw [List.map_cons, List.pairwise_cons] at hlatest
    refine ⟨rest, ?_, fun seg hm => ⟨by simp [hm], hi.complete c _ hc seg hm, ?_⟩, hlatest.2, ?_⟩
    · rw [put, if_pos rfl, ← List.take_add]
    · exact hlatest.1 seg.1 (List.mem_map_of_mem hm)
    · intro seg hm hne
      rcases List.mem_cons.1 hm with rfl | hm
      · exact absurd rfl hne
      · exact hm

omit hi in
/-- A segment of another call than the holder stays what it was. -/
theorem Segment.wrote {k c w n m : Nat} (hg : s.guard = some (k, .writing c w)) {seg : Nat × List α} (hk : seg.1 ≠ k)
    (h : s.Segment m seg) : (s.wrote k c w n).Segment m seg := by
  obtain ⟨hne, h | h | ⟨w', hw', -⟩⟩ := h
  · exact ⟨hne, .inl h⟩
  · exact ⟨hne, .inr (.inl h)⟩
  · rw [hg] at hw'
    cases hw'
    exact absurd rfl hk

/-- A segment after a write is the holder's, on its connection, or was there before. -/
theorem Inv.wrote_segment {k c w n : Nat} (hg : s.guard = some (k, .writing c w)) {m : Nat} {segs : List (Nat × List α)}
    {seg : Nat × List α} (h : (s.wrote k c w n).Conn m segs) (hm : seg ∈ segs) :
    m = c ∧ seg = (k, (s.frame k).take (w + n)) ∨ seg.1 ≠ k ∧ ∃ old, s.Conn m old ∧ seg ∈ old := by
  by_cases hmc : m = c
  · subst hmc
    have hlt := hi.opened m (hi.writing k m w hg).1
    have hc : s.Conn m s.conns[m] := List.getElem?_eq_getElem hlt
    obtain ⟨rest, hput, hrest, -, -⟩ := hi.put_eq (n := n) hg hc
    obtain rfl : segs = (k, (s.frame k).take (w + n)) :: rest := by
      rw [← hput]
      exact Option.some.inj (h.symm.trans (wrote_conn_self hc))
    rcases List.mem_cons.1 hm with heq | hm
    · exact .inl ⟨rfl, heq⟩
    · obtain ⟨hold, -, hlt⟩ := hrest _ hm
      exact .inr ⟨Nat.ne_of_lt hlt, _, hc, hold⟩
  · -- the holder has written nothing elsewhere
    rw [wrote_conn_other hmc] at h
    refine .inr ⟨?_, segs, h, hm⟩
    rintro rfl
    obtain ⟨w', hp, -⟩ := hi.segment_holder hg (hi.segment m segs h _ hm)
    cases hp
    exact hmc rfl

theorem Inv.written {k c w n : Nat} (hg : s.guard = some (k, .writing c w)) (hn : 0 < n)
    (hw : w + n ≤ (s.frame k).length) : (s.wrote k c w n).Inv := by
  obtain ⟨hconn, -, -⟩ := hi.writing k c w hg
  have hlt := hi.opened c hconn
  have hc : s.Conn c s.conns[c] := List.getElem?_eq_getElem hlt
  obtain ⟨rest, hput, hrest, hsorted, hkept⟩ := hi.put_eq (n := n) hg hc
  have hnew : (s.wrote k c w n).Conn c ((k, (s.frame k).take (w + n)) :: rest) := by rw [← hput]; exact wrote_conn_self hc
  have hself : ∀ segs, (s.wrote k c w n).Conn c segs → segs = (k, (s.frame k).take (w + n)) :: rest :=
    fun segs h => Option.some.inj (h.symm.trans hnew)
  have horder : (s.wrote k c w n).order = s.order := by simp [order, wrote, hg]
  have hne : (s.frame k).take (w + n) ≠ [] := by
    intro hnil
    have := congrArg List.length hnil
    rw [List.length_take, List.length_nil] at this
    omega
  refine ⟨horder ▸ hi.sorted, horder ▸ hi.bounded, hi.nonempty, ?_, ?_, ?_, ?_, ?_, ?_, ?_, ?_⟩
  · rintro j m w' h
    cases h
    exact ⟨hconn, hw, fun _ => ⟨rest, hnew⟩⟩
  · intro m hm
    show m < (s.conns.modify c _).length
    rw [List.length_modify]
    exact hi.opened m hm
  · intro m segs h seg hm
    rcases hi.wrote_segment hg h hm with ⟨rfl, rfl⟩ | ⟨hk, old, ho, hmo⟩
    · exact ⟨hne, .inr (.inr ⟨w + n, rfl, rfl⟩)⟩
    · exact (hi.segment m old ho seg hmo).wrote hg hk
  · intro m segs h seg hm
    by_cases hmc : m = c
    · subst hmc
      rw [hself segs h] at hm
      exact (hrest seg hm).2.1
    · rw [wrote_conn_other hmc] at h
      exact hi.complete m segs h seg hm
  · intro m segs h
    by_cases hmc : m = c
    · subst hmc
      rw [hself segs h, List.map_cons, List.pairwise_cons]
      refine ⟨fun j hj => ?_, hsorted⟩
      obtain ⟨seg, hm, rfl⟩ := List.mem_map.1 hj
      exact (hrest seg hm).2.2
    · rw [wrote_conn_other hmc] at h
      exact hi.latest m segs h
  · intro m segs hm h seg hseg
    obtain rfl : c = m := Option.some.inj (hconn.symm.trans hm)
    rw [hself segs h, List.head?_cons, Option.mem_some_iff] at hseg
    subst hseg
    exact .inr ⟨w + n, rfl⟩
  · intro j hj
    obtain ⟨m, segs, h, hm⟩ := hi.delivered j hj
    have hjk : j ≠ k := Nat.ne_of_lt (hi.lt_holder hg hj)
    by_cases hmc : m = c
    · subst hmc
      obtain rfl : segs = s.conns[m] := Option.some.inj (h.symm.trans hc)
      exact ⟨m, _, hnew, List.mem_cons_of_mem _ (hkept _ hm hjk)⟩
    · exact ⟨m, segs, (wrote_conn_other hmc).2 h, hm⟩
  · intro m m' segs segs' j b b' h h' hm hm'
    rcases hi.wrote_segment hg h hm with ⟨rfl, heq⟩ | ⟨hjk, old, ho, hmo⟩ <;>
      rcases hi.wrote_segment hg h' hm' with ⟨rfl, heq'⟩ | ⟨hjk', old', ho', hmo'⟩
    · rfl
    · exact absurd (congrArg Prod.fst heq) hjk'
    · exact absurd (congrArg Prod.fst heq') hjk
    · exact hi.unique m m' old old' j b b' ho ho' hmo hmo'

omit hi in
theorem Conn.append {n : Nat} {segs : List (Nat × List α)} (h : s.Conn n segs) : (s.conns ++ [[]])[n]? = some segs := by
  rw [List.getElem?_append_left (List.getElem?_eq_some_iff.1 h).1]
  exact h

omit hi in
/-- A connection that has just been opened is empty. -/
theorem conn_of_append {n : Nat} {segs : List (Nat × List α)} (h : (s.conns ++ [[]])[n]? = some segs) :
    segs = [] ∨ s.Conn n segs := by
  rcases Nat.lt_or_ge n s.conns.length with hlt | hge
  · rw [List.getElem?_append_left hlt] at h
    exact .inr h
  · rw [List.getElem?_append_right hge] at h
    exact .inl (List.mem_singleton.1 (List.mem_of_getElem? h))

/-- **Every step but an interruption keeps the invariant.** -/
theorem step_inv {a : SlotAction α} {s' : Slot α} (h : s.step a = some s') (hsafe : s.interrupts a = false) : s'.Inv := by
  have hself : ∀ n segs, s.Conn n segs → segs = [] ∨ s.Conn n segs := fun _ _ h => .inr h
  have hslot : ∀ n, s.conn = some n → n < s.conns.length ∧ (n < s.conns.length → s.conn = some n) :=
    fun n hn => ⟨hi.opened n hn, fun _ => hn⟩
  cases steps_of_step h with
  | call hf => exact hi.call hf
  | lock hg hq =>
    refine hi.move (by rw [hg]; simp) ?_ (fun _ _ h => h) hself hslot (fun k n w h => by cases h)
    simp [order, hg, hq]
  | reuse hg hc =>
    refine hi.move (by rw [hg]; simp) ?_ (fun _ _ h => h) hself hslot ?_
    · simp [order, hg]
    · intro k n w h
      cases h
      exact ⟨hc, rfl⟩
  | refused hg hc => exact hi.released hg (fun _ _ h => h) hself (by simp) fun _ => ⟨hc, by simp⟩
  | aborted hg hc =>
    exact hi.released hg (fun _ _ => Conn.append) (fun _ _ => conn_of_append) (by simp) fun _ => ⟨hc, by simp⟩
  | opened hg hc =>
    refine hi.move (by rw [hg]; simp) ?_ (fun _ _ => Conn.append) (fun _ _ => conn_of_append) ?_ ?_
    · simp [order, hg]
    · intro n hn
      cases hn
      exact ⟨by simp, fun h => absurd h (Nat.lt_irrefl _)⟩
    · intro k n w h
      cases h
      exact ⟨rfl, rfl⟩
  | write hg hn hw => exact hi.written hg hn hw
  | finish hg => exact hi.released hg (fun _ _ h => h) hself (fun _ => ⟨rfl, _, rfl⟩) (by simp)
  | fail hg hw =>
    refine hi.released hg (fun _ _ h => h) hself (by simp) fun _ => ⟨rfl, ?_⟩
    intro n w' h
    cases h
    exact hw
  | dropQueued hk hg => exact hi.dropQueued _
  | dropLooking hg =>
    refine hi.move (by rw [hg]; simp) ?_ (fun _ _ h => h) hself hslot (fun k n w h => by cases h)
    simp [order, hg]
  | dropWriting hg hw =>
    -- it has written nothing yet
    simp only [interrupts, hg, beq_self_eq_true, Bool.true_and, decide_eq_false_iff_not] at hsafe
    refine hi.move ?_ ?_ (fun _ _ h => h) hself hslot (fun k n w h => by cases h)
    · intro k n w h
      rw [hg] at h
      cases h
      omega
    · simp [order, hg]

/-- A connection that is not in the slot is never written again, and never comes back. -/
theorem step_dead {a : SlotAction α} {s' : Slot α} (h : s.step a = some s') {n : Nat} {segs : List (Nat × List α)}
    (hn : s.Conn n segs) (hdead : s.conn ≠ some n) : s'.Conn n segs ∧ s'.conn ≠ some n := by
  have hlt : n < s.conns.length := (List.getElem?_eq_some_iff.1 hn).1
  cases steps_of_step h with
  | call | lock | reuse | refused | finish | dropQueued | dropLooking | dropWriting => exact ⟨hn, hdead⟩
  | aborted => exact ⟨hn.append, hdead⟩
  | opened => exact ⟨hn.append, fun h => Nat.ne_of_gt hlt (Option.some.inj h)⟩
  | fail => exact ⟨hn, by simp [release]⟩
  | write hg =>
    rename_i k c w m _ _
    have hc : c ≠ n := by
      rintro rfl
      exact hdead (hi.writing k c w hg).1
    exact ⟨(wrote_conn_other hc.symm).2 hn, hdead⟩

end

theorem Inv.empty : (empty : Slot α).Inv := by
  constructor <;> simp [Slot.empty, order, Conn]

/-! ## What the connections carry -/

/-- Every frame on a connection but the last is complete: nothing was written behind a part of one. -/
def Whole (s : Slot α) (segs : List (Nat × List α)) : Prop :=
  (∀ seg ∈ segs.tail, seg.2 = s.frame seg.1) ∧ ∀ seg ∈ segs, seg.2 <+: s.frame seg.1

theorem wire_cons (seg : Nat × List α) (segs : List (Nat × List α)) : wire (seg :: segs) = wire segs ++ seg.2 := by
  simp [wire]

/-- The calls that wrote on a connection, the oldest first. -/
def calls (segs : List (Nat × List α)) : List Nat := segs.reverse.map Prod.fst

theorem calls_sorted {segs : List (Nat × List α)} (h : (segs.map Prod.fst).Pairwise (· > ·)) :
    (calls segs).Pairwise (· < ·) := by
  rw [calls, List.map_reverse, List.pairwise_reverse]
  exact h

section
variable {s : Slot α} {segs : List (Nat × List α)} (h : ∀ seg ∈ segs, seg.2 = s.frame seg.1)
include h

theorem wire_complete : wire segs = ((calls segs).map s.frame).flatten := by
  rw [wire, calls, List.map_map]
  congr 1
  exact List.map_congr_left fun seg hm => h seg (List.mem_reverse.1 hm)

theorem mem_calls {k : Nat} : k ∈ calls segs ↔ (k, s.frame k) ∈ segs := by
  constructor
  · intro hk
    obtain ⟨seg, hm, rfl⟩ := List.mem_map.1 hk
    rw [List.mem_reverse] at hm
    rw [← h seg hm]
    exact hm
  · exact fun hm => List.mem_map.2 ⟨_, List.mem_reverse.2 hm, rfl⟩

end

section
variable {s : Slot α} (hi : s.Inv)
include hi

theorem Inv.whole {n : Nat} {segs : List (Nat × List α)} (h : s.Conn n segs) : s.Whole segs := by
  refine ⟨hi.complete n segs h, fun seg hm => ?_⟩
  obtain ⟨-, ⟨-, hb⟩ | ⟨-, hb, -⟩ | ⟨w, -, hb⟩⟩ := hi.segment n segs h seg hm
  · exact hb ▸ List.prefix_rfl
  · exact hb
  · rw [hb]; exact List.take_prefix _ _

/-- **The wire is whole frames, in the order of the calls, and at most a part of one more.** -/
theorem Inv.wire_eq {n : Nat} {segs : List (Nat × List α)} (h : s.Conn n segs) :
    ∃ (ks : List Nat) (part : List α), wire segs = (ks.map s.frame).flatten ++ part ∧ ks.Pairwise (· < ·) ∧
      (∀ k, k ∈ ks ↔ (k, s.frame k) ∈ segs) ∧
      (part = [] ∨ ∃ k < s.frames.length, (∀ j ∈ ks, j < k) ∧ part <+: s.frame k ∧ part ≠ s.frame k) := by
  have hlatest := hi.latest n segs h
  obtain ⟨hcomplete, hparts⟩ := hi.whole h
  cases segs with
  | nil => exact ⟨[], [], rfl, .nil, by simp, .inl rfl⟩
  | cons seg rest =>
    obtain ⟨k, b⟩ := seg
    rw [List.map_cons, List.pairwise_cons] at hlatest
    rw [List.tail_cons] at hcomplete
    by_cases hb : b = s.frame k
    · have hall : ∀ seg ∈ (k, b) :: rest, seg.2 = s.frame seg.1 := by
        intro seg hm
        rcases List.mem_cons.1 hm with rfl | hm
        · exact hb
        · exact hcomplete seg hm
      refine ⟨_, [], by rw [wire_complete hall, List.append_nil], calls_sorted ?_, fun _ => mem_calls hall, .inl rfl⟩
      exact List.pairwise_cons.2 hlatest
    · refine ⟨calls rest, b, by rw [wire_cons, wire_complete hcomplete], calls_sorted hlatest.2, ?_, .inr ⟨k, ?_, ?_, ?_, hb⟩⟩
      · intro j
        rw [mem_calls hcomplete, List.mem_cons]
        constructor
        · exact .inr
        · rintro (heq | hm)
          · obtain ⟨rfl, rfl⟩ := Prod.mk.inj heq
            exact absurd rfl hb
          · exact hm
      · exact hi.bounded k (mem_order_of_segment (hi.segment n _ h (k, b) (by simp)))
      · intro j hj
        rw [calls, List.map_reverse, List.mem_reverse] at hj
        exact hlatest.1 j hj
      · exact hparts (k, b) (by simp)

/-- A call that returned `Ok` has its frame on one connection. -/
theorem Inv.ok_once {k : Nat} (h : (k, true) ∈ s.results) : ∃! n, ∃ segs, s.Conn n segs ∧ (k, s.frame k) ∈ segs := by
  obtain ⟨n, segs, hc, hm⟩ := hi.delivered k h
  refine ⟨n, ⟨segs, hc, hm⟩, ?_⟩
  rintro n' ⟨segs', hc', hm'⟩
  exact hi.unique n' n segs' segs k _ _ hc' hc hm' hm

/-- A call that returned `Err` has its whole frame on none. -/
theorem Inv.err_nowhere {k : Nat} (h : (k, false) ∈ s.results) {n : Nat} {segs : List (Nat × List α)} (hc : s.Conn n segs) :
    (k, s.frame k) ∉ segs := by
  intro hm
  have hnodup : (s.results.map Prod.fst).Nodup :=
    ((List.pairwise_append.1 hi.sorted).1).imp Nat.ne_of_lt
  obtain ⟨-, ⟨hr, -⟩ | ⟨-, -, hne⟩ | ⟨w, hg, -⟩⟩ := hi.segment n segs hc _ hm
  · have := List.inj_on_of_nodup_map hnodup hr h rfl
    cases this
  · exact hne rfl
  · exact absurd (hi.lt_holder hg h) (Nat.lt_irrefl _)

/-- The connection that a part of a frame ends is no longer in the slot, unless its call is writing. -/
theorem Inv.part_dead {n k : Nat} {b : List α} {rest : List (Nat × List α)} (hc : s.Conn n ((k, b) :: rest))
    (hb : b ≠ s.frame k) (hg : ∀ p, s.guard ≠ some (k, p)) : s.conn ≠ some n := by
  intro hn
  rcases hi.live n _ hn hc (k, b) (by simp) with hwhole | ⟨w, hw⟩
  · exact hb hwhole
  · exact hg _ hw

/-- **An interruption is not survived**: the next call finds the connection in the slot, and writes behind
    the part of a frame that was left there. -/
theorem Inv.interrupted {a : SlotAction α} {s' : Slot α} (h : s.step a = some s') (hint : s.interrupts a = true)
    {f : List α} (hf : f ≠ []) :
    ∃ s'', (system α).run s' [.call f, .lock, .reuse, .write 1] = some s'' ∧
      ∃ n segs, s''.Conn n segs ∧ ¬ s''.Whole segs := by
  obtain ⟨k, c, w, rfl, hg, hw⟩ := interrupts_eq_true.1 hint
  obtain ⟨hconn, -, hhead⟩ := hi.writing k c w hg
  obtain ⟨rest, hrest⟩ := hhead hw
  have hk : k < s.frames.length := hi.bounded k (by simp [order, hg])
  obtain ⟨hlt, rfl⟩ : w < (s.frame k).length ∧ { s with guard := none } = s' := by
    simpa [step, hg] using h
  -- the next to get the lock
  obtain ⟨j, queue, hqueue⟩ : ∃ j queue, s.queue ++ [s.frames.length] = j :: queue :=
    List.exists_cons_of_ne_nil (by simp)
  have hmem : j ∈ s.queue ∨ j = s.frames.length := by
    have hj : j ∈ s.queue ++ [s.frames.length] := by rw [hqueue]; simp
    simpa using hj
  have hkj : k ≠ j := by
    rcases hmem with hm | rfl
    · have hs := (List.pairwise_append.1 hi.sorted).2.1
      rw [hg, Option.map_some, Option.toList_some, List.singleton_append, List.pairwise_cons] at hs
      exact Nat.ne_of_lt (hs.1 j hm)
    · exact Nat.ne_of_lt hk
  let t : Slot α := { s with frames := s.frames ++ [f], queue := queue, guard := some (j, .writing c 0) }
  have hframe : t.frame j ≠ [] := by
    rcases hmem with hm | rfl
    · rw [frame_lt rfl (hi.bounded j (by simp [order, hm]))]
      exact hi.frame_ne_nil (by simp [order, hm])
    · simpa [t, frame] using hf
  have hreuse : (system α).run { s with guard := none } [.call f, .lock, .reuse] = some t := by
    have hne : f.isEmpty = false := by simpa using hf
    simp [System.run, system, step, hne, hqueue, hconn, t]
  have hwrite : t.step (.write 1) = some (t.wrote j c 0 1) := if_pos ⟨Nat.one_pos, List.length_pos_iff.2 hframe⟩
  have hput : put j (((t.frame j).drop 0).take 1) ((k, (s.frame k).take w) :: rest) =
      (j, (t.frame j).take 1) :: (k, (s.frame k).take w) :: rest := by simp [put, hkj]
  refine ⟨t.wrote j c 0 1, ?_, c, (j, (t.frame j).take 1) :: (k, (s.frame k).take w) :: rest, ?_, ?_⟩
  · exact (System.run_append hreuse [.write 1]).trans (System.run_cons_eq_some.2 ⟨_, hwrite, rfl⟩)
  · rw [← hput]
    exact wrote_conn_self hrest
  · rintro ⟨hwhole, -⟩
    have hsame : (s.frame k).take w = s.frame k := (hwhole (k, (s.frame k).take w) (by simp)).trans (frame_lt rfl hk)
    have hlen := congrArg List.length hsame
    rw [List.length_take] at hlen
    omega

end

/-! ## Where no call is dropped -/

section
variable {s s' : Slot α}

/-- Neither a new call nor a drop: no call comes or goes, and results stay. -/
theorem step_progress {a : SlotAction α} (h : s.step a = some s') (hcall : ∀ f, a ≠ .call f) (hdrop : ∀ k, a ≠ .drop k) :
    s'.order = s.order ∧ s'.frames = s.frames ∧ s.results <+: s'.results := by
  cases steps_of_step h with
  | call => exact absurd rfl (hcall _)
  | lock hg hq => exact ⟨by simp [order, hg, hq], rfl, List.prefix_rfl⟩
  | reuse hg | opened hg | write hg => exact ⟨by simp [order, hg], rfl, List.prefix_rfl⟩
  | refused hg | aborted hg | finish hg | fail hg => exact ⟨by simp [order, release, hg], rfl, List.prefix_append _ _⟩
  | dropQueued | dropLooking | dropWriting => exact absurd rfl (hdrop _)

variable (hall : s.order = List.range s.frames.length)
include hall

/-- Calls return in the order they were made, none skipped. -/
theorem mem_results_iff {k : Nat} {ok : Bool} : (k, ok) ∈ s.results ↔ (s.results.map Prod.snd)[k]? = some ok := by
  have hle : s.results.length ≤ s.frames.length := by
    have hlen := congrArg List.length hall
    rw [order, List.length_append, List.length_map, List.length_range] at hlen
    omega
  have hfst : s.results.map Prod.fst = List.range s.results.length := by
    have htake := congrArg (List.take s.results.length) hall
    rwa [order, List.take_left' (List.length_map _), List.take_range, Nat.min_eq_left hle] at htake
  have hat : ∀ i (hi : i < s.results.length), s.results[i].1 = i := by
    intro i hi
    have hget := congrArg (fun l => l[i]?) hfst
    simpa [hi] using hget
  constructor
  · intro hmem
    obtain ⟨i, hi, heq⟩ := List.getElem_of_mem hmem
    have hk := hat i hi
    rw [heq] at hk
    obtain rfl : k = i := hk
    simp [List.getElem?_eq_getElem hi, heq]
  · intro hget
    rw [List.getElem?_map, Option.map_eq_some_iff] at hget
    obtain ⟨⟨j, ok'⟩, hj, rfl⟩ := hget
    obtain ⟨hi, heq⟩ := List.getElem?_eq_some_iff.1 hj
    have hk := hat k hi
    rw [heq] at hk
    obtain rfl : j = k := hk
    exact List.mem_of_getElem? hj

variable (hdone : s.results.length = s.frames.length)
include hdone

/-- If every call has returned, none waits and none holds the guard. -/
theorem quiet_of_results : s.guard = none ∧ s.queue = [] := by
  have hlen := congrArg List.length hall
  rw [order, List.length_append, List.length_append, List.length_map, List.length_range] at hlen
  have hguard : (s.guard.map Prod.fst).toList.length = 0 := by omega
  have hqueue : s.queue.length = 0 := by omega
  refine ⟨?_, List.length_eq_zero_iff.1 hqueue⟩
  cases hg : s.guard with
  | none => rfl
  | some g => rw [hg] at hguard; cases hguard

/-- Nothing moves then until there is a new call. -/
theorem step_quiet {a : SlotAction α} (hcall : ∀ f, a ≠ .call f) (hdrop : ∀ k, a ≠ .drop k) : s.step a = none := by
  obtain ⟨hg, hq⟩ := quiet_of_results hall hdone
  cases a with
  | call f => exact absurd rfl (hcall f)
  | drop k => exact absurd rfl (hdrop k)
  | _ => simp [step, hg, hq]

end

end Slot

end Rust
