import LogFence.Rust.Decoder
import LogFence.Rust.System

/-!
# The read loop over a decoder, one step at a time

`Decoder.feed` and `Decoder.run` say what the loop hands on once its reads are known:

    loop {
        match codec.decode(&mut buf) {
            Ok(Some(item)) => { handle(item).await; continue; }
            Ok(None) => {}
            Err(e) => { report(e).await; buf.clear(); }
        }
        if stream.read_buf(&mut buf).await? == 0 { /* the same with decode_eof, to the end */ }
    }

Here it is a machine that decodes once or reads once in a step, so that other tasks can move in between. At
every moment, what it has handed on is where `feed` stands (`Loop.Ok`): with the rest of its buffer it gives
what `feed` gives of the reads so far.
-/

namespace Rust

variable {ε α : Type}

/-- Where the loop is. -/
inductive Place where
  /-- Before `decode`, at the top of the loop. -/
  | decoding (b : Bytes)
  | reading (b : Bytes)
  /-- Before `decode_eof`, in the loop behind end of stream. -/
  | draining (b : Bytes)
  /-- Returned, after end of stream or after a read that failed. -/
  | closed
  | failed
  | panicked
deriving DecidableEq, Repr

structure Loop (ε α : Type) where
  place : Place
  /-- What it has read. -/
  chunks : List Bytes
  /-- What it has handed on. -/
  events : List (Event ε α)

inductive LoopAction where
  | decode
  | read (chunk : Bytes)
  | eof
  | fail
deriving DecidableEq, Repr

namespace Loop

def start : Loop ε α := ⟨.decoding [], [], []⟩

/-- Go to a place, with an event or none. -/
def goto (s : Loop ε α) (p : Place) (e : Option (Event ε α)) : Loop ε α × Option (Event ε α) :=
  ({ s with place := p, events := s.events ++ e.toList }, e)

/-- A step, and the event it hands on; `left` is the error for bytes that are no frame at end of stream. -/
def step (D : Decoder ε α) (left : ε) (s : Loop ε α) : LoopAction → Option (Loop ε α × Option (Event ε α))
  | .decode =>
    match s.place with
    | .decoding b =>
      match D.decode b with
      | (.ok (some a), b') => some (s.goto (.decoding b') (some (.item a)))
      | (.ok none, b') => some (s.goto (.reading b') none)
      | (.err e, _) => some (s.goto (.reading []) (some (.error e)))
      | (.panic, _) => some (s.goto .panicked none)
    | .draining b =>
      match D.decode b with
      | (.ok (some a), b') => some (s.goto (.draining b') (some (.item a)))
      | (.ok none, b') => some (s.goto .closed (if b' = [] then none else some (.error left)))
      | (.err e, _) => some (s.goto .closed (some (.error e)))
      | (.panic, _) => some (s.goto .panicked none)
    | _ => none
  | .read c =>
    match s.place with
    | .reading b => if c = [] then none else some ({ s with chunks := s.chunks ++ [c] }.goto (.decoding (b ++ c)) none)
    | _ => none
  | .eof =>
    match s.place with
    | .reading b => some (s.goto (.draining b) none)
    | _ => none
  | .fail =>
    match s.place with
    | .reading _ => some (s.goto .failed none)
    | _ => none

end Loop

namespace Decoder

variable {D : Decoder ε α}

/-! ## One read more -/

theorem feed_snoc {b : Bytes} {cs : List Bytes} {b' : Bytes} (h : (D.feed b cs).2.buf = some b') (c : Bytes) :
    D.feed b (cs ++ [c]) = ((D.feed b cs).1 ++ (D.drain (b' ++ c)).1, (D.drain (b' ++ c)).2) := by
  induction cs generalizing b with
  | nil => rw [List.nil_append, feed_cons h]; rfl
  | cons c₀ cs ih =>
    cases hb : (D.drain b).2.buf with
    | none => rw [feed_panicked hb, hb] at h; cases h
    | some b₀ =>
      rw [feed_cons hb] at h
      rw [List.cons_append, feed_cons hb, feed_cons hb, ih h, List.append_assoc]

/-! ## One round -/

theorem drainEof_item {left : ε} {b b' : Bytes} {a : α} (h : D.decode b = (.ok (some a), b')) :
    D.drainEof left b = .item a :: D.drainEof left b' := by
  rw [drainEof]; split <;> simp_all

theorem drainEof_none {left : ε} {b b' : Bytes} (h : D.decode b = (.ok none, b')) :
    D.drainEof left b = if b' = [] then [] else [.error left] := by
  rw [drainEof]; split <;> simp_all

theorem drainEof_err {left : ε} {b b' : Bytes} {e : ε} (h : D.decode b = (.err e, b')) :
    D.drainEof left b = [.error e] := by
  rw [drainEof]; split <;> simp_all

theorem drainEof_panic {left : ε} {b b' : Bytes} (h : D.decode b = (.panic, b')) : D.drainEof left b = [] := by
  rw [drainEof]; split <;> simp_all

/-! ## What a run costs -/

/-- What is left for the next read. -/
def left (s : Stop) : Nat := (s.buf.map List.length).getD 0

def errors (evs : List (Event ε α)) : List ε :=
  evs.filterMap fun
    | .item _ => none
    | .error e => some e

@[simp] theorem errors_append (x y : List (Event ε α)) : errors (x ++ y) = errors x ++ errors y := by simp [errors]
@[simp] theorem errors_item (a : α) (x : List (Event ε α)) : errors (.item a :: x) = errors x := rfl

/-- An item takes at least `k` bytes off the buffer, and asking for more takes none. -/
structure Costs (D : Decoder ε α) (k : Nat) : Prop where
  item : ∀ {b a b'}, D.decode b = (.ok (some a), b') → b'.length + k ≤ b.length
  keeps : ∀ {b b'}, D.decode b = (.ok none, b') → b' = b
  empty : D.decode [] = (.ok none, [])

section
variable {k : Nat} (C : Costs D k)
include C

theorem drain_cost (b : Bytes) : k * (items (D.drain b).1).length + left (D.drain b).2 ≤ b.length := by
  induction b using drain_induction (D := D) with
  | item b a b' hd ih =>
    have hcost := C.item hd
    rw [drain_item hd, items_item, List.length_cons, Nat.mul_succ]
    dsimp only
    omega
  | other b hno =>
    rcases D.decode_cases b with ⟨a, b', h⟩ | ⟨b', h⟩ | ⟨e, b', h⟩ | ⟨b', h⟩
    · exact absurd h (hno a b')
    · obtain rfl := C.keeps h
      rw [drain_none h]
      simp [left, Stop.buf]
    · rw [drain_err h]
      simp [left, Stop.buf]
    · rw [drain_panic h]
      simp [left, Stop.buf]

/-- Where decoding waits, it waits for bytes `decode` asked for, behind a part of what was there. -/
theorem drain_waits {b w : Bytes} (h : (D.drain b).2 = .wait w) : D.decode w = (.ok none, w) ∧ w.length ≤ b.length := by
  induction b using drain_induction (D := D) with
  | item b a b' hd ih =>
    rw [drain_item hd] at h
    have hcost := C.item hd
    exact ⟨(ih h).1, by have := (ih h).2; omega⟩
  | other b hno =>
    rcases D.decode_cases b with ⟨a, b', hd⟩ | ⟨b', hd⟩ | ⟨e, b', hd⟩ | ⟨b', hd⟩
    · exact absurd hd (hno a b')
    · obtain rfl := C.keeps hd
      rw [drain_none hd] at h
      cases h
      exact ⟨hd, Nat.le_refl _⟩
    · rw [drain_err hd] at h; cases h
    · rw [drain_panic hd] at h; cases h

/-- Every item of a run is paid for with bytes that were read. -/
theorem feed_cost (cs : List Bytes) (b : Bytes) :
    k * (items (D.feed b cs).1).length + left (D.feed b cs).2 ≤ b.length + cs.flatten.length := by
  induction cs generalizing b with
  | nil => exact drain_cost C b
  | cons c cs ih =>
    have hdrain := drain_cost C b
    cases hb : (D.drain b).2.buf with
    | none =>
      rw [feed_panicked hb]
      omega
    | some b' =>
      have hrest := ih (b' ++ c)
      have hleft : left (D.drain b).2 = b'.length := by simp [left, hb]
      rw [feed_cons hb, items_append, List.length_append, Nat.mul_add, List.flatten_cons, List.length_append]
      rw [List.length_append] at hrest
      dsimp only
      omega

omit C in
/-- Decoding stops at the first error. -/
theorem errors_drain (b : Bytes) : (errors (D.drain b).1).length ≤ 1 := by
  induction b using drain_induction (D := D) with
  | item b a b' hd ih => rw [drain_item hd, errors_item]; exact ih
  | other b hno =>
    rcases D.decode_cases b with ⟨a, b', h⟩ | ⟨b', h⟩ | ⟨e, b', h⟩ | ⟨b', h⟩
    · exact absurd h (hno a b')
    · rw [drain_none h]; simp [errors]
    · rw [drain_err h]; simp [errors]
    · rw [drain_panic h]; simp [errors]

omit C in
theorem errors_feed (cs : List Bytes) (b : Bytes) :
    (errors (D.feed b cs).1).length ≤ (errors (D.drain b).1).length + cs.length := by
  induction cs generalizing b with
  | nil => exact Nat.le_refl _
  | cons c cs ih =>
    cases hb : (D.drain b).2.buf with
    | none => rw [feed_panicked hb]; omega
    | some b' =>
      have hrest := ih (b' ++ c)
      have hone := errors_drain (D := D) (b' ++ c)
      rw [feed_cons hb, errors_append, List.length_append, List.length_cons]
      omega

theorem drainEof_cost (e : ε) (b : Bytes) :
    k * (items (D.drainEof e b)).length ≤ b.length ∧ (errors (D.drainEof e b)).length ≤ 1 := by
  induction b using drain_induction (D := D) with
  | item b a b' hd ih =>
    have hcost := C.item hd
    rw [drainEof_item hd, items_item, errors_item, List.length_cons, Nat.mul_succ]
    exact ⟨by omega, ih.2⟩
  | other b hno =>
    rcases D.decode_cases b with ⟨a, b', h⟩ | ⟨b', h⟩ | ⟨e', b', h⟩ | ⟨b', h⟩
    · exact absurd h (hno a b')
    · rw [drainEof_none h]
      split <;> simp [errors]
    · rw [drainEof_err h]; simp [errors]
    · rw [drainEof_panic h]; simp [errors]

/-- **What a run hands on is bounded by what it reads**: each item takes `k` bytes, and each read gives at most
    one error, with one more at end of stream. -/
theorem run_cost (e : ε) (cs : List Bytes) :
    k * (items (D.run e cs)).length ≤ cs.flatten.length ∧ (errors (D.run e cs)).length ≤ cs.length + 1 := by
  have hfeed := feed_cost C cs []
  have herr := errors_feed (D := D) cs []
  have hnone : (errors (D.drain []).1).length = 0 := by rw [drain_none C.empty]; rfl
  rw [run, items_append, errors_append, List.length_append, List.length_append, Nat.mul_add]
  have hfin : k * (items (D.finish e (D.feed [] cs).2)).length ≤ left (D.feed [] cs).2 ∧
      (errors (D.finish e (D.feed [] cs).2)).length ≤ 1 := by
    unfold finish left
    cases hb : (D.feed [] cs).2.buf with
    | none => simp [errors]
    | some b => exact drainEof_cost C e b
  rw [List.length_nil] at hfeed
  omega

end

end Decoder

namespace Loop

open Decoder

variable {D : Decoder ε α} {left : ε} {s s' : Loop ε α}

/-! ## Where `feed` stands -/

/-- What the loop has handed on, and what it would still hand on without another read, is what the run over
    its reads gives. -/
def Ok (D : Decoder ε α) (left : ε) (s : Loop ε α) : Prop :=
  match s.place with
  | .decoding b => (s.events ++ (D.drain b).1, (D.drain b).2) = D.feed [] s.chunks
  | .reading b => s.events = (D.feed [] s.chunks).1 ∧ (D.feed [] s.chunks).2.buf = some b
  | .draining b => s.events ++ D.drainEof left b = D.run left s.chunks
  | .closed => s.events = D.run left s.chunks
  | .failed => s.events = (D.feed [] s.chunks).1
  | .panicked => s.events = D.run left s.chunks

theorem Ok.start : (start : Loop ε α).Ok D left := rfl

/-- What a step hands on is what it adds. -/
theorem step_events {a : LoopAction} {e : Option (Event ε α)} (h : s.step D left a = some (s', e)) :
    s'.events = s.events ++ e.toList := by
  cases a <;> simp only [step] at h <;> (repeat' split at h) <;> cases h <;> simp

theorem step_chunks {a : LoopAction} {e : Option (Event ε α)} (h : s.step D left a = some (s', e)) :
    s.chunks <+: s'.chunks := by
  cases a <;> simp only [step] at h <;> (repeat' split at h) <;> cases h <;> simp

theorem Ok.step (hok : s.Ok D left) {a : LoopAction} {e : Option (Event ε α)}
    (h : s.step D left a = some (s', e)) : s'.Ok D left := by
  cases a with
  | decode =>
    simp only [Loop.step] at h
    split at h
    · -- at the top of the loop
      rename_i b hp
      simp only [Ok, hp] at hok
      rcases D.decode_cases b with ⟨a, b', hd⟩ | ⟨b', hd⟩ | ⟨e, b', hd⟩ | ⟨b', hd⟩ <;> rw [hd] at h <;> cases h
      · rw [drain_item hd] at hok
        simpa [Ok, goto] using hok
      · rw [drain_none hd] at hok
        simp [Ok, ← hok, Stop.buf]
      · rw [drain_err hd] at hok
        simp [Ok, ← hok, Stop.buf]
      · rw [drain_panic hd] at hok
        simp [Ok, run, ← hok, finish, Stop.buf]
    · -- behind end of stream
      rename_i b hp
      simp only [Ok, hp] at hok
      rcases D.decode_cases b with ⟨a, b', hd⟩ | ⟨b', hd⟩ | ⟨e, b', hd⟩ | ⟨b', hd⟩ <;> rw [hd] at h <;> cases h
      · rw [drainEof_item hd] at hok
        simpa [Ok, goto] using hok
      · rw [drainEof_none hd] at hok
        by_cases hb : b' = [] <;> simpa [Ok, goto, hb] using hok
      · rw [drainEof_err hd] at hok
        simpa [Ok, goto] using hok
      · rw [drainEof_panic hd] at hok
        simpa [Ok, goto] using hok
    · cases h
  | read c =>
    simp only [Loop.step] at h
    split at h
    · rename_i b hp
      split at h <;> cases h
      simp only [Ok, hp] at hok
      simp only [Ok, Option.toList_none, List.append_nil, feed_snoc hok.2, hok.1]
    · cases h
  | eof =>
    simp only [Loop.step] at h
    split at h
    · rename_i b hp
      cases h
      simp only [Ok, hp] at hok
      simp [Ok, run, finish, hok.1, hok.2]
    · cases h
  | fail =>
    simp only [Loop.step] at h
    split at h
    · rename_i b hp
      cases h
      simp only [Ok, hp] at hok
      simp [Ok, hok.1]
    · cases h

/-- Before its end the loop has handed on the beginning of what the run gives, whatever it will read. -/
theorem Ok.run_extends (hok : s.Ok D left) : s.events <+: D.run left s.chunks := by
  unfold Ok at hok
  split at hok
  · rename_i b hp
    rw [run, ← hok]
    exact (List.prefix_append _ _).trans (List.prefix_append _ _)
  · rw [run, ← hok.1]
    exact List.prefix_append _ _
  · rw [← hok]
    exact List.prefix_append _ _
  · exact hok ▸ List.prefix_rfl
  · rw [hok]
    exact List.prefix_append _ _
  · exact hok ▸ List.prefix_rfl

/-! ## What the loop holds -/

/-- The buffer. -/
def buffer (s : Loop ε α) : Bytes :=
  match s.place with
  | .decoding b | .reading b | .draining b => b
  | _ => []

/-- `W` holds of every buffer the loop waits behind, if a read of `n` bytes behind one leaves another. -/
structure Waits (D : Decoder ε α) (n : Nat) (W : Bytes → Prop) : Prop where
  empty : W []
  next : ∀ {b x w}, W b → x.length ≤ n → (D.drain (b ++ x)).2 = .wait w → W w

/-- Along a drain the stop is that of the buffer behind the read. -/
def Holds (D : Decoder ε α) (n : Nat) (W : Bytes → Prop) (s : Loop ε α) : Prop :=
  match s.place with
  | .decoding b => ∃ b₀ x, W b₀ ∧ x.length ≤ n ∧ (D.drain (b₀ ++ x)).2 = (D.drain b).2 ∧ b.length ≤ (b₀ ++ x).length
  | .reading b => W b
  | .draining b => ∃ b₀, W b₀ ∧ b.length ≤ b₀.length
  | _ => True

theorem Holds.start {n : Nat} {W : Bytes → Prop} (hW : Waits D n W) : (start : Loop ε α).Holds D n W :=
  ⟨[], [], hW.empty, Nat.zero_le _, rfl, Nat.le_refl _⟩

theorem Holds.step {k n : Nat} (C : Costs D k) {W : Bytes → Prop} (hW : Waits D n W) (hok : s.Holds D n W) {a : LoopAction}
    {e : Option (Event ε α)} (h : s.step D left a = some (s', e)) (hn : ∀ c ∈ s'.chunks, c.length ≤ n) :
    s'.Holds D n W := by
  cases a with
  | decode =>
    simp only [Loop.step] at h
    split at h
    · rename_i b hp
      simp only [Holds, hp] at hok
      obtain ⟨b₀, x, hb₀, hx, hstop, hle⟩ := hok
      rcases D.decode_cases b with ⟨a, b', hd⟩ | ⟨b', hd⟩ | ⟨e, b', hd⟩ | ⟨b', hd⟩ <;> rw [hd] at h <;> cases h
      · rw [drain_item hd] at hstop
        have := C.item hd
        exact ⟨b₀, x, hb₀, hx, hstop, by omega⟩
      · rw [drain_none hd] at hstop
        exact hW.next hb₀ hx hstop
      · exact hW.empty
      · trivial
    · rename_i b hp
      simp only [Holds, hp] at hok
      obtain ⟨b₀, hb₀, hle⟩ := hok
      rcases D.decode_cases b with ⟨a, b', hd⟩ | ⟨b', hd⟩ | ⟨e, b', hd⟩ | ⟨b', hd⟩ <;> rw [hd] at h <;> cases h
      · have := C.item hd
        exact ⟨b₀, hb₀, by omega⟩
      all_goals trivial
    · cases h
  | read c =>
    simp only [Loop.step] at h
    split at h
    · rename_i b hp
      split at h <;> cases h
      simp only [Holds, hp] at hok
      exact ⟨b, c, hok, hn c (by simp), rfl, Nat.le_refl _⟩
    · cases h
  | eof =>
    simp only [Loop.step] at h
    split at h
    · rename_i b hp
      cases h
      simp only [Holds, hp] at hok
      exact ⟨b, hok, Nat.le_refl _⟩
    · cases h
  | fail =>
    simp only [Loop.step] at h
    split at h <;> cases h
    trivial

/-- While it decodes the loop holds a buffer it waited behind, and one read more. -/
theorem Holds.length_le {n : Nat} {W : Bytes → Prop} (hok : s.Holds D n W) {limit : Nat} (hlimit : ∀ b, W b → b.length ≤ limit) :
    s.buffer.length ≤ limit + n := by
  unfold Holds at hok
  unfold buffer
  split at hok
  · obtain ⟨b₀, x, hb₀, hx, -, hle⟩ := hok
    have := hlimit b₀ hb₀
    rw [List.length_append] at hle
    omega
  · exact Nat.le_add_right_of_le (hlimit _ hok)
  · obtain ⟨b₀, hb₀, hle⟩ := hok
    have := hlimit b₀ hb₀
    omega
  · exact Nat.zero_le _

end Loop

end Rust
