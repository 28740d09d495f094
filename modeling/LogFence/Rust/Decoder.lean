import LogFence.Rust.Utf8
import Mathlib.Data.List.Forall2

/-!
# Incremental decoders and the read loop over them

A `Decoder` is what `tokio_util::codec::Decoder` asks for: from a buffer, an item and what is left of
the buffer, or "more bytes", or an error. The read loop decodes until more bytes are needed, forgets the
buffer when decoding fails, and reads on; at end of stream it decodes once more. A run is the list of
its reads, each non-empty, and is followed up to the moment it waits for the next one (`feed`), then to
the end of the stream (`finish`).

The stream a client sends is a list of framed bodies. Two laws of a decoder say all a run needs:

* `Framing` — a whole frame decodes to its body's reading, a part of one to "more bytes": the run gives
  the readings of the bodies, in order, however the stream is cut (`feed_frames`), if what follows a
  frame that fails has not been read with it; what stands behind the last frame is then run as if nothing
  had been before it (`feed_frames_then`, `feed_waits`, `feed_refuses`);
* `SoundFraming` — nothing but a whole frame ever decodes to an item: the run gives the readings of
  some of the bodies, in order (`feed_sound`), if every read that shows a frame to be bad ends where
  a frame does.
-/

namespace Rust

variable {ε α : Type}

structure Decoder (ε α : Type) where
  /-- `decode(&mut buf)`: the result and the buffer after it. -/
  decode : Bytes → Outcome ε (Option α) × Bytes
  shrinks : ∀ {b a b'}, decode b = (.ok (some a), b') → b'.length < b.length

/-- What the loop hands on: an item, or the error of a failed `decode`. -/
inductive Event (ε α : Type) where
  | item (a : α)
  | error (e : ε)
deriving DecidableEq, Repr

/-- Where the inner rounds stop: waiting for bytes behind `b`, waiting after `buf.clear()`, or in a
    panic. -/
inductive Stop where
  | wait (b : Bytes)
  | cleared
  | panicked
deriving DecidableEq, Repr

/-- The buffer the next read appends to. -/
def Stop.buf : Stop → Option Bytes
  | .wait b => some b
  | .cleared => some []
  | .panicked => none

namespace Decoder

variable (D : Decoder ε α)

/-- The rounds of the loop up to its next read. -/
def drain (b : Bytes) : List (Event ε α) × Stop :=
  match _h : D.decode b with
  | (.ok (some a), b') => let r := drain b'; (.item a :: r.1, r.2)
  | (.ok none, b') => ([], .wait b')
  | (.err e, _) => ([.error e], .cleared)
  | (.panic, _) => ([], .panicked)
termination_by b.length
decreasing_by exact D.shrinks _h

/-- The run up to the moment it waits for the read after `chunks`. -/
def feed (b : Bytes) : List Bytes → List (Event ε α) × Stop
  | [] => D.drain b
  | c :: cs =>
    match (D.drain b).2.buf with
    | none => D.drain b
    | some b' => let r := feed (b' ++ c) cs; ((D.drain b).1 ++ r.1, r.2)

/-- The rounds after end of stream, with the default `decode_eof`: bytes that are no frame are the
    error `left`. -/
def drainEof (left : ε) (b : Bytes) : List (Event ε α) :=
  match _h : D.decode b with
  | (.ok (some a), b') => .item a :: drainEof left b'
  | (.ok none, b') => if b' = [] then [] else [.error left]
  | (.err e, _) => [.error e]
  | (.panic, _) => []
termination_by b.length
decreasing_by exact D.shrinks _h

def finish (left : ε) (s : Stop) : List (Event ε α) :=
  match s.buf with
  | none => []
  | some b => D.drainEof left b

/-- A whole run: the reads, then end of stream. -/
def run (left : ε) (chunks : List Bytes) : List (Event ε α) :=
  (D.feed [] chunks).1 ++ D.finish left (D.feed [] chunks).2

variable {D}

/-! ## One round -/

theorem drain_item {b b' : Bytes} {a : α} (h : D.decode b = (.ok (some a), b')) :
    D.drain b = (.item a :: (D.drain b').1, (D.drain b').2) := by
  rw [drain]; split <;> simp_all

theorem drain_none {b b' : Bytes} (h : D.decode b = (.ok none, b')) : D.drain b = ([], .wait b') := by
  rw [drain]; split <;> simp_all

theorem drain_err {b b' : Bytes} {e : ε} (h : D.decode b = (.err e, b')) : D.drain b = ([.error e], .cleared) := by
  rw [drain]; split <;> simp_all

theorem drain_panic {b b' : Bytes} (h : D.decode b = (.panic, b')) : D.drain b = ([], .panicked) := by
  rw [drain]; split <;> simp_all

/-- The four ways a round ends. -/
theorem decode_cases (D : Decoder ε α) (b : Bytes) :
    (∃ a b', D.decode b = (.ok (some a), b')) ∨ (∃ b', D.decode b = (.ok none, b')) ∨
      (∃ e b', D.decode b = (.err e, b')) ∨ ∃ b', D.decode b = (.panic, b') := by
  rcases h : D.decode b with ⟨(_ | a) | e | _, b'⟩
  · exact .inr (.inl ⟨b', rfl⟩)
  · exact .inl ⟨a, b', rfl⟩
  · exact .inr (.inr (.inl ⟨e, b', rfl⟩))
  · exact .inr (.inr (.inr ⟨b', rfl⟩))

/-- Induction along the rounds of `drain`. -/
theorem drain_induction {P : Bytes → Prop}
    (item : ∀ b a b', D.decode b = (.ok (some a), b') → P b' → P b)
    (other : ∀ b, (∀ a b', D.decode b ≠ (.ok (some a), b')) → P b) (b : Bytes) : P b := by
  induction hn : b.length using Nat.strongRecOn generalizing b with
  | ind n ih =>
    by_cases h : ∃ a b', D.decode b = (.ok (some a), b')
    · obtain ⟨a, b', h⟩ := h
      exact item b a b' h (ih b'.length (by rw [← hn]; exact D.shrinks h) b' rfl)
    · exact other b fun a b' hd => h ⟨a, b', hd⟩

theorem feed_cons {b b' : Bytes} (h : (D.drain b).2.buf = some b') (c : Bytes) (cs : List Bytes) :
    D.feed b (c :: cs) = ((D.drain b).1 ++ (D.feed (b' ++ c) cs).1, (D.feed (b' ++ c) cs).2) := by
  simp only [feed, h]

theorem feed_panicked {b : Bytes} (h : (D.drain b).2.buf = none) (cs : List Bytes) : D.feed b cs = D.drain b := by
  cases cs with
  | nil => rfl
  | cons c cs => simp only [feed, h]

/-- From an empty buffer, the first read is decoded as it stands. -/
theorem feed_start (h : D.decode [] = (.ok none, [])) (c : Bytes) (cs : List Bytes) :
    D.feed [] (c :: cs) = D.feed c cs := by
  have hnil : D.drain [] = ([], .wait []) := drain_none h
  have hbuf : (D.drain []).2.buf = some [] := by rw [hnil]; rfl
  rw [feed_cons hbuf, hnil]
  rfl

/-- A buffer that gives one event more than another, and stops alike, does so over any reads. -/
theorem feed_event {b b₁ : Bytes} {ev : Event ε α} (h1 : (D.drain b).1 = ev :: (D.drain b₁).1)
    (h2 : (D.drain b).2.buf = (D.drain b₁).2.buf) (cs : List Bytes) :
    (D.feed b cs).1 = ev :: (D.feed b₁ cs).1 ∧ (D.feed b cs).2.buf = (D.feed b₁ cs).2.buf := by
  cases cs with
  | nil => exact ⟨h1, h2⟩
  | cons c cs =>
    cases hb : (D.drain b₁).2.buf with
    | none =>
      rw [feed_panicked (h2.trans hb), feed_panicked hb]
      exact ⟨h1, h2⟩
    | some b' =>
      rw [feed_cons (h2.trans hb), feed_cons hb]
      simp [h1]

/-! ## Whole frames, whatever the cuts -/

/-- The stream of framed bodies. -/
def stream (frame : Bytes → Bytes) (fs : List Bytes) : Bytes := (fs.map frame).flatten

@[simp] theorem stream_nil (frame : Bytes → Bytes) : stream frame [] = [] := rfl

@[simp] theorem stream_cons (frame : Bytes → Bytes) (f : Bytes) (fs : List Bytes) :
    stream frame (f :: fs) = frame f ++ stream frame fs := by simp [stream]

@[simp] theorem stream_append (frame : Bytes → Bytes) (fs gs : List Bytes) :
    stream frame (fs ++ gs) = stream frame fs ++ stream frame gs := by simp [stream]

/-- What a body is read as. -/
def eventOf : Outcome ε α → Option (Event ε α)
  | .ok a => some (.item a)
  | .err e => some (.error e)
  | .panic => none

@[simp] theorem eventOf_ok (a : α) : eventOf (.ok a : Outcome ε α) = some (.item a) := rfl
@[simp] theorem eventOf_err (e : ε) : eventOf (.err e : Outcome ε α) = some (.error e) := rfl

structure Framing (D : Decoder ε α) (frame : Bytes → Bytes) (fits : Bytes → Prop) (read : Bytes → Outcome ε α) :
    Prop where
  empty : D.decode [] = (.ok none, [])
  whole : ∀ {f}, fits f → ∀ r, D.decode (frame f ++ r) = (some <$> read f, r)
  part : ∀ {f p q}, fits f → frame f = p ++ q → q ≠ [] → D.decode p = (.ok none, p)
  nonempty : ∀ f, frame f ≠ []

theorem Framing.mono {frame : Bytes → Bytes} {fits fits' : Bytes → Prop} {read : Bytes → Outcome ε α}
    (F : Framing D frame fits read) (h : ∀ f, fits' f → fits f) : Framing D frame fits' read where
  empty := F.empty
  whole hf := F.whole (h _ hf)
  part hf := F.part (h _ hf)
  nonempty := F.nonempty

/-- Every frame that fails ends where a read ends. -/
def Aligned (frame : Bytes → Bytes) (read : Bytes → Outcome ε α) (b : Bytes) (chunks : List Bytes) (fs : List Bytes) :
    Prop :=
  ∀ pre f post, fs = pre ++ f :: post → (∃ e, read f = .err e) →
    ∃ k, b ++ (chunks.take k).flatten = stream frame (pre ++ [f])

section
variable {frame : Bytes → Bytes} {fits : Bytes → Prop} {read : Bytes → Outcome ε α}

/-- A buffer at a frame's start holds a strict part of the frame, or the frame and more. -/
theorem part_or_whole {f b u t : Bytes} (h : b ++ u = frame f ++ t) :
    (∃ q, q ≠ [] ∧ frame f = b ++ q) ∨ ∃ b₁, b = frame f ++ b₁ ∧ b₁ ++ u = t := by
  rcases List.append_eq_append_iff.1 h with ⟨q, hq, hu⟩ | ⟨b₁, hb, hu⟩
  · by_cases hnil : q = []
    · subst hnil
      exact .inr ⟨[], by simpa using hq.symm, by simpa using hu⟩
    · exact .inl ⟨q, hnil, hq⟩
  · exact .inr ⟨b₁, hb, hu.symm⟩

theorem Aligned.tail {b₁ f : Bytes} {chunks fs : List Bytes}
    (h : Aligned frame read (frame f ++ b₁) chunks (f :: fs)) : Aligned frame read b₁ chunks fs := by
  rintro pre g post rfl he
  obtain ⟨k, hk⟩ := h (f :: pre) g post rfl he
  refine ⟨k, ?_⟩
  rw [List.cons_append, stream_cons, List.append_assoc] at hk
  exact List.append_cancel_left hk

/-- While a frame is incomplete, the next read is part of what it waits for. -/
theorem Aligned.next {b c f q : Bytes} {chunks fs : List Bytes} (hq : q ≠ []) (hf : frame f = b ++ q)
    (h : Aligned frame read b (c :: chunks) (f :: fs)) : Aligned frame read (b ++ c) chunks (f :: fs) := by
  intro pre g post hfs he
  obtain ⟨k, hk⟩ := h pre g post hfs he
  cases k with
  | zero =>
    exfalso
    -- `b` would already hold the whole first frame
    obtain ⟨g', pre', hpre⟩ : ∃ g' pre', pre ++ [g] = g' :: pre' := List.exists_cons_of_ne_nil (by simp)
    have hg : g' = f := by
      have h1 : pre ++ g :: post = (g' :: pre') ++ post := by rw [← hpre]; simp
      rw [h1] at hfs
      exact (List.cons.inj hfs).1.symm
    rw [hpre, stream_cons, hg, hf] at hk
    simp only [List.take_zero, List.flatten_nil, List.append_nil, List.append_assoc] at hk
    have := congrArg List.length hk
    simp only [List.length_append] at this
    exact hq (List.length_eq_zero_iff.1 (by omega))
  | succ k => exact ⟨k, by simpa using hk⟩

/-- A whole frame gives its body's event and leaves the rest of the buffer to the run, if nothing
    stands behind a frame that fails. -/
theorem feed_frame (F : Framing D frame fits read) {f b₁ : Bytes} (hfit : fits f) (hnp : read f ≠ .panic)
    (herr : ∀ e, read f = .err e → b₁ = []) (cs : List Bytes) :
    ∃ ev, eventOf (read f) = some ev ∧ (D.feed (frame f ++ b₁) cs).1 = ev :: (D.feed b₁ cs).1 ∧
      (D.feed (frame f ++ b₁) cs).2.buf = (D.feed b₁ cs).2.buf := by
  have hwhole := F.whole hfit b₁
  rcases hr : read f with a | e | _
  · rw [hr] at hwhole
    have hd := drain_item hwhole
    exact ⟨_, rfl, feed_event (by rw [hd]) (by rw [hd]) cs⟩
  · obtain rfl := herr e hr
    rw [hr] at hwhole
    have hd := drain_err hwhole
    have hnil : D.drain [] = ([], .wait []) := drain_none F.empty
    exact ⟨_, rfl, feed_event (by rw [hd, hnil]) (by rw [hd, hnil]; rfl) cs⟩
  · exact absurd hr hnp

/-- A run over framed bodies and `p` behind them gives the readings of the bodies, each once and in order, and
    then what the run over `p` gives, if every frame that fails ends a read. -/
theorem feed_frames_then (F : Framing D frame fits read) (p : Bytes) :
    ∀ (chunks : List Bytes) (b : Bytes) (fs : List Bytes),
    (∀ f ∈ fs, fits f ∧ read f ≠ .panic) → b ++ chunks.flatten = stream frame fs ++ p →
    Aligned frame read b chunks fs →
    ∃ p₀ cs, p₀ ++ cs.flatten = p ∧
      (D.feed b chunks).1 = fs.filterMap (fun f => eventOf (read f)) ++ (D.feed p₀ cs).1 ∧
      (D.feed b chunks).2.buf = (D.feed p₀ cs).2.buf
  | chunks, b, [], _, heq, _ => ⟨b, chunks, by simpa using heq, rfl, rfl⟩
  | chunks, b, f :: fs, hfs, heq, hal => by
    obtain ⟨hfit, hnp⟩ := hfs f (by simp)
    have hstream : b ++ chunks.flatten = frame f ++ (stream frame fs ++ p) := by rw [heq, stream_cons, List.append_assoc]
    rcases part_or_whole hstream with ⟨q, hq, hf⟩ | ⟨b₁, rfl, hb₁⟩
    · -- the frame is not complete yet
      have hd : D.drain b = ([], .wait b) := drain_none (F.part hfit hf hq)
      cases chunks with
      | nil =>
        exfalso
        rw [hf] at hstream
        have := congrArg List.length hstream
        simp only [List.flatten_nil, List.append_nil, List.length_append] at this
        exact hq (List.length_eq_zero_iff.1 (by omega))
      | cons c cs =>
        have hbuf : (D.drain b).2.buf = some b := by rw [hd]; rfl
        obtain ⟨p₀, cs', hp, h1, h2⟩ :=
          feed_frames_then F p cs (b ++ c) (f :: fs) hfs (by simpa using heq) (hal.next hq hf)
        refine ⟨p₀, cs', hp, ?_, ?_⟩
        · rw [feed_cons hbuf, hd]; exact h1
        · rw [feed_cons hbuf]; exact h2
    · -- it is, and the run goes on behind it
      have herr : ∀ e, read f = .err e → b₁ = [] := by
        intro e he
        obtain ⟨k, hk⟩ := hal [] f fs rfl ⟨e, he⟩
        have := congrArg List.length hk
        simp only [List.nil_append, stream_cons, stream_nil, List.append_nil, List.length_append] at this
        exact List.length_eq_zero_iff.1 (by omega)
      obtain ⟨ev, hev, h1, h2⟩ := feed_frame F hfit hnp herr chunks
      obtain ⟨p₀, cs', hp, h3, h4⟩ :=
        feed_frames_then F p chunks b₁ fs (fun g hg => hfs g (by simp [hg])) hb₁ hal.tail
      refine ⟨p₀, cs', hp, ?_, h2.trans h4⟩
      rw [h1, h3, List.filterMap_cons, hev]
      rfl
termination_by chunks _ fs => chunks.length + fs.length

/-- Reads without a byte. -/
theorem feed_empties (h : D.decode [] = (.ok none, [])) : ∀ {cs : List Bytes}, cs.flatten = [] →
    D.feed [] cs = ([], .wait [])
  | [], _ => drain_none h
  | c :: cs, hcs => by
    obtain ⟨rfl, hrest⟩ : c = [] ∧ cs.flatten = [] := by simpa using hcs
    rw [feed_start h, feed_empties h hrest]

/-- **A run over framed bodies**: their readings, each once and in order, and nothing left over, if every
    frame that fails ends a read. -/
theorem feed_frames (F : Framing D frame fits read) (chunks : List Bytes) (b : Bytes) (fs : List Bytes)
    (hfs : ∀ f ∈ fs, fits f ∧ read f ≠ .panic) (heq : b ++ chunks.flatten = stream frame fs)
    (hal : Aligned frame read b chunks fs) :
    (D.feed b chunks).1 = fs.filterMap (fun f => eventOf (read f)) ∧ (D.feed b chunks).2.buf = some [] := by
  obtain ⟨p₀, cs, hp, h1, h2⟩ := feed_frames_then F [] chunks b fs hfs (by rw [heq, List.append_nil]) hal
  obtain ⟨rfl, hcs⟩ := List.append_eq_nil_iff.1 hp
  rw [feed_empties F.empty hcs] at h1 h2
  exact ⟨by rw [h1, List.append_nil], h2⟩

/-- Frames that are read, in one buffer with what follows them. -/
theorem drain_items (F : Framing D frame fits read) (r : Bytes) : ∀ fs : List Bytes,
    (∀ f ∈ fs, fits f ∧ ∃ a, read f = .ok a) →
    D.drain (stream frame fs ++ r) = (fs.filterMap (fun f => eventOf (read f)) ++ (D.drain r).1, (D.drain r).2)
  | [], _ => rfl
  | f :: fs, h => by
    obtain ⟨⟨hfit, a, ha⟩, hfs⟩ := List.forall_mem_cons.1 h
    have hwhole := F.whole hfit (stream frame fs ++ r)
    rw [ha] at hwhole
    rw [stream_cons, List.append_assoc, drain_item hwhole, drain_items F r fs hfs, List.filterMap_cons, ha]
    rfl

theorem length_filterMap_eventOf {fs : List Bytes} (h : ∀ f ∈ fs, fits f ∧ ∃ a, read f = .ok a) :
    (fs.filterMap fun f => eventOf (read f)).length = fs.length := by
  induction fs with
  | nil => rfl
  | cons f fs ih =>
    obtain ⟨⟨-, a, ha⟩, hfs⟩ := List.forall_mem_cons.1 h
    rw [List.filterMap_cons, ha, eventOf_ok, List.length_cons, List.length_cons, ih hfs]

/-- In one read, the first frame that fails is the last that gives an event. -/
theorem drain_first_failure (F : Framing D frame fits read) {f : Bytes} (hfit : fits f)
    (hf : ∀ a, read f ≠ .ok a) (r : Bytes) (pre : List Bytes) (hpre : ∀ g ∈ pre, fits g ∧ ∃ a, read g = .ok a) :
    (D.drain (stream frame pre ++ (frame f ++ r))).1.length = pre.length + (eventOf (read f)).toList.length ∧
      ((D.drain (stream frame pre ++ (frame f ++ r))).2 = .cleared ∨
        (D.drain (stream frame pre ++ (frame f ++ r))).2 = .panicked) := by
  have hwhole := F.whole hfit r
  rw [drain_items F _ pre hpre, List.length_append, length_filterMap_eventOf hpre]
  rcases hr : read f with a | e | _
  · exact absurd hr (hf a)
  · rw [hr] at hwhole
    rw [drain_err hwhole]
    simp [eventOf]
  · rw [hr] at hwhole
    rw [drain_panic hwhole]
    simp [eventOf]

end

/-! ## Bytes that are no frame yet -/

/-- If no part of `p` is decoded to anything, the run over it gives nothing and waits behind all of it, or ends
    in a panic. -/
theorem feed_waits {p : Bytes}
    (h : ∀ b u, p = b ++ u → D.decode b = (.ok none, b) ∨ ∃ b', D.decode b = (.panic, b')) :
    ∀ (cs : List Bytes) (b : Bytes), b ++ cs.flatten = p → (D.feed b cs).1 = []
  | [], b, heq => by
    rw [List.flatten_nil, List.append_nil] at heq
    rcases h b [] (by rw [heq, List.append_nil]) with hd | ⟨b', hd⟩
    · rw [feed, drain_none hd]
    · rw [feed, drain_panic hd]
  | c :: cs, b, heq => by
    rcases h b _ heq.symm with hd | ⟨b', hd⟩
    · have hbuf : (D.drain b).2.buf = some b := by rw [drain_none hd]; rfl
      rw [feed_cons hbuf, drain_none hd]
      exact feed_waits h cs (b ++ c) (by simpa using heq)
    · rw [feed_panicked (by rw [drain_panic hd]; rfl), drain_panic hd]

/-- If each part of `p` waits or fails, and `p` fails, the run over it gives an error first. -/
theorem feed_refuses {p : Bytes} {P : ε → Prop}
    (h : ∀ b u, p = b ++ u → D.decode b = (.ok none, b) ∨ ∃ e b', P e ∧ D.decode b = (.err e, b'))
    (hp : D.decode p ≠ (.ok none, p)) :
    ∀ (cs : List Bytes) (b : Bytes), b ++ cs.flatten = p → ∃ e evs, P e ∧ (D.feed b cs).1 = .error e :: evs
  | [], b, heq => by
    rw [List.flatten_nil, List.append_nil] at heq
    rcases h b [] (by rw [heq, List.append_nil]) with hd | ⟨e, b', he, hd⟩
    · exact absurd (heq ▸ hd) hp
    · exact ⟨e, [], he, by rw [feed, drain_err hd]⟩
  | c :: cs, b, heq => by
    rcases h b _ heq.symm with hd | ⟨e, b', he, hd⟩
    · have hbuf : (D.drain b).2.buf = some b := by rw [drain_none hd]; rfl
      obtain ⟨e, evs, he, hev⟩ := feed_refuses h hp cs (b ++ c) (by simpa using heq)
      exact ⟨e, evs, he, by rw [feed_cons hbuf, drain_none hd]; exact hev⟩
    · have hbuf : (D.drain b).2.buf = some [] := by rw [drain_err hd]; rfl
      exact ⟨e, _, he, by rw [feed_cons hbuf, drain_err hd]; rfl⟩

/-! ## Nothing but whole frames -/

/-- A body the decoder does not take, or cannot read. -/
def Bad (fits : Bytes → Prop) (read : Bytes → Outcome ε α) (f : Bytes) : Prop := ¬ fits f ∨ ∃ e, read f = .err e

/-- `legal` bodies are those the frame can carry, `fits` the ones the decoder takes. `shown f` bytes of its
    frame decide what becomes of `f`. -/
structure SoundFraming (D : Decoder ε α) (frame : Bytes → Bytes) (legal fits : Bytes → Prop)
    (read : Bytes → Outcome ε α) (shown : Bytes → Nat) : Prop where
  /-- At the start of a frame, an item is the reading of that frame's body, and takes the frame off. -/
  item : ∀ {f r b u a b'}, legal f → b ++ u = frame f ++ r → D.decode b = (.ok (some a), b') →
    fits f ∧ read f = .ok a ∧ b = frame f ++ b'
  /-- An error is that frame's, and shows in the buffer. -/
  error : ∀ {f r b u e b'}, legal f → b ++ u = frame f ++ r → D.decode b = (.err e, b') →
    Bad fits read f ∧ shown f ≤ b.length
  more : ∀ {f r b u b'}, legal f → b ++ u = frame f ++ r → D.decode b = (.ok none, b') → b.length < shown f
  /-- Asking for more bytes leaves the buffer alone. -/
  keeps : ∀ {b b'}, D.decode b = (.ok none, b') → b' = b
  empty : D.decode [] = (.ok none, [])
  nonempty : ∀ f, frame f ≠ []
  shown_le : ∀ f, shown f ≤ (frame f).length

/-- What `decode` can make of a buffer at the start of the frame of `f`. -/
inductive AtFrame (D : Decoder ε α) (frame : Bytes → Bytes) (fits : Bytes → Prop) (read : Bytes → Outcome ε α)
    (shown : Bytes → Nat) (f b : Bytes) : Prop
  | waits : D.decode b = (.ok none, b) → b.length < shown f → AtFrame D frame fits read shown f b
  | refuses {e b'} : D.decode b = (.err e, b') → ¬ fits f → shown f ≤ b.length → AtFrame D frame fits read shown f b
  | reads {b'} : D.decode b = (some <$> read f, b') → fits f → b = frame f ++ b' → shown f ≤ b.length →
      AtFrame D frame fits read shown f b
  | panics {b'} : D.decode b = (.panic, b') → AtFrame D frame fits read shown f b

/-- **A decoder is sound if it is so at the start of each frame.** -/
theorem SoundFraming.of_atFrame {frame : Bytes → Bytes} {legal fits : Bytes → Prop} {read : Bytes → Outcome ε α}
    {shown : Bytes → Nat} (empty : D.decode [] = (.ok none, [])) (nonempty : ∀ f, frame f ≠ [])
    (shown_le : ∀ f, shown f ≤ (frame f).length) (keeps : ∀ {b b'}, D.decode b = (.ok none, b') → b' = b)
    (h : ∀ {f r b u}, legal f → b ++ u = frame f ++ r → AtFrame D frame fits read shown f b) :
    SoundFraming D frame legal fits read shown where
  empty := empty
  nonempty := nonempty
  shown_le := shown_le
  keeps := keeps
  item hf heq hd := by
    cases h hf heq with
    | waits hdec _ => rw [hdec] at hd; cases hd
    | refuses hdec _ _ => rw [hdec] at hd; cases hd
    | reads hdec hfits hb _ =>
      obtain ⟨h1, rfl⟩ := Prod.mk.inj (hdec.symm.trans hd)
      exact ⟨hfits, Outcome.map_some_eq_ok h1, hb⟩
    | panics hdec => rw [hdec] at hd; cases hd
  error hf heq hd := by
    cases h hf heq with
    | waits hdec _ => rw [hdec] at hd; cases hd
    | refuses _ hno hshown => exact ⟨.inl hno, hshown⟩
    | reads hdec _ _ hshown =>
      exact ⟨.inr ⟨_, Outcome.map_some_eq_err (Prod.mk.inj (hdec.symm.trans hd)).1⟩, hshown⟩
    | panics hdec => rw [hdec] at hd; cases hd
  more hf heq hd := by
    cases h hf heq with
    | waits _ hlt => exact hlt
    | refuses hdec _ _ => rw [hdec] at hd; cases hd
    | reads hdec _ _ _ => exact absurd (Prod.mk.inj (hdec.symm.trans hd)).1 (Outcome.map_some_ne_none _)
    | panics hdec => rw [hdec] at hd; cases hd

def items (evs : List (Event ε α)) : List α :=
  evs.filterMap fun
    | .item a => some a
    | .error _ => none

@[simp] theorem items_append (x y : List (Event ε α)) : items (x ++ y) = items x ++ items y := by simp [items]
@[simp] theorem items_nil : items ([] : List (Event ε α)) = [] := rfl
@[simp] theorem items_item (a : α) (x : List (Event ε α)) : items (.item a :: x) = a :: items x := rfl
@[simp] theorem items_error (e : ε) (x : List (Event ε α)) : items (.error e :: x) = items x := rfl

/-- Every read that shows a bad frame ends where a frame ends. -/
def ReadsResync (frame : Bytes → Bytes) (bad : Bytes → Prop) (shown : Bytes → Nat) (all chunks : List Bytes) : Prop :=
  ∀ pre f post, all = pre ++ f :: post → bad f → ∀ k,
    (chunks.take k).flatten.length < (stream frame pre).length + shown f →
    (stream frame pre).length + shown f ≤ (chunks.take (k + 1)).flatten.length →
    ∃ j, (chunks.take (k + 1)).flatten = stream frame (all.take j)

section
variable {frame : Bytes → Bytes} {legal fits : Bytes → Prop} {read : Bytes → Outcome ε α} {shown : Bytes → Nat}

/-- What a buffer `b` is decoded to, at the start of the frames `fs`: the readings of the first ones, and
    then a wait inside a frame or the error of a bad one. -/
theorem drain_sound (S : SoundFraming D frame legal fits read shown) (u : Bytes) (b : Bytes) : ∀ fs,
    (∀ f ∈ fs, legal f) → b ++ u = stream frame fs →
    ∃ pre post b'', fs = pre ++ post ∧ b = stream frame pre ++ b'' ∧
      List.Forall₂ (fun a f => fits f ∧ read f = .ok a) (items (D.drain b).1) pre ∧
      (∀ b', (D.drain b).2 = .wait b' → b' = b'' ∧ ∀ g post', post = g :: post' → b''.length < shown g) ∧
      ((D.drain b).2 = .cleared → ∃ g post', post = g :: post' ∧ Bad fits read g ∧ shown g ≤ b''.length) := by
  induction b using drain_induction (D := D) with
  | item b a b' hd ih =>
    intro fs hleg heq
    cases fs with
    | nil =>
      obtain ⟨rfl, -⟩ : b = [] ∧ u = [] := by simpa using heq
      rw [S.empty] at hd; simp at hd
    | cons f fs =>
      rw [stream_cons] at heq
      obtain ⟨hfit, hread, rfl⟩ := S.item (hleg f (by simp)) heq hd
      rw [List.append_assoc] at heq
      obtain ⟨pre, post, b'', rfl, hb'', hall, hwait, hclear⟩ :=
        ih fs (fun g hg => hleg g (by simp [hg])) (List.append_cancel_left heq)
      rw [drain_item hd]
      exact ⟨f :: pre, post, b'', rfl, by rw [hb'']; simp, .cons ⟨hfit, hread⟩ hall, hwait, hclear⟩
  | other b hno =>
    intro fs hleg heq
    refine ⟨[], fs, b, rfl, by simp, ?_⟩
    rcases D.decode_cases b with ⟨a, b', h⟩ | ⟨b', h⟩ | ⟨e, b', h⟩ | ⟨b', h⟩
    · exact absurd h (hno a b')
    · obtain rfl := S.keeps h
      rw [drain_none h]
      refine ⟨.nil, ?_, by simp⟩
      intro w hw
      cases hw
      refine ⟨rfl, ?_⟩
      rintro g post' rfl
      exact S.more (hleg g (by simp)) (by rw [heq, stream_cons]) h
    · rw [drain_err h]
      refine ⟨.nil, by simp, fun _ => ?_⟩
      cases fs with
      | nil =>
        obtain ⟨rfl, -⟩ : b = [] ∧ u = [] := by simpa using heq
        rw [S.empty] at h; simp at h
      | cons g post' => exact ⟨g, post', rfl, S.error (hleg g (by simp)) (by rw [heq, stream_cons]) h⟩
    · rw [drain_panic h]
      exact ⟨.nil, by simp, by simp⟩

theorem length_le_of_stream_le (hne : ∀ f, frame f ≠ []) {xs ys zs : List Bytes} {k : Nat}
    (heq : xs ++ ys = zs) (hle : (stream frame xs).length ≤ (stream frame (zs.take k)).length) : xs.length ≤ k := by
  by_contra hlt
  subst heq
  rw [List.take_append_of_le_length (by omega)] at hle
  obtain ⟨f, t, ht⟩ : ∃ f t, xs.drop k = f :: t :=
    List.exists_cons_of_ne_nil (by rw [Ne, List.drop_eq_nil_iff]; omega)
  have hsplit : stream frame xs = stream frame (xs.take k) ++ (frame f ++ stream frame t) := by
    rw [← stream_cons, ← ht, ← stream_append, List.take_append_drop]
  have hpos := List.length_pos_of_ne_nil (hne f)
  rw [hsplit, List.length_append, List.length_append] at hle
  omega

/-- None of the frames `fs` is decided by the buffer `b` alone. -/
def Undecided (frame : Bytes → Bytes) (shown : Bytes → Nat) (b : Bytes) (fs : List Bytes) : Prop :=
  ∀ pre f post, fs = pre ++ f :: post → b.length < (stream frame pre).length + shown f

/-- A buffer that does not decide the first frame decides none. -/
theorem undecided_of_first (hle : ∀ f, shown f ≤ (frame f).length) {b : Bytes} {fs : List Bytes}
    (h : ∀ g post, fs = g :: post → b.length < shown g) : Undecided frame shown b fs := by
  intro pre f post hfs
  cases pre with
  | nil =>
    have := h f post hfs
    simpa using this
  | cons g pre =>
    have h1 := h g (pre ++ f :: post) hfs
    have h2 := hle g
    rw [stream_cons, List.length_append]
    omega

theorem undecided_nil (S : SoundFraming D frame legal fits read shown) {fs : List Bytes} (hleg : ∀ f ∈ fs, legal f) :
    Undecided frame shown [] fs := by
  refine undecided_of_first S.shown_le ?_
  rintro g post rfl
  exact S.more (hleg g (by simp)) (r := []) (u := frame g) (by simp) S.empty

/-- **No run decodes the inside of a body**: its items are the readings of some of the bodies, in order, if
    every read that shows a bad frame ends where a frame ends. -/
theorem feed_sound (S : SoundFraming D frame legal fits read shown) (all : List Bytes) (hleg : ∀ f ∈ all, legal f)
    (v : Bytes) :
    ∀ (cs done : List Bytes) (c b : Bytes) (past fs : List Bytes),
      all = past ++ fs → done.flatten = stream frame past ++ b → Undecided frame shown b fs →
      (done ++ c :: cs).flatten ++ v = stream frame all →
      ReadsResync frame (Bad fits read) shown all (done ++ c :: cs) →
      ∃ sub, sub.Sublist fs ∧
        List.Forall₂ (fun a f => fits f ∧ read f = .ok a) (items (D.feed (b ++ c) cs).1) sub := by
  intro cs
  induction cs with
  | nil =>
    intro done c b past fs hall hdone _ heq _
    have hrest : (b ++ c) ++ v = stream frame fs := by
      rw [hall, stream_append, List.flatten_append, hdone] at heq
      simpa using heq
    obtain ⟨pre, post, -, rfl, -, hitems, -⟩ :=
      drain_sound S v (b ++ c) fs (fun f hf => hleg f (by simp [hall, hf])) hrest
    exact ⟨pre, List.sublist_append_left pre post, hitems⟩
  | cons c' cs ih =>
    intro done c b past fs hall hdone hund heq hsync
    have hrest : (b ++ c) ++ ((c' :: cs).flatten ++ v) = stream frame fs := by
      rw [hall, stream_append, List.flatten_append, hdone] at heq
      simpa using heq
    obtain ⟨pre, post, b'', rfl, hb'', hitems, hwait, hclear⟩ :=
      drain_sound S _ (b ++ c) fs (fun f hf => hleg f (by simp [hall, hf])) hrest
    have hseen : (done ++ [c]).flatten = stream frame (past ++ pre) ++ b'' := by
      rw [List.flatten_append, hdone, stream_append, List.append_assoc, List.append_assoc, ← hb'']; simp
    have hassoc : done ++ [c] ++ c' :: cs = done ++ c :: c' :: cs := by simp
    cases hstop : (D.drain (b ++ c)).2 with
    | panicked =>
      rw [feed_panicked (by rw [hstop]; rfl)]
      exact ⟨pre, List.sublist_append_left pre post, hitems⟩
    | wait w =>
      obtain ⟨rfl, hfirst⟩ := hwait w hstop
      rw [feed_cons (by rw [hstop]; rfl), items_append]
      obtain ⟨sub, hsub, hsubs⟩ := ih (done ++ [c]) c' w (past ++ pre) post (by rw [hall, List.append_assoc]) hseen
        (undecided_of_first S.shown_le hfirst) (by rw [hassoc]; exact heq) (by rw [hassoc]; exact hsync)
      exact ⟨pre ++ sub, (List.Sublist.refl pre).append hsub, List.rel_append hitems hsubs⟩
    | cleared =>
      -- the read that showed the bad frame ends where a frame ends, and there decoding starts afresh
      obtain ⟨g, post', hpost, hbad, hshown⟩ := hclear hstop
      obtain ⟨k, hk⟩ : ∃ k, (done ++ [c]).flatten = stream frame (all.take k) := by
        have htake : (done ++ c :: c' :: cs).take (done.length + 1) = done ++ [c] := by
          rw [List.take_length_add_append]; rfl
        have hbefore := hund pre g post' (by rw [hpost])
        have hlen := congrArg List.length hseen
        rw [← htake]
        refine hsync (past ++ pre) g post' (by rw [hall, hpost, List.append_assoc]) hbad done.length ?_ ?_
        · rw [List.take_left, hdone, stream_append, List.length_append, List.length_append]; omega
        · rw [htake, hseen, List.length_append]; omega
      rw [feed_cons (by rw [hstop]; rfl), items_append]
      have hcat : past ++ pre ++ post = all := by rw [hall, List.append_assoc]
      have hle : (past ++ pre).length ≤ k := by
        refine length_le_of_stream_le S.nonempty hcat ?_
        rw [← hk, hseen, List.length_append]; omega
      have hsuffix : all.drop k = post.drop (k - (past ++ pre).length) := by
        rw [hall, ← List.append_assoc, List.drop_append, List.drop_eq_nil_of_le hle, List.nil_append]
      obtain ⟨sub, hsub, hsubs⟩ := ih (done ++ [c]) c' [] (all.take k) (all.drop k) (List.take_append_drop k all).symm
        (by rw [hk, List.append_nil]) (undecided_nil S fun f hf => hleg f (List.mem_of_mem_drop hf))
        (by rw [hassoc]; exact heq) (by rw [hassoc]; exact hsync)
      rw [hsuffix] at hsub
      exact ⟨pre ++ sub, (List.Sublist.refl pre).append (hsub.trans (List.drop_sublist _ _)),
        List.rel_append hitems hsubs⟩

/-- From the start of a connection. -/
theorem feed_sound_start (S : SoundFraming D frame legal fits read shown) {all chunks : List Bytes}
    (hleg : ∀ f ∈ all, legal f) {v : Bytes} (heq : chunks.flatten ++ v = stream frame all)
    (hsync : ReadsResync frame (Bad fits read) shown all chunks) :
    ∃ sub, sub.Sublist all ∧ List.Forall₂ (fun a f => fits f ∧ read f = .ok a) (items (D.feed [] chunks).1) sub := by
  cases chunks with
  | nil =>
    refine ⟨[], List.nil_sublist all, ?_⟩
    rw [feed, drain_none S.empty]
    exact .nil
  | cons c cs =>
    rw [feed_start S.empty]
    exact feed_sound S all hleg v cs [] c [] [] all rfl rfl (undecided_nil S hleg) heq hsync

/-- Where the run waits, it waits for bytes `decode` asked for. -/
theorem drain_wait (S : SoundFraming D frame legal fits read shown) (b : Bytes) :
    ∀ b', (D.drain b).2 = .wait b' → D.decode b' = (.ok none, b') := by
  induction b using drain_induction (D := D) with
  | item b a b' hd ih => rw [drain_item hd]; exact ih
  | other b hno =>
    rcases D.decode_cases b with ⟨a, b', h⟩ | ⟨b', h⟩ | ⟨e, b', h⟩ | ⟨b', h⟩
    · exact absurd h (hno a b')
    · obtain rfl := S.keeps h
      rw [drain_none h]; intro w hw; cases hw; exact h
    · rw [drain_err h]; intro w hw; cases hw
    · rw [drain_panic h]; intro w hw; cases hw

theorem feed_wait (S : SoundFraming D frame legal fits read shown) : ∀ (chunks : List Bytes) (b b' : Bytes),
    (D.feed b chunks).2 = .wait b' → D.decode b' = (.ok none, b') := by
  intro chunks
  induction chunks with
  | nil => exact drain_wait S
  | cons c cs ih =>
    intro b b' h
    cases hbuf : (D.drain b).2.buf with
    | none => rw [feed_panicked hbuf] at h; exact drain_wait S b b' h
    | some w => rw [feed_cons hbuf] at h; exact ih _ _ h

/-- At end of stream the buffer asks for more bytes: the rounds that are left give at most the error `left`. -/
theorem finish_cases (S : SoundFraming D frame legal fits read shown) (left : ε) (b : Bytes) (chunks : List Bytes) :
    D.finish left (D.feed b chunks).2 = [] ∨ D.finish left (D.feed b chunks).2 = [.error left] := by
  have heof : ∀ b, D.decode b = (.ok none, b) → D.drainEof left b = [] ∨ D.drainEof left b = [.error left] := by
    intro b h
    rw [drainEof]
    split <;> rename_i hd <;> rw [h] at hd <;> simp at hd
    split
    · exact .inl rfl
    · exact .inr rfl
  unfold finish
  cases hs : (D.feed b chunks).2 with
  | wait w => exact heof w (feed_wait S chunks b w hs)
  | cleared => exact heof [] S.empty
  | panicked => exact .inl rfl

theorem items_finish (S : SoundFraming D frame legal fits read shown) (left : ε) (b : Bytes) (chunks : List Bytes) :
    items (D.finish left (D.feed b chunks).2) = [] := by
  rcases finish_cases S left b chunks with h | h <;> rw [h] <;> rfl

end

/-! ## Items, whatever the bytes -/

section
variable {P : α → Prop} (h : ∀ b a b', D.decode b = (.ok (some a), b') → P a)
include h

theorem mem_drain (b : Bytes) : ∀ a ∈ items (D.drain b).1, P a := by
  induction b using drain_induction (D := D) with
  | item b a b' hd ih =>
    rw [drain_item hd, items_item]
    exact List.forall_mem_cons.2 ⟨h b a b' hd, ih⟩
  | other b hno =>
    rcases D.decode_cases b with ⟨a, b', hd⟩ | ⟨b', hd⟩ | ⟨e, b', hd⟩ | ⟨b', hd⟩
    · exact absurd hd (hno a b')
    · rw [drain_none hd]; simp
    · rw [drain_err hd]; simp
    · rw [drain_panic hd]; simp

theorem mem_feed : ∀ (chunks : List Bytes) (b : Bytes), ∀ a ∈ items (D.feed b chunks).1, P a := by
  intro chunks
  induction chunks with
  | nil => exact mem_drain h
  | cons c cs ih =>
    intro b
    cases hbuf : (D.drain b).2.buf with
    | none => rw [feed_panicked hbuf]; exact mem_drain h b
    | some w =>
      rw [feed_cons hbuf, items_append]
      exact List.forall_mem_append.2 ⟨mem_drain h b, ih _⟩

theorem mem_drainEof (left : ε) (b : Bytes) : ∀ a ∈ items (D.drainEof left b), P a := by
  induction b using drain_induction (D := D) with
  | item b a b' hd ih =>
    rw [drainEof]
    split <;> rename_i hd' <;> rw [hd] at hd' <;> simp at hd'
    obtain ⟨rfl, rfl⟩ := hd'
    rw [items_item]
    exact List.forall_mem_cons.2 ⟨h b a _ hd, ih⟩
  | other b hno =>
    rw [drainEof]
    split
    · rename_i hd; exact absurd hd (hno _ _)
    · split <;> simp
    · simp
    · simp

/-- What holds of every item `decode` gives holds of every item of a run. -/
theorem mem_run (left : ε) (chunks : List Bytes) : ∀ a ∈ items (D.run left chunks), P a := by
  rw [run, items_append]
  refine List.forall_mem_append.2 ⟨mem_feed h chunks [], ?_⟩
  unfold finish
  split
  · simp
  · exact mem_drainEof h left _

end

end Decoder
end Rust
