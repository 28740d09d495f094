import LogFence.Daemon.Handlers

/-!
# A client session (`logfence-daemon/src/session.rs:93-178`)

| here | there |
| --- | --- |
| `codec`                    | the two arms of `run_session` (`session.rs:111-120`) |
| `callOf`, `runWithCodec`   | `run_with_codec` (`:123`): what it calls, in order |
| `perform`                  | those calls carried out, each with the validator current at that moment |

A run is the list of the reads and how it ends. `decode_eof` is the default one of `tokio_util`: `decode`,
and an I/O error if bytes are left. The handlers return nothing to the loop, so the calls are determined
by the bytes alone, and what is forwarded by the calls and the validators.

* `session_isolates` — when one bad frame costs another;
* `session_messages_whole` — when every message handled is one whole body of the client;
* `session_forwards` — what reaches the forwarder, over any run;
* `octet_stream_round_trip` — encoded messages come back, however the stream is cut.
-/

namespace LogFence

open Rust Outcome Decoder

/-! ## The code -/

def codec (cfg : SessionConfig) : Decoder FrameError SyslogMessage :=
  match cfg.framing with
  | .octetCount => octetCountCodec cfg.maxMessageSize
  | .newline => delimiterCodec (byte '\n') cfg.maxMessageSize

inductive Call where
  | handleMessage (m : SyslogMessage)
  | reportRejection (report : SyslogMessage)
deriving DecidableEq, Repr

def callOf (env : Env) (cfg : SessionConfig) : Event FrameError SyslogMessage → Option Call
  | .item m => some (.handleMessage m)
  | .error e => (handleFrameError env cfg e).map .reportRejection

inductive Ending where
  /-- `read_buf` returns `0`. -/
  | eof
  /-- `read_buf` fails. -/
  | readError
deriving DecidableEq, Repr

def runWithCodec (env : Env) (cfg : SessionConfig) (chunks : List Bytes) (ending : Ending) : List Call :=
  let events :=
    match ending with
    | .eof => (codec cfg).run .io chunks
    | .readError => ((codec cfg).feed [] chunks).1
  events.filterMap (callOf env cfg)

/-- The calls carried out from the `i`-th on: `world i` is the validator in the watch channel at that call,
    and whether its forwarding succeeds. The result is what was forwarded, and the counters. -/
def perform (env : Env) (cfg : SessionConfig) (world : Nat → Validator × Bool) :
    Nat → Metrics → List Call → List SyslogMessage × Metrics
  | _, metrics, [] => ([], metrics)
  | i, metrics, .handleMessage m :: calls =>
    let (forwarded, metrics) := handleMessage env cfg (world i).1 (world i).2 m metrics
    let (rest, metrics) := perform env cfg world (i + 1) metrics calls
    (forwarded :: rest, metrics)
  | i, metrics, .reportRejection r :: calls =>
    let (rest, metrics) := perform env cfg world (i + 1) metrics calls
    (r :: rest, metrics)

/-! ## Calls -/

def handled (calls : List Call) : List SyslogMessage :=
  calls.filterMap fun
    | .handleMessage m => some m
    | .reportRejection _ => none

def rejections (calls : List Call) : List SyslogMessage :=
  calls.filterMap fun
    | .handleMessage _ => none
    | .reportRejection r => some r

@[simp] theorem handled_handleMessage (m : SyslogMessage) (calls : List Call) :
    handled (.handleMessage m :: calls) = m :: handled calls := rfl
@[simp] theorem handled_reportRejection (r : SyslogMessage) (calls : List Call) :
    handled (.reportRejection r :: calls) = handled calls := rfl
@[simp] theorem rejections_handleMessage (m : SyslogMessage) (calls : List Call) :
    rejections (.handleMessage m :: calls) = rejections calls := rfl
@[simp] theorem rejections_reportRejection (r : SyslogMessage) (calls : List Call) :
    rejections (.reportRejection r :: calls) = r :: rejections calls := rfl

theorem handled_calls (env : Env) (cfg : SessionConfig) : ∀ evs : List (Event FrameError SyslogMessage),
    handled (evs.filterMap (callOf env cfg)) = items evs
  | [] => rfl
  | .item m :: evs => by
    have ih := handled_calls env cfg evs
    simp [callOf, ih]
  | .error e :: evs => by
    have ih := handled_calls env cfg evs
    cases h : handleFrameError env cfg e <;> simp [callOf, h, ih]

theorem handled_add_rejections (calls : List Call) :
    (handled calls).length + (rejections calls).length = calls.length := by
  induction calls with
  | nil => rfl
  | cons c calls ih => cases c <;> simp <;> omega

/-! ## The client's frames -/

def frameOf : FramingMode → Bytes → Bytes
  | .octetCount => octetFrame
  | .newline => lineFrame (byte '\n')

/-- A body the client can frame. -/
def Carries : FramingMode → Bytes → Prop
  | .octetCount, _ => True
  | .newline, f => byte '\n' ∉ f

structure Fits (cfg : SessionConfig) (f : Bytes) : Prop where
  carries : Carries cfg.framing f
  size : f.length ≤ cfg.maxMessageSize
  alloc : f.length ≤ isizeMax

theorem length_octetFrame_lt {f : Bytes} (h : f.length ≤ isizeMax) : (octetFrame f).length < 2 ^ 64 := by
  unfold isizeMax at h
  have hdig : (decimal f.length).length ≤ 19 := length_decimal_le (by decide) (by omega)
  rw [length_octetFrame]
  omega

theorem codec_framing (cfg : SessionConfig) : Framing (codec cfg) (frameOf cfg.framing) (Fits cfg) readBody := by
  unfold codec
  cases hf : cfg.framing with
  | octetCount => exact (octet_framing cfg.maxMessageSize).mono fun f h => ⟨h.size, length_octetFrame_lt h.alloc⟩
  | newline =>
    refine (line_framing (byte '\n') cfg.maxMessageSize).mono fun f h => ⟨h.size, ?_⟩
    have := h.carries
    rwa [hf] at this

/-- The bytes of a frame that decide what becomes of it. -/
def shownOf (cfg : SessionConfig) (f : Bytes) : Nat :=
  match cfg.framing with
  | .octetCount => octetShown cfg.maxMessageSize f
  | .newline => lineShown cfg.maxMessageSize f

theorem codec_sound {cfg : SessionConfig} (hmax : cfg.maxMessageSize ≤ usizeMax) :
    SoundFraming (codec cfg) (frameOf cfg.framing) (Carries cfg.framing) (fun f => f.length ≤ cfg.maxMessageSize)
      readBody (shownOf cfg) := by
  unfold codec shownOf
  cases hf : cfg.framing with
  | octetCount => exact octet_sound hmax
  | newline => exact line_sound (byte '\n') cfg.maxMessageSize

/-! ## One bad frame and the others -/

/-- What a body is read as, if it parses. -/
def readOk (f : Bytes) : Option SyslogMessage :=
  match readBody f with
  | .ok m => some m
  | _ => none

/-- A body that does not parse is no I/O error. -/
theorem handleFrameError_readBody (env : Env) (cfg : SessionConfig) {f : Bytes} {e : FrameError}
    (h : readBody f = .err e) : ∃ r, handleFrameError env cfg e = some r := by
  rcases readBody_eq_err h with rfl | ⟨e', rfl⟩ <;> exact ⟨_, rfl⟩

/-- `handle_message` is called on the bodies that parse, in order, and `report_rejection` once for each of
    the others. -/
def Isolated (bodies : List Bytes) (calls : List Call) : Prop :=
  handled calls = bodies.filterMap readOk ∧ (rejections calls).length = bodies.countP fun f => (readOk f).isNone

theorem length_filterMap_readOk (bodies : List Bytes) :
    (bodies.filterMap readOk).length + bodies.countP (fun f => (readOk f).isNone) = bodies.length := by
  induction bodies with
  | nil => rfl
  | cons f bodies ih =>
    rw [List.filterMap_cons, List.countP_cons, List.length_cons]
    cases readOk f <;> simp <;> omega

/-- An isolated session makes one call for each body. -/
theorem Isolated.length {bodies : List Bytes} {calls : List Call} (h : Isolated bodies calls) :
    calls.length = bodies.length := by
  rw [← handled_add_rejections, h.1, h.2, length_filterMap_readOk]

theorem isolated_events (env : Env) (cfg : SessionConfig) : ∀ bodies : List Bytes, (∀ f ∈ bodies, readBody f ≠ .panic) →
    Isolated bodies ((bodies.filterMap fun f => eventOf (readBody f)).filterMap (callOf env cfg))
  | [], _ => ⟨rfl, rfl⟩
  | f :: bodies, hnp => by
    obtain ⟨ih1, ih2⟩ := isolated_events env cfg bodies fun g hg => hnp g (by simp [hg])
    rcases hr : readBody f with m | e | _
    · have hok : readOk f = some m := by rw [readOk, hr]
      simp [Isolated, hr, hok, callOf, ih1, ih2]
    · have hno : readOk f = none := by rw [readOk, hr]
      obtain ⟨r, hrep⟩ := handleFrameError_readBody env cfg hr
      simp [Isolated, hr, hno, callOf, hrep, ih1, ih2]
    · exact absurd hr (hnp f (by simp))

theorem finish_empty (cfg : SessionConfig) {s : Stop} (h : s.buf = some []) : (codec cfg).finish .io s = [] := by
  have hdec := (codec_framing cfg).empty
  simp only [finish, h]
  rw [drainEof]
  split <;> rename_i hd <;> rw [hdec] at hd <;> simp at hd
  simp [hd]

/-- A session that reads once, and then has nothing left, makes the calls of that read. -/
theorem runWithCodec_one_read (env : Env) {cfg : SessionConfig} {c : Bytes} {evs : List (Event FrameError SyslogMessage)}
    {stop : Stop} (hd : (codec cfg).drain c = (evs, stop)) (hstop : stop.buf = some [] ∨ stop.buf = none)
    (ending : Ending) : runWithCodec env cfg [c] ending = evs.filterMap (callOf env cfg) := by
  have hfeed : (codec cfg).feed [] [c] = (evs, stop) := by
    rw [feed_start (codec_framing cfg).empty]; exact hd
  have hfin : (codec cfg).finish .io stop = [] := by
    rcases hstop with h | h
    · exact finish_empty cfg h
    · simp [finish, h]
  unfold runWithCodec
  cases ending <;> simp [run, hfeed, hfin]

/-- One whole frame in one read. -/
theorem runWithCodec_frameOf (env : Env) {cfg : SessionConfig} {f : Bytes} (hfit : Fits cfg f) (ending : Ending) :
    runWithCodec env cfg [frameOf cfg.framing f] ending = (eventOf (readBody f)).toList.filterMap (callOf env cfg) := by
  have hwhole : (codec cfg).decode (frameOf cfg.framing f) = (some <$> readBody f, []) := by
    have hw := (codec_framing cfg).whole hfit []
    rwa [List.append_nil] at hw
  have hnil : (codec cfg).drain [] = ([], .wait []) := drain_none (codec_framing cfg).empty
  rcases hr : readBody f with m | e | _ <;> rw [hr] at hwhole
  · have hd := drain_item hwhole
    rw [hnil] at hd
    exact runWithCodec_one_read env hd (.inl rfl) ending
  · exact runWithCodec_one_read env (drain_err hwhole) (.inl rfl) ending
  · exact runWithCodec_one_read env (drain_panic hwhole) (.inr rfl) ending

/-- A read that `decode` refuses is cleared, whatever else is in it: the session goes on as if it began with the
    next one. -/
theorem handled_refused (env : Env) {cfg : SessionConfig} {c b : Bytes} {e : FrameError}
    (hdec : (codec cfg).decode c = (.err e, b)) (chunks : List Bytes) (ending : Ending) :
    handled (runWithCodec env cfg (c :: chunks) ending) = handled (runWithCodec env cfg chunks ending) := by
  have hempty := (codec_framing cfg).empty
  have hevents : ((codec cfg).drain c).1 = .error e :: ((codec cfg).drain []).1 := by
    rw [drain_err hdec, drain_none hempty]
  have hbuf : ((codec cfg).drain c).2.buf = ((codec cfg).drain []).2.buf := by
    rw [drain_err hdec, drain_none hempty]
    rfl
  obtain ⟨hfeed, hstop⟩ := feed_event hevents hbuf chunks
  simp only [runWithCodec, handled_calls]
  cases ending <;> simp [run, finish, feed_start hempty, hfeed, hstop]

/-- If every frame that fails ends a read, no frame costs another. -/
theorem isolated_of_aligned (env : Env) {cfg : SessionConfig} {bodies chunks : List Bytes}
    (hfit : ∀ f ∈ bodies, Fits cfg f) (hnp : ∀ f ∈ bodies, readBody f ≠ .panic)
    (hcut : chunks.flatten = stream (frameOf cfg.framing) bodies)
    (hal : Aligned (frameOf cfg.framing) readBody [] chunks bodies) :
    Isolated bodies (runWithCodec env cfg chunks .eof) := by
  obtain ⟨hev, hbuf⟩ := feed_frames (codec_framing cfg) chunks [] bodies (fun f hf => ⟨hfit f hf, hnp f hf⟩)
    (by rw [List.nil_append, hcut]) hal
  unfold runWithCodec
  simp only [run]
  rw [finish_empty cfg hbuf, List.append_nil, hev]
  exact isolated_events env cfg bodies hnp

/-- All of a list, or a first one that is not so. -/
theorem forall_or_first {α : Type} (P : α → Prop) (l : List α) :
    (∀ x ∈ l, P x) ∨ ∃ pre x post, l = pre ++ x :: post ∧ (∀ y ∈ pre, P y) ∧ ¬ P x := by
  induction l with
  | nil => left; simp
  | cons x l ih =>
    by_cases hx : P x
    · rcases ih with ih | ⟨pre, y, post, rfl, hpre, hy⟩
      · exact .inl (List.forall_mem_cons.2 ⟨hx, ih⟩)
      · exact .inr ⟨x :: pre, y, post, rfl, List.forall_mem_cons.2 ⟨hx, hpre⟩, hy⟩
    · exact .inr ⟨[], x, l, rfl, by simp, hx⟩

/-- In one read, a body that fails is the last that leads to a call. -/
theorem length_calls_one_read (env : Env) (cfg : SessionConfig) {pre post : List Bytes} {f : Bytes}
    (hfit : ∀ g ∈ pre ++ f :: post, Fits cfg g) (hpre : ∀ g ∈ pre, ∃ m, readBody g = .ok m)
    (hf : ∀ m, readBody f ≠ .ok m) :
    (runWithCodec env cfg [stream (frameOf cfg.framing) (pre ++ f :: post)] .eof).length ≤
      pre.length + (eventOf (readBody f)).toList.length := by
  have F := codec_framing cfg
  obtain ⟨hlen, hstop⟩ := drain_first_failure F (hfit f (by simp)) hf (stream (frameOf cfg.framing) post) pre
    fun g hg => ⟨hfit g (by simp [hg]), hpre g hg⟩
  have hfin : (codec cfg).finish .io
      ((codec cfg).drain (stream (frameOf cfg.framing) pre ++ (frameOf cfg.framing f ++
        stream (frameOf cfg.framing) post))).2 = [] := by
    rcases hstop with h | h
    · exact finish_empty cfg (by rw [h]; rfl)
    · rw [h]; rfl
  unfold runWithCodec
  simp only [run]
  rw [feed_start F.empty, feed, stream_append, stream_cons, hfin, List.append_nil, ← hlen]
  exact List.length_filterMap_le _ _

/-- **When one bad frame costs another.** Every frame is accounted for if each one that fails ends a read,
    so that nothing of a later frame is in the buffer that is then cleared; and it is so for every way to
    cut the stream exactly when all bodies but the last parse. -/
theorem session_isolates (env : Env) (cfg : SessionConfig) (bodies : List Bytes) (hfit : ∀ f ∈ bodies, Fits cfg f) :
    (∀ chunks, chunks.flatten = stream (frameOf cfg.framing) bodies → (∀ f ∈ bodies, readBody f ≠ .panic) →
      Aligned (frameOf cfg.framing) readBody [] chunks bodies → Isolated bodies (runWithCodec env cfg chunks .eof)) ∧
    ((∀ chunks, (∀ c ∈ chunks, c ≠ []) → chunks.flatten = stream (frameOf cfg.framing) bodies →
        Isolated bodies (runWithCodec env cfg chunks .eof)) ↔
      (∀ f ∈ bodies, readBody f ≠ .panic) ∧ ∀ f ∈ bodies.dropLast, ∃ m, readBody f = .ok m) := by
  refine ⟨fun chunks hcut hnp hal => isolated_of_aligned env hfit hnp hcut hal, ?_, ?_⟩
  · intro hall
    rcases forall_or_first (fun f => ∃ m, readBody f = .ok m) bodies with hok | ⟨pre, f, post, rfl, hpre, hnf⟩
    · refine ⟨fun f hf => ?_, fun f hf => hok f (List.dropLast_subset bodies hf)⟩
      obtain ⟨m, hm⟩ := hok f hf
      simp [hm]
    · -- all in one read: the calls stop at the first failure, so it is the last body
      have hf : ∀ m, readBody f ≠ .ok m := fun m hm => hnf ⟨m, hm⟩
      have hne : stream (frameOf cfg.framing) (pre ++ f :: post) ≠ [] := by
        have := (codec_framing cfg).nonempty f
        simp [this]
      have hone := hall [stream (frameOf cfg.framing) (pre ++ f :: post)] (by simpa using hne) (by simp)
      have hlen := length_calls_one_read env cfg hfit hpre hf
      rw [hone.length, List.length_append, List.length_cons] at hlen
      rcases hr : readBody f with m | e | _
      · exact absurd hr (hf m)
      · rw [hr] at hlen
        have hpost : post.length = 0 := by
          simp only [eventOf_err, Option.toList_some, List.length_singleton] at hlen; omega
        obtain rfl := List.length_eq_zero_iff.1 hpost
        have hdrop : (pre ++ [f]).dropLast = pre := List.dropLast_concat
        rw [hdrop]
        refine ⟨fun g hg => ?_, hpre⟩
        rcases List.mem_append.1 hg with hg | hg
        · obtain ⟨m, hm⟩ := hpre g hg
          simp [hm]
        · rw [List.mem_singleton.1 hg]; simp [hr]
      · rw [hr] at hlen
        simp only [eventOf, Option.toList_none, List.length_nil] at hlen
        omega
  · rintro ⟨hnp, hinit⟩ chunks - hcut
    refine isolated_of_aligned env hfit hnp hcut ?_
    -- only the last body can fail, and its frame ends the last read
    rintro pre f post rfl ⟨e, he⟩
    cases post with
    | nil => exact ⟨chunks.length, by rw [List.take_length, List.nil_append, hcut]⟩
    | cons g post =>
      obtain ⟨m, hm⟩ := hinit f (by simp)
      rw [he] at hm; cases hm

/-- A session for the examples below: lines or octet counts, at most `max` bytes a message. -/
def sampleConfig (framing : FramingMode) (max : Nat) : SessionConfig :=
  ⟨framing, max, .original, "gw".toList, "<anonymous>".toList⟩

def sampleEnv : Env := ⟨compact, 42, fun c => [c]⟩

def nilBody : Bytes := utf8 "<13>1 - - - - - -".toList

theorem readBody_nilBody : readBody nilBody = .ok (nilHeader.message ['-'] []) := by decide

theorem fits_sample {f : Bytes} (h : byte '\n' ∉ f) (hlen : f.length ≤ 64) : Fits (sampleConfig .newline 64) f :=
  ⟨h, hlen, by unfold isizeMax; omega⟩

theorem session_isolates_last :
    Isolated [nilBody, [byte 'x']] (runWithCodec sampleEnv (sampleConfig .newline 64)
      [nilBody, [byte '\n', byte 'x'], [byte '\n']] .eof) := by
  have hfit : ∀ f ∈ [nilBody, [byte 'x']], Fits (sampleConfig .newline 64) f := by
    intro f hf
    simp only [List.mem_cons, List.not_mem_nil, or_false] at hf
    rcases hf with rfl | rfl <;> exact fits_sample (by decide) (by decide)
  refine (session_isolates sampleEnv (sampleConfig .newline 64) _ hfit).2.2 ⟨?_, ?_⟩ _ (by decide) (by decide)
  · decide
  · intro f hf
    obtain rfl : f = nilBody := by simpa using hf
    exact ⟨_, readBody_nilBody⟩

/-- Two lines in one read: the first does not parse, and the second, which would, is never looked at. -/
theorem session_loses_frame :
    (∀ f ∈ [[byte 'x'], nilBody], Fits (sampleConfig .newline 64) f) ∧
      readBody nilBody = .ok (nilHeader.message ['-'] []) ∧
      handled (runWithCodec sampleEnv (sampleConfig .newline 64)
        [stream (lineFrame (byte '\n')) [[byte 'x'], nilBody]] .eof) = [] ∧
      ¬ Isolated [[byte 'x'], nilBody] (runWithCodec sampleEnv (sampleConfig .newline 64)
        [stream (lineFrame (byte '\n')) [[byte 'x'], nilBody]] .eof) := by
  have hfit : ∀ f ∈ [[byte 'x'], nilBody], Fits (sampleConfig .newline 64) f := by
    intro f hf
    simp only [List.mem_cons, List.not_mem_nil, or_false] at hf
    rcases hf with rfl | rfl <;> exact fits_sample (by decide) (by decide)
  obtain ⟨e, he⟩ : ∃ e, readBody [byte 'x'] = .err e := ⟨_, rfl⟩
  have hdec : (codec (sampleConfig .newline 64)).decode (stream (lineFrame (byte '\n')) [[byte 'x'], nilBody]) =
      (some <$> readBody [byte 'x'], stream (lineFrame (byte '\n')) [nilBody]) :=
    (codec_framing (sampleConfig .newline 64)).whole (hfit [byte 'x'] (by simp)) _
  have hlost : handled (runWithCodec sampleEnv (sampleConfig .newline 64)
      [stream (lineFrame (byte '\n')) [[byte 'x'], nilBody]] .eof) = [] := by
    rw [he] at hdec
    rw [runWithCodec_one_read sampleEnv (drain_err hdec) (.inl rfl) .eof, handled_calls]
    rfl
  refine ⟨hfit, readBody_nilBody, hlost, fun h => ?_⟩
  have hok : [[byte 'x'], nilBody].filterMap readOk ≠ [] := by decide
  exact hok (h.1.symm.trans hlost)

/-! ## Messages are whole bodies -/

/-- **No message is a part of a body**, if every read that shows a bad frame (one over the limit, or one that
    does not parse) ends where a frame ends: the messages handled are the readings of some bodies within the
    limit, in order. `rest` is what the client sent and the session has not read. -/
theorem session_messages_whole (env : Env) {cfg : SessionConfig} (hmax : cfg.maxMessageSize ≤ usizeMax)
    {bodies chunks : List Bytes} {rest : Bytes} (hframed : ∀ f ∈ bodies, Carries cfg.framing f)
    (hcut : chunks.flatten ++ rest = stream (frameOf cfg.framing) bodies)
    (hsync : ReadsResync (frameOf cfg.framing) (Bad (fun f => f.length ≤ cfg.maxMessageSize) readBody) (shownOf cfg)
      bodies chunks) (ending : Ending) :
    ∃ sub, sub.Sublist bodies ∧
      List.Forall₂ (fun m f => f.length ≤ cfg.maxMessageSize ∧ readBody f = .ok m)
        (handled (runWithCodec env cfg chunks ending)) sub := by
  have S := codec_sound hmax
  obtain ⟨sub, hsub, hitems⟩ := feed_sound_start S hframed hcut hsync
  refine ⟨sub, hsub, ?_⟩
  unfold runWithCodec
  rw [handled_calls]
  cases ending with
  | readError => exact hitems
  | eof =>
    simp only [run, items_append]
    rw [items_finish S, List.append_nil]
    exact hitems

/-- A line of twenty-one `x`. -/
def longLine : Bytes := List.replicate 21 (byte 'x')

theorem readsResync_sample :
    ReadsResync (lineFrame (byte '\n')) (Bad (fun f => f.length ≤ 20) readBody) (lineShown 20) [longLine, nilBody]
      [longLine ++ [byte '\n'], nilBody ++ [byte '\n']] := by
  rintro pre f post heq hbad k hk -
  rcases pre with _ | ⟨g, pre⟩
  · obtain ⟨rfl, rfl⟩ := List.cons.inj heq
    cases k with
    | zero => exact ⟨1, by decide⟩
    | succ k =>
      -- the first read shows the whole line
      exfalso
      have hshown : lineShown 20 longLine = 21 := by decide
      have hline : (longLine ++ [byte '\n']).length = 22 := by decide
      rw [hshown, List.take_succ_cons, List.flatten_cons, List.length_append, hline] at hk
      simp only [stream_nil, List.length_nil] at hk
      omega
  · obtain ⟨-, htail⟩ := List.cons.inj heq
    rcases pre with _ | ⟨g', pre⟩
    · obtain ⟨rfl, -⟩ := List.cons.inj htail
      exfalso
      rcases hbad with hsize | ⟨e, he⟩
      · exact hsize (by decide)
      · rw [readBody_nilBody] at he; cases he
    · simp at htail

theorem session_messages_whole_after_long_line :
    ∃ sub, sub.Sublist [longLine, nilBody] ∧
      List.Forall₂ (fun m f => f.length ≤ 20 ∧ readBody f = .ok m)
        (handled (runWithCodec sampleEnv (sampleConfig .newline 20)
          [longLine ++ [byte '\n'], nilBody ++ [byte '\n']] .eof)) sub := by
  have hmax : (sampleConfig .newline 20).maxMessageSize ≤ usizeMax := by unfold usizeMax; decide
  have hframed : ∀ f ∈ [longLine, nilBody], Carries (sampleConfig .newline 20).framing f := by
    intro f hf
    simp only [List.mem_cons, List.not_mem_nil, or_false] at hf
    rcases hf with rfl | rfl
    · show byte '\n' ∉ longLine; decide
    · show byte '\n' ∉ nilBody; decide
  have hcut : [longLine ++ [byte '\n'], nilBody ++ [byte '\n']].flatten ++ [] =
      stream (frameOf (sampleConfig .newline 20).framing) [longLine, nilBody] := by decide
  exact session_messages_whole sampleEnv hmax hframed hcut readsResync_sample .eof

/-- The tail of a line over the limit, and the inside of an octet-counted body over the limit, are each
    handled as a message. -/
theorem session_smuggles :
    ([longLine, nilBody ++ [byte '\n']].flatten = stream (lineFrame (byte '\n')) [longLine ++ nilBody] ∧
      handled (runWithCodec sampleEnv (sampleConfig .newline 20) [longLine, nilBody ++ [byte '\n']] .eof) =
        [nilHeader.message ['-'] []] ∧
      ¬ ∃ sub, sub.Sublist [longLine ++ nilBody] ∧
        List.Forall₂ (fun m f => f.length ≤ 20 ∧ readBody f = .ok m)
          (handled (runWithCodec sampleEnv (sampleConfig .newline 20) [longLine, nilBody ++ [byte '\n']] .eof)) sub) ∧
    utf8 "20 ".toList ++ octetFrame nilBody = octetFrame (octetFrame nilBody) ∧
      handled (runWithCodec sampleEnv (sampleConfig .octetCount 19) [utf8 "20 ".toList, octetFrame nilBody] .eof) =
        [nilHeader.message ['-'] []] := by
  -- the second read is a whole frame, and the first is refused for its length
  have hread : ∀ cfg : SessionConfig, Fits cfg nilBody →
      handled (runWithCodec sampleEnv cfg [frameOf cfg.framing nilBody] .eof) = [nilHeader.message ['-'] []] := by
    intro cfg hfit
    rw [runWithCodec_frameOf sampleEnv hfit, readBody_nilBody]
    rfl
  have halloc : nilBody.length ≤ isizeMax := by unfold isizeMax; decide
  have hline : (codec (sampleConfig .newline 20)).decode longLine = (.err (.messageTooLarge 20 21), longLine) := by decide
  have hcount : (codec (sampleConfig .octetCount 19)).decode (utf8 "20 ".toList) =
      (.err (.messageTooLarge 19 20), utf8 "20 ".toList) := by decide
  have hsmuggled : handled (runWithCodec sampleEnv (sampleConfig .newline 20) [longLine, nilBody ++ [byte '\n']] .eof) =
      [nilHeader.message ['-'] []] :=
    (handled_refused sampleEnv hline _ .eof).trans (hread (sampleConfig .newline 20)
      ⟨(by decide : byte '\n' ∉ nilBody), by decide, halloc⟩)
  refine ⟨⟨by decide, hsmuggled, ?_⟩, by decide, (handled_refused sampleEnv hcount _ .eof).trans
    (hread (sampleConfig .octetCount 19) ⟨trivial, by decide, halloc⟩)⟩
  rintro ⟨sub, hsub, hall⟩
  rw [hsmuggled] at hall
  obtain ⟨f, sub, ⟨hlen, -⟩, -, rfl⟩ := List.forall₂_cons_left_iff.1 hall
  have hmem : f ∈ [longLine ++ nilBody] := hsub.subset (by simp)
  rw [List.mem_singleton.1 hmem] at hlen
  revert hlen
  decide

/-! ## What a session forwards -/

/-- Every message that is decoded comes from `parse`. -/
theorem codec_wellFormed (cfg : SessionConfig) (b : Bytes) (m : SyslogMessage) (b' : Bytes)
    (h : (codec cfg).decode b = (.ok (some m), b')) : WellFormed m := by
  obtain ⟨f, hf⟩ : ∃ f, readBody f = .ok m := by
    unfold codec at h
    cases hframing : cfg.framing with
    | octetCount => rw [hframing] at h; exact octetDecode_reads h
    | newline => rw [hframing] at h; exact delimiterDecode_reads h
  obtain ⟨s, -, hp⟩ := readBody_eq_ok hf
  exact wellFormed_of_readsAs hp

theorem handled_wellFormed (env : Env) (cfg : SessionConfig) (chunks : List Bytes) (ending : Ending) :
    ∀ m ∈ handled (runWithCodec env cfg chunks ending), WellFormed m := by
  unfold runWithCodec
  rw [handled_calls]
  cases ending with
  | eof => exact mem_run (codec_wellFormed cfg) .io chunks
  | readError => exact mem_feed (codec_wellFormed cfg) chunks []

theorem mem_rejections {env : Env} {cfg : SessionConfig} {r : SyslogMessage} :
    ∀ {evs : List (Event FrameError SyslogMessage)}, r ∈ rejections (evs.filterMap (callOf env cfg)) →
      ∃ e, handleFrameError env cfg e = some r
  | [], h => by simp [rejections] at h
  | .item m :: evs, h => by
    have h' : r ∈ rejections (evs.filterMap (callOf env cfg)) := by simpa [callOf] using h
    exact mem_rejections h'
  | .error e :: evs, h => by
    cases he : handleFrameError env cfg e with
    | none =>
      have h' : r ∈ rejections (evs.filterMap (callOf env cfg)) := by simpa [callOf, he] using h
      exact mem_rejections h'
    | some r' =>
      have h' : r = r' ∨ r ∈ rejections (evs.filterMap (callOf env cfg)) := by simpa [callOf, he] using h
      rcases h' with rfl | h'
      · exact ⟨e, he⟩
      · exact mem_rejections h'

/-- What is forwarded is a report of the loop, or what `handle_message` makes of one decoded message with
    the validator of one moment. -/
theorem mem_perform {env : Env} {cfg : SessionConfig} {world : Nat → Validator × Bool} {f : SyslogMessage} :
    ∀ (calls : List Call) (i : Nat) (metrics : Metrics), f ∈ (perform env cfg world i metrics calls).1 →
      f ∈ rejections calls ∨
        ∃ m ∈ handled calls, ∃ j metrics', f = (handleMessage env cfg (world j).1 (world j).2 m metrics').1
  | [], _, _, h => by simp [perform] at h
  | .handleMessage m :: calls, i, metrics, h => by
    rcases List.mem_cons.1 h with rfl | h
    · exact .inr ⟨m, by simp, i, metrics, rfl⟩
    · rcases mem_perform calls _ _ h with h | ⟨m', hm', j, metrics', hf⟩
      · exact .inl h
      · exact .inr ⟨m', by simp [hm'], j, metrics', hf⟩
  | .reportRejection r :: calls, i, metrics, h => by
    rcases List.mem_cons.1 h with rfl | h
    · exact .inl (by simp)
    · rcases mem_perform calls _ _ h with h | ⟨m', hm', j, metrics', hf⟩
      · exact .inl (by simp [h])
      · exact .inr ⟨m', hm', j, metrics', hf⟩

/-- **Nothing reaches the forwarder uninspected**: over every run and any sequence of validators, what is
    forwarded is a rejection report, or a decoded message as the validator that accepted it prepares it, and
    the wire text of either is read back as such. -/
theorem session_forwards {env : Env} (hS : env.serde.Lawful) {cfg : SessionConfig} (horig : cfg.senderMode = .original)
    (hh : IsLocalHostname cfg.localHostname) (chunks : List Bytes) (ending : Ending)
    (world : Nat → Validator × Bool) (metrics : Metrics) :
    ∀ f ∈ (perform env cfg world 0 metrics (runWithCodec env cfg chunks ending)).1,
      IsReport env cfg f ∨ ∃ m ∈ handled (runWithCodec env cfg chunks ending), ∃ i, IsInspected env (world i).1 m f := by
  intro f hf
  rcases mem_perform _ _ _ hf with hrej | ⟨m, hm, j, metrics', rfl⟩
  · obtain ⟨e, he⟩ := mem_rejections hrej
    exact .inl (handleFrameError_reports hS hh he)
  · have hwf := handled_wellFormed env cfg chunks ending m hm
    rcases handleMessage_forwards hS hh horig (world j).1 (world j).2 hwf metrics' with h | h
    · exact .inl h
    · exact .inr ⟨m, hm, j, h⟩

/-- Any JSON object passes. -/
def anyObject : Validator := ⟨.off, [], none, .never, .never, false⟩

theorem session_forwards_two :
    (perform sampleEnv (sampleConfig .newline 64) (fun _ => (anyObject, true)) 0 ⟨0, 0, 0, 0⟩
        (runWithCodec sampleEnv (sampleConfig .newline 64) [utf8 "<13>1 - - - - - - {}\nx\n".toList] .eof)).1.length = 2 ∧
      ∀ f ∈ (perform sampleEnv (sampleConfig .newline 64) (fun _ => (anyObject, true)) 0 ⟨0, 0, 0, 0⟩
          (runWithCodec sampleEnv (sampleConfig .newline 64) [utf8 "<13>1 - - - - - - {}\nx\n".toList] .eof)).1,
        IsReport sampleEnv (sampleConfig .newline 64) f ∨
          ∃ m ∈ handled (runWithCodec sampleEnv (sampleConfig .newline 64) [utf8 "<13>1 - - - - - - {}\nx\n".toList] .eof),
            ∃ _ : Nat, IsInspected sampleEnv anyObject m f := by
  have hhost : IsLocalHostname (sampleConfig .newline 64).localHostname := .inr (by decide)
  exact ⟨by decide +kernel, session_forwards compact_lawful rfl hhost _ .eof (fun _ => (anyObject, true)) _⟩

/-! ## Encoded messages come back -/

theorem filterMap_map_eq {α β γ : Type} {g : β → Option γ} {h : α → β} {k : α → γ} :
    ∀ {l : List α}, (∀ x ∈ l, g (h x) = some (k x)) → (l.map h).filterMap g = l.map k
  | [], _ => rfl
  | x :: l, hx => by
    rw [List.map_cons, List.filterMap_cons_some (hx x (by simp)), filterMap_map_eq fun y hy => hx y (by simp [hy])]
    rfl

/-- **Octet-counted messages come back**, each once and in order, however their frames are cut; nothing is
    left over, and the three writers of the repository write the same frames. -/
theorem octet_stream_round_trip (env : Env) {cfg : SessionConfig} (hoct : cfg.framing = .octetCount)
    {msgs : List SyslogMessage} {bytes : Bytes} (hparse : ∀ m ∈ msgs, parse m.toStr = .ok m)
    (halloc : ∀ m ∈ msgs, len m.toStr ≤ isizeMax)
    (hencode : octetEncodeAll cfg.maxMessageSize msgs [] = .ok bytes) {chunks : List Bytes}
    (hcut : chunks.flatten = bytes) :
    runWithCodec env cfg chunks .eof = msgs.map .handleMessage ∧
      (codec cfg).run .io chunks = msgs.map .item ∧ ((codec cfg).feed [] chunks).2.buf = some [] ∧
      (msgs.map forwarderFrame).flatten = bytes ∧
      ∀ m ∈ msgs, transportFrame cfg.maxMessageSize m = .ok (forwarderFrame m) := by
  obtain ⟨hsize, hbytes⟩ := octetEncodeAll_eq_ok.1 hencode
  rw [List.nil_append] at hbytes
  have hread : ∀ m ∈ msgs, readBody (utf8 m.toStr) = .ok m := by
    intro m hm
    simp [readBody, hparse m hm]
  have hstream : stream (frameOf cfg.framing) (msgs.map fun m => utf8 m.toStr) = bytes := by
    rw [hoct, hbytes, stream, List.map_map]
    rfl
  have hbodies : ∀ f ∈ msgs.map (fun m => utf8 m.toStr), Fits cfg f ∧ readBody f ≠ .panic := by
    intro f hf
    obtain ⟨m, hm, rfl⟩ := List.mem_map.1 hf
    refine ⟨⟨by rw [hoct]; trivial, ?_, ?_⟩, by rw [hread m hm]; simp⟩
    · rw [length_utf8]; exact hsize m hm
    · rw [length_utf8]; exact halloc m hm
  have hal : Aligned (frameOf cfg.framing) readBody [] chunks (msgs.map fun m => utf8 m.toStr) := by
    rintro pre f post heq ⟨e, he⟩
    obtain ⟨m, hm, rfl⟩ := List.mem_map.1 (show f ∈ msgs.map (fun m => utf8 m.toStr) by rw [heq]; simp)
    rw [hread m hm] at he; cases he
  obtain ⟨hev, hbuf⟩ := feed_frames (codec_framing cfg) chunks [] _ hbodies (by rw [List.nil_append, hcut, hstream]) hal
  have hitems : ((codec cfg).feed [] chunks).1 = msgs.map .item := by
    rw [hev]
    refine filterMap_map_eq fun m hm => ?_
    rw [hread m hm, eventOf_ok]
  have hrun : (codec cfg).run .io chunks = msgs.map .item := by
    rw [run, finish_empty cfg hbuf, List.append_nil, hitems]
  refine ⟨?_, hrun, hbuf, ?_, fun m hm => ?_⟩
  · simp only [runWithCodec]
    rw [hrun]
    exact filterMap_map_eq fun m _ => rfl
  · rw [hbytes, List.map_congr_left fun m _ => forwarderFrame_eq m]
  · rw [forwarderFrame_eq, transportFrame_eq (hsize m hm)]

theorem octet_stream_round_trip_split :
    runWithCodec sampleEnv (sampleConfig .octetCount 64)
        [utf8 "1".toList, utf8 "7 <13>1 - - - - - -19 <13>1 - ".toList, utf8 "- - - - - x".toList] .eof =
      [.handleMessage (nilHeader.message ['-'] []), .handleMessage (nilHeader.message ['-'] ['x'])] := by
  have hencode : octetEncodeAll 64 [nilHeader.message ['-'] [], nilHeader.message ['-'] ['x']] [] =
      .ok (utf8 "17 <13>1 - - - - - -19 <13>1 - - - - - - x".toList) := by decide
  have hparse : ∀ m ∈ [nilHeader.message ['-'] [], nilHeader.message ['-'] ['x']], parse m.toStr = .ok m := by
    decide
  have halloc : ∀ m ∈ [nilHeader.message ['-'] [], nilHeader.message ['-'] ['x']], len m.toStr ≤ isizeMax := by
    unfold isizeMax; decide
  have hoct : (sampleConfig .octetCount 64).framing = .octetCount := rfl
  exact (octet_stream_round_trip sampleEnv hoct hparse halloc hencode (by decide)).1

end LogFence
