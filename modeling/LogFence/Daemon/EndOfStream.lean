import LogFence.Daemon.Session

/-!
# A connection that closes inside a frame (`session.rs:160-176`, `:250-287`)

At end of stream `run_with_codec` calls the default `decode_eof` of `tokio_util`, which makes bytes that are no
frame an I/O error; `handle_frame_error` takes an I/O error for one of the infrastructure and reports nothing.
So the end of the stream never leads to a call (`runWithCodec_eof`), and the frame a client did not finish is
reported only if `decode` refused it before: `session_reports_incomplete_iff` says when.
-/

namespace LogFence

open Rust Outcome Decoder

/-! ## The end of the stream -/

theorem handleFrameError_io (env : Env) (cfg : SessionConfig) : handleFrameError env cfg .io = none := rfl

theorem handleFrameError_reported (env : Env) (cfg : SessionConfig) {e : FrameError} (h : e ≠ .io) :
    ∃ r, handleFrameError env cfg e = some r := by
  cases e with
  | io => exact absurd rfl h
  | _ => exact ⟨_, rfl⟩

/-- **Closing the connection leads to no call**, whatever bytes are left. -/
theorem runWithCodec_eof (env : Env) {cfg : SessionConfig} (hmax : cfg.maxMessageSize ≤ usizeMax)
    (chunks : List Bytes) : runWithCodec env cfg chunks .eof = runWithCodec env cfg chunks .readError := by
  simp only [runWithCodec, run]
  rcases finish_cases (codec_sound hmax) .io [] chunks with h | h <;> rw [h, List.filterMap_append]
  · rw [List.filterMap_nil, List.append_nil]
  · simp [callOf, handleFrameError_io]

/-- A read that is no frame yet leads to no call. -/
theorem runWithCodec_waits (env : Env) {cfg : SessionConfig} (hmax : cfg.maxMessageSize ≤ usizeMax) {c b : Bytes}
    (hdec : (codec cfg).decode c = (.ok none, b)) : runWithCodec env cfg [c] .eof = [] := by
  rw [runWithCodec_eof env hmax]
  simp only [runWithCodec]
  rw [feed_start (codec_framing cfg).empty, feed, drain_none hdec, List.filterMap_nil]

/-! ## Incomplete frames -/

/-- A non-empty part of a frame, without its end: a line without its newline, a length or a part of one, a
    length and a part of its body. -/
def Incomplete (framing : FramingMode) (p : Bytes) : Prop :=
  p ≠ [] ∧ ∃ f q, Carries framing f ∧ q ≠ [] ∧ frameOf framing f = p ++ q

/-- What is there of the frame is over the limit already: a line too long, more digits than a length may have,
    or a length beyond the limit and its SP. -/
def Oversized (cfg : SessionConfig) (p : Bytes) : Prop :=
  match cfg.framing with
  | .newline => p.length > cfg.maxMessageSize
  | .octetCount => (byte ' ' ∉ p ∧ p.length > maxDigits) ∨
      ∃ n r, p = utf8 (decimal n) ++ byte ' ' :: r ∧ n > cfg.maxMessageSize

theorem prefixed_unique {n k : Nat} {r t : Bytes}
    (h : utf8 (decimal n) ++ byte ' ' :: r = utf8 (decimal k) ++ byte ' ' :: t) : n = k :=
  decimal_injective (utf8_injective (cut_unique (space_notMem_decimal n) (space_notMem_decimal k) h).1)

/-- What `decode` can make of a part `b` of an incomplete frame `p`. -/
inductive PartDecode (D : Decoder FrameError SyslogMessage) (oversized : Prop) (p b : Bytes) : Prop
  | waits : (oversized → b ≠ p) → D.decode b = (.ok none, b) → PartDecode D oversized p b
  | refuses {e b'} : oversized → e ≠ .io → D.decode b = (.err e, b') → PartDecode D oversized p b
  | panics {b'} : ¬ oversized → D.decode b = (.panic, b') → PartDecode D oversized p b

theorem line_part {delimiter : UInt8} {maxSize : Nat} {p b u : Bytes} (hp : delimiter ∉ p) (hb : p = b ++ u) :
    PartDecode (delimiterCodec delimiter maxSize) (p.length > maxSize) p b := by
  have hopen : delimiter ∉ b := fun hm => hp (by rw [hb]; simp [hm])
  have hdec := @delimiterDecode_open _ maxSize _ hopen
  by_cases hlong : b.length > maxSize
  · rw [if_pos hlong] at hdec
    exact .refuses (by rw [hb, List.length_append]; omega) (by simp) hdec
  · rw [if_neg hlong] at hdec
    exact .waits (fun hover heq => hlong (heq ▸ hover)) hdec

/-- A part of a length, inside a part of a length. -/
theorem digits_part {maxSize : Nat} {p b u : Bytes} (hp : byte ' ' ∉ p) (hb : p = b ++ u) :
    PartDecode (octetCountCodec maxSize) (p.length > maxDigits) p b := by
  have hopen : byte ' ' ∉ b := fun hm => hp (by rw [hb]; simp [hm])
  have hdec := @octetDecode_digits maxSize _ hopen
  by_cases hlong : b.length > maxDigits
  · rw [if_pos hlong] at hdec
    exact .refuses (by rw [hb, List.length_append]; omega) (by simp) hdec
  · rw [if_neg hlong] at hdec
    exact .waits (fun hover heq => hlong (heq ▸ hover)) hdec

/-- A part of a length, its SP and a part of the body. -/
theorem counted_part {maxSize n : Nat} (hmax : maxSize ≤ usizeMax) {r b u : Bytes} (hr : r.length < n)
    (hb : utf8 (decimal n) ++ byte ' ' :: r = b ++ u) :
    PartDecode (octetCountCodec maxSize) (n > maxSize) (utf8 (decimal n) ++ byte ' ' :: r) b := by
  by_cases hsp : byte ' ' ∈ b
  · -- the length is there
    obtain ⟨a, r', rfl, ha⟩ := List.eq_append_cons_of_mem hsp
    rw [List.append_assoc, List.cons_append] at hb
    obtain ⟨rfl, rfl⟩ := cut_unique (space_notMem_decimal n) ha hb
    rw [List.length_append] at hr
    have hdec := octetDecode_prefixed maxSize n r'
    by_cases hover : n > maxSize
    · by_cases hu : n > usizeMax
      · rw [if_pos hu] at hdec
        exact .refuses hover (by simp) hdec
      · rw [if_neg hu, if_pos hover] at hdec
        exact .refuses hover (by simp) hdec
    · rw [if_neg (by omega), if_neg hover] at hdec
      split at hdec
      · exact .waits (fun h => absurd h hover) hdec
      · rw [if_neg (by omega)] at hdec
        exact .panics hover hdec
  · have hdec := @octetDecode_digits maxSize _ hsp
    have hne : b ≠ utf8 (decimal n) ++ byte ' ' :: r := by rintro rfl; exact hsp (by simp)
    by_cases hlong : b.length > maxDigits
    · rw [if_pos hlong] at hdec
      have hle : b.length ≤ (decimal n).length := by
        rw [← len_decimal, ← length_utf8]
        exact length_le_of_open hsp hb.symm
      exact .refuses (lt_of_maxDigits_lt hmax (Nat.lt_of_lt_of_le hlong hle)) (by simp) hdec
    · rw [if_neg hlong] at hdec
      exact .waits (fun _ => hne) hdec

/-- **What each part of an incomplete frame decodes to.** -/
theorem codec_part {cfg : SessionConfig} (hmax : cfg.maxMessageSize ≤ usizeMax) {p : Bytes}
    (hp : Incomplete cfg.framing p) {b u : Bytes} (hb : p = b ++ u) : PartDecode (codec cfg) (Oversized cfg p) p b := by
  obtain ⟨-, f, q, hf, hq, heq⟩ := hp
  unfold codec Oversized
  cases hframing : cfg.framing with
  | newline =>
    rw [hframing] at heq hf
    obtain ⟨q', rfl⟩ : ∃ q', f = p ++ q' := by
      rcases List.append_eq_append_iff.1 heq with ⟨w, hw, hq'⟩ | ⟨w, hw, -⟩
      · cases w with
        | nil => exact ⟨[], by simpa using hw.symm⟩
        | cons x w => simp at hq'; exact absurd hq'.2.2 hq
      · exact ⟨w, hw⟩
    exact line_part (fun hm => hf (by simp [hm])) hb
  | octetCount =>
    rw [hframing] at heq
    have hpart : p ++ q = octetFrame f ++ [] := by rw [List.append_nil]; exact heq.symm
    rcases octet_part_cases hpart with ⟨w, hw⟩ | ⟨r, rfl, hr⟩
    · have hopen : byte ' ' ∉ p := fun hm => space_notMem_decimal f.length (by rw [hw]; simp [hm])
      have hover : ((byte ' ' ∉ p ∧ p.length > maxDigits) ∨
          ∃ n r, p = utf8 (decimal n) ++ byte ' ' :: r ∧ n > cfg.maxMessageSize) ↔ p.length > maxDigits := by
        constructor
        · rintro (h | ⟨n, r, rfl, -⟩)
          · exact h.2
          · exact absurd (by simp) hopen
        · exact fun h => .inl ⟨hopen, h⟩
      simp only [hover]
      exact digits_part hopen hb
    · have hover : ((byte ' ' ∉ utf8 (decimal f.length) ++ byte ' ' :: r ∧
            (utf8 (decimal f.length) ++ byte ' ' :: r).length > maxDigits) ∨
          ∃ n t, utf8 (decimal f.length) ++ byte ' ' :: r = utf8 (decimal n) ++ byte ' ' :: t ∧
            n > cfg.maxMessageSize) ↔ f.length > cfg.maxMessageSize := by
        constructor
        · rintro (h | ⟨n, t, ht, hn⟩)
          · exact absurd (by simp) h.1
          · rw [prefixed_unique ht]; exact hn
        · exact fun h => .inr ⟨_, r, rfl, h⟩
      have hlt : r.length < f.length := by
        have h1 := congrArg List.length hr
        have h2 := List.length_pos_of_ne_nil hq
        simp only [List.length_append, List.append_nil] at h1
        omega
      simp only [hover]
      exact counted_part hmax hlt hb

/-! ## Reports -/

/-- A body that is over the limit or is not read. -/
def isDropped (cfg : SessionConfig) (f : Bytes) : Bool := decide (f.length > cfg.maxMessageSize) || (readOk f).isNone

/-- There is a report for each body that is dropped, and one more. -/
def Reported (cfg : SessionConfig) (bodies : List Bytes) (calls : List Call) : Prop :=
  bodies.countP (isDropped cfg) < (rejections calls).length

theorem rejections_append (x y : List Call) : rejections (x ++ y) = rejections x ++ rejections y := by
  simp [rejections]

theorem isDropped_eq_false {cfg : SessionConfig} {f : Bytes} :
    isDropped cfg f = false ↔ f.length ≤ cfg.maxMessageSize ∧ ∃ m, readBody f = .ok m := by
  unfold isDropped readOk
  rcases readBody f with m | e | _ <;> simp

/-- The rejections of a run over framed bodies and an incomplete frame. -/
theorem rejections_then (env : Env) {cfg : SessionConfig} (hmax : cfg.maxMessageSize ≤ usizeMax)
    {bodies chunks : List Bytes} {p : Bytes} (hfit : ∀ f ∈ bodies, Fits cfg f) (hnp : ∀ f ∈ bodies, readBody f ≠ .panic)
    (hcut : chunks.flatten = stream (frameOf cfg.framing) bodies ++ p)
    (hal : Aligned (frameOf cfg.framing) readBody [] chunks bodies) :
    ∃ p₀ cs, p₀ ++ cs.flatten = p ∧ (rejections (runWithCodec env cfg chunks .eof)).length =
      bodies.countP (isDropped cfg) +
        (rejections (((codec cfg).feed p₀ cs).1.filterMap (callOf env cfg))).length := by
  obtain ⟨p₀, cs, hp₀, hev, -⟩ := feed_frames_then (codec_framing cfg) p chunks [] bodies
    (fun f hf => ⟨hfit f hf, hnp f hf⟩) (by rw [List.nil_append, hcut]) hal
  refine ⟨p₀, cs, hp₀, ?_⟩
  have hcount : bodies.countP (isDropped cfg) = bodies.countP fun f => (readOk f).isNone := by
    refine List.countP_congr fun f hf => ?_
    have := (hfit f hf).size
    simp [isDropped, this]
  rw [runWithCodec_eof env hmax]
  simp only [runWithCodec]
  rw [hev, List.filterMap_append, rejections_append, List.length_append, hcount, (isolated_events env cfg bodies hnp).2]

/-- If every frame that fails ends a read, the incomplete frame is reported exactly if it is over the limit. -/
theorem reported_of_aligned (env : Env) {cfg : SessionConfig} (hmax : cfg.maxMessageSize ≤ usizeMax)
    {bodies chunks : List Bytes} {p : Bytes} (hp : Incomplete cfg.framing p) (hfit : ∀ f ∈ bodies, Fits cfg f)
    (hnp : ∀ f ∈ bodies, readBody f ≠ .panic) (hcut : chunks.flatten = stream (frameOf cfg.framing) bodies ++ p)
    (hal : Aligned (frameOf cfg.framing) readBody [] chunks bodies) :
    Reported cfg bodies (runWithCodec env cfg chunks .eof) ↔ Oversized cfg p := by
  obtain ⟨p₀, cs, hp₀, hlen⟩ := rejections_then env hmax hfit hnp hcut hal
  unfold Reported
  rw [hlen]
  by_cases hover : Oversized cfg p
  · -- a part of it is refused
    have hparts : ∀ b u, p = b ++ u → (codec cfg).decode b = (.ok none, b) ∨
        ∃ e b', e ≠ FrameError.io ∧ (codec cfg).decode b = (.err e, b') := by
      intro b u hb
      rcases codec_part hmax hp hb with ⟨-, hd⟩ | ⟨-, he, hd⟩ | ⟨hno, -⟩
      · exact .inl hd
      · exact .inr ⟨_, _, he, hd⟩
      · exact absurd hover hno
    have hwhole : (codec cfg).decode p ≠ (.ok none, p) := by
      rcases codec_part hmax hp (List.append_nil p).symm with ⟨hne, -⟩ | ⟨-, -, hd⟩ | ⟨hno, -⟩
      · exact absurd rfl (hne hover)
      · rw [hd]; simp
      · exact absurd hover hno
    obtain ⟨e, evs, he, hev⟩ := feed_refuses hparts hwhole cs p₀ hp₀
    obtain ⟨r, hr⟩ := handleFrameError_reported env cfg he
    have hcall : callOf env cfg (.error e) = some (.reportRejection r) := by rw [callOf, hr]; rfl
    rw [hev, List.filterMap_cons, hcall]
    simp only [rejections_reportRejection, List.length_cons, hover, iff_true]
    omega
  · -- no part of it is
    have hparts : ∀ b u, p = b ++ u → (codec cfg).decode b = (.ok none, b) ∨ ∃ b', (codec cfg).decode b = (.panic, b') := by
      intro b u hb
      rcases codec_part hmax hp hb with ⟨-, hd⟩ | ⟨hyes, -, -⟩ | ⟨-, hd⟩
      · exact .inl hd
      · exact absurd hyes hover
      · exact .inr ⟨_, hd⟩
    rw [feed_waits hparts cs p₀ hp₀]
    simp [hover, rejections]

/-- A frame that is dropped, and what follows it in the same read. -/
theorem codec_dropped {cfg : SessionConfig} {f : Bytes} (hcarries : Carries cfg.framing f) (halloc : f.length ≤ isizeMax)
    (hdrop : isDropped cfg f = true) (r : Bytes) :
    (∃ e b', (codec cfg).decode (frameOf cfg.framing f ++ r) = (.err e, b')) ∨
      ∃ b', (codec cfg).decode (frameOf cfg.framing f ++ r) = (.panic, b') := by
  by_cases hsize : f.length ≤ cfg.maxMessageSize
  · have hwhole := (codec_framing cfg).whole ⟨hcarries, hsize, halloc⟩ r
    rw [hwhole]
    rcases hr : readBody f with m | e | _
    · rw [isDropped_eq_false.2 ⟨hsize, m, hr⟩] at hdrop
      cases hdrop
    · exact .inl ⟨e, r, rfl⟩
    · exact .inr ⟨r, rfl⟩
  · left
    unfold codec
    cases hf : cfg.framing with
    | octetCount =>
      have hdec : (octetDecode cfg.maxMessageSize (octetFrame f ++ r)).1 =
          .err (.messageTooLarge cfg.maxMessageSize f.length) := by
        rw [octetFrame, List.append_assoc, List.cons_append, octetDecode_prefixed,
          if_neg (by unfold usizeMax; unfold isizeMax at halloc; omega), if_pos (by omega)]
      exact ⟨_, (octetDecode cfg.maxMessageSize (octetFrame f ++ r)).2, Prod.ext hdec rfl⟩
    | newline =>
      rw [hf] at hcarries
      have hdec : (delimiterDecode (byte '\n') cfg.maxMessageSize (lineFrame (byte '\n') f ++ r)).1 =
          .err (.messageTooLarge cfg.maxMessageSize f.length) := by
        rw [lineFrame_append, delimiterDecode_line hcarries, if_pos (by omega)]
      exact ⟨_, (delimiterDecode (byte '\n') cfg.maxMessageSize (lineFrame (byte '\n') f ++ r)).2, Prod.ext hdec rfl⟩

/-- In one read, what follows the first body that is dropped leads to no report. -/
theorem not_reported_one_read (env : Env) {cfg : SessionConfig} (hmax : cfg.maxMessageSize ≤ usizeMax)
    {pre post : List Bytes} {f p : Bytes} (hpre : ∀ g ∈ pre, Fits cfg g ∧ ∃ m, readBody g = .ok m)
    (hcarries : Carries cfg.framing f) (halloc : f.length ≤ isizeMax) (hdrop : isDropped cfg f = true) :
    ¬ Reported cfg (pre ++ f :: post)
      (runWithCodec env cfg [stream (frameOf cfg.framing) (pre ++ f :: post) ++ p] .eof) := by
  have hitems := drain_items (codec_framing cfg) (frameOf cfg.framing f ++ (stream (frameOf cfg.framing) post ++ p)) pre hpre
  have hpreCalls := (isolated_events env cfg pre fun g hg => by obtain ⟨-, m, hm⟩ := hpre g hg; simp [hm]).2
  have hnone : pre.countP (fun g => (readOk g).isNone) = 0 := by
    refine List.countP_eq_zero.2 fun g hg => ?_
    obtain ⟨-, m, hm⟩ := hpre g hg
    simp [readOk, hm]
  have hcount : 1 ≤ (pre ++ f :: post).countP (isDropped cfg) := by
    rw [List.countP_append, List.countP_cons, hdrop]
    simp only [if_true]; omega
  have hone : (rejections (((codec cfg).drain
      (frameOf cfg.framing f ++ (stream (frameOf cfg.framing) post ++ p))).1.filterMap (callOf env cfg))).length ≤ 1 := by
    rcases codec_dropped hcarries halloc hdrop (stream (frameOf cfg.framing) post ++ p) with ⟨e, b', hd⟩ | ⟨b', hd⟩
    · rw [drain_err hd]
      cases h : handleFrameError env cfg e <;> simp [callOf, h, rejections]
    · rw [drain_panic hd]
      simp [rejections]
  unfold Reported
  rw [runWithCodec_eof env hmax]
  simp only [runWithCodec]
  rw [feed_start (codec_framing cfg).empty, feed, stream_append, stream_cons, List.append_assoc, List.append_assoc,
    hitems, List.filterMap_append, rejections_append, List.length_append, hpreCalls, hnone]
  omega

/-- **When an incomplete frame is reported.** In a run in which each frame that fails ends a read: exactly if
    what came of the incomplete one is over the limit. For every way to cut the stream: if, besides, all bodies
    before it are within the limit and parse. -/
theorem session_reports_incomplete_iff (env : Env) {cfg : SessionConfig} (hmax : cfg.maxMessageSize ≤ usizeMax)
    {bodies : List Bytes} (hframed : ∀ f ∈ bodies, Carries cfg.framing f ∧ f.length ≤ isizeMax) {p : Bytes}
    (hp : Incomplete cfg.framing p) :
    (∀ chunks, chunks.flatten = stream (frameOf cfg.framing) bodies ++ p →
      (∀ f ∈ bodies, f.length ≤ cfg.maxMessageSize ∧ readBody f ≠ .panic) →
      Aligned (frameOf cfg.framing) readBody [] chunks bodies →
      (Reported cfg bodies (runWithCodec env cfg chunks .eof) ↔ Oversized cfg p)) ∧
    ((∀ chunks, (∀ c ∈ chunks, c ≠ []) → chunks.flatten = stream (frameOf cfg.framing) bodies ++ p →
        Reported cfg bodies (runWithCodec env cfg chunks .eof)) ↔
      (∀ f ∈ bodies, f.length ≤ cfg.maxMessageSize ∧ ∃ m, readBody f = .ok m) ∧ Oversized cfg p) := by
  have hrun : ∀ chunks, chunks.flatten = stream (frameOf cfg.framing) bodies ++ p →
      (∀ f ∈ bodies, f.length ≤ cfg.maxMessageSize ∧ readBody f ≠ .panic) →
      Aligned (frameOf cfg.framing) readBody [] chunks bodies →
      (Reported cfg bodies (runWithCodec env cfg chunks .eof) ↔ Oversized cfg p) := by
    intro chunks hcut hok hal
    exact reported_of_aligned env hmax hp (fun f hf => ⟨(hframed f hf).1, (hok f hf).1, (hframed f hf).2⟩)
      (fun f hf => (hok f hf).2) hcut hal
  -- without a body that is dropped, every run is such a run
  have hread : (∀ f ∈ bodies, f.length ≤ cfg.maxMessageSize ∧ ∃ m, readBody f = .ok m) → ∀ chunks,
      chunks.flatten = stream (frameOf cfg.framing) bodies ++ p →
      (Reported cfg bodies (runWithCodec env cfg chunks .eof) ↔ Oversized cfg p) := by
    intro hgood chunks hcut
    refine hrun chunks hcut (fun f hf => ?_) ?_
    · obtain ⟨hsize, m, hm⟩ := hgood f hf
      exact ⟨hsize, by simp [hm]⟩
    · rintro pre f post rfl ⟨e, he⟩
      obtain ⟨-, m, hm⟩ := hgood f (by simp)
      rw [he] at hm; cases hm
  refine ⟨hrun, ?_, ?_⟩
  · intro hall
    have hne : stream (frameOf cfg.framing) bodies ++ p ≠ [] := by simp [hp.1]
    have hone := hall [stream (frameOf cfg.framing) bodies ++ p] (by simpa using hne) (by simp)
    rcases forall_or_first (fun f => isDropped cfg f = false) bodies with hgood | ⟨pre, f, post, rfl, hpre, hf⟩
    · have hgood' : ∀ f ∈ bodies, f.length ≤ cfg.maxMessageSize ∧ ∃ m, readBody f = .ok m :=
        fun f hf => isDropped_eq_false.1 (hgood f hf)
      exact ⟨hgood', (hread hgood' _ (by simp)).1 hone⟩
    · refine absurd hone (not_reported_one_read env hmax (fun g hg => ?_) (hframed f (by simp)).1 (hframed f (by simp)).2
        (by simpa using hf))
      obtain ⟨hsize, hm⟩ := isDropped_eq_false.1 (hpre g hg)
      exact ⟨⟨(hframed g (by simp [hg])).1, hsize, (hframed g (by simp [hg])).2⟩, hm⟩
  · rintro ⟨hgood, hover⟩ chunks - hcut
    exact (hread hgood chunks hcut).2 hover

/-- A message and a line that is too long, without its end. -/
theorem session_reports_long_line :
    Incomplete .newline longLine ∧
      Reported (sampleConfig .newline 20) [nilBody]
        (runWithCodec sampleEnv (sampleConfig .newline 20) [nilBody, byte '\n' :: longLine] .eof) := by
  have hp : Incomplete .newline longLine :=
    ⟨by decide, longLine, [byte '\n'], (by decide : byte '\n' ∉ longLine), by simp, rfl⟩
  have hframed : ∀ f ∈ [nilBody], Carries (sampleConfig .newline 20).framing f ∧ f.length ≤ isizeMax := by
    intro f hf
    obtain rfl := List.mem_singleton.1 hf
    exact ⟨(by decide : byte '\n' ∉ nilBody), by unfold isizeMax; decide⟩
  have hmax : (sampleConfig .newline 20).maxMessageSize ≤ usizeMax := by unfold usizeMax; decide
  refine ⟨hp, (session_reports_incomplete_iff sampleEnv hmax hframed hp).2.2 ⟨?_, ?_⟩ _ (by decide)
    (by decide)⟩
  · intro f hf
    obtain rfl := List.mem_singleton.1 hf
    exact ⟨by decide, _, readBody_nilBody⟩
  · show longLine.length > 20; decide

/-- A whole message without its newline, a body cut short and a bare length: no call at all. -/
theorem session_loses_incomplete :
    runWithCodec sampleEnv (sampleConfig .newline 64) [nilBody] .eof = [] ∧
      runWithCodec sampleEnv (sampleConfig .octetCount 64) [utf8 "17 <13>1 - -".toList] .eof = [] ∧
      runWithCodec sampleEnv (sampleConfig .octetCount 64) [utf8 "17".toList] .eof = [] ∧
      Incomplete .newline nilBody ∧
      ¬ Reported (sampleConfig .newline 64) [] (runWithCodec sampleEnv (sampleConfig .newline 64) [nilBody] .eof) := by
  have hmax : ∀ framing, (sampleConfig framing 64).maxMessageSize ≤ usizeMax := fun _ => (by decide : 64 ≤ usizeMax)
  have hline : (codec (sampleConfig .newline 64)).decode nilBody = (.ok none, nilBody) := by decide
  have hbody : (codec (sampleConfig .octetCount 64)).decode (utf8 "17 <13>1 - -".toList) =
      (.ok none, utf8 "17 <13>1 - -".toList) := by decide
  have hlength : (codec (sampleConfig .octetCount 64)).decode (utf8 "17".toList) = (.ok none, utf8 "17".toList) := by decide
  have hrun : runWithCodec sampleEnv (sampleConfig .newline 64) [nilBody] .eof = [] :=
    runWithCodec_waits sampleEnv (hmax _) hline
  refine ⟨hrun, runWithCodec_waits sampleEnv (hmax _) hbody, runWithCodec_waits sampleEnv (hmax _) hlength, ?_, fun h => ?_⟩
  · exact ⟨by decide, nilBody, [byte '\n'], (by decide : byte '\n' ∉ nilBody), by simp, rfl⟩
  · rw [hrun] at h
    exact Nat.lt_irrefl 0 h

end LogFence
