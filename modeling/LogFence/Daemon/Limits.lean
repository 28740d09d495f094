import LogFence.Daemon.Gateway

/-!
# What one client can make the daemon hold and send

A session reads until it has a whole frame. Here is how much it ever holds, and how many messages it sends
for what it reads, whatever the bytes are and however the reads fall.

The newline codec holds no more than `max_message_size` bytes between two reads. The octet-count codec looks for
the SP in the whole buffer, and refuses digits beyond `MAX_DIGITS` only where there is no SP at all
(`frame.rs:84-97`): a length with leading zeros may fill a whole read, so the bound grows with the read.

A message that is handled has cost at least `minFrame` bytes. A frame that is rejected may have cost one byte,
but it takes the rest of the read with it (`buf.clear()`), so there is at most one report for each read.
-/

namespace LogFence

open Rust Decoder Outcome

/-! ## A message is at least sixteen bytes -/

/-- A frame of the shortest message, `<0>1 - - - - - -`, with one byte around it. -/
def minFrame : Nat := 17

theorem one_le_length_orNil {validate : Str → Outcome ParseError Unit} (hv : validate [] ≠ .ok ()) {x : Option Str}
    (h : FieldOk validate x) : 1 ≤ (orNil x).length := by
  cases x with
  | none => decide
  | some v =>
    refine List.length_pos_iff.2 ?_
    rintro rfl
    exact hv (h _ rfl).2

theorem length_isHeader {h : Str} {hd : Header} (hh : IsHeader h hd) : 15 ≤ h.length := by
  obtain ⟨pri, hpri, hv, rfl⟩ := hh
  have hprint : ∀ field max, validatePrintusasciiField [] field max ≠ .ok () := by
    intro field max
    simp [validatePrintusasciiField, validateToken]
  have h0 : 1 ≤ pri.length := by
    refine List.length_pos_iff.2 ?_
    rintro rfl
    cases hpri
  have h1 := one_le_length_orNil (by decide) hv.timestamp
  have h2 := one_le_length_orNil (hprint _ _) hv.hostname
  have h3 := one_le_length_orNil (hprint _ _) hv.appName
  have h4 := one_le_length_orNil (hprint _ _) hv.procId
  have h5 := one_le_length_orNil (hprint _ _) hv.msgId
  simp only [Header.text, List.length_append, List.length_cons, List.length_nil]
  omega

theorem length_le_len (s : Str) : s.length ≤ len s := by
  induction s with
  | nil => exact Nat.zero_le _
  | cons c s ih =>
    have := Char.utf8Size_pos c
    rw [len_cons, List.length_cons]
    omega

theorem length_readBody {f : Bytes} {m : SyslogMessage} (h : readBody f = .ok m) : 16 ≤ f.length := by
  obtain ⟨raw, rfl, hp⟩ := readBody_eq_ok h
  obtain ⟨⟨h, rest, htrim, hh, hcut, -⟩, -⟩ := parse_eq_ok.1 hp
  have hsd : 1 ≤ m.structuredData.length := by
    refine List.length_pos_iff.2 ?_
    rcases hcut with hsd | ⟨hne, -⟩
    · rw [hsd]; simp
    · exact hne
  have hlen := congrArg List.length htrim
  have hraw : (trimEndMatches isLineEnd raw).length ≤ raw.length := (List.rdropWhile_prefix _ _).length_le
  have hhead := length_isHeader hh
  have hbytes := length_le_len raw
  rw [List.length_append, List.length_append] at hlen
  rw [length_utf8]
  omega

/-! ## The codecs -/

theorem octetDecode_cost {maxSize : Nat} {b b' : Bytes} {m : SyslogMessage}
    (h : octetDecode maxSize b = (.ok (some m), b')) : b'.length + minFrame ≤ b.length := by
  rcases octetDecode_cases maxSize b with ⟨-, hno⟩ | hp | ⟨spPos, msgLen, hle, hd⟩
  · rw [h] at hno; exact absurd rfl (hno m)
  · rw [h] at hp; cases hp
  · obtain ⟨hread, hrest⟩ := Prod.mk.inj (h.symm.trans hd)
    have hbody := length_readBody (map_some_eq_ok hread.symm)
    rw [hrest]
    simp only [minFrame, List.length_drop, List.length_take] at hbody ⊢
    omega

theorem delimiterDecode_cost {delimiter : UInt8} {maxSize : Nat} {b b' : Bytes} {m : SyslogMessage}
    (h : delimiterDecode delimiter maxSize b = (.ok (some m), b')) : b'.length + minFrame ≤ b.length := by
  rcases delimiter_cases delimiter b with hb | ⟨f, r, hf, rfl⟩
  · rw [delimiterDecode_open hb] at h
    split at h <;> simp at h
  · rw [delimiterDecode_line hf] at h
    split at h
    · simp at h
    · obtain ⟨hread, hrest⟩ := Prod.mk.inj h
      have hbody := length_readBody (map_some_eq_ok hread)
      rw [← hrest, List.length_append, List.length_cons]
      unfold minFrame
      omega

theorem codec_costs (cfg : SessionConfig) : Costs (codec cfg) minFrame := by
  have hempty := (codec_framing cfg).empty
  unfold codec at hempty ⊢
  cases hf : cfg.framing with
  | octetCount => rw [hf] at hempty; exact ⟨octetDecode_cost, octetDecode_keeps, hempty⟩
  | newline => rw [hf] at hempty; exact ⟨delimiterDecode_cost, delimiterDecode_keeps, hempty⟩

/-- What an octet-counted session waits behind: its SP, if it has come, is within `MAX_DIGITS` and one read. -/
structure OctetHeld (maxSize n : Nat) (b : Bytes) : Prop where
  waits : octetDecode maxSize b = (.ok none, b)
  head : ∀ a r, b = a ++ byte ' ' :: r → byte ' ' ∉ a → a.length ≤ maxDigits + n

theorem octetHeld_length {maxSize n : Nat} {b : Bytes} (h : OctetHeld maxSize n b) : b.length ≤ maxDigits + n + maxSize := by
  by_cases hb : byte ' ' ∈ b
  · obtain ⟨a, r, rfl, ha⟩ := List.eq_append_cons_of_mem hb
    have hhead := h.head a r rfl ha
    have hwait := h.waits
    rw [octetDecode_sp maxSize ha] at hwait
    split at hwait
    · simp at hwait
    · split at hwait
      · simp at hwait
      · rename_i k _ hk
        split at hwait
        · rename_i hlt
          have hmod := Nat.mod_le (a.length + 1 + k) (2 ^ 64)
          rw [List.length_append, List.length_cons]
          omega
        · split at hwait
          · exact absurd (Prod.mk.inj hwait).1 (map_some_ne_none _)
          · simp at hwait
  · have hwait := h.waits
    rw [octetDecode_digits hb] at hwait
    split at hwait
    · simp at hwait
    · omega

/-- An item takes all that waited for it. -/
theorem octetDecode_takes {maxSize : Nat} {b x b' : Bytes} {m : SyslogMessage} (hwait : octetDecode maxSize b = (.ok none, b))
    (h : octetDecode maxSize (b ++ x) = (.ok (some m), b')) : b'.length ≤ x.length := by
  by_cases hb : byte ' ' ∈ b
  · -- the length was there, and the body was not
    obtain ⟨a, r, rfl, ha⟩ := List.eq_append_cons_of_mem hb
    rw [List.append_assoc, List.cons_append, octetDecode_sp maxSize ha] at h
    rw [octetDecode_sp maxSize ha] at hwait
    split at hwait
    · simp at hwait
    · rename_i k hk
      simp only [hk] at h
      split at hwait
      · simp at hwait
      · rename_i hmax
        rw [if_neg hmax] at h
        split at hwait
        · rename_i hlt
          have hmod := Nat.mod_le (a.length + 1 + k) (2 ^ 64)
          split at h
          · simp at h
          · split at h
            · rw [← (Prod.mk.inj h).2, List.length_drop, List.length_append]
              omega
            · simp at h
        · split at hwait
          · exact absurd (Prod.mk.inj hwait).1 (map_some_ne_none _)
          · simp at hwait
  · by_cases hx : byte ' ' ∈ b ++ x
    · obtain ⟨a, r, heq, ha⟩ := List.eq_append_cons_of_mem hx
      have hle := length_le_of_open hb heq
      have hlen := congrArg List.length heq
      rw [heq, octetDecode_sp maxSize ha] at h
      rw [List.length_append, List.length_append, List.length_cons] at hlen
      split at h
      · simp at h
      · split at h
        · simp at h
        · split at h
          · simp at h
          · split at h
            · rw [← (Prod.mk.inj h).2, List.length_drop]
              omega
            · simp at h
    · rw [octetDecode_digits hx] at h
      split at h <;> simp at h

theorem octetHeld_next {maxSize n : Nat} {b x w : Bytes} (h : OctetHeld maxSize n b) (hx : x.length ≤ n)
    (hstop : ((octetCountCodec maxSize).drain (b ++ x)).2 = .wait w) : OctetHeld maxSize n w := by
  have C : Costs (octetCountCodec maxSize) minFrame := ⟨octetDecode_cost, octetDecode_keeps, octet_empty maxSize⟩
  obtain ⟨hwait, -⟩ := drain_waits C hstop
  refine ⟨hwait, fun a r hw ha => ?_⟩
  have hshort : a.length < w.length := by
    rw [hw, List.length_append, List.length_cons]
    omega
  rcases (octetCountCodec maxSize).decode_cases (b ++ x) with ⟨m, b', hd⟩ | ⟨b', hd⟩ | ⟨e, b', hd⟩ | ⟨b', hd⟩
  · -- what is left is of the last read
    rw [drain_item hd] at hstop
    have hleft := (drain_waits C hstop).2
    have htakes := octetDecode_takes h.waits hd
    omega
  · -- nothing was decoded: the SP was there, or came with the last read
    rw [drain_none hd] at hstop
    obtain rfl := octetDecode_keeps hd
    cases hstop
    by_cases hb : byte ' ' ∈ b
    · obtain ⟨a', r', rfl, ha'⟩ := List.eq_append_cons_of_mem hb
      rw [List.append_assoc, List.cons_append] at hw
      have := length_le_of_open ha hw.symm
      have := h.head a' r' rfl ha'
      omega
    · have hdigits := h.waits
      rw [octetDecode_digits hb] at hdigits
      split at hdigits
      · simp at hdigits
      · rw [List.length_append] at hshort
        omega
  · rw [drain_err hd] at hstop; cases hstop
  · rw [drain_panic hd] at hstop; cases hstop

/-! ## A session -/

/-- What a session waits behind, if no read gives more than `n` bytes. -/
def WaitsBehind (cfg : SessionConfig) (n : Nat) (b : Bytes) : Prop :=
  match cfg.framing with
  | .octetCount => OctetHeld cfg.maxMessageSize n b
  | .newline => b.length ≤ cfg.maxMessageSize

/-- The most it holds between two reads. -/
def holdLimit (cfg : SessionConfig) (n : Nat) : Nat :=
  match cfg.framing with
  | .octetCount => maxDigits + n + cfg.maxMessageSize
  | .newline => cfg.maxMessageSize

theorem waitsBehind_length {cfg : SessionConfig} {n : Nat} {b : Bytes} (h : WaitsBehind cfg n b) : b.length ≤ holdLimit cfg n := by
  unfold WaitsBehind at h
  unfold holdLimit
  cases hf : cfg.framing with
  | octetCount => rw [hf] at h; exact octetHeld_length h
  | newline => rw [hf] at h; exact h

theorem delimiter_waits {delimiter : UInt8} {maxSize : Nat} {w : Bytes}
    (h : delimiterDecode delimiter maxSize w = (.ok none, w)) : w.length ≤ maxSize := by
  rcases delimiter_cases delimiter w with hw | ⟨f, r, hf, rfl⟩
  · rw [delimiterDecode_open hw] at h
    split at h
    · simp at h
    · omega
  · rw [delimiterDecode_line hf] at h
    split at h
    · simp at h
    · exact absurd (Prod.mk.inj h).1 (map_some_ne_none _)

theorem waitsBehind_waits (cfg : SessionConfig) (n : Nat) : Loop.Waits (codec cfg) n (WaitsBehind cfg n) := by
  have C := codec_costs cfg
  unfold codec at C ⊢
  cases hf : cfg.framing with
  | octetCount =>
    have heq : WaitsBehind cfg n = OctetHeld cfg.maxMessageSize n := by funext b; simp only [WaitsBehind, hf]
    rw [heq]
    refine ⟨⟨octet_empty _, fun a r h => ?_⟩, octetHeld_next⟩
    simp at h
  | newline =>
    have heq : WaitsBehind cfg n = fun b => b.length ≤ cfg.maxMessageSize := by funext b; simp only [WaitsBehind, hf]
    rw [hf] at C
    rw [heq]
    exact ⟨Nat.zero_le _, fun _ _ hstop => delimiter_waits (drain_waits C hstop).1⟩

theorem length_rejections_le (env : Env) (cfg : SessionConfig) (evs : List (Event FrameError SyslogMessage)) :
    (rejections (evs.filterMap (callOf env cfg))).length ≤ (errors evs).length := by
  induction evs with
  | nil => exact Nat.zero_le _
  | cons ev evs ih =>
    cases ev with
    | item m => simpa [callOf, errors] using ih
    | error e =>
      cases he : handleFrameError env cfg e with
      | none =>
        simp only [callOf, he, List.filterMap_cons, errors, Option.map_none, List.length_cons] at ih ⊢
        omega
      | some r =>
        simp only [callOf, he, List.filterMap_cons, errors, Option.map_some, List.length_cons, rejections_reportRejection] at ih ⊢
        omega

/-- What a session holds, and what it has sent, against what it has read. -/
structure SessionLimits (cfg : SessionConfig) (loop : Loop FrameError SyslogMessage) (n : Nat) (calls : List Call)
    (sent : List SyslogMessage) : Prop where
  waiting : ∀ b, loop.place = .reading b → b.length ≤ holdLimit cfg n
  buffer : loop.buffer.length ≤ holdLimit cfg n + n
  messages : minFrame * (handled calls).length ≤ loop.chunks.flatten.length
  reports : (rejections calls).length ≤ loop.chunks.length + 1
  sent : sent.length ≤ loop.chunks.flatten.length / minFrame + loop.chunks.length + 1

/-- While its reads are short, the loop holds what it should. -/
def Feed.Holds (n : Nat) : Feed → Prop
  | .stream cfg loop => (∀ c ∈ loop.chunks, c.length ≤ n) → loop.Holds (codec cfg) n (WaitsBehind cfg n)
  | .worker _ _ _ => True

theorem Feed.Holds.step {env : Env} {n : Nat} {f f' : Feed} {a : FeedAction} {call : Option (SessionConfig × Call)}
    (hf : f.Holds n) (h : f.step env a = some (f', call)) : f'.Holds n := by
  cases f with
  | worker baseCfg received alive =>
    cases alive <;> cases a <;> simp only [Feed.step, reduceCtorEq] at h
    split at h
    · cases h; trivial
    · rename_i e _
      cases e
    · cases h; trivial
  | stream cfg loop =>
    cases a with
    | recv d => cases h
    | loop a =>
      obtain ⟨⟨loop', e⟩, hstep, heq⟩ := Option.map_eq_some_iff.1 h
      cases heq
      intro hn
      refine Loop.Holds.step (codec_costs cfg) (waitsBehind_waits cfg n) (hf fun c hc => hn c ?_) hstep hn
      exact (Loop.step_chunks hstep).subset hc

/-- **What a client can make a session hold and send.** In every run, if no read gives more than `n` bytes. -/
theorem session_limits {env : Env} {configPath : Str} {rsyslog : RsyslogConfig} {validator : Validator} {g : GatewayState}
    (h : (gateway env configPath rsyslog validator).Reachable g) {l : Lane} (hl : l ∈ g.lanes) {cfg : SessionConfig}
    {loop : Loop FrameError SyslogMessage} (hfeed : l.feed = .stream cfg loop) {n : Nat}
    (hn : ∀ c ∈ loop.chunks, c.length ≤ n) : SessionLimits cfg loop n (l.task.made.map Prod.snd) l.sent := by
  have hok := (gateway_ok h).lanes l hl
  have hloop : loop.Ok (codec cfg) .io := by
    have := hok.feed
    rwa [hfeed] at this
  have hholds : loop.Holds (codec cfg) n (WaitsBehind cfg n) := by
    have hall := gateway_feeds (P := Feed.Holds n) (fun cfg _ => Loop.Holds.start (waitsBehind_waits cfg n)) (fun _ => trivial)
      (fun f a f' call hf hstep => hf.step hstep) h l hl
    rw [hfeed] at hall
    exact hall hn
  -- the calls are made of the beginning of the run's events
  obtain ⟨hitems, herrors⟩ := run_cost (codec_costs cfg) FrameError.io loop.chunks
  have hevents := hloop.run_extends.sublist
  have hmade : (l.task.made.map Prod.snd).Sublist (loop.events.filterMap (callOf env cfg)) := by
    have hcalls := hok.calls
    rw [hfeed, Feed.calls] at hcalls
    have hmap := congrArg (List.map Prod.snd) hcalls
    rw [List.map_append, List.map_map] at hmap
    simp only [Function.comp_def, List.map_id'] at hmap
    rw [← hmap]
    exact List.sublist_append_left _ _
  have hmessages : (handled (l.task.made.map Prod.snd)).length ≤ (items ((codec cfg).run .io loop.chunks)).length := by
    calc (handled (l.task.made.map Prod.snd)).length
        ≤ (handled (loop.events.filterMap (callOf env cfg))).length := (hmade.filterMap _).length_le
      _ = (items loop.events).length := by rw [handled_calls]
      _ ≤ _ := (hevents.filterMap _).length_le
  have hreports : (rejections (l.task.made.map Prod.snd)).length ≤ loop.chunks.length + 1 := by
    calc (rejections (l.task.made.map Prod.snd)).length
        ≤ (rejections (loop.events.filterMap (callOf env cfg))).length := (hmade.filterMap _).length_le
      _ ≤ (errors loop.events).length := length_rejections_le env cfg _
      _ ≤ (errors ((codec cfg).run .io loop.chunks)).length := (hevents.filterMap _).length_le
      _ ≤ _ := herrors
  have hcost : minFrame * (handled (l.task.made.map Prod.snd)).length ≤ loop.chunks.flatten.length :=
    (Nat.mul_le_mul_left _ hmessages).trans hitems
  refine ⟨fun b hp => ?_, hholds.length_le fun b hb => waitsBehind_length hb, hcost, hreports, ?_⟩
  · simp only [Loop.Holds, hp] at hholds
    exact waitsBehind_length hholds
  · obtain ⟨answered, hanswered, hans⟩ := hok.answered
    have hsum := handled_add_rejections (l.task.made.map Prod.snd)
    have hdiv : (handled (l.task.made.map Prod.snd)).length ≤ loop.chunks.flatten.length / minFrame :=
      (Nat.le_div_iff_mul_le (by decide)).2 (by rw [Nat.mul_comm]; exact hcost)
    have hlen : l.sent.length ≤ l.task.made.length := by
      rw [← hans.length_eq, hanswered, List.length_append]
      omega
    rw [List.length_map] at hsum
    omega

/-- Where a session reads, and what it has read. -/
def Lane.reads? (l : Lane) : Option (Place × List Bytes) :=
  match l.feed with
  | .stream _ loop => some (loop.place, loop.chunks)
  | .worker _ _ _ => none

/-- A length of three digits in front of a body that has not come: the session holds all of it. -/
def heldBack : List GatewayAction :=
  .session (sampleConfig .octetCount 64) :: ([.decode, .read (utf8 "064 <13>1".toList), .decode].map fun a => .lane 0 (.input (.loop a)))

theorem session_limits_held :
    ∃ g l cfg loop, (sampleGateway streamOutput).run (sampleGateway streamOutput).start heldBack = some g ∧
      l ∈ g.lanes ∧ l.feed = .stream cfg loop ∧
      loop.place = .reading (utf8 "064 <13>1".toList) ∧ SessionLimits cfg loop 9 (l.task.made.map Prod.snd) l.sent := by
  have hrun : ((sampleGateway streamOutput).run (sampleGateway streamOutput).start heldBack).map (fun g => g.lanes.map Lane.reads?) =
      some [some (.reading (utf8 "064 <13>1".toList), [utf8 "064 <13>1".toList])] := by decide
  obtain ⟨g, hg, hlanes⟩ := Option.map_eq_some_iff.1 hrun
  obtain ⟨l, hl, hreads⟩ := List.mem_map.1 (show some _ ∈ g.lanes.map Lane.reads? by rw [hlanes]; exact List.mem_singleton_self _)
  cases hfeed : l.feed with
  | worker => simp [Lane.reads?, hfeed] at hreads
  | stream cfg loop =>
    simp only [Lane.reads?, hfeed, Option.some.injEq, Prod.mk.injEq] at hreads
    refine ⟨g, l, cfg, loop, hg, hl, hfeed, hreads.1, session_limits ⟨_, hg⟩ hl hfeed fun c hc => ?_⟩
    rw [hreads.2] at hc
    rw [List.mem_singleton.1 hc]
    decide

end LogFence
