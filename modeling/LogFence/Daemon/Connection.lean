import LogFence.Daemon.Session
import LogFence.Rust.Slot

/-!
# Reading a connection

Both ends of a stream connection in one place. The writer is a `Slot` whose frames are messages: the client's
`UnixTransport` (`transport.rs:107`) or a clone of the daemon's forwarder (`forwarder.rs:240-258`), which write
the same frames. The reader decodes octet counts (`frame.rs:84`): rsyslog, or a session of a daemon
(`session.rs:123`).

`reads_connection` says what a reader gets of any connection the slot has opened, however its reads fall and
wherever the connection was cut off; `session_reads_connection` says what a session makes of it.
-/

namespace LogFence

open Rust Decoder

/-- A whole connection is read as its frames' messages, and a part of a frame as nothing yet. -/
theorem feed_wire {maxSize : Nat} {msgs : List SyslogMessage} {part : Bytes} {chunks : List Bytes}
    (hmsgs : ∀ f ∈ msgs, len f.toStr ≤ maxSize ∧ len f.toStr ≤ isizeMax ∧ ∃ r, parse f.toStr = .ok r)
    (hpart : part = [] ∨ ∃ f, len f.toStr ≤ maxSize ∧ len f.toStr ≤ isizeMax ∧ part <+: forwarderFrame f ∧
      part ≠ forwarderFrame f)
    (hcut : chunks.flatten = (msgs.map forwarderFrame).flatten ++ part) :
    List.Forall₂ (fun ev f => ∃ r, ev = .item r ∧ parse f.toStr = .ok r) ((octetCountCodec maxSize).feed [] chunks).1 msgs := by
  have F := octet_framing maxSize
  have hfits : ∀ f : SyslogMessage, len f.toStr ≤ maxSize → len f.toStr ≤ isizeMax →
      (utf8 f.toStr).length ≤ maxSize ∧ (octetFrame (utf8 f.toStr)).length < 2 ^ 64 :=
    fun f h1 h2 => ⟨by rw [length_utf8]; exact h1, length_octetFrame_lt (by rw [length_utf8]; exact h2)⟩
  have hread : ∀ f ∈ msgs, ∃ r, readBody (utf8 f.toStr) = .ok r ∧ parse f.toStr = .ok r := by
    intro f hf
    obtain ⟨-, -, r, hr⟩ := hmsgs f hf
    exact ⟨r, by simp [readBody, hr], hr⟩
  have hstream : (msgs.map forwarderFrame).flatten = stream octetFrame (msgs.map fun f => utf8 f.toStr) := by
    rw [stream, List.map_map, List.map_congr_left fun f _ => forwarderFrame_eq f]
    rfl
  have hbodies : ∀ b ∈ msgs.map (fun f => utf8 f.toStr),
      (b.length ≤ maxSize ∧ (octetFrame b).length < 2 ^ 64) ∧ readBody b ≠ .panic := by
    intro b hb
    obtain ⟨f, hf, rfl⟩ := List.mem_map.1 hb
    obtain ⟨r, hr, -⟩ := hread f hf
    exact ⟨hfits f (hmsgs f hf).1 (hmsgs f hf).2.1, by rw [hr]; simp⟩
  have hal : Aligned octetFrame readBody [] chunks (msgs.map fun f => utf8 f.toStr) := by
    rintro pre b post heq ⟨e, he⟩
    obtain ⟨f, hf, rfl⟩ := List.mem_map.1 (show b ∈ msgs.map (fun f => utf8 f.toStr) by rw [heq]; simp)
    obtain ⟨r, hr, -⟩ := hread f hf
    rw [hr] at he
    cases he
  obtain ⟨p₀, cs, hp, hev, -⟩ := feed_frames_then F part chunks [] _ hbodies (by rw [List.nil_append, hcut, hstream]) hal
  -- a part of a frame waits for the rest
  have hwait : ((octetCountCodec maxSize).feed p₀ cs).1 = [] := by
    refine feed_waits (p := part) (fun b u hb => .inl ?_) cs p₀ hp
    rcases hpart with rfl | ⟨f, h1, h2, ⟨q, hq⟩, hne⟩
    · obtain ⟨rfl, -⟩ := List.append_eq_nil_iff.1 hb.symm
      exact F.empty
    · rw [forwarderFrame_eq] at hq hne
      refine F.part (hfits f h1 h2) (q := u ++ q) ?_ ?_
      · rw [← hq, hb, List.append_assoc]
      · intro hnil
        obtain ⟨rfl, rfl⟩ := List.append_eq_nil_iff.1 hnil
        exact hne (by rw [← hq, List.append_nil])
  rw [hev, hwait, List.append_nil, List.filterMap_map]
  clear hstream hbodies hal hcut hev hmsgs
  induction msgs with
  | nil => exact .nil
  | cons f msgs ih =>
    obtain ⟨r, hr, hp⟩ := hread f (by simp)
    rw [List.filterMap_cons_some (b := .item r) (by simp [hr])]
    exact .cons ⟨r, rfl, hp⟩ (ih fun g hg => hread g (by simp [hg]))

theorem forall₂_through {α β γ : Type} {R : α → β → Prop} {S : β → γ → Prop} {a : List α} {b : List β} {c : List γ}
    (h : List.Forall₂ R a b) (h' : List.Forall₂ S b c) : List.Forall₂ (fun x z => ∃ y, R x y ∧ S y z) a c := by
  induction h generalizing c with
  | nil => cases h'; exact .nil
  | cons hr _ ih =>
    cases h' with
    | cons hs h' => exact .cons ⟨_, hr, hs⟩ (ih h')

section
variable {sent : List SyslogMessage} {slot : Slot UInt8}

theorem frame_of_sent (hframes : slot.frames = sent.map forwarderFrame) {k : Nat} {f : SyslogMessage} (h : sent[k]? = some f) :
    slot.frame k = forwarderFrame f := by
  rw [Slot.frame, hframes, List.getElem?_map, h]
  rfl

variable (hinv : slot.Inv) (hframes : slot.frames = sent.map forwarderFrame)
include hinv hframes

/-- **A connection is read as the messages that stand whole on it**, in the order they were sent. -/
theorem reads_connection (hparse : ∀ f ∈ sent, ∃ r, parse f.toStr = .ok r) {maxSize : Nat}
    (hsize : ∀ f ∈ sent, len f.toStr ≤ maxSize ∧ len f.toStr ≤ isizeMax) {n : Nat} {segs : List (Nat × Bytes)}
    (hc : slot.Conn n segs) {chunks : List Bytes} (hcut : chunks.flatten = Slot.wire segs) :
    ∃ ks : List Nat, ks.Pairwise (· < ·) ∧ (∀ k, k ∈ ks ↔ (k, slot.frame k) ∈ segs) ∧
      List.Forall₂ (fun ev k => ∃ f r, sent[k]? = some f ∧ ev = .item r ∧ parse f.toStr = .ok r)
        ((octetCountCodec maxSize).feed [] chunks).1 ks := by
  obtain ⟨ks, part, hwire, hsorted, hks, hpart⟩ := hinv.wire_eq hc
  refine ⟨ks, hsorted, hks, ?_⟩
  have hlt : ∀ k < slot.frames.length, ∃ f ∈ sent, sent[k]? = some f := by
    intro k hk
    rw [hframes, List.length_map] at hk
    exact ⟨sent[k], List.getElem_mem hk, List.getElem?_eq_getElem hk⟩
  -- the messages of the whole frames
  have hmsg : ∀ k ∈ ks, ∃ f ∈ sent, sent[k]? = some f := by
    intro k hk
    have hseg := hinv.segment n segs hc _ ((hks k).1 hk)
    exact hlt k (hinv.bounded k (Slot.mem_order_of_segment hseg))
  obtain ⟨msgs, hmsgs⟩ : ∃ msgs, List.Forall₂ (fun f k => f ∈ sent ∧ sent[k]? = some f) msgs ks := by
    clear hwire hsorted hks hpart
    induction ks with
    | nil => exact ⟨[], .nil⟩
    | cons k ks ih =>
      rw [List.forall_mem_cons] at hmsg
      obtain ⟨f, hf, hkf⟩ := hmsg.1
      obtain ⟨msgs, hmsgs⟩ := ih hmsg.2
      exact ⟨f :: msgs, .cons ⟨hf, hkf⟩ hmsgs⟩
  have hmem : ∀ f ∈ msgs, f ∈ sent := by
    intro f hf
    obtain ⟨i, hi, rfl⟩ := List.getElem_of_mem hf
    exact (hmsgs.get hi (by rw [← hmsgs.length_eq]; exact hi)).1
  have hwhole : ks.map slot.frame = msgs.map forwarderFrame := by
    clear hwire hsorted hks hpart hmem hmsg
    induction hmsgs with
    | nil => rfl
    | cons h _ ih => rw [List.map_cons, List.map_cons, frame_of_sent hframes h.2, ih]
  have hpart' : part = [] ∨ ∃ f, len f.toStr ≤ maxSize ∧ len f.toStr ≤ isizeMax ∧ part <+: forwarderFrame f ∧
      part ≠ forwarderFrame f := by
    refine hpart.imp id ?_
    rintro ⟨k, hk, -, hpre, hne⟩
    obtain ⟨f, hf, hkf⟩ := hlt k hk
    rw [frame_of_sent hframes hkf] at hpre hne
    exact ⟨f, (hsize f hf).1, (hsize f hf).2, hpre, hne⟩
  have hread := feed_wire (fun f hf => ⟨(hsize f (hmem f hf)).1, (hsize f (hmem f hf)).2, hparse f (hmem f hf)⟩) hpart'
    (by rw [hcut, hwire, hwhole])
  refine (forall₂_through hread hmsgs).imp ?_
  rintro ev k ⟨f, ⟨r, hev, hr⟩, -, hkf⟩
  exact ⟨f, r, hkf, hev, hr⟩

/-- **A session handles them**, each once and in order, and what it was cut off in leads to no message. -/
theorem session_reads_connection (env : Env) {cfg : SessionConfig} (hoct : cfg.framing = .octetCount)
    (hmax : cfg.maxMessageSize ≤ usizeMax) (hparse : ∀ f ∈ sent, ∃ r, parse f.toStr = .ok r)
    (hsize : ∀ f ∈ sent, len f.toStr ≤ cfg.maxMessageSize ∧ len f.toStr ≤ isizeMax) {n : Nat} {segs : List (Nat × Bytes)}
    (hc : slot.Conn n segs) {chunks : List Bytes} (hcut : chunks.flatten = Slot.wire segs) (ending : Ending) :
    ∃ ks : List Nat, ks.Pairwise (· < ·) ∧ (∀ k, k ∈ ks ↔ (k, slot.frame k) ∈ segs) ∧
      List.Forall₂ (fun r k => ∃ f, sent[k]? = some f ∧ parse f.toStr = .ok r)
        (handled (runWithCodec env cfg chunks ending)) ks := by
  obtain ⟨ks, hsorted, hks, hall⟩ := reads_connection hinv hframes hparse hsize hc hcut
  refine ⟨ks, hsorted, hks, ?_⟩
  have hcodec : codec cfg = octetCountCodec cfg.maxMessageSize := by simp only [codec, hoct]
  have hitems : handled (runWithCodec env cfg chunks ending) = items ((codec cfg).feed [] chunks).1 := by
    cases ending with
    | readError => simp only [runWithCodec, handled_calls]
    | eof => simp only [runWithCodec, handled_calls, run, items_append, items_finish (codec_sound hmax), List.append_nil]
  rw [hitems, hcodec]
  generalize ((octetCountCodec cfg.maxMessageSize).feed [] chunks).1 = events at hall
  clear hsorted hks hitems
  induction hall with
  | nil => exact .nil
  | cons h _ ih =>
    obtain ⟨f, r, hkf, rfl, hr⟩ := h
    exact .cons ⟨f, hkf, hr⟩ ih

end

end LogFence
