import LogFence.Proto.Parse
import LogFence.Rust.Decoder

/-!
# The framing codecs (`logfence-proto/src/frame.rs`)

| here | there |
| --- | --- |
| `FrameError`                     | `FrameError` (`frame.rs:24`) |
| `octetDecode`, `octetEncode`     | `OctetCountCodec::decode` (`:84`), `encode` (`:126`) |
| `delimiterDecode`, `delimiterEncode` | `DelimiterCodec::decode` (`:182`), `encode` (`:209`) |
| `readBody`                       | what both do with a body (`:117-119`, `:202-204`) |
| `octetFrame`, `lineFrame`        | the two frames on the wire (RFC 6587 §3.4.1, §3.4.2) |
| `transportFrame`, `forwarderFrame` | what `UnixTransport::send` (`transport.rs:107`) and `Forwarder::forward` (`forwarder.rs:212`) write |

`octetDecode` adds `usize` values modulo `2^64`, as the release profile does, and `advance` and
`split_to` panic past the end of the buffer.

`octet_framing`, `line_framing`, `octet_sound` and `line_sound` are the two decoder laws for each codec. A
body over the limit is refused before its frame is complete: `octetShown` and `lineShown` say when.
-/

namespace LogFence

open Rust Outcome

/-! ## The code -/

inductive FrameError where
  | messageTooLarge (max got : Nat)
  | invalidOctetCount
  | invalidUtf8
  | octetCountPrefixTooLong
  | parse (e : ParseError)
  | io
deriving DecidableEq, Repr

def maxDigits : Nat := 20

/-- `usize::MAX` on a 64-bit host. -/
def usizeMax : Nat := 2 ^ 64 - 1

/-- `isize::MAX`, which no allocation exceeds. -/
def isizeMax : Nat := 2 ^ 63 - 1

/-- `from_utf8(&msg_bytes)` and `SyslogMessage::parse`. -/
def readBody (b : Bytes) : Outcome FrameError SyslogMessage := do
  let s ← okOr .invalidUtf8 (fromUtf8 b)
  mapErr .parse (parse s)

/-- `buf.advance(n)`. -/
def advance (b : Bytes) (n : Nat) : Outcome FrameError Bytes :=
  if n ≤ b.length then .ok (b.drop n) else .panic

/-- `OctetCountCodec::decode` (`frame.rs:84`). -/
def octetDecode (maxSize : Nat) (buf : Bytes) : Outcome FrameError (Option SyslogMessage) × Bytes :=
  match buf.findIdx? (· == byte ' ') with
  | none => if buf.length > maxDigits then (.err .octetCountPrefixTooLong, buf) else (.ok none, buf)
  | some spPos =>
    match fromUtf8 (buf.take spPos) with
    | none => (.err .invalidOctetCount, buf)
    | some lenStr =>
      match parseUnsigned usizeMax lenStr with
      | none => (.err .invalidOctetCount, buf)
      | some msgLen =>
        if msgLen > maxSize then (.err (.messageTooLarge maxSize msgLen), buf)
        else
          let total := (spPos + 1 + msgLen) % 2 ^ 64
          if buf.length < total then (.ok none, buf)
          else
            match advance buf (spPos + 1) with
            | .ok buf =>
              -- `buf.split_to(msg_len)`
              if msgLen ≤ buf.length then (some <$> readBody (buf.take msgLen), buf.drop msgLen) else (.panic, buf)
            | .err e => (.err e, buf)
            | .panic => (.panic, buf)

/-- `DelimiterCodec::decode` (`frame.rs:182`). -/
def delimiterDecode (delimiter : UInt8) (maxSize : Nat) (buf : Bytes) :
    Outcome FrameError (Option SyslogMessage) × Bytes :=
  match buf.findIdx? (· == delimiter) with
  | none => if buf.length > maxSize then (.err (.messageTooLarge maxSize buf.length), buf) else (.ok none, buf)
  | some pos =>
    if pos > maxSize then (.err (.messageTooLarge maxSize pos), buf)
    else (some <$> readBody (buf.take pos), buf.drop (pos + 1))

/-- `OctetCountCodec::encode` (`frame.rs:126`): what `dst` is after it. -/
def octetEncode (maxSize : Nat) (item : SyslogMessage) (dst : Bytes) : Outcome FrameError Bytes :=
  let msg := item.toStr
  if len msg > maxSize then .err (.messageTooLarge maxSize (len msg))
  else .ok (dst ++ utf8 (decimal (len msg) ++ [' ']) ++ utf8 msg)

/-- `DelimiterCodec::encode` (`frame.rs:209`). -/
def delimiterEncode (delimiter : UInt8) (maxSize : Nat) (item : SyslogMessage) (dst : Bytes) : Outcome FrameError Bytes :=
  let msg := item.toStr
  if len msg > maxSize then .err (.messageTooLarge maxSize (len msg))
  else .ok (dst ++ utf8 msg ++ [delimiter])

/-- `ClientError` (`error.rs:23`), as far as `send` raises it before it writes. -/
inductive ClientError where
  | messageTooLarge (max got : Nat)
deriving DecidableEq, Repr

/-- The frame `UnixTransport::send` writes (`transport.rs:108-117`). -/
def transportFrame (maxSize : Nat) (msg : SyslogMessage) : Except ClientError Bytes :=
  let wire := msg.toStr
  if len wire > maxSize then .error (.messageTooLarge maxSize (len wire))
  else .ok (utf8 (decimal (len wire) ++ ' ' :: wire))

/-- The frame `Forwarder::forward` writes to a stream (`forwarder.rs:213`, `:240`). -/
def forwarderFrame (msg : SyslogMessage) : Bytes :=
  let wire := msg.toStr
  utf8 (decimal (len wire) ++ ' ' :: wire)

/-! ## Bodies -/

theorem readBody_eq_ok {f : Bytes} {m : SyslogMessage} (h : readBody f = .ok m) : ∃ s, f = utf8 s ∧ parse s = .ok m := by
  obtain ⟨s, hs, hp⟩ := bind_eq_ok.1 h
  exact ⟨s, fromUtf8_eq_some.1 (okOr_eq_ok.1 hs), mapErr_eq_ok.1 hp⟩

/-- The two ways a body is refused. -/
theorem readBody_eq_err {f : Bytes} {e : FrameError} (h : readBody f = .err e) :
    e = .invalidUtf8 ∨ ∃ e', e = .parse e' := by
  unfold readBody at h
  cases hu : fromUtf8 f with
  | none => rw [hu] at h; simp at h; exact .inl h.symm
  | some s =>
    rw [hu, okOr_some, ok_bind] at h
    rcases hp : parse s with m | e' | _ <;> rw [hp] at h <;> simp at h
    exact .inr ⟨e', h.symm⟩

/-! ## Frames -/

/-- `<decimal-length> SP <body>`. -/
def octetFrame (body : Bytes) : Bytes := utf8 (decimal body.length) ++ byte ' ' :: body

/-- `<body> <delimiter>`. -/
def lineFrame (delimiter : UInt8) (body : Bytes) : Bytes := body ++ [delimiter]

/-! ## The writers -/

theorem utf8_octetFrame (s : Str) : utf8 (decimal (len s) ++ ' ' :: s) = octetFrame (utf8 s) := by
  rw [utf8_append, utf8_cons, utf8EncodeChar_ascii (by decide), octetFrame, length_utf8]
  rfl

theorem forwarderFrame_eq (m : SyslogMessage) : forwarderFrame m = octetFrame (utf8 m.toStr) := utf8_octetFrame _

theorem transportFrame_eq {maxSize : Nat} {m : SyslogMessage} (h : len m.toStr ≤ maxSize) :
    transportFrame maxSize m = .ok (octetFrame (utf8 m.toStr)) := by
  simp only [transportFrame]
  rw [if_neg (by omega), utf8_octetFrame]

theorem octetEncode_eq_ok {maxSize : Nat} {m : SyslogMessage} {dst out : Bytes} :
    octetEncode maxSize m dst = .ok out ↔ len m.toStr ≤ maxSize ∧ out = dst ++ octetFrame (utf8 m.toStr) := by
  have hframe : dst ++ utf8 (decimal (len m.toStr) ++ [' ']) ++ utf8 m.toStr = dst ++ octetFrame (utf8 m.toStr) := by
    rw [← utf8_octetFrame, List.append_assoc, ← utf8_append]; simp
  simp only [octetEncode]
  rw [hframe]
  by_cases h : len m.toStr > maxSize
  · rw [if_pos h]; simp; omega
  · rw [if_neg h]
    simp only [Outcome.ok.injEq, eq_comm]
    constructor
    · rintro rfl; exact ⟨by omega, rfl⟩
    · exact And.right

/-- Messages encoded one behind another into `dst`. -/
def octetEncodeAll (maxSize : Nat) : List SyslogMessage → Bytes → Outcome FrameError Bytes
  | [], dst => .ok dst
  | m :: ms, dst => do
    let dst ← octetEncode maxSize m dst
    octetEncodeAll maxSize ms dst

theorem octetEncodeAll_eq_ok {maxSize : Nat} : ∀ {ms : List SyslogMessage} {dst out : Bytes},
    octetEncodeAll maxSize ms dst = .ok out ↔
      (∀ m ∈ ms, len m.toStr ≤ maxSize) ∧ out = dst ++ (ms.map fun m => octetFrame (utf8 m.toStr)).flatten
  | [], dst, out => by simp [octetEncodeAll, eq_comm]
  | m :: ms, dst, out => by
    simp only [octetEncodeAll, bind_eq_ok, octetEncode_eq_ok, octetEncodeAll_eq_ok]
    constructor
    · rintro ⟨_, ⟨hm, rfl⟩, hms, rfl⟩
      refine ⟨?_, by simp⟩
      intro x hx
      rcases List.mem_cons.1 hx with rfl | hx
      · exact hm
      · exact hms x hx
    · rintro ⟨hall, rfl⟩
      exact ⟨_, ⟨hall m (by simp), rfl⟩, fun x hx => hall x (by simp [hx]), by simp⟩

theorem findIdx?_absent {x : UInt8} {b : Bytes} (h : x ∉ b) : b.findIdx? (· == x) = none := by
  rw [List.findIdx?_eq_none_iff]
  intro y hy
  rw [beq_eq_false_iff_ne]
  rintro rfl
  exact h hy

theorem findIdx?_first {x : UInt8} {a : Bytes} (h : x ∉ a) (r : Bytes) :
    (a ++ x :: r).findIdx? (· == x) = some a.length := by
  rw [List.findIdx?_append, findIdx?_absent h]
  simp [List.findIdx?_cons]

/-! ## Octet counting -/

theorem space_notMem_decimal (n : Nat) : byte ' ' ∉ utf8 (decimal n) :=
  byte_notMem_utf8_decimal (by decide) (by decide)

/-- `decode` on a buffer without SP. -/
theorem octetDecode_digits {maxSize : Nat} {b : Bytes} (h : byte ' ' ∉ b) :
    octetDecode maxSize b =
      if b.length > maxDigits then (.err .octetCountPrefixTooLong, b) else (.ok none, b) := by
  rw [octetDecode, findIdx?_absent h]

theorem length_prefixed (n : Nat) (r : Bytes) :
    (utf8 (decimal n) ++ byte ' ' :: r).length = (decimal n).length + 1 + r.length := by
  rw [List.length_append, List.length_cons, length_utf8, len_decimal]; omega

/-- `decode` on a buffer whose first SP stands behind `a`. -/
theorem octetDecode_sp (maxSize : Nat) {a : Bytes} (h : byte ' ' ∉ a) (r : Bytes) :
    octetDecode maxSize (a ++ byte ' ' :: r) =
      match (fromUtf8 a).bind (parseUnsigned usizeMax) with
      | none => (.err .invalidOctetCount, a ++ byte ' ' :: r)
      | some n =>
        if n > maxSize then (.err (.messageTooLarge maxSize n), a ++ byte ' ' :: r)
        else if a.length + 1 + r.length < (a.length + 1 + n) % 2 ^ 64 then (.ok none, a ++ byte ' ' :: r)
        else if n ≤ r.length then (some <$> readBody (r.take n), r.drop n) else (.panic, r) := by
  have hblen : (a ++ byte ' ' :: r).length = a.length + 1 + r.length := by
    rw [List.length_append, List.length_cons]; omega
  have hadv : advance (a ++ byte ' ' :: r) (a.length + 1) = .ok r := by
    rw [advance, if_pos (by rw [hblen]; omega), List.drop_length_add_append, List.drop_one, List.tail_cons]
  simp only [octetDecode, findIdx?_first h r, List.take_left, hblen, hadv]
  cases fromUtf8 a <;> rfl

/-- `decode` on a buffer that starts with a length prefix. -/
theorem octetDecode_prefixed (maxSize n : Nat) (r : Bytes) :
    octetDecode maxSize (utf8 (decimal n) ++ byte ' ' :: r) =
      if n > usizeMax then (.err .invalidOctetCount, utf8 (decimal n) ++ byte ' ' :: r)
      else if n > maxSize then (.err (.messageTooLarge maxSize n), utf8 (decimal n) ++ byte ' ' :: r)
      else if (decimal n).length + 1 + r.length < ((decimal n).length + 1 + n) % 2 ^ 64 then
        (.ok none, utf8 (decimal n) ++ byte ' ' :: r)
      else if n ≤ r.length then (some <$> readBody (r.take n), r.drop n) else (.panic, r) := by
  have hlen : (utf8 (decimal n)).length = (decimal n).length := by rw [length_utf8, len_decimal]
  rw [octetDecode_sp maxSize (space_notMem_decimal n), fromUtf8_utf8, Option.bind_some, hlen]
  by_cases hu : n > usizeMax
  · rw [if_pos hu, parseUnsigned_decimal_gt hu]
  · rw [if_neg hu, parseUnsigned_decimal (by omega)]

theorem take_of_append {f r' u r : Bytes} (h : r' ++ u = f ++ r) (hle : f.length ≤ r'.length) :
    r'.take f.length = f := by
  have := congrArg (List.take f.length) h
  rwa [List.take_append_of_le_length hle, List.take_left] at this

/-- What a call of `decode` can do: leave the buffer alone, panic, or take a prefix and a body off. -/
theorem octetDecode_cases (maxSize : Nat) (b : Bytes) :
    (octetDecode maxSize b).2 = b ∧ (∀ m, (octetDecode maxSize b).1 ≠ .ok (some m)) ∨
      (octetDecode maxSize b).1 = .panic ∨
      ∃ spPos msgLen, spPos + 1 ≤ b.length ∧ octetDecode maxSize b =
        (some <$> readBody ((b.drop (spPos + 1)).take msgLen), (b.drop (spPos + 1)).drop msgLen) := by
  unfold octetDecode advance
  split
  · left; split <;> simp
  · rename_i spPos _
    split
    · left; simp
    · split
      · left; simp
      · rename_i msgLen _
        split
        · left; simp
        · dsimp only
          split
          · left; simp
          · by_cases hadv : spPos + 1 ≤ b.length
            · simp only [hadv, if_true]
              split
              · exact .inr (.inr ⟨spPos, msgLen, hadv, rfl⟩)
              · right; left; rfl
            · simp [hadv]

theorem octetDecode_keeps {maxSize : Nat} {b b' : Bytes} (h : octetDecode maxSize b = (.ok none, b')) : b' = b := by
  rcases octetDecode_cases maxSize b with ⟨hb, -⟩ | hp | ⟨spPos, msgLen, -, hd⟩
  · rw [h] at hb; exact hb
  · rw [h] at hp; cases hp
  · rw [h] at hd
    exact absurd (Prod.mk.inj hd).1.symm (map_some_ne_none _)

theorem octetDecode_shrinks {maxSize : Nat} {b b' : Bytes} {m : SyslogMessage}
    (h : octetDecode maxSize b = (.ok (some m), b')) : b'.length < b.length := by
  rcases octetDecode_cases maxSize b with ⟨-, hno⟩ | hp | ⟨spPos, msgLen, hle, hd⟩
  · rw [h] at hno; exact absurd rfl (hno m)
  · rw [h] at hp; cases hp
  · rw [h] at hd
    rw [(Prod.mk.inj hd).2]
    simp only [List.length_drop]; omega

theorem octetDecode_reads {maxSize : Nat} {b b' : Bytes} {m : SyslogMessage}
    (h : octetDecode maxSize b = (.ok (some m), b')) : ∃ f, readBody f = .ok m := by
  rcases octetDecode_cases maxSize b with ⟨-, hno⟩ | hp | ⟨spPos, msgLen, -, hd⟩
  · rw [h] at hno; exact absurd rfl (hno m)
  · rw [h] at hp; cases hp
  · rw [h] at hd
    exact ⟨_, map_some_eq_ok (Prod.mk.inj hd).1.symm⟩

/-- `OctetCountCodec`, as a decoder. -/
def octetCountCodec (maxSize : Nat) : Decoder FrameError SyslogMessage where
  decode := octetDecode maxSize
  shrinks := octetDecode_shrinks

theorem octetFrame_ne_nil (f : Bytes) : octetFrame f ≠ [] := by simp [octetFrame]

theorem length_octetFrame (f : Bytes) : (octetFrame f).length = (decimal f.length).length + 1 + f.length :=
  length_prefixed f.length f

theorem octet_empty (maxSize : Nat) : octetDecode maxSize [] = (.ok none, []) := rfl

/-- A buffer at the start of an octet-counted frame. -/
theorem octet_part_cases {f b u r : Bytes} (h : b ++ u = octetFrame f ++ r) :
    (∃ w, utf8 (decimal f.length) = b ++ w) ∨
      ∃ r', b = utf8 (decimal f.length) ++ byte ' ' :: r' ∧ r' ++ u = f ++ r := by
  rw [octetFrame, List.append_assoc] at h
  rcases List.append_eq_append_iff.1 h with ⟨w, hw, -⟩ | ⟨w, hw, hu⟩
  · exact .inl ⟨w, hw⟩
  · cases w with
    | nil => exact .inl ⟨[], by simpa using hw.symm⟩
    | cons x w =>
      simp only [List.cons_append, List.cons.injEq] at hu
      obtain ⟨rfl, hu⟩ := hu
      exact .inr ⟨w, hw, hu.symm⟩

/-- A buffer that is a part of the length. -/
theorem octetDecode_part (maxSize : Nat) {f b w : Bytes} (h : utf8 (decimal f.length) = b ++ w) :
    b.length ≤ (decimal f.length).length ∧ octetDecode maxSize b =
      if b.length > maxDigits then (.err .octetCountPrefixTooLong, b) else (.ok none, b) := by
  refine ⟨?_, octetDecode_digits fun hm => space_notMem_decimal f.length (by rw [h]; simp [hm])⟩
  rw [← len_decimal, ← length_utf8, h]; simp

theorem octet_framing (maxSize : Nat) :
    Decoder.Framing (octetCountCodec maxSize) octetFrame
      (fun f => f.length ≤ maxSize ∧ (octetFrame f).length < 2 ^ 64) readBody where
  empty := octet_empty maxSize
  nonempty := octetFrame_ne_nil
  whole := by
    rintro f ⟨hmax, hfit⟩ r
    rw [length_octetFrame] at hfit
    show octetDecode maxSize _ = _
    rw [octetFrame, List.append_assoc, List.cons_append, octetDecode_prefixed, if_neg (by unfold usizeMax; omega),
      if_neg (by omega), Nat.mod_eq_of_lt hfit, List.length_append, if_neg (by omega), if_pos (by omega), List.take_left,
      List.drop_left]
  part := by
    rintro f p q ⟨hmax, hfit⟩ heq hq
    rw [length_octetFrame] at hfit
    show octetDecode maxSize _ = _
    have hpq : p ++ q = octetFrame f ++ [] := by rw [List.append_nil, heq]
    rcases octet_part_cases hpq with ⟨w, hw⟩ | ⟨r', rfl, hr⟩
    · obtain ⟨hle, hdec⟩ := octetDecode_part maxSize hw
      have hdig : (decimal f.length).length ≤ 20 := length_decimal_le (by decide) (by omega)
      rw [hdec, if_neg (by unfold maxDigits; omega)]
    · have hlt : r'.length < f.length := by
        have h1 := congrArg List.length hr
        have h2 := List.length_pos_of_ne_nil hq
        simp only [List.length_append, List.append_nil] at h1
        omega
      rw [octetDecode_prefixed, if_neg (by unfold usizeMax; omega), if_neg (by omega), Nat.mod_eq_of_lt hfit,
        if_pos (by omega)]

/-- The bytes of an octet-counted frame that decide what becomes of it: for a body over the limit, the
    length and its SP, or twenty-one digits. -/
def octetShown (maxSize : Nat) (f : Bytes) : Nat :=
  if f.length > maxSize then min ((decimal f.length).length + 1) (maxDigits + 1) else (octetFrame f).length

theorem octetShown_le (maxSize : Nat) (f : Bytes) : octetShown maxSize f ≤ (octetFrame f).length := by
  unfold octetShown
  split
  · rw [length_octetFrame]; omega
  · exact Nat.le_refl _

/-- More digits than `decode` waits for are more than any `usize`. -/
theorem lt_of_maxDigits_lt {maxSize n : Nat} (hmax : maxSize ≤ usizeMax) (h : (decimal n).length > maxDigits) :
    maxSize < n := by
  by_contra hle
  unfold usizeMax at hmax
  have := length_decimal_le (k := 20) (n := n) (by decide) (by omega)
  unfold maxDigits at h
  omega

/-- **`decode` at the start of an octet-counted frame.** -/
theorem octet_atFrame {maxSize : Nat} (hmax : maxSize ≤ usizeMax) {f r b u : Bytes} (heq : b ++ u = octetFrame f ++ r) :
    Decoder.AtFrame (octetCountCodec maxSize) octetFrame (fun f => f.length ≤ maxSize) readBody (octetShown maxSize) f b := by
  rcases octet_part_cases heq with ⟨w, hw⟩ | ⟨r', rfl, hr⟩
  · -- a part of the length
    obtain ⟨hle, hdec⟩ := octetDecode_part maxSize hw
    by_cases hlong : b.length > maxDigits
    · rw [if_pos hlong] at hdec
      have hover := lt_of_maxDigits_lt hmax (Nat.lt_of_lt_of_le hlong hle)
      exact .refuses hdec (Nat.not_le.2 hover) (by rw [octetShown, if_pos hover]; omega)
    · rw [if_neg hlong] at hdec
      refine .waits hdec ?_
      rw [octetShown, length_octetFrame]
      split <;> omega
  · have hlen := length_prefixed f.length r'
    have hdec := octetDecode_prefixed maxSize f.length r'
    by_cases hover : f.length > maxSize
    · have hshown : octetShown maxSize f ≤ (utf8 (decimal f.length) ++ byte ' ' :: r').length := by
        rw [octetShown, if_pos hover]; omega
      by_cases hu : f.length > usizeMax
      · rw [if_pos hu] at hdec
        exact .refuses hdec (Nat.not_le.2 hover) hshown
      · rw [if_neg hu, if_pos hover] at hdec
        exact .refuses hdec (Nat.not_le.2 hover) hshown
    · have hshown : octetShown maxSize f = (decimal f.length).length + 1 + f.length := by
        rw [octetShown, if_neg hover, length_octetFrame]
      rw [if_neg (by omega), if_neg hover] at hdec
      split at hdec
      · have hmod := Nat.mod_le ((decimal f.length).length + 1 + f.length) (2 ^ 64)
        exact .waits hdec (by omega)
      · by_cases hle : f.length ≤ r'.length
        · -- the whole body is in the buffer
          have hbody := take_of_append hr hle
          rw [if_pos hle, hbody] at hdec
          refine .reads hdec (Nat.not_lt.1 hover) ?_ (by omega)
          have hsplit := List.take_append_drop f.length r'
          rw [hbody] at hsplit
          rw [octetFrame, List.append_assoc, List.cons_append, hsplit]
        · rw [if_neg hle] at hdec
          exact .panics hdec

theorem octet_sound {maxSize : Nat} (hmax : maxSize ≤ usizeMax) :
    Decoder.SoundFraming (octetCountCodec maxSize) octetFrame (fun _ => True) (fun f => f.length ≤ maxSize) readBody
      (octetShown maxSize) :=
  .of_atFrame (octet_empty maxSize) octetFrame_ne_nil (octetShown_le maxSize) octetDecode_keeps
    fun _ heq => octet_atFrame hmax heq

/-! ## Delimiters -/

/-- `decode` on a buffer with a delimiter in it. -/
theorem delimiterDecode_line {delimiter : UInt8} {maxSize : Nat} {f : Bytes} (h : delimiter ∉ f) (r : Bytes) :
    delimiterDecode delimiter maxSize (f ++ delimiter :: r) =
      if f.length > maxSize then (.err (.messageTooLarge maxSize f.length), f ++ delimiter :: r)
      else (some <$> readBody f, r) := by
  rw [delimiterDecode, findIdx?_first h r]
  simp [List.drop_length_add_append]

/-- `decode` on a buffer without one. -/
theorem delimiterDecode_open {delimiter : UInt8} {maxSize : Nat} {b : Bytes} (h : delimiter ∉ b) :
    delimiterDecode delimiter maxSize b =
      if b.length > maxSize then (.err (.messageTooLarge maxSize b.length), b) else (.ok none, b) := by
  rw [delimiterDecode, findIdx?_absent h]

/-- A buffer has no delimiter, or is a line and what follows it. -/
theorem delimiter_cases (delimiter : UInt8) (b : Bytes) :
    delimiter ∉ b ∨ ∃ f r, delimiter ∉ f ∧ b = f ++ delimiter :: r := by
  by_cases h : delimiter ∈ b
  · obtain ⟨f, r, rfl, hf⟩ := List.eq_append_cons_of_mem h
    exact .inr ⟨f, r, hf, rfl⟩
  · exact .inl h

theorem delimiterDecode_keeps {delimiter : UInt8} {maxSize : Nat} {b b' : Bytes}
    (h : delimiterDecode delimiter maxSize b = (.ok none, b')) : b' = b := by
  rcases delimiter_cases delimiter b with hb | ⟨f, r, hf, rfl⟩
  · rw [delimiterDecode_open hb] at h
    split at h
    · simp at h
    · exact (Prod.mk.inj h).2.symm
  · rw [delimiterDecode_line hf] at h
    split at h
    · simp at h
    · exact absurd (Prod.mk.inj h).1 (map_some_ne_none _)

theorem delimiterDecode_shrinks {delimiter : UInt8} {maxSize : Nat} {b b' : Bytes} {m : SyslogMessage}
    (h : delimiterDecode delimiter maxSize b = (.ok (some m), b')) : b'.length < b.length := by
  rcases delimiter_cases delimiter b with hb | ⟨f, r, hf, rfl⟩
  · rw [delimiterDecode_open hb] at h
    split at h <;> simp at h
  · rw [delimiterDecode_line hf] at h
    split at h
    · simp at h
    · rw [← (Prod.mk.inj h).2, List.length_append, List.length_cons]; omega

theorem delimiterDecode_reads {delimiter : UInt8} {maxSize : Nat} {b b' : Bytes} {m : SyslogMessage}
    (h : delimiterDecode delimiter maxSize b = (.ok (some m), b')) : ∃ f, readBody f = .ok m := by
  rcases delimiter_cases delimiter b with hb | ⟨f, r, hf, rfl⟩
  · rw [delimiterDecode_open hb] at h
    split at h <;> simp at h
  · rw [delimiterDecode_line hf] at h
    split at h
    · simp at h
    · exact ⟨f, map_some_eq_ok (Prod.mk.inj h).1⟩

/-- `DelimiterCodec`, as a decoder. -/
def delimiterCodec (delimiter : UInt8) (maxSize : Nat) : Decoder FrameError SyslogMessage where
  decode := delimiterDecode delimiter maxSize
  shrinks := delimiterDecode_shrinks

theorem lineFrame_append (delimiter : UInt8) (f r : Bytes) : lineFrame delimiter f ++ r = f ++ delimiter :: r := by
  simp [lineFrame]

theorem line_framing (delimiter : UInt8) (maxSize : Nat) :
    Decoder.Framing (delimiterCodec delimiter maxSize) (lineFrame delimiter)
      (fun f => f.length ≤ maxSize ∧ delimiter ∉ f) readBody where
  empty := rfl
  nonempty := fun f => by simp [lineFrame]
  whole := by
    intro f hfit r
    show delimiterDecode delimiter maxSize _ = _
    rw [lineFrame_append, delimiterDecode_line hfit.2, if_neg (by omega)]
  part := by
    intro f p q hfit heq hq
    -- the delimiter is in the part that is missing
    obtain ⟨q', rfl⟩ : ∃ q', f = p ++ q' := by
      rcases List.append_eq_append_iff.1 heq with ⟨w, hw, hq'⟩ | ⟨w, hw, hq'⟩
      · cases w with
        | nil => exact ⟨[], by simpa using hw.symm⟩
        | cons x w => simp at hq'; exact absurd hq'.2.2 hq
      · exact ⟨w, hw⟩
    have hp : delimiter ∉ p := fun hm => hfit.2 (by simp [hm])
    have hle : p.length ≤ maxSize := by
      have := hfit.1
      rw [List.length_append] at this; omega
    show delimiterDecode delimiter maxSize _ = _
    rw [delimiterDecode_open hp, if_neg (by omega)]

/-- The bytes of a line that decide what becomes of it: one more than the limit, or all of it. -/
def lineShown (maxSize : Nat) (f : Bytes) : Nat := if f.length > maxSize then maxSize + 1 else f.length + 1

theorem length_le_of_open {delimiter : UInt8} {f b u r : Bytes} (hb : delimiter ∉ b) (h : b ++ u = f ++ delimiter :: r) :
    b.length ≤ f.length := by
  rcases List.append_eq_append_iff.1 h with ⟨w, hw, -⟩ | ⟨w, hw, hu⟩
  · rw [hw]; simp
  · cases w with
    | nil => rw [hw]; simp
    | cons x w =>
      obtain ⟨rfl, -⟩ := List.cons.inj hu
      exact absurd (by rw [hw]; simp) hb

/-- **`decode` at the start of a line.** -/
theorem line_atFrame {delimiter : UInt8} {maxSize : Nat} {f r b u : Bytes} (hf : delimiter ∉ f)
    (heq : b ++ u = lineFrame delimiter f ++ r) :
    Decoder.AtFrame (delimiterCodec delimiter maxSize) (lineFrame delimiter) (fun f => f.length ≤ maxSize) readBody
      (lineShown maxSize) f b := by
  rw [lineFrame_append] at heq
  rcases delimiter_cases delimiter b with hb | ⟨g, r', hg, rfl⟩
  · have hle := length_le_of_open hb heq
    have hdec := @delimiterDecode_open _ maxSize _ hb
    by_cases hlong : b.length > maxSize
    · rw [if_pos hlong] at hdec
      exact .refuses hdec (by omega) (by rw [lineShown, if_pos (by omega)]; omega)
    · rw [if_neg hlong] at hdec
      refine .waits hdec ?_
      unfold lineShown
      split <;> omega
  · obtain ⟨rfl, -⟩ := cut_unique (b := r' ++ u) hg hf (by simpa using heq)
    have hlen : (g ++ delimiter :: r').length = g.length + 1 + r'.length := by
      rw [List.length_append, List.length_cons]; omega
    have hdec := @delimiterDecode_line _ maxSize _ hg r'
    by_cases hover : g.length > maxSize
    · rw [if_pos hover] at hdec
      exact .refuses hdec (by omega) (by rw [lineShown, if_pos hover]; omega)
    · rw [if_neg hover] at hdec
      exact .reads hdec (by omega) (by rw [lineFrame_append]) (by rw [lineShown, if_neg hover]; omega)

theorem lineShown_le (delimiter : UInt8) (maxSize : Nat) (f : Bytes) :
    lineShown maxSize f ≤ (lineFrame delimiter f).length := by
  unfold lineShown lineFrame
  rw [List.length_append, List.length_singleton]
  split <;> omega

theorem line_sound (delimiter : UInt8) (maxSize : Nat) :
    Decoder.SoundFraming (delimiterCodec delimiter maxSize) (lineFrame delimiter) (fun f => delimiter ∉ f)
      (fun f => f.length ≤ maxSize) readBody (lineShown maxSize) :=
  .of_atFrame rfl (fun f => by simp [lineFrame]) (lineShown_le delimiter maxSize) delimiterDecode_keeps
    fun hf heq => line_atFrame hf heq

end LogFence
