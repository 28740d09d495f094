import LogFence.Daemon.Session

/-!
# One datagram (`logfence-daemon/src/datagram_listener.rs`)

| here | there |
| --- | --- |
| `recvFrom`        | `try_recv_from(&mut buf)` into `max_message_size` bytes (`datagram_listener.rs:145`, `:193`) |
| `processDatagram` | `process_datagram` (`:279`): the call it makes |
| `workerCalls`     | `run_worker` (`:257`): the calls it makes, each with the configuration of its datagram |

Of the operating system it is assumed that `recv` into `k` bytes gives the first `k` bytes of a longer
datagram. `datagram_agrees_iff` compares a datagram with the same body sent as an octet-counted frame: the
two agree but for a body over the limit whose first bytes are a message, and for one that makes `parse`
panic.
-/

namespace LogFence

open Rust Outcome Decoder

/-! ## The code -/

/-- The peer of a socket that has no path. -/
def anonymous : Str := "<anonymous>".toList

/-- `&buf[..n]` after `try_recv_from`. -/
def recvFrom (maxMessageSize : Nat) (datagram : Bytes) : Bytes := datagram.take maxMessageSize

/-- The report `process_datagram` and `handle_frame_error` build of a problem. -/
def dropReport (env : Env) (cfg : SessionConfig) (problem : Str) : SyslogMessage :=
  report env cfg.localHostname
    (jsonObject [("event", "message_dropped".toList), ("peer", cfg.peer), ("error", problem)])

def processDatagram (env : Env) (cfg : SessionConfig) (msgBytes : Bytes) : Outcome Empty Call :=
  match fromUtf8 msgBytes with
  | none => .ok (.reportRejection (dropReport env cfg "invalid UTF-8 encoding".toList))
  | some raw =>
    match parse raw with
    | .ok msg => .ok (.handleMessage msg)
    | .err e => .ok (.reportRejection (dropReport env cfg ("syslog parse error: ".toList ++ e.toStr env.debug)))
    | .panic => .panic

/-- The calls of a worker that receives `(bytes, peer)` pairs: a panic ends it. -/
def workerCalls (env : Env) (baseCfg : SessionConfig) : List (Bytes × Str) → List (SessionConfig × Call)
  | [] => []
  | (msgBytes, peer) :: rest =>
    let msgCfg := { baseCfg with peer := peer }
    match processDatagram env msgCfg msgBytes with
    | .ok call => (msgCfg, call) :: workerCalls env baseCfg rest
    | .err e => nomatch e
    | .panic => []

/-- The calls one received datagram leads to. -/
def receiveDatagram (env : Env) (cfg : SessionConfig) (datagram : Bytes) : List Call :=
  match processDatagram env cfg (recvFrom cfg.maxMessageSize datagram) with
  | .ok call => [call]
  | .err e => nomatch e
  | .panic => []

/-! ## Both paths read a body alike -/

theorem handleFrameError_eq (env : Env) (cfg : SessionConfig) (e : FrameError) :
    handleFrameError env cfg e = (frameProblem env.debug e).map (dropReport env cfg) := rfl

/-- `process_datagram` reads the bytes as the codecs read a body. -/
theorem processDatagram_ok {env : Env} {cfg : SessionConfig} {b : Bytes} {m : SyslogMessage}
    (h : readBody b = .ok m) : processDatagram env cfg b = .ok (.handleMessage m) := by
  obtain ⟨s, rfl, hp⟩ := readBody_eq_ok h
  simp [processDatagram, hp]

theorem processDatagram_err (env : Env) (cfg : SessionConfig) {b : Bytes} {e : FrameError} (h : readBody b = .err e) :
    ∃ problem, frameProblem env.debug e = some problem ∧
      processDatagram env cfg b = .ok (.reportRejection (dropReport env cfg problem)) := by
  unfold readBody at h
  unfold processDatagram
  cases hu : fromUtf8 b with
  | none =>
    rw [hu] at h
    simp only [okOr_none, err_bind, Outcome.err.injEq] at h
    subst h
    exact ⟨_, rfl, rfl⟩
  | some s =>
    rw [hu, okOr_some, ok_bind] at h
    rcases hp : parse s with m | e' | _ <;> rw [hp] at h <;> simp at h
    subst h
    exact ⟨_, rfl, by simp only [hp]⟩

theorem processDatagram_panic {env : Env} {cfg : SessionConfig} {b : Bytes} (h : readBody b = .panic) :
    processDatagram env cfg b = .panic := by
  unfold readBody at h
  unfold processDatagram
  cases hu : fromUtf8 b with
  | none => rw [hu] at h; simp at h
  | some s =>
    rw [hu, okOr_some, ok_bind] at h
    rcases hp : parse s with m | e' | _ <;> rw [hp] at h <;> simp at h
    simp only [hp]

/-! ## The same body in a frame -/

section
variable (env : Env) {cfg : SessionConfig} (hoct : cfg.framing = .octetCount) {b : Bytes} (halloc : b.length ≤ isizeMax)
include hoct halloc

theorem runWithCodec_frame (hfit : b.length ≤ cfg.maxMessageSize) (ending : Ending) :
    runWithCodec env cfg [octetFrame b] ending = (eventOf (readBody b)).toList.filterMap (callOf env cfg) := by
  have hfits : Fits cfg b := ⟨by rw [hoct]; trivial, hfit, halloc⟩
  have hframe := runWithCodec_frameOf env hfits ending
  rwa [hoct] at hframe

/-- Over the limit, the length alone has it refused. -/
theorem runWithCodec_frame_too_large (hover : cfg.maxMessageSize < b.length) (ending : Ending) :
    ∃ problem, runWithCodec env cfg [octetFrame b] ending = [.reportRejection (dropReport env cfg problem)] := by
  have hdec : (codec cfg).decode (octetFrame b) = (.err (.messageTooLarge cfg.maxMessageSize b.length), octetFrame b) := by
    have hcodec : codec cfg = octetCountCodec cfg.maxMessageSize := by rw [codec, hoct]
    rw [hcodec]
    show octetDecode _ _ = _
    unfold isizeMax at halloc
    rw [octetFrame, octetDecode_prefixed, if_neg (by unfold usizeMax; omega), if_pos hover]
  exact ⟨_, runWithCodec_one_read env (drain_err hdec) (.inl rfl) ending⟩

end

/-! ## The two paths compared -/

/-- The same outcome: the same message is handled, or one rejection report and nothing else is forwarded. -/
def SameOutcome (env : Env) (cfg session : SessionConfig) (datagram framed : List Call) : Prop :=
  (∃ m, datagram = [.handleMessage m] ∧ framed = [.handleMessage m]) ∨
    ∃ problem problem', datagram = [.reportRejection (dropReport env cfg problem)] ∧
      framed = [.reportRejection (dropReport env session problem')]

/-- **When a datagram is treated as the same body in a frame**: within the limit, unless `parse` panics; over
    the limit, only if the bytes that are left after `recv` has cut it do not parse either. -/
theorem datagram_agrees_iff (env : Env) {cfg session : SessionConfig} (hoct : session.framing = .octetCount)
    (hmax : session.maxMessageSize = cfg.maxMessageSize) {b : Bytes} (halloc : b.length ≤ isizeMax) (ending : Ending) :
    SameOutcome env cfg session (receiveDatagram env cfg b) (runWithCodec env session [octetFrame b] ending) ↔
      b.length ≤ cfg.maxMessageSize ∧ readBody b ≠ .panic ∨
        cfg.maxMessageSize < b.length ∧ ∃ e, readBody (b.take cfg.maxMessageSize) = .err e := by
  have hcalls : ∀ call, processDatagram env cfg (b.take cfg.maxMessageSize) = .ok call →
      receiveDatagram env cfg b = [call] := by
    intro call hc
    rw [receiveDatagram, recvFrom, hc]
  have hnone : readBody (b.take cfg.maxMessageSize) = .panic → receiveDatagram env cfg b = [] := by
    intro hp
    rw [receiveDatagram, recvFrom, processDatagram_panic hp]
  by_cases hlen : b.length ≤ cfg.maxMessageSize
  · -- nothing is cut, and both read the body
    have htake : b.take cfg.maxMessageSize = b := List.take_of_length_le hlen
    have hframe := runWithCodec_frame env hoct halloc (by omega) ending
    rw [htake] at hcalls hnone ⊢
    rcases hr : readBody b with m | e | _ <;> rw [hr] at hframe
    · refine iff_of_true (.inl ⟨m, hcalls _ (processDatagram_ok hr), hframe⟩) (.inl ⟨hlen, by simp⟩)
    · obtain ⟨problem, hproblem, hproc⟩ := processDatagram_err env cfg hr
      refine iff_of_true (.inr ⟨problem, problem, hcalls _ hproc, ?_⟩) (.inl ⟨hlen, by simp⟩)
      rw [hframe]
      simp [callOf, handleFrameError_eq, hproblem]
    · refine iff_of_false ?_ ?_
      · rw [hnone hr]
        rintro (⟨m, h, -⟩ | ⟨p, p', h, -⟩) <;> cases h
      · rintro (⟨-, h⟩ | ⟨h, -⟩)
        · exact h rfl
        · omega
  · obtain ⟨problem', hframe⟩ := runWithCodec_frame_too_large env hoct halloc (by omega) ending
    rw [hframe]
    rcases hr : readBody (b.take cfg.maxMessageSize) with m | e | _
    · refine iff_of_false ?_ (by simp; omega)
      rw [hcalls _ (processDatagram_ok hr)]
      rintro (⟨m', -, h⟩ | ⟨p, p', h, -⟩) <;> cases h
    · obtain ⟨problem, -, hproc⟩ := processDatagram_err env cfg hr
      exact iff_of_true (.inr ⟨problem, problem', hcalls _ hproc, rfl⟩) (.inr ⟨by omega, e, rfl⟩)
    · refine iff_of_false ?_ (by simp; omega)
      rw [hnone hr]
      rintro (⟨m', h, -⟩ | ⟨p, p', h, -⟩) <;> cases h

theorem datagram_agrees_at_limit :
    SameOutcome sampleEnv (sampleConfig .newline 17) (sampleConfig .octetCount 17)
      (receiveDatagram sampleEnv (sampleConfig .newline 17) nilBody)
      (runWithCodec sampleEnv (sampleConfig .octetCount 17) [octetFrame nilBody] .eof) := by
  have hoct : (sampleConfig .octetCount 17).framing = .octetCount := rfl
  have hmax : (sampleConfig .octetCount 17).maxMessageSize = (sampleConfig .newline 17).maxMessageSize := rfl
  have halloc : nilBody.length ≤ isizeMax := by unfold isizeMax; decide
  refine (datagram_agrees_iff sampleEnv hoct hmax halloc .eof).2 (.inl ⟨by decide, ?_⟩)
  rw [readBody_nilBody]; simp

/-- A message of 19 bytes. -/
def longBody : Bytes := nilBody ++ [byte ' ', byte 'x']

/-- With a limit of 17 bytes the frame is refused; the datagram is cut to its first 17 bytes, which are
    handled as a message the client did not send. -/
theorem datagram_shortened :
    readBody longBody = .ok (nilHeader.message ['-'] ['x']) ∧
      receiveDatagram sampleEnv (sampleConfig .octetCount 17) longBody = [.handleMessage (nilHeader.message ['-'] [])] ∧
      ¬ SameOutcome sampleEnv (sampleConfig .octetCount 17) (sampleConfig .octetCount 17)
        (receiveDatagram sampleEnv (sampleConfig .octetCount 17) longBody)
        (runWithCodec sampleEnv (sampleConfig .octetCount 17) [octetFrame longBody] .eof) := by
  have hcut : receiveDatagram sampleEnv (sampleConfig .octetCount 17) longBody =
      [.handleMessage (nilHeader.message ['-'] [])] := by decide
  have hoct : (sampleConfig .octetCount 17).framing = .octetCount := rfl
  have halloc : longBody.length ≤ isizeMax := by unfold isizeMax; decide
  obtain ⟨problem, hrefused⟩ := runWithCodec_frame_too_large sampleEnv hoct halloc (by decide) .eof
  refine ⟨by decide, hcut, ?_⟩
  rw [hcut, hrefused]
  rintro (⟨m, -, h⟩ | ⟨p, p', h, -⟩) <;> cases h

end LogFence
