import LogFence.Daemon.Retry
import LogFence.Proto.Frame

/-!
# The client's datagram transport (`logfence-client/src/transport.rs:28-48`, `:160-265`)

| here | there |
| --- | --- |
| `UnixDatagramTransport`          | the struct (`transport.rs:164`), as `new` and `max_attempts` leave it |
| `openSocket`                     | what `send` does to an empty slot (`:217-229`) |
| `UnixDatagramTransport.sendLoop` | the loop of `send` (`:250-263`) |
| `UnixDatagramTransport.send`     | `send` (`:206`) |

`is_buffer_full` and `dgram_attempt_delay` are copied from the daemon word for word (`isBufferFull`,
`dgramAttemptDelay`); the loop is copied too, but forgets the socket after an error. `send_eq` says that
nothing else differs. `bounded_retry_iff` is about both copies: the limit holds for every number of attempts
but `u32::MAX`, which the saturating counter never exceeds.
-/

namespace LogFence

open Rust

/-! ## The code -/

/-- What `shutdown(Shutdown::Read)` fails with. -/
inductive ShutdownError where
  | notConnected
  | other (e : IoError)
deriving DecidableEq, Repr

/-- What the system answers to `UnixDatagram::unbound()` and `shutdown`. -/
structure SocketSetup where
  unbound : Except IoError Unit
  shutdown : Except ShutdownError Unit

structure UnixDatagramTransport where
  maxSize : Nat
  maxAttempts : UInt32
  /-- There is a socket in the slot. -/
  socket : Bool
deriving DecidableEq, Repr

def openSocket (setup : SocketSetup) (socket : Bool) : Except IoError Unit :=
  if socket then .ok ()
  else do
    setup.unbound
    match setup.shutdown with
    | .error (.other e) => .error e
    | .error .notConnected => .ok ()
    | .ok () => .ok ()

inductive DatagramError where
  | client (e : ClientError)
  | io (e : IoError)
deriving DecidableEq, Repr

/-- A call of `send`: what it did, its result (none if it waits for a further outcome) and the slot it leaves. -/
structure DatagramSend where
  events : List RetryEvent
  result : Option (Except DatagramError Unit)
  socket : Bool

namespace UnixDatagramTransport

def sendLoop (maxAttempts : Nat) : Nat → IoError → List (Except IoError Unit) → DatagramSend
  | attempt, lastErr, outcomes =>
    if maxAttempts ≠ 0 ∧ attempt > maxAttempts then ⟨[], some (.error (.io lastErr)), false⟩
    else
      match outcomes with
      | [] => ⟨[], none, true⟩
      | .ok () :: _ => ⟨[.sleep (dgramAttemptDelay attempt), .send], some (.ok ()), true⟩
      | .error e :: rest =>
        if !isBufferFull e then ⟨[.sleep (dgramAttemptDelay attempt), .send], some (.error (.io e)), false⟩
        else
          let run := sendLoop maxAttempts (min (attempt + 1) u32Max) e rest
          { run with events := .sleep (dgramAttemptDelay attempt) :: .send :: run.events }

def send (t : UnixDatagramTransport) (setup : SocketSetup) (msg : SyslogMessage) (outcomes : List (Except IoError Unit)) :
    DatagramSend :=
  let wire := msg.toStr
  if len wire > t.maxSize then ⟨[], some (.error (.client (.messageTooLarge t.maxSize (len wire)))), t.socket⟩
  else
    match openSocket setup t.socket with
    | .error e => ⟨[], some (.error (.io e)), false⟩
    | .ok () =>
      match outcomes with
      | [] => ⟨[], none, true⟩
      | .ok () :: _ => ⟨[.send], some (.ok ()), true⟩
      | .error e :: rest =>
        if !isBufferFull e then ⟨[.send], some (.error (.io e)), false⟩
        else
          let run := sendLoop t.maxAttempts.toNat 2 e rest
          { run with events := .send :: run.events }

end UnixDatagramTransport

/-! ## The two copies -/

/-- The daemon's run as the client sees it: an error costs the socket. -/
def DatagramSend.of (run : List RetryEvent × Option (Except IoError Unit)) : DatagramSend where
  events := run.1
  result := run.2.map (Except.mapError .io)
  socket := match run.2 with
    | some (.error _) => false
    | _ => true

theorem sendLoop_eq (maxAttempts attempt : Nat) (lastErr : IoError) (outcomes : List (Except IoError Unit)) :
    UnixDatagramTransport.sendLoop maxAttempts attempt lastErr outcomes =
      .of (retryLoop maxAttempts attempt lastErr outcomes) := by
  induction outcomes generalizing attempt lastErr with
  | nil =>
    unfold UnixDatagramTransport.sendLoop retryLoop
    split <;> rfl
  | cons r rest ih =>
    unfold UnixDatagramTransport.sendLoop retryLoop
    split
    · rfl
    · cases r with
      | ok => rfl
      | error e =>
        dsimp only
        split
        · rfl
        · rw [ih]
          rfl

/-- **A message that fits, with a socket to send it on, is sent as the daemon sends it.** -/
theorem send_eq {t : UnixDatagramTransport} {setup : SocketSetup} {msg : SyslogMessage} (hfits : len msg.toStr ≤ t.maxSize)
    (hsocket : openSocket setup t.socket = .ok ()) (outcomes : List (Except IoError Unit)) :
    t.send setup msg outcomes = .of (sendDgramWithRetry t.maxAttempts.toNat outcomes) := by
  unfold UnixDatagramTransport.send sendDgramWithRetry
  simp only [Nat.not_lt.2 hfits, ↓reduceIte, hsocket]
  cases outcomes with
  | nil => rfl
  | cons r rest =>
    cases r with
    | ok => rfl
    | error e =>
      dsimp only
      split
      · rfl
      · rw [sendLoop_eq]
        rfl

/-! ## The limit -/

/-- Bounded retry, as configured with `max` attempts, on these outcomes. -/
structure BoundedRetry (max : UInt32) (outcomes : List (Except IoError Unit)) : Prop where
  daemon : sendDgramWithRetry max.toNat outcomes = boundedRetry (configuredLimit max.toNat) outcomes
  client : ∀ (t : UnixDatagramTransport) setup msg, t.maxAttempts = max → len msg.toStr ≤ t.maxSize →
    openSocket setup t.socket = .ok () → t.send setup msg outcomes = .of (boundedRetry (configuredLimit max.toNat) outcomes)
  cancels : ∀ cfg : RsyslogConfig, cfg.transport = .unixDgram → cfg.dgramExhausted = .terminate →
    cfg.dgramMaxAttempts = max → (forwardCancels cfg outcomes = true ↔ max ≠ 0 ∧ AllFull max.toNat outcomes)

theorem toNat_le_u32Max (n : UInt32) : n.toNat ≤ u32Max := Nat.le_sub_one_of_lt n.toNat_lt

theorem configuredLimit_ne_zero (maxAttempts : Nat) : configuredLimit maxAttempts ≠ some 0 := by
  unfold configuredLimit
  split
  · simp
  · simpa

theorem configuredLimit_eq_some {maxAttempts l : Nat} :
    configuredLimit maxAttempts = some l ↔ maxAttempts ≠ 0 ∧ maxAttempts = l := by
  unfold configuredLimit
  split <;> simp_all

/-- The limit the code has is the configured one, until it matters that it has none. -/
theorem boundedRetry_effective {maxAttempts : Nat} {outcomes : List (Except IoError Unit)}
    (h : ¬ (maxAttempts = u32Max ∧ AllFull u32Max outcomes)) :
    boundedRetry (effectiveLimit maxAttempts) outcomes = boundedRetry (configuredLimit maxAttempts) outcomes := by
  by_cases hmax : maxAttempts = u32Max
  · have hidx : ¬ u32Max ≤ outcomes.findIdx settles := fun hle => h ⟨hmax, allFull_iff.2 hle⟩
    have heffective : effectiveLimit maxAttempts = none := if_pos (.inr hmax)
    have hconfigured : configuredLimit maxAttempts = some u32Max := configuredLimit_eq_some.2 ⟨by rw [hmax]; decide, hmax⟩
    have hattempts : attempts (some u32Max) outcomes = attempts none outcomes := by
      simp only [attempts]
      omega
    rw [heffective, hconfigured, boundedRetry, boundedRetry, hattempts]
  · have hsame : effectiveLimit maxAttempts = configuredLimit maxAttempts := by
      simp only [effectiveLimit, configuredLimit, hmax, or_false]
    rw [hsame]

/-- Then the attempts go on after the last one there should be. -/
theorem retry_goes_on {maxAttempts : Nat} {outcomes : List (Except IoError Unit)} (hmax : maxAttempts = u32Max)
    (hall : AllFull u32Max outcomes) :
    sendDgramWithRetry maxAttempts outcomes ≠ boundedRetry (configuredLimit maxAttempts) outcomes := by
  intro hbound
  have hconfigured : configuredLimit maxAttempts = some u32Max := configuredLimit_eq_some.2 ⟨by rw [hmax]; decide, hmax⟩
  have heffective : effectiveLimit maxAttempts = none := if_pos (.inr hmax)
  have hfull := (boundedRetry_full_iff (configuredLimit_ne_zero _)).2 ⟨u32Max, hconfigured, hall⟩
  rw [← hbound, sendDgramWithRetry_eq (Nat.le_of_eq hmax)] at hfull
  obtain ⟨l, hl, -⟩ := (boundedRetry_full_iff (effectiveLimit_ne_zero _)).1 hfull
  rw [heffective] at hl
  cases hl

/-- **When retry is bounded as configured.** -/
theorem bounded_retry_iff (max : UInt32) (outcomes : List (Except IoError Unit)) :
    BoundedRetry max outcomes ↔ ¬ (max.toNat = u32Max ∧ AllFull u32Max outcomes) := by
  constructor
  · rintro hbounded ⟨hmax, hall⟩
    exact retry_goes_on hmax hall hbounded.daemon
  · intro h
    have hbound : sendDgramWithRetry max.toNat outcomes = boundedRetry (configuredLimit max.toNat) outcomes :=
      (sendDgramWithRetry_eq (toNat_le_u32Max max) outcomes).trans (boundedRetry_effective h)
    refine ⟨hbound, ?_, ?_⟩
    · rintro t setup msg rfl hfits hsocket
      rw [send_eq hfits hsocket, hbound]
    · rintro cfg htransport hexhausted rfl
      rw [forwardCancels_eq_true, ← boundedRetry_full_iff (effectiveLimit_ne_zero _), boundedRetry_effective h,
        boundedRetry_full_iff (configuredLimit_ne_zero _)]
      simp only [htransport, hexhausted, true_and, configuredLimit_eq_some]
      constructor
      · rintro ⟨l, ⟨hne, rfl⟩, hall⟩
        exact ⟨fun h0 => hne (by rw [h0]; rfl), hall⟩
      · rintro ⟨hne, hall⟩
        exact ⟨_, ⟨fun h0 => hne (UInt32.toNat_inj.1 h0), rfl⟩, hall⟩

theorem boundedRetry_none (n : Nat) :
    boundedRetry none (List.replicate n (.error bufferFull) ++ [.ok ()]) = (schedule 1 (n + 1), some (.ok ())) := by
  have hfirst : List.findIdx settles (List.replicate n (.error bufferFull) ++ [.ok ()]) = n := by
    induction n with
    | zero => rfl
    | succ n ih =>
      have hfull : settles (.error bufferFull) = false := rfl
      rw [List.replicate_succ, List.cons_append, List.findIdx_cons, hfull, cond_false, ih]
  simp [boundedRetry, attempts, hfirst]

/-- With `u32::MAX` attempts, all of them on a full buffer, there is one more, and its success is the result. -/
theorem retry_exceeds_u32Max :
    sendDgramWithRetry u32Max (List.replicate u32Max (.error bufferFull) ++ [.ok ()]) =
        (schedule 1 (u32Max + 1), some (.ok ())) ∧
      ¬ BoundedRetry 4294967295 (List.replicate u32Max (.error bufferFull) ++ [.ok ()]) := by
  have hall := allFull_replicate u32Max (o := .error bufferFull) rfl [.ok ()]
  refine ⟨?_, fun h => retry_goes_on rfl hall h.daemon⟩
  rw [sendDgramWithRetry_eq (Nat.le_refl _)]
  exact boundedRetry_none u32Max

end LogFence
