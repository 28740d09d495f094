import LogFence.Daemon.Config

/-!
# Datagram output (`logfence-daemon/src/forwarder.rs`)

| here | there |
| --- | --- |
| `isBufferFull`, `dgramAttemptDelay` | `is_buffer_full`, `dgram_attempt_delay` (`forwarder.rs:39`, `:51`) |
| `retryLoop`, `sendDgramWithRetry`   | `send_dgram_with_retry` (`:74`), and its loop (`:87-96`) |
| `forwardCancels`                    | whether `forward` (`:212-238`) cancels the shutdown token |

What `try_send_to` returns is a list of outcomes, one for each attempt; the result is none if the last of
them is followed by another attempt. `attempt` is a `u32` that saturates.

`boundedRetry` says what the function is for: attempts up to the first outcome that settles the matter, or up
to a limit. `sendDgramWithRetry_eq` says that it is that, with the limit the saturating counter leaves
(`effectiveLimit`); `forwardCancels_eq_true` and `forwardCancels_iff` say when, and with which configurations,
exhausted attempts end in a cancelled token.
-/

namespace LogFence

open Rust

/-! ## The code -/

structure IoError where
  /-- Its kind is `WouldBlock`. -/
  wouldBlock : Bool
  rawOsError : Option Nat
deriving DecidableEq, Repr

def isBufferFull (e : IoError) : Bool := e.wouldBlock || e.rawOsError == some 105 || e.rawOsError == some 55

def u32Max : Nat := 2 ^ 32 - 1
def u64Max : Nat := 2 ^ 64 - 1

/-- In microseconds. -/
def dgramAttemptDelay (attempt : Nat) : Nat :=
  let shift := attempt - 2
  let micros := if shift < 64 then min u64Max (100 * 2 ^ shift) else u64Max
  min micros 1000000

inductive RetryEvent where
  | sleep (micros : Nat)
  | send
deriving DecidableEq, Repr

def retryLoop (maxAttempts : Nat) : Nat → IoError → List (Except IoError Unit) →
    List RetryEvent × Option (Except IoError Unit)
  | attempt, lastErr, outcomes =>
    if maxAttempts ≠ 0 ∧ attempt > maxAttempts then ([], some (.error lastErr))
    else
      match outcomes with
      | [] => ([], none)
      | .ok () :: _ => ([.sleep (dgramAttemptDelay attempt), .send], some (.ok ()))
      | .error e :: rest =>
        if !isBufferFull e then ([.sleep (dgramAttemptDelay attempt), .send], some (.error e))
        else
          let (events, result) := retryLoop maxAttempts (min (attempt + 1) u32Max) e rest
          (.sleep (dgramAttemptDelay attempt) :: .send :: events, result)

def sendDgramWithRetry (maxAttempts : Nat) (outcomes : List (Except IoError Unit)) :
    List RetryEvent × Option (Except IoError Unit) :=
  match outcomes with
  | [] => ([], none)
  | .ok () :: _ => ([.send], some (.ok ()))
  | .error e :: rest =>
    if !isBufferFull e then ([.send], some (.error e))
    else
      let (events, result) := retryLoop maxAttempts 2 e rest
      (.send :: events, result)

def forwardCancels (cfg : RsyslogConfig) (outcomes : List (Except IoError Unit)) : Bool :=
  match cfg.transport with
  | .unixStream => false
  | .unixDgram =>
    match (sendDgramWithRetry cfg.dgramMaxAttempts.toNat outcomes).2 with
    | some (.error e) => isBufferFull e && cfg.dgramExhausted == .terminate
    | _ => false

/-! ## The schedule -/

/-- An outcome after which there is no further attempt. -/
def settles : Except IoError Unit → Bool
  | .ok () => true
  | .error e => !isBufferFull e

/-- Before attempt `n`, in microseconds. -/
def delay (n : Nat) : Nat := min 1000000 (100 * 2 ^ (n - 2))

def attemptEvents (n : Nat) : List RetryEvent := if n < 2 then [.send] else [.sleep (delay n), .send]

/-- Attempts `n`, `n + 1`, and so on, `k` of them. -/
def schedule (n k : Nat) : List RetryEvent := (List.range' n k).flatMap attemptEvents

/-- How many attempts it takes: up to the first outcome that settles, and no more than the limit. -/
def attempts (limit : Option Nat) (outcomes : List (Except IoError Unit)) : Nat :=
  match limit with
  | none => outcomes.findIdx settles + 1
  | some l => min (outcomes.findIdx settles + 1) l

/-- Bounded retry: the attempts the outcomes at hand allow, and the outcome of the last attempt if it is there. -/
def boundedRetry (limit : Option Nat) (outcomes : List (Except IoError Unit)) :
    List RetryEvent × Option (Except IoError Unit) :=
  (schedule 1 (min (attempts limit outcomes) outcomes.length), outcomes[attempts limit outcomes - 1]?)

/-- The limit a configured number of attempts stands for. -/
def configuredLimit (maxAttempts : Nat) : Option Nat := if maxAttempts = 0 then none else some maxAttempts

/-- The limit it has: a counter that saturates at `u32::MAX` is never above it. -/
def effectiveLimit (maxAttempts : Nat) : Option Nat :=
  if maxAttempts = 0 ∨ maxAttempts = u32Max then none else some maxAttempts

theorem delay_of_ge {n : Nat} (h : 16 ≤ n) : delay n = 1000000 := by
  have hpow : 2 ^ 14 ≤ 2 ^ (n - 2) := Nat.pow_le_pow_right (by decide) (by omega)
  unfold delay
  omega

/-- **The delay**, with no overflow at any attempt. -/
theorem dgramAttemptDelay_eq (attempt : Nat) : dgramAttemptDelay attempt = delay attempt := by
  unfold dgramAttemptDelay
  by_cases hshift : attempt - 2 < 64
  · simp only [hshift, ↓reduceIte, delay, u64Max]
    omega
  · simp only [hshift, ↓reduceIte, u64Max]
    rw [delay_of_ge (by omega)]
    decide

/-- A counter that has saturated is as good as the number of the attempt. -/
theorem delay_saturated (n : Nat) : delay (min n u32Max) = delay n := by
  by_cases hn : n ≤ u32Max
  · rw [Nat.min_eq_left hn]
  · have hmax : 16 ≤ u32Max := by decide
    rw [delay_of_ge (by omega), delay_of_ge (by omega)]

theorem schedule_succ (n k : Nat) : schedule n (k + 1) = attemptEvents n ++ schedule (n + 1) k := by
  rw [schedule, List.range'_succ, List.flatMap_cons]
  rfl

/-- One attempt, when there is an outcome for it. -/
theorem schedule_one (n : Nat) (r : Except IoError Unit) (rest : List (Except IoError Unit)) :
    schedule n (min 1 (r :: rest).length) = attemptEvents n := by
  rw [List.length_cons, Nat.min_eq_left (by omega), schedule_succ]
  exact List.append_nil _

theorem attemptEvents_saturated {n : Nat} (hn : 2 ≤ n) :
    attemptEvents n = [.sleep (dgramAttemptDelay (min n u32Max)), .send] := by
  rw [attemptEvents, if_neg (by omega), dgramAttemptDelay_eq, delay_saturated]

section
variable {limit : Option Nat} {r : Except IoError Unit} {outcomes : List (Except IoError Unit)}

theorem attempts_zero : attempts (some 0) outcomes = 0 := Nat.min_zero _

theorem attempts_nil (hl : limit ≠ some 0) : attempts limit [] = 1 := by
  cases limit with
  | none => rfl
  | some l =>
    have : l ≠ 0 := fun h => hl (by rw [h])
    simp only [attempts, List.findIdx_nil]
    omega

theorem attempts_settles (hl : limit ≠ some 0) (hr : settles r = true) : attempts limit (r :: outcomes) = 1 := by
  cases limit with
  | none => simp [attempts, List.findIdx_cons, hr]
  | some l =>
    have : l ≠ 0 := fun h => hl (by rw [h])
    simp only [attempts, List.findIdx_cons, hr, cond_true]
    omega

theorem attempts_full (hl : limit ≠ some 0) (hr : settles r = false) :
    attempts limit (r :: outcomes) = attempts (limit.map (· - 1)) outcomes + 1 := by
  cases limit with
  | none => simp [attempts, List.findIdx_cons, hr]
  | some l =>
    have : l ≠ 0 := fun h => hl (by rw [h])
    simp only [attempts, List.findIdx_cons, hr, cond_false, Option.map_some]
    omega

end

theorem effectiveLimit_ne_zero (maxAttempts : Nat) : effectiveLimit maxAttempts ≠ some 0 := by
  unfold effectiveLimit
  split
  · simp
  · rename_i h
    push Not at h
    simpa using h.1

/-- The loop's exit is the limit, the counter being where `n` attempts have brought it. -/
theorem exhausted_iff {maxAttempts n : Nat} (hmax : maxAttempts ≤ u32Max) :
    (maxAttempts ≠ 0 ∧ min n u32Max > maxAttempts) ↔ (effectiveLimit maxAttempts).map (· + 1 - n) = some 0 := by
  unfold effectiveLimit
  split
  · simp only [Option.map_none, reduceCtorEq, iff_false]
    omega
  · simp only [Option.map_some, Option.some.injEq]
    omega

/-- **The loop**, before attempt `n` with `lastErr` of the one before: as many attempts as are left, and the
    outcome of the last. -/
theorem retryLoop_eq {maxAttempts : Nat} (hmax : maxAttempts ≤ u32Max) (outcomes : List (Except IoError Unit))
    {n : Nat} (hn : 2 ≤ n) (lastErr : IoError) :
    retryLoop maxAttempts (min n u32Max) lastErr outcomes =
      (schedule n (min (attempts ((effectiveLimit maxAttempts).map (· + 1 - n)) outcomes) outcomes.length),
        (.error lastErr :: outcomes)[attempts ((effectiveLimit maxAttempts).map (· + 1 - n)) outcomes]?) := by
  induction outcomes generalizing n lastErr with
  | nil =>
    unfold retryLoop
    by_cases hex : maxAttempts ≠ 0 ∧ min n u32Max > maxAttempts
    · rw [if_pos hex, (exhausted_iff hmax).1 hex, attempts_zero]
      rfl
    · rw [if_neg hex, attempts_nil (mt (exhausted_iff hmax).2 hex)]
      rfl
  | cons r rest ih =>
    unfold retryLoop
    by_cases hex : maxAttempts ≠ 0 ∧ min n u32Max > maxAttempts
    · rw [if_pos hex, (exhausted_iff hmax).1 hex, attempts_zero, Nat.zero_min]
      rfl
    · have hl := mt (exhausted_iff hmax).2 hex
      rw [if_neg hex]
      cases r with
      | ok =>
        rw [attempts_settles hl rfl, schedule_one, attemptEvents_saturated hn]
        rfl
      | error e =>
        cases hfull : isBufferFull e with
        | false =>
          rw [attempts_settles hl (by simp [settles, hfull]), schedule_one, attemptEvents_saturated hn]
          simp [hfull]
        | true =>
          have hleft : ((effectiveLimit maxAttempts).map (· + 1 - n)).map (· - 1) =
              (effectiveLimit maxAttempts).map (· + 1 - (n + 1)) := Option.map_map ..
          have hnext : min (min n u32Max + 1) u32Max = min (n + 1) u32Max := by omega
          rw [attempts_full hl (by simp [settles, hfull]), hleft, List.length_cons, Nat.add_min_add_right, schedule_succ,
            attemptEvents_saturated hn]
          simp only [hfull, Bool.not_true, Bool.false_eq_true, ↓reduceIte, hnext, ih (by omega : 2 ≤ n + 1)]
          rfl

/-- **`send_dgram_with_retry` is bounded retry**, with the limit it has. -/
theorem sendDgramWithRetry_eq {maxAttempts : Nat} (hmax : maxAttempts ≤ u32Max) (outcomes : List (Except IoError Unit)) :
    sendDgramWithRetry maxAttempts outcomes = boundedRetry (effectiveLimit maxAttempts) outcomes := by
  have hl := effectiveLimit_ne_zero maxAttempts
  unfold sendDgramWithRetry boundedRetry
  cases outcomes with
  | nil =>
    rw [attempts_nil hl]
    rfl
  | cons r rest =>
    cases r with
    | ok =>
      rw [attempts_settles hl rfl, schedule_one]
      rfl
    | error e =>
      cases hfull : isBufferFull e with
      | false =>
        rw [attempts_settles hl (by simp [settles, hfull]), schedule_one]
        simp [hfull, attemptEvents]
      | true =>
        have hleft : (effectiveLimit maxAttempts).map (· + 1 - 2) = (effectiveLimit maxAttempts).map (· - 1) := rfl
        have htwo : min 2 u32Max = 2 := by decide
        have hloop := retryLoop_eq hmax rest (Nat.le_refl 2) e
        rw [htwo, hleft] at hloop
        rw [attempts_full hl (by simp [settles, hfull]), List.length_cons, Nat.add_min_add_right, schedule_succ]
        simp only [hfull, Bool.not_true, Bool.false_eq_true, ↓reduceIte, hloop]
        rfl

/-! ## Exhaustion -/

/-- The first `n` attempts have met a full buffer. -/
def AllFull (n : Nat) (outcomes : List (Except IoError Unit)) : Prop :=
  n ≤ outcomes.length ∧ ∀ o ∈ outcomes.take n, settles o = false

theorem allFull_iff {n : Nat} {outcomes : List (Except IoError Unit)} :
    AllFull n outcomes ↔ n ≤ outcomes.findIdx settles := by
  constructor
  · rintro ⟨hlen, hfull⟩
    by_contra hlt
    have hidx : outcomes.findIdx settles < outcomes.length := by omega
    have hmem : outcomes[outcomes.findIdx settles] ∈ outcomes.take n :=
      List.mem_take_iff_getElem.2 ⟨_, by omega, rfl⟩
    have hsettled : settles outcomes[outcomes.findIdx settles] = true := List.findIdx_getElem
    rw [hfull _ hmem] at hsettled
    cases hsettled
  · intro h
    refine ⟨h.trans List.findIdx_le_length, fun o ho => ?_⟩
    obtain ⟨i, hi, rfl⟩ := List.mem_take_iff_getElem.1 ho
    simpa using List.not_of_lt_findIdx (by omega : i < outcomes.findIdx settles)

theorem allFull_replicate (n : Nat) {o : Except IoError Unit} (ho : settles o = false) (rest : List (Except IoError Unit)) :
    AllFull n (List.replicate n o ++ rest) := by
  refine ⟨by simp, fun o' ho' => ?_⟩
  rw [List.take_append_of_le_length (by simp), List.take_of_length_le (by simp)] at ho'
  rw [List.eq_of_mem_replicate ho', ho]

/-- Bounded retry ends on a full buffer exactly if its attempts are used up. -/
theorem boundedRetry_full_iff {limit : Option Nat} (hl : limit ≠ some 0) {outcomes : List (Except IoError Unit)} :
    (∃ e, (boundedRetry limit outcomes).2 = some (.error e) ∧ isBufferFull e = true) ↔
      ∃ l, limit = some l ∧ AllFull l outcomes := by
  have hsettled : ∀ o, outcomes[outcomes.findIdx settles]? = some o → settles o = true := by
    intro o ho
    obtain ⟨hlt, rfl⟩ := List.getElem?_eq_some_iff.1 ho
    exact List.findIdx_getElem
  unfold boundedRetry
  constructor
  · rintro ⟨e, he, hfull⟩
    have hno : settles (.error e) = false := by simp [settles, hfull]
    have hne : attempts limit outcomes - 1 ≠ outcomes.findIdx settles := by
      intro heq
      rw [hsettled _ (heq ▸ he)] at hno
      cases hno
    cases limit with
    | none => exact absurd (Nat.add_sub_cancel _ _) hne
    | some l =>
      refine ⟨l, rfl, allFull_iff.2 ?_⟩
      simp only [attempts] at hne
      omega
  · rintro ⟨l, rfl, hall⟩
    have hpos : l ≠ 0 := fun h => hl (by rw [h])
    have hidx := allFull_iff.1 hall
    have hlast : attempts (some l) outcomes - 1 = l - 1 := by
      simp only [attempts]
      omega
    have hlt : l - 1 < outcomes.length := by have := hall.1; omega
    have hno := hall.2 _ (List.mem_take_iff_getElem.2 ⟨l - 1, by omega, rfl⟩)
    rw [hlast, List.getElem?_eq_getElem hlt]
    cases ho : outcomes[l - 1] with
    | ok => rw [ho] at hno; cases hno
    | error e => exact ⟨e, rfl, by simpa [ho, settles] using hno⟩

/-- **When `forward` cancels the token.** -/
theorem forwardCancels_eq_true {cfg : RsyslogConfig} {outcomes : List (Except IoError Unit)} :
    forwardCancels cfg outcomes = true ↔ cfg.transport = .unixDgram ∧ cfg.dgramExhausted = .terminate ∧
      ∃ l, effectiveLimit cfg.dgramMaxAttempts.toNat = some l ∧ AllFull l outcomes := by
  have hmax : cfg.dgramMaxAttempts.toNat ≤ u32Max := Nat.le_sub_one_of_lt cfg.dgramMaxAttempts.toNat_lt
  rw [← boundedRetry_full_iff (effectiveLimit_ne_zero _), ← sendDgramWithRetry_eq hmax]
  unfold forwardCancels
  cases cfg.transport with
  | unixStream => simp
  | unixDgram =>
    rcases (sendDgramWithRetry cfg.dgramMaxAttempts.toNat outcomes).2 with _ | _ | _ <;> simp [and_comm]

/-- A configuration with which `forward` can give up, and takes the daemon down when it does. -/
def CanTerminate (cfg : RsyslogConfig) : Prop :=
  cfg.transport = .unixDgram ∧ cfg.dgramExhausted = .terminate ∧ cfg.dgramMaxAttempts ≠ 0 ∧
    cfg.dgramMaxAttempts.toNat < u32Max

/-- `EAGAIN`. -/
def bufferFull : IoError := ⟨true, none⟩

theorem CanTerminate.effectiveLimit {cfg : RsyslogConfig} (h : CanTerminate cfg) :
    effectiveLimit cfg.dgramMaxAttempts.toNat = some cfg.dgramMaxAttempts.toNat := by
  obtain ⟨-, -, hne, hlt⟩ := h
  refine if_neg ?_
  rintro (h0 | h0)
  · exact hne (UInt32.toNat_inj.1 h0)
  · omega

theorem forwardCancels_replicate {cfg : RsyslogConfig} (h : CanTerminate cfg) :
    forwardCancels cfg (List.replicate cfg.dgramMaxAttempts.toNat (.error bufferFull)) = true := by
  have hall := allFull_replicate cfg.dgramMaxAttempts.toNat (o := .error bufferFull) rfl []
  rw [List.append_nil] at hall
  exact forwardCancels_eq_true.2 ⟨h.1, h.2.1, _, h.effectiveLimit, hall⟩

/-- **Which configurations can cancel the token.** -/
theorem forwardCancels_iff {cfg : RsyslogConfig} : (∃ outcomes, forwardCancels cfg outcomes = true) ↔ CanTerminate cfg := by
  constructor
  · rintro ⟨outcomes, h⟩
    obtain ⟨htransport, hexhausted, l, hl, -⟩ := forwardCancels_eq_true.1 h
    have hmax : cfg.dgramMaxAttempts.toNat ≤ u32Max := Nat.le_sub_one_of_lt cfg.dgramMaxAttempts.toNat_lt
    unfold effectiveLimit at hl
    split at hl
    · cases hl
    · rename_i hlimit
      push Not at hlimit
      exact ⟨htransport, hexhausted, fun h0 => hlimit.1 (by rw [h0]; rfl), by omega⟩
  · intro h
    exact ⟨_, forwardCancels_replicate h⟩

end LogFence
