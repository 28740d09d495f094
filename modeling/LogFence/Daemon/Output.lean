import LogFence.Daemon.Forwarder
import LogFence.Daemon.Retry

/-!
# A clone of the forwarder at work (`logfence-daemon/src/forwarder.rs:74-262`)

| here | there |
| --- | --- |
| `DgramPlace`, `DgramPlace.tried` | where a call of `send_dgram_with_retry` (`:74`) is, and what follows an attempt |
| `DgramSender`   | a clone with datagram output: the call it is in, and those that have returned |
| `Inner`         | `Inner` (`:147`), one clone of it |
| `Inner.call`, `Inner.step` | `forward` (`:212`): its beginning, and what happens between two of its `.await`s |
| `Effect`        | what a step does outside: a datagram in rsyslog's queue, or a cancelled token (`:228-235`) |

The clones of a datagram forwarder share one unconnected socket, which keeps nothing of a call: a clone is what
its caller is doing with it. The callers of this daemon wait for `forward` before they call it again. The system
takes a datagram whole or not at all, and `try_send_to` says which.

`DgramCall.At`, `DgramCall.Returned` tie the calls, however their attempts fall among those of other clones, to
`sendDgramWithRetry`, the function of the outcomes alone; `Inner.Ok` is what a caller needs of either output.
-/

namespace LogFence

open Rust

/-! ## The code -/

inductive DgramPlace where
  /-- Before the first `try_send_to`. -/
  | entered
  /-- In the `sleep` before attempt `attempt`. -/
  | sleeping (attempt : Nat) (lastErr : IoError)
deriving DecidableEq, Repr

namespace DgramPlace

/-- The number of the attempt after the next (`forwarder.rs:86`, `:96`). -/
def following : DgramPlace → Nat
  | .entered => 2
  | .sleeping attempt _ => min (attempt + 1) u32Max

/-- What an attempt leads to: its call sleeps, or returns. -/
def tried (maxAttempts : Nat) (place : DgramPlace) : Except IoError Unit → DgramPlace ⊕ Except IoError Unit
  | .ok () => .inr (.ok ())
  | .error e =>
    if !isBufferFull e then .inr (.error e)
    else if maxAttempts ≠ 0 ∧ place.following > maxAttempts then .inr (.error e)
    else .inl (.sleeping place.following e)

/-- What its call does with the next attempt. -/
def events : DgramPlace → List RetryEvent
  | .entered => [.send]
  | .sleeping attempt _ => [.sleep (dgramAttemptDelay attempt), .send]

end DgramPlace

/-- A call of `send_dgram_with_retry`, with what its attempts have returned and what it has done. -/
structure DgramCall where
  msg : SyslogMessage
  outcomes : List (Except IoError Unit)
  events : List RetryEvent

def DgramCall.attempt (c : DgramCall) (place : DgramPlace) (r : Except IoError Unit) : DgramCall :=
  { c with outcomes := c.outcomes ++ [r], events := c.events ++ place.events }

structure DgramSender where
  past : List (DgramCall × Except IoError Unit)
  current : Option (DgramCall × DgramPlace)

inductive Effect where
  | datagram (bytes : Bytes)
  | cancel

/-- What `forward` does with the result. -/
def Effect.ofResult (cfg : RsyslogConfig) (msg : SyslogMessage) : Except IoError Unit → Option Effect
  | .ok () => some (.datagram (utf8 msg.toStr))
  | .error e => if isBufferFull e && cfg.dgramExhausted == .terminate then some .cancel else none

def DgramSender.attempt (cfg : RsyslogConfig) (s : DgramSender) (r : Except IoError Unit) :
    Option (DgramSender × Option Effect) :=
  match s.current with
  | none => none
  | some (c, place) =>
    match place.tried cfg.dgramMaxAttempts.toNat r with
    | .inl place' => some ({ s with current := some (c.attempt place r, place') }, none)
    | .inr result => some (⟨s.past ++ [(c.attempt place r, result)], none⟩, Effect.ofResult cfg c.msg result)

inductive Inner where
  | unixDgram (sender : DgramSender)
  | unixStream (slot : Slot UInt8)

inductive InnerAction where
  /-- A `try_send_to` returns. -/
  | attempt (r : Except IoError Unit)
  | slot (a : SlotAction UInt8)

namespace Inner

/-- A clone: the socket is shared, a connection is not. -/
def new (cfg : RsyslogConfig) : Inner :=
  match cfg.transport with
  | .unixDgram => .unixDgram ⟨[], none⟩
  | .unixStream => .unixStream .empty

def call (msg : SyslogMessage) : Inner → Option Inner
  | .unixDgram s => if s.current.isNone then some (.unixDgram { s with current := some (⟨msg, [], []⟩, .entered) }) else none
  | .unixStream slot => (slot.step (.call (forwarderFrame msg))).map .unixStream

def step (cfg : RsyslogConfig) : Inner → InnerAction → Option (Inner × Option Effect)
  | .unixDgram s, .attempt r => (s.attempt cfg r).map fun x => (.unixDgram x.1, x.2)
  | .unixStream slot, .slot a => if isProgress a then (slot.step a).map fun slot => (.unixStream slot, none) else none
  | _, _ => none

/-- Whether a call has not returned. -/
def busy : Inner → Bool
  | .unixDgram s => s.current.isSome
  | .unixStream slot => slot.results.length != slot.frames.length

/-- The results of the calls that have returned, in order. -/
def returned : Inner → List Bool
  | .unixDgram s => s.past.map fun x => x.2.isOk
  | .unixStream slot => slot.results.map Prod.snd

end Inner

/-! ## Attempt by attempt -/

/-- What `send_dgram_with_retry` does from here on with the outcomes to come. -/
def DgramPlace.resume (maxAttempts : Nat) : DgramPlace → List (Except IoError Unit) →
    List RetryEvent × Option (Except IoError Unit)
  | .entered => sendDgramWithRetry maxAttempts
  | .sleeping attempt lastErr => retryLoop maxAttempts attempt lastErr

/-- The call sleeps only if an attempt is left. -/
def DgramPlace.Left (maxAttempts : Nat) : DgramPlace → Prop
  | .entered => True
  | .sleeping attempt _ => ¬ (maxAttempts ≠ 0 ∧ attempt > maxAttempts)

/-- After `k` attempts. -/
def DgramPlace.After (k : Nat) : DgramPlace → Prop
  | .entered => k = 0
  | .sleeping attempt _ => 1 ≤ k ∧ attempt = min (k + 1) u32Max

section
variable {maxAttempts : Nat} {place place' : DgramPlace} {r result : Except IoError Unit}

theorem DgramPlace.resume_cons (hleft : place.Left maxAttempts) (rest : List (Except IoError Unit)) :
    place.resume maxAttempts (r :: rest) =
      match place.tried maxAttempts r with
      | .inl place' => (place.events ++ (place'.resume maxAttempts rest).1, (place'.resume maxAttempts rest).2)
      | .inr result => (place.events, some result) := by
  -- a loop that has no attempt left returns the error before it
  have hloop : ∀ attempt e, maxAttempts ≠ 0 ∧ attempt > maxAttempts →
      retryLoop maxAttempts attempt e rest = ([], some (.error e)) := by
    intro attempt e h
    unfold retryLoop
    rw [if_pos h]
  cases r with
  | ok =>
    cases place with
    | entered => rfl
    | sleeping attempt lastErr =>
      simp only [resume]
      unfold retryLoop
      rw [if_neg hleft]
      rfl
  | error e =>
    have hnext : place.resume maxAttempts (.error e :: rest) =
        if !isBufferFull e then (place.events, some (.error e))
        else (place.events ++ (retryLoop maxAttempts place.following e rest).1, (retryLoop maxAttempts place.following e rest).2) := by
      cases place with
      | entered => rfl
      | sleeping attempt lastErr =>
        simp only [resume]
        conv_lhs => unfold retryLoop
        rw [if_neg hleft]
        rfl
    rw [hnext]
    simp only [tried]
    by_cases hfull : (!isBufferFull e) = true
    · rw [if_pos hfull, if_pos hfull]
    · rw [if_neg hfull, if_neg hfull]
      by_cases hex : maxAttempts ≠ 0 ∧ place.following > maxAttempts
      · rw [if_pos hex, hloop _ e hex]
        simp
      · rw [if_neg hex]
        rfl

theorem DgramPlace.left_of_tried (h : place.tried maxAttempts r = .inl place') : place'.Left maxAttempts := by
  cases r with
  | ok => cases h
  | error e =>
    simp only [tried] at h
    split at h
    · cases h
    · split at h
      · cases h
      · rename_i hex
        cases h
        exact hex

theorem DgramPlace.After.tried {k : Nat} (hk : place.After k) (h : place.tried maxAttempts r = .inl place') :
    place'.After (k + 1) := by
  have hfollow : place.following = min (k + 1 + 1) u32Max := by
    cases place with
    | entered =>
      obtain rfl : k = 0 := hk
      rfl
    | sleeping attempt e =>
      obtain ⟨-, rfl⟩ := hk
      simp only [following]
      omega
  cases r with
  | ok => cases h
  | error e =>
    simp only [DgramPlace.tried] at h
    split at h
    · cases h
    · split at h
      · cases h
      · cases h
        exact ⟨by omega, hfollow⟩

theorem schedule_snoc (k : Nat) : schedule 1 (k + 1) = schedule 1 k ++ attemptEvents (k + 1) := by
  rw [schedule, List.range'_1_concat, List.flatMap_append, Nat.add_comm 1 k]
  simp [schedule]

theorem DgramPlace.After.events {k : Nat} (hk : place.After k) : place.events = attemptEvents (k + 1) := by
  cases place with
  | entered =>
    obtain rfl : k = 0 := hk
    rfl
  | sleeping attempt e =>
    obtain ⟨hpos, rfl⟩ := hk
    rw [attemptEvents_saturated (by omega)]
    rfl

/-- One more attempt is within the limit. -/
theorem DgramPlace.After.lt_limit (hmax : maxAttempts ≤ u32Max) {k : Nat} (hk : place.After k)
    (hleft : place.Left maxAttempts) {l : Nat} (hl : effectiveLimit maxAttempts = some l) : k < l := by
  have hpos := effectiveLimit_ne_zero maxAttempts
  rw [hl] at hpos
  unfold effectiveLimit at hl
  split at hl
  · cases hl
  · rename_i hne
    cases hl
    cases place with
    | entered =>
      obtain rfl : k = 0 := hk
      exact Nat.pos_of_ne_zero fun h => hpos (by rw [h])
    | sleeping attempt e =>
      obtain ⟨-, rfl⟩ := hk
      simp only [DgramPlace.Left] at hleft
      omega

end

namespace DgramCall

variable {maxAttempts : Nat} {c : DgramCall} {place place' : DgramPlace} {r result : Except IoError Unit}

/-- A call that is at `place` has done what `send_dgram_with_retry` does with the outcomes so far. -/
structure At (maxAttempts : Nat) (c : DgramCall) (place : DgramPlace) : Prop where
  left : place.Left maxAttempts
  after : place.After c.outcomes.length
  events : c.events = schedule 1 c.outcomes.length
  resumes : ∀ rest, sendDgramWithRetry maxAttempts (c.outcomes ++ rest) =
    (c.events ++ (place.resume maxAttempts rest).1, (place.resume maxAttempts rest).2)

/-- A call that has returned has made the attempts, and returned the result, of `send_dgram_with_retry`. -/
structure Returned (maxAttempts : Nat) (c : DgramCall) (result : Except IoError Unit) : Prop where
  sends : sendDgramWithRetry maxAttempts c.outcomes = (c.events, some result)
  events : c.events = schedule 1 c.outcomes.length
  limit : ∀ l, effectiveLimit maxAttempts = some l → c.outcomes.length ≤ l

theorem At.start (msg : SyslogMessage) : At maxAttempts ⟨msg, [], []⟩ .entered :=
  ⟨trivial, rfl, rfl, fun _ => rfl⟩

theorem At.attempt_events (h : c.At maxAttempts place) (r : Except IoError Unit) :
    (c.attempt place r).events = schedule 1 (c.attempt place r).outcomes.length := by
  simp only [DgramCall.attempt, List.length_append, List.length_singleton, schedule_snoc, h.events, h.after.events]

theorem At.sleeps (h : c.At maxAttempts place) (ht : place.tried maxAttempts r = .inl place') :
    (c.attempt place r).At maxAttempts place' := by
  refine ⟨DgramPlace.left_of_tried ht, ?_, h.attempt_events r, fun rest => ?_⟩
  · simp only [DgramCall.attempt, List.length_append, List.length_singleton]
    exact h.after.tried ht
  · simp only [DgramCall.attempt, List.append_assoc, List.singleton_append]
    rw [h.resumes (r :: rest), DgramPlace.resume_cons h.left, ht]

theorem At.returns (hmax : maxAttempts ≤ u32Max) (h : c.At maxAttempts place) (ht : place.tried maxAttempts r = .inr result) :
    (c.attempt place r).Returned maxAttempts result := by
  refine ⟨?_, h.attempt_events r, fun l hl => ?_⟩
  · simp only [DgramCall.attempt]
    rw [h.resumes [r], DgramPlace.resume_cons h.left, ht]
  · simp only [DgramCall.attempt, List.length_append, List.length_singleton]
    exact h.after.lt_limit hmax h.left hl

end DgramCall

/-! ## What a caller has of it -/

namespace Effect

/-- The datagrams of an effect. -/
def datagrams : Option Effect → List Bytes
  | some (.datagram bytes) => [bytes]
  | _ => []

def cancels : Option Effect → Bool
  | some .cancel => true
  | _ => false

end Effect

/-- The clone's calls are `sent`, in order, and each is as `send_dgram_with_retry` has it. -/
structure DgramSender.Ok (cfg : RsyslogConfig) (sent : List SyslogMessage) (s : DgramSender) : Prop where
  transport : cfg.transport = .unixDgram
  sent : s.past.map (fun x => x.1.msg) ++ (s.current.map fun x => x.1.msg).toList = sent
  past : ∀ x ∈ s.past, x.1.Returned cfg.dgramMaxAttempts.toNat x.2
  current : ∀ c place, s.current = some (c, place) → c.At cfg.dgramMaxAttempts.toNat place

/-- The slot's frames are those of `sent`, and no call was dropped. -/
structure StreamOk (sent : List SyslogMessage) (slot : Slot UInt8) : Prop where
  inv : slot.Inv
  order : slot.order = List.range slot.frames.length
  frames : slot.frames = sent.map forwarderFrame

namespace Inner

def Ok (cfg : RsyslogConfig) (sent : List SyslogMessage) : Inner → Prop
  | .unixDgram s => s.Ok cfg sent
  | .unixStream slot => StreamOk sent slot

/-- The datagrams it has put into rsyslog's queue. -/
def delivered : Inner → List Bytes
  | .unixDgram s => (s.past.filter fun x => x.2.isOk).map fun x => utf8 x.1.msg.toStr
  | .unixStream _ => []

/-- Whether a call of it has cancelled the token. -/
def cancelled (cfg : RsyslogConfig) : Inner → Bool
  | .unixDgram s => s.past.any fun x => forwardCancels cfg x.1.outcomes
  | .unixStream _ => false

end Inner

theorem DgramCall.Returned.cancels {cfg : RsyslogConfig} (hdgram : cfg.transport = .unixDgram) {c : DgramCall}
    {result : Except IoError Unit} (h : c.Returned cfg.dgramMaxAttempts.toNat result) (msg : SyslogMessage) :
    forwardCancels cfg c.outcomes = Effect.cancels (Effect.ofResult cfg msg result) := by
  simp only [forwardCancels, hdgram, h.sends]
  cases result with
  | ok => rfl
  | error e =>
    simp only [Effect.ofResult]
    cases isBufferFull e && cfg.dgramExhausted == .terminate <;> rfl

namespace Inner

variable {cfg : RsyslogConfig} {sent : List SyslogMessage} {o o' : Inner}

theorem Ok.new : (new cfg).Ok cfg [] := by
  cases ht : cfg.transport with
  | unixDgram =>
    simp only [Inner.new, ht]
    exact ⟨ht, rfl, (fun x hx => nomatch hx), fun c place h => nomatch h⟩
  | unixStream =>
    simp only [Inner.new, ht]
    exact ⟨Slot.Inv.empty, rfl, rfl⟩

theorem Ok.call (hok : o.Ok cfg sent) {msg : SyslogMessage} (h : o.call msg = some o') :
    o'.Ok cfg (sent ++ [msg]) ∧ o'.returned = o.returned ∧ o'.delivered = o.delivered ∧ o'.cancelled cfg = o.cancelled cfg := by
  cases o with
  | unixDgram s =>
    simp only [Inner.call] at h
    split at h
    · rename_i hnone
      cases h
      rw [Option.isNone_iff_eq_none] at hnone
      have hsent := hok.sent
      rw [hnone] at hsent
      refine ⟨⟨hok.transport, ?_, hok.past, fun c place hc => ?_⟩, rfl, rfl, rfl⟩
      · rw [← hsent]
        simp
      · cases hc
        exact .start msg
    · cases h
  | unixStream slot =>
    obtain ⟨slot', hs, rfl⟩ := Option.map_eq_some_iff.1 h
    have hinv := Slot.step_inv hok.inv hs rfl
    cases Slot.steps_of_step hs with
    | call =>
      refine ⟨⟨hinv, ?_, ?_⟩, rfl, rfl, rfl⟩
      · have happ : ∀ q : List Nat, Slot.order { slot with frames := slot.frames ++ [forwarderFrame msg], queue := slot.queue ++ q } =
            slot.order ++ q := by intro q; simp [Slot.order]
        rw [happ, hok.order, List.length_append, List.length_singleton, List.range_succ]
      · rw [hok.frames, List.map_append, List.map_singleton]

theorem isProgress_ne {a : SlotAction UInt8} (h : isProgress a = true) : (∀ f, a ≠ .call f) ∧ ∀ k, a ≠ .drop k := by
  cases a <;> simp_all [isProgress]

/-- **A step of the output.** Its results stay, and what it does outside is what the calls that have returned
    account for. -/
theorem Ok.step (hok : o.Ok cfg sent) {a : InnerAction} {e : Option Effect} (h : o.step cfg a = some (o', e)) :
    o'.Ok cfg sent ∧ o.returned <+: o'.returned ∧ o'.delivered = o.delivered ++ Effect.datagrams e ∧
      o'.cancelled cfg = (o.cancelled cfg || Effect.cancels e) := by
  cases o with
  | unixDgram s =>
    cases a with
    | slot a => cases h
    | attempt r =>
      obtain ⟨⟨s', e'⟩, hs, heq⟩ := Option.map_eq_some_iff.1 h
      cases heq
      obtain ⟨c, place, hcur⟩ : ∃ c place, s.current = some (c, place) := by
        cases hcur : s.current with
        | none => simp [DgramSender.attempt, hcur] at hs
        | some x => exact ⟨x.1, x.2, rfl⟩
      have hat := hok.current c place hcur
      have hsent := hok.sent
      rw [hcur] at hsent
      simp only [DgramSender.attempt, hcur] at hs
      cases ht : place.tried cfg.dgramMaxAttempts.toNat r with
      | inl place' =>
        rw [ht] at hs
        cases hs
        refine ⟨⟨hok.transport, hsent, hok.past, fun c' p hc => ?_⟩, List.prefix_rfl, (List.append_nil _).symm, (Bool.or_false _).symm⟩
        cases hc
        exact hat.sleeps ht
      | inr result =>
        rw [ht] at hs
        cases hs
        have hret := hat.returns (Nat.le_sub_one_of_lt (UInt32.toNat_lt _)) ht
        refine ⟨⟨hok.transport, ?_, ?_, fun c' p hc => nomatch hc⟩, ?_, ?_, ?_⟩
        · rw [← hsent]
          simp [DgramCall.attempt]
        · intro x hx
          rcases List.mem_append.1 hx with hx | hx
          · exact hok.past x hx
          · rw [List.mem_singleton.1 hx]
            exact hret
        · simp [returned]
        · cases result with
          | ok => simp [delivered, Except.isOk, Except.toBool, Effect.ofResult, Effect.datagrams, DgramCall.attempt]
          | error e =>
            simp only [delivered, List.filter_append, List.map_append, Effect.ofResult]
            congr 1
            cases isBufferFull e && cfg.dgramExhausted == .terminate <;> rfl
        · simp only [cancelled, List.any_append, List.any_cons, List.any_nil, Bool.or_false,
            hret.cancels hok.transport c.msg]
  | unixStream slot =>
    cases a with
    | attempt r => cases h
    | slot a =>
      simp only [Inner.step] at h
      split at h
      · rename_i ha
        obtain ⟨slot', hs, heq⟩ := Option.map_eq_some_iff.1 h
        cases heq
        obtain ⟨hcall, hdrop⟩ := isProgress_ne ha
        obtain ⟨horder, hframes, hresults⟩ := Slot.step_progress hs hcall hdrop
        have hsafe : slot.interrupts a = false := by
          cases a with
          | drop k => exact absurd rfl (hdrop k)
          | _ => rfl
        refine ⟨⟨Slot.step_inv hok.inv hs hsafe, ?_, hframes.trans hok.frames⟩, hresults.map _, rfl, rfl⟩
        rw [horder, hframes]
        exact hok.order
      · cases h

/-- It is not busy exactly if every call has returned. -/
theorem Ok.busy_eq_false (hok : o.Ok cfg sent) : o.busy = false ↔ o.returned.length = sent.length := by
  cases o with
  | unixDgram s =>
    rw [← hok.sent]
    cases hcur : s.current <;> simp [busy, returned, hcur]
  | unixStream slot =>
    have hframes := congrArg List.length hok.frames
    rw [List.length_map] at hframes
    simp [busy, returned, hframes]

/-- An output that is not busy takes no step. -/
theorem Ok.step_idle (hok : o.Ok cfg sent) (hbusy : o.busy = false) (a : InnerAction) : o.step cfg a = none := by
  cases o with
  | unixDgram s =>
    cases a with
    | slot a => rfl
    | attempt r =>
      have hnone : s.current = none := by simpa [busy] using hbusy
      simp [Inner.step, DgramSender.attempt, hnone]
  | unixStream slot =>
    cases a with
    | attempt r => rfl
    | slot a =>
      have hdone : slot.results.length = slot.frames.length := by simpa [busy] using hbusy
      simp only [Inner.step]
      split
      · rename_i ha
        obtain ⟨hcall, hdrop⟩ := isProgress_ne ha
        rw [Slot.step_quiet hok.order hdone hcall hdrop]
        rfl
      · rfl

/-- The last result is that of the last call. -/
theorem Ok.last_returned (hok : o.Ok cfg sent) (hbusy : o.busy = false) {ok : Bool} (h : o.returned.getLast? = some ok) :
    ∃ k, k + 1 = sent.length ∧ o.returned[k]? = some ok := by
  have hlen := hok.busy_eq_false.1 hbusy
  rw [List.getLast?_eq_getElem?] at h
  have hlt := (List.getElem?_eq_some_iff.1 h).1
  exact ⟨o.returned.length - 1, by omega, h⟩

end Inner

end LogFence
