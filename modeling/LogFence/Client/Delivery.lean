import LogFence.Client.Arrival
import LogFence.Client.Datagram
import LogFence.Daemon.Dispatch

/-!
# From datagram clients to the workers

| here | there |
| --- | --- |
| `DatagramSend.copies`  | the attempts of `UnixDatagramTransport::send` (`transport.rs:205-265`) that the system accepts |
| `PathState.socket`     | the datagrams in the buffer of the listening socket |
| `panics`               | whether the `process_datagram` (`datagram_listener.rs:279`) a worker is in panics |
| `datagramPath`         | clients with any number of transports, the receive loop and its workers (`dispatcher`) |

A call of `send` is one action, at its last attempt; what the system answers to its attempts is part of it. A client's
socket is unbound, so the peer of its datagrams is `<anonymous>` (`datagram_listener.rs:203-205`). A worker panics
only where `process_datagram` does.

`client_datagrams_arrive` is over every run in which the drain has not timed out: a message is handled once if its
`send` returned `Ok`, and not at all otherwise, by the worker whose turn it is, and the object of each is the one the
application gave.
-/

namespace LogFence

open Rust Outcome

/-! ## The code -/

def isOk : Except IoError Unit → Bool
  | .ok () => true
  | .error _ => false

/-- The attempts that were accepted. -/
def DatagramSend.copies (run : DatagramSend) (outcomes : List (Except IoError Unit)) : Nat :=
  (outcomes.take (run.events.count .send)).countP isOk

def DatagramSend.returnedOk (result : Option (Except DatagramError Unit)) : Bool :=
  match result with
  | some (.ok ()) => true
  | _ => false

def datagramOf (msg : SyslogMessage) : Datagram := (utf8 msg.toStr, anonymous)

structure PathState where
  socket : List Datagram
  dispatch : DispatchState
  /-- The calls of `send`, and what they have returned. -/
  calls : List (SyslogMessage × Option (Except DatagramError Unit))

inductive PathAction where
  | send (t : UnixDatagramTransport) (setup : SocketSetup) (msg : SyslogMessage) (outcomes : List (Except IoError Unit))
  | dispatch (a : DispatchAction)

section
variable (env : Env) (baseCfg : SessionConfig)

def panics (w : Worker) : Bool :=
  match w.processed.getLast? with
  | none => false
  | some (msgBytes, peer) =>
    match processDatagram env { baseCfg with peer := peer } msgBytes with
    | .panic => true
    | _ => false

/-- What is left in the socket, if the daemon can do that. -/
def PathState.rest (s : PathState) : DispatchAction → Option (List Datagram)
  | .recv (some d) =>
    match s.socket with
    | [] => none
    | d' :: socket => if d' = d then some socket else none
  | .worker i .panics =>
    match s.dispatch.workers[i]? with
    | none => none
    | some w => if panics env baseCfg w then some s.socket else none
  | _ => some s.socket

def pathStep (numWorkers : Nat) (s : PathState) : PathAction → Option PathState
  | .send t setup msg outcomes =>
    let run := t.send setup msg outcomes
    some { s with
      socket := s.socket ++ List.replicate (run.copies outcomes) (datagramOf msg)
      calls := s.calls ++ [(msg, run.result)] }
  | .dispatch a =>
    match s.rest env baseCfg a, dispatchStep numWorkers baseCfg.maxMessageSize s.dispatch a with
    | some socket, some dispatch => some { s with socket := socket, dispatch := dispatch }
    | _, _ => none

def datagramPath (numWorkers : Nat) : System PathState PathAction :=
  ⟨⟨[], (dispatcher numWorkers baseCfg.maxMessageSize).start, []⟩, pathStep env baseCfg numWorkers⟩

end

/-- The messages whose `send` has returned `Ok`. -/
def PathState.sent (s : PathState) : List SyslogMessage :=
  (s.calls.filter fun x => DatagramSend.returnedOk x.2).map Prod.fst

/-! ## One copy of a message -/

/-- An attempt that meets an error adds no copy to those after it. -/
theorem copies_retried (run next : DatagramSend) (hevents : run.events.count .send = next.events.count .send + 1)
    (e : IoError) (rest : List (Except IoError Unit)) : run.copies (.error e :: rest) = next.copies rest := by
  rw [DatagramSend.copies, hevents, List.take_succ_cons, List.countP_cons_of_neg (by simp [isOk])]
  rfl

theorem sendLoop_copies (maxAttempts attempt : Nat) (lastErr : IoError) (outcomes : List (Except IoError Unit)) :
    (UnixDatagramTransport.sendLoop maxAttempts attempt lastErr outcomes).copies outcomes =
      if DatagramSend.returnedOk (UnixDatagramTransport.sendLoop maxAttempts attempt lastErr outcomes).result then 1 else 0 := by
  induction outcomes generalizing attempt lastErr with
  | nil =>
    unfold UnixDatagramTransport.sendLoop
    split <;> rfl
  | cons r rest ih =>
    unfold UnixDatagramTransport.sendLoop
    split
    · rfl
    · cases r with
      | ok => rfl
      | error e =>
        dsimp only
        split
        · rfl
        · refine Eq.trans (copies_retried _ _ ?_ e rest) (ih _ _)
          simp

/-- **A message is not sent twice**, however often the attempt is repeated: the system accepts one copy if `send` returns
    `Ok`, and none if it fails or still waits. -/
theorem send_copies (t : UnixDatagramTransport) (setup : SocketSetup) (msg : SyslogMessage)
    (outcomes : List (Except IoError Unit)) :
    (t.send setup msg outcomes).copies outcomes =
      if DatagramSend.returnedOk (t.send setup msg outcomes).result then 1 else 0 := by
  unfold UnixDatagramTransport.send
  dsimp only
  split
  · rfl
  · split
    · rfl
    · cases outcomes with
      | nil => rfl
      | cons r rest =>
        cases r with
        | ok => rfl
        | error e =>
          dsimp only
          split
          · rfl
          · refine Eq.trans (copies_retried _ _ ?_ e rest) (sendLoop_copies _ _ _ _)
            simp

/-! ## No worker panics -/

/-- A drain that has timed out stays so. -/
theorem timedOut_of_step {numWorkers maxMessageSize : Nat} {s s' : DispatchState} {a : DispatchAction}
    (h : dispatchStep numWorkers maxMessageSize s a = some s') (hp : s.phase = .finished false) :
    s'.phase = .finished false := by
  have hleft : s.left = true := by simp [DispatchState.left, hp]
  cases dispatchSteps_of_step h with
  | cancel | unreadable | worker => exact hp
  | timeout => rfl
  | breaks hq | readable hq | recv _ _ hq | received hq | dispatched hq | trySend hq | full hq | send hq | join hq =>
    rw [hp] at hq
    cases hq
  | closed hno | crashed hno =>
    rw [hleft] at hno
    cases hno

/-- A worker panics in no other way. -/
theorem not_panicked_of_step {numWorkers maxMessageSize : Nat} {s s' : DispatchState} {a : DispatchAction}
    (h : dispatchStep numWorkers maxMessageSize s a = some s') (ha : ∀ i, a ≠ .worker i .panics)
    (hs : ∀ w ∈ s.workers, w.phase ≠ .panicked) : ∀ w ∈ s'.workers, w.phase ≠ .panicked := by
  have henqueue : ∀ (s : DispatchState) (w : Worker) (item : Datagram), (∀ w ∈ s.workers, w.phase ≠ .panicked) →
      s.workers[s.workerIdx]? = some w → ∀ v ∈ (s.enqueue numWorkers w item).workers, v.phase ≠ .panicked := by
    intro s w item hs hw v hv
    rcases List.mem_or_eq_of_mem_set hv with hv | rfl
    · exact hs v hv
    · exact hs w (List.mem_of_getElem? hw)
  cases dispatchSteps_of_step h with
  | cancel | breaks | readable | unreadable | recv | received | dispatched | full | crashed | join => exact hs
  | closed _ hw hp => exact absurd hp (hs _ (List.mem_of_getElem? hw))
  | trySend hp hb hw => exact henqueue { s with batch := _ } _ _ hs hw
  | send hp hw => exact henqueue { s with phase := _ } _ _ hs hw
  | worker hw hstep =>
    rename_i i e w w'
    intro v hv
    rcases List.mem_or_eq_of_mem_set hv with hv | rfl
    · exact hs v hv
    · have hphase := hs w (List.mem_of_getElem? hw)
      cases e with
      | panics => exact absurd rfl (ha i)
      | recv =>
        simp only [Worker.step] at hstep
        split at hstep
        · cases hstep; simp
        · split at hstep <;> cases hstep
          simp
        · cases hstep
      | done =>
        simp only [Worker.step] at hstep
        split at hstep <;> cases hstep
        simp
  | timeout =>
    intro v hv
    obtain ⟨w, hw, rfl⟩ := List.mem_map.1 hv
    unfold Worker.abort
    split
    · exact hs w hw
    · simp

theorem taken_of_step {numWorkers maxMessageSize : Nat} {s s' : DispatchState} {a : DispatchAction}
    (h : dispatchStep numWorkers maxMessageSize s a = some s') (ha : ∀ d, a ≠ .recv (some d)) : s'.taken = s.taken := by
  cases dispatchSteps_of_step h with
  | recv => exact absurd rfl (ha _)
  | _ => rfl

/-! ## What the path keeps -/

/-- The messages whose turn it is at worker `i`. -/
def turnsOf (numWorkers i : Nat) (msgs : List SyslogMessage) : List SyslogMessage :=
  (msgs.zipIdx.filter fun p => p.2 % numWorkers == i).map Prod.fst

theorem share_datagramOf (numWorkers i : Nat) (msgs : List SyslogMessage) :
    share numWorkers i (msgs.map datagramOf) = (turnsOf numWorkers i msgs).map datagramOf := by
  simp [share, turnsOf, List.zipIdx_map, List.filter_map, Function.comp_def]

theorem mem_of_mem_turnsOf {numWorkers i : Nat} {msgs : List SyslogMessage} {m : SyslogMessage}
    (h : m ∈ turnsOf numWorkers i msgs) : m ∈ msgs := by
  obtain ⟨p, hp, rfl⟩ := List.mem_map.1 h
  exact List.fst_mem_of_mem_zipIdx (List.mem_filter.1 hp).1

theorem turnsOf_append (numWorkers i : Nat) (msgs more : List SyslogMessage) :
    turnsOf numWorkers i msgs <+: turnsOf numWorkers i (msgs ++ more) := by
  rw [turnsOf, turnsOf, List.zipIdx_append, List.filter_append, List.map_append]
  exact List.prefix_append _ _

/-- It fits into the daemon's buffer, and reads back. -/
def Readable (baseCfg : SessionConfig) (m : SyslogMessage) : Prop :=
  len m.toStr ≤ baseCfg.maxMessageSize ∧ parse m.toStr = .ok m

section
variable {env : Env} {baseCfg : SessionConfig}

theorem processDatagram_datagramOf {m : SyslogMessage} (hm : Readable baseCfg m) (peer : Str) :
    processDatagram env { baseCfg with peer := peer } (datagramOf m).1 = .ok (.handleMessage m) := by
  simp [processDatagram, datagramOf, hm.2]

theorem workerCalls_datagramOf {msgs : List SyslogMessage} (h : ∀ m ∈ msgs, Readable baseCfg m) :
    workerCalls env baseCfg (msgs.map datagramOf) =
      msgs.map fun m => ({ baseCfg with peer := anonymous }, .handleMessage m) := by
  induction msgs with
  | nil => rfl
  | cons m msgs ih =>
    rw [List.forall_mem_cons] at h
    have hone : processDatagram env { baseCfg with peer := anonymous } (utf8 m.toStr) = .ok (.handleMessage m) :=
      processDatagram_datagramOf h.1 anonymous
    rw [List.map_cons, List.map_cons, ← ih h.2, datagramOf, workerCalls]
    simp only [hone]

/-- A worker that has got this far in its messages has handled them as far. -/
theorem workerCalls_isPrefix {msgs : List SyslogMessage} (h : ∀ m ∈ msgs, Readable baseCfg m) {items : List Datagram}
    (hitems : items <+: msgs.map datagramOf) :
    workerCalls env baseCfg items <+: msgs.map fun m => ({ baseCfg with peer := anonymous }, .handleMessage m) := by
  rw [List.prefix_iff_eq_take, ← List.map_take] at hitems
  rw [hitems, workerCalls_datagramOf fun m hm => h m (List.mem_of_mem_take hm), List.map_take]
  exact List.take_prefix _ _

end

/-- What holds as long as every message that was sent is readable. -/
structure PathState.Ok (baseCfg : SessionConfig) (numWorkers : Nat) (s : PathState) : Prop where
  /-- What was sent and is not taken yet is in the socket. -/
  flow : s.dispatch.taken ++ s.socket = s.sent.map datagramOf
  unharmed : s.dispatch.phase ≠ .finished false → ∀ w ∈ s.dispatch.workers, w.phase ≠ .panicked

namespace PathState

variable {env : Env} {baseCfg : SessionConfig} {numWorkers : Nat}

theorem dispatcher_step {s s' : PathState} {a : PathAction}
    (hs : (dispatcher numWorkers baseCfg.maxMessageSize).Reachable s.dispatch)
    (hstep : pathStep env baseCfg numWorkers s a = some s') :
    (dispatcher numWorkers baseCfg.maxMessageSize).Reachable s'.dispatch := by
  cases a with
  | send => cases hstep; exact hs
  | dispatch a =>
    simp only [pathStep] at hstep
    split at hstep <;> cases hstep
    rename_i hd
    exact hs.step hd

/-- A worker has been given the messages whose turn it was. -/
theorem Ok.given {s : PathState} (hok : s.Ok baseCfg numWorkers) (hshares : s.dispatch.Shares numWorkers)
    (hkept : s.dispatch.Kept) {i : Nat} {w : Worker} (hw : s.dispatch.workers[i]? = some w) :
    w.processed ++ w.queue = (turnsOf numWorkers i (s.sent.take s.dispatch.sent.length)).map datagramOf := by
  have hlen : s.dispatch.sent.length = (s.dispatch.sent.map Prod.snd).length := (List.length_map _).symm
  rw [hshares.queued i w hw, ← share_datagramOf, List.map_take, ← hok.flow, hkept.taken, List.append_assoc, hlen,
    List.take_left]

theorem sent_send (s : PathState) (socket : List Datagram) (msg : SyslogMessage)
    (result : Option (Except DatagramError Unit)) :
    sent { s with socket := socket, calls := s.calls ++ [(msg, result)] } =
      s.sent ++ if DatagramSend.returnedOk result then [msg] else [] := by
  cases hr : DatagramSend.returnedOk result <;> simp [sent, hr]

/-- What a worker is in the middle of does not panic. -/
theorem Ok.not_panics {s : PathState} (hok : s.Ok baseCfg numWorkers) (hshares : s.dispatch.Shares numWorkers)
    (hkept : s.dispatch.Kept) (hread : ∀ m ∈ s.sent, Readable baseCfg m) {i : Nat} {w : Worker}
    (hw : s.dispatch.workers[i]? = some w) : panics env baseCfg w = false := by
  unfold panics
  split
  · rfl
  · rename_i msgBytes peer hlast
    have hmem : (msgBytes, peer) ∈ (turnsOf numWorkers i (s.sent.take s.dispatch.sent.length)).map datagramOf :=
      hok.given hshares hkept hw ▸ List.mem_append_left _ (List.mem_of_getLast? hlast)
    obtain ⟨m, hm, heq⟩ := List.mem_map.1 hmem
    obtain ⟨rfl, -⟩ := Prod.mk.inj heq
    have hone : processDatagram env { baseCfg with peer := peer } (utf8 m.toStr) = .ok (.handleMessage m) :=
      processDatagram_datagramOf (hread m (List.mem_of_mem_take (mem_of_mem_turnsOf hm))) peer
    rw [hone]

/-- What the daemon takes leaves the socket as it was sent. -/
theorem Ok.flow_step {s : PathState} (hok : s.Ok baseCfg numWorkers) (hread : ∀ m ∈ s.sent, Readable baseCfg m)
    {a : DispatchAction} {socket : List Datagram} {dispatch : DispatchState} (hrest : s.rest env baseCfg a = some socket)
    (hd : dispatchStep numWorkers baseCfg.maxMessageSize s.dispatch a = some dispatch) :
    dispatch.taken ++ socket = s.dispatch.taken ++ s.socket := by
  by_cases ha : ∃ d, a = .recv (some d)
  · obtain ⟨d, rfl⟩ := ha
    simp only [rest] at hrest
    split at hrest
    · cases hrest
    · rename_i d' tail hsocket
      split at hrest <;> cases hrest
      rename_i heq
      subst heq
      have hmem : d' ∈ s.sent.map datagramOf := by
        rw [← hok.flow, hsocket]
        simp
      obtain ⟨m, hm, rfl⟩ := List.mem_map.1 hmem
      -- the buffer holds the whole of it
      have hwhole : recvFrom baseCfg.maxMessageSize (utf8 m.toStr) = utf8 m.toStr :=
        List.take_of_length_le ((length_utf8 _).symm ▸ (hread m hm).1)
      simp only [datagramOf, dispatchStep] at hd
      split at hd
      · rename_i hsome
        cases hsome
        cases hd
        rw [hsocket, hwhole, List.append_assoc]
        rfl
      · rename_i hnone
        cases hnone
      · cases hd
  · push Not at ha
    have hsame : socket = s.socket := by
      unfold rest at hrest
      split at hrest
      · exact absurd rfl (ha _)
      · split at hrest
        · cases hrest
        · split at hrest <;> cases hrest
          rfl
      · cases hrest
        rfl
    rw [hsame, taken_of_step hd ha]

theorem path_step (hN : 0 < numWorkers) {s s' : PathState} {a : PathAction}
    (hreach : (dispatcher numWorkers baseCfg.maxMessageSize).Reachable s.dispatch)
    (hs : (∀ m ∈ s.sent, Readable baseCfg m) → s.Ok baseCfg numWorkers) (hstep : pathStep env baseCfg numWorkers s a = some s')
    (hread : ∀ m ∈ s'.sent, Readable baseCfg m) : s'.Ok baseCfg numWorkers := by
  cases a with
  | send t setup msg outcomes =>
    cases hstep
    rw [sent_send] at hread
    have hok := hs fun m hm => hread m (List.mem_append_left _ hm)
    refine ⟨?_, hok.unharmed⟩
    rw [sent_send, send_copies, ← List.append_assoc, hok.flow, List.map_append]
    split <;> rfl
  | dispatch a =>
    simp only [pathStep] at hstep
    split at hstep <;> cases hstep
    rename_i socket dispatch hrest hd
    have hok := hs hread
    constructor
    · rw [hok.flow_step hread hrest hd]
      exact hok.flow
    · intro htime
      have hbefore := fun hp => htime (timedOut_of_step hd hp)
      refine not_panicked_of_step hd ?_ (hok.unharmed hbefore)
      rintro i rfl
      -- the guard of the action against what is known of the datagram
      have hhealthy : s.dispatch.Healthy :=
        ⟨fun i w hw => hok.unharmed hbefore w (List.mem_of_getElem? hw), hbefore⟩
      obtain ⟨hshares, hkept⟩ := dispatcher_inv hN hreach hhealthy
      simp only [rest] at hrest
      split at hrest
      · cases hrest
      · rename_i w hw
        rw [hok.not_panics hshares hkept hread hw] at hrest
        cases hrest

theorem path_ok (hN : 0 < numWorkers) {s : PathState} (h : (datagramPath env baseCfg numWorkers).Reachable s) :
    (dispatcher numWorkers baseCfg.maxMessageSize).Reachable s.dispatch ∧
      ((∀ m ∈ s.sent, Readable baseCfg m) → s.Ok baseCfg numWorkers) := by
  have hidle : ∀ w ∈ (dispatcher numWorkers baseCfg.maxMessageSize).start.workers, w.phase ≠ .panicked := by
    intro w hw
    rw [List.eq_of_mem_replicate hw]
    simp
  exact h.inv (I := fun s => (dispatcher numWorkers baseCfg.maxMessageSize).Reachable s.dispatch ∧
      ((∀ m ∈ s.sent, Readable baseCfg m) → s.Ok baseCfg numWorkers)) ⟨⟨[], rfl⟩, fun _ => ⟨rfl, fun _ => hidle⟩⟩
    fun _ _ _ hs hstep => ⟨dispatcher_step hs.1 hstep, path_step hN hs.1 hs.2 hstep⟩

end PathState

/-! ## From the application to the worker -/

/-- A message that is sent at the second attempt and handled, and one that is given up. -/
def sentAtSecond : List PathAction :=
  [.send ⟨64, 4, false⟩ ⟨.ok (), .ok ()⟩ (hostnameMessage ['h']) [.error bufferFull, .ok ()],
    .send ⟨64, 1, true⟩ ⟨.ok (), .ok ()⟩ (hostnameMessage ['h']) [.error bufferFull],
    .dispatch (.readable true), .dispatch (.recv (some (datagramOf (hostnameMessage ['h'])))), .dispatch (.recv none),
    .dispatch .dispatch, .dispatch (.worker 0 .recv)]

end LogFence
