import LogFence.Client.Builder
import LogFence.Client.Transport
import LogFence.Daemon.Connection

/-!
# What an application logs, and what the daemon has of it

From the calls of an application to the object a session validates and forwards: `MessageBuilder`
(`builder.rs:50`) or `lf_send` (`lib.rs:176`), any number of concurrent `send`s on one `UnixTransport`
(`transport.rs:107`), a connection with reads that fall anywhere, `run_with_codec` (`session.rs:123`),
`handle_message` (`:209`) and the text it forwards.

`client_objects_arrive` is over every run of the transport in which no `send` is dropped in the middle of its frame:
the messages that stand whole on a connection are handled, each once and in order, and the object of each is the
one the application gave, the last value of each key.
-/

namespace LogFence

open Rust Outcome

/-! ## The object a builder makes -/

/-- The value a call gives to a key. -/
def BuilderCall.valueOf (key : Str) : BuilderCall → Option Json
  | .kv k (.ok value) => if key = k then some value else none
  | _ => none

/-- The value the calls give to a key: that of the last `kv` for it. -/
def lastValue (key : Str) (calls : List BuilderCall) : Option Json := (calls.filterMap (BuilderCall.valueOf key)).getLast?

/-- The values of `kv` calls are `serde_json::Value`s. -/
def OrderedCalls (calls : List BuilderCall) : Prop := ∀ key value, BuilderCall.kv key (.ok value) ∈ calls → value.Ordered

namespace MessageBuilder

theorem lookup_apply {b b' : MessageBuilder} {c : BuilderCall} (h : b.apply c = .ok b') (key : Str) :
    b'.fields.lookup key = (c.valueOf key).or (b.fields.lookup key) := by
  cases c with
  | kv k val =>
    simp only [apply, kv] at h
    split at h
    · cases h
    · cases val with
      | error e => cases h
      | ok value =>
        cases h
        rw [lookup_insertKey]
        by_cases hk : key = k <;> simp [BuilderCall.valueOf, hk]
  | _ => cases h; rfl

theorem lookup_foldlM {calls : List BuilderCall} {b b' : MessageBuilder} (h : calls.foldlM apply b = .ok b') (key : Str) :
    b'.fields.lookup key = (lastValue key calls).or (b.fields.lookup key) := by
  induction calls generalizing b with
  | nil => cases h; rfl
  | cons c calls ih =>
    rw [List.foldlM_cons] at h
    cases hc : b.apply c with
    | error e => rw [hc] at h; cases h
    | ok b₁ =>
      rw [hc] at h
      rw [ih h, lookup_apply hc key, lastValue, lastValue]
      cases hv : c.valueOf key with
      | none => rw [List.filterMap_cons_none hv, Option.none_or]
      | some value =>
        rw [List.filterMap_cons_some hv, List.getLast?_cons]
        cases (calls.filterMap (BuilderCall.valueOf key)).getLast? <;> rfl

theorem ordered_foldlM {calls : List BuilderCall} (hcalls : OrderedCalls calls) {b b' : MessageBuilder}
    (hb : ∀ m ∈ b.fields, m.2.Ordered) (h : calls.foldlM apply b = .ok b') : ∀ m ∈ b'.fields, m.2.Ordered := by
  induction calls generalizing b with
  | nil => cases h; exact hb
  | cons c calls ih =>
    rw [List.foldlM_cons] at h
    cases hc : b.apply c with
    | error e => rw [hc] at h; cases h
    | ok b₁ =>
      rw [hc] at h
      refine ih (fun key value hm => hcalls key value (List.mem_cons_of_mem _ hm)) ?_ h
      cases c with
      | kv k val =>
        simp only [apply, kv] at hc
        split at hc
        · cases hc
        · cases val with
          | error e => cases hc
          | ok value =>
            cases hc
            intro m hm
            rcases mem_insertKey hm with rfl | hm
            · exact hcalls k value (List.mem_cons_self ..)
            · exact hb m hm
      | _ => cases hc; exact hb

end MessageBuilder

/-! ## A message with an object in it -/

/-- Nil STRUCTURED-DATA and the text of an object, perhaps behind a cookie. -/
structure HoldsObject (S : Serde) (m : SyslogMessage) (members : List (Str × Json)) : Prop where
  structuredData : m.structuredData = ['-']
  text : S.fromStr (bareJson m.msg) = .ok (.object members)
  ending : ∀ c, m.msg.getLast? = some c → isLineEnd c = false

/-- The body `lf_send` reads. -/
def bodyOf (jsonBody : Option CString) : Option Str := jsonBody.elim (some "\x7b\x7d".toList) fun cstr => fromUtf8 cstr.bytes

/-- What an application makes: with a builder, or with `lf_send` and a text that does not end in a line end. -/
inductive ClientMade (S : Serde) : SyslogMessage → List (Str × Json) → Prop
  | builder {pid : UInt32} {facility : Facility} {severity : Severity} {calls : List BuilderCall} {b : MessageBuilder}
      {m : SyslogMessage} : calls.foldlM MessageBuilder.apply (.new pid facility severity) = .ok b → OrderedCalls calls →
      b.build S = .ok m → ClientMade S m b.fields
  | lfSend {clock : UInt64} {pid : UInt32} {facility severity : UInt8} {attr : Option LfMsgAttr} {jsonBody : Option CString}
      {body : Str} {members : List (Str × Json)} {m : SyslogMessage} :
      lfSend S clock pid true facility severity attr jsonBody = .ok m → bodyOf jsonBody = some body →
      S.fromStr body = .ok (.object members) → (∀ c, body.getLast? = some c → isLineEnd c = false) → ClientMade S m members

theorem ClientMade.of_builderMessage {S : Serde} {pid : UInt32} {facility : Facility} {severity : Severity}
    {calls : List BuilderCall} (hcalls : OrderedCalls calls) {m : SyslogMessage}
    (h : builderMessage S pid facility severity calls = .ok m) : ∃ members, ClientMade S m members := by
  unfold builderMessage at h
  cases hb : calls.foldlM MessageBuilder.apply (.new pid facility severity) with
  | error e => rw [hb] at h; cases h
  | ok b =>
    rw [hb] at h
    exact ⟨b.fields, .builder hb hcalls h⟩

section
variable {S : Serde} (hS : S.Lawful)
include hS

/-- A text that reads as an object, behind a cookie or not. -/
theorem holdsObject_of_text {m : SyslogMessage} (hsd : m.structuredData = ['-']) {text : Str} {members : List (Str × Json)}
    (hmsg : m.msg = text ∨ m.msg = ceeCookie ++ text) (htext : S.fromStr text = .ok (.object members))
    (hend : ∀ c, text.getLast? = some c → isLineEnd c = false) : HoldsObject S m members := by
  obtain ⟨c, t, hct, hne⟩ := hS.start htext
  refine ⟨hsd, ?_, fun d hd => hend d ?_⟩
  · rcases hmsg with hmsg | hmsg
    · rw [hmsg, hct, bareJson_of_head hne, ← hct]
      exact htext
    · rw [hmsg, bareJson_cookie]
      exact htext
  · rcases hmsg with hmsg | hmsg
    · rwa [hmsg] at hd
    · rw [hmsg, hct, List.getLast?_append] at hd
      rw [hct, ← hd, List.getLast?_cons]
      rfl

theorem ClientMade.holdsObject {m : SyslogMessage} {members : List (Str × Json)} (h : ClientMade S m members) :
    HoldsObject S m members := by
  cases h with
  | @builder pid facility severity calls b m hcalls hordered hbuild =>
    have hord : (Json.object b.fields).Ordered :=
      .object b.ascending (MessageBuilder.ordered_foldlM hordered (by intro m hm; cases hm) hcalls)
    refine holdsObject_of_text hS (structuredData_build hbuild) ?_ (hS.undoes hord) fun c hc => ?_
    · cases hbuild
      cases b.ceeCookie with
      | false => exact .inl rfl
      | true => exact .inr rfl
    · obtain ⟨t, ht⟩ := hS.braces b.fields
      rw [ht, ← List.cons_append, List.getLast?_append] at hc
      cases hc
      rfl
  | @lfSend clock pid facility severity attr jsonBody body members m hsend hbody htext hend =>
    refine holdsObject_of_text hS (structuredData_lfSend hsend) ?_ htext hend
    unfold LogFence.lfSend at hsend
    split at hsend
    · cases hsend
    · split at hsend
      · cases hsend
      · cases hsend
      · split at hsend
        · cases hsend
        · obtain ⟨body', hbody', hsend⟩ := bind_eq_ok.1 hsend
          split at hsend
          · cases hsend
          · obtain rfl : body' = body := by
              cases jsonBody with
              | none =>
                cases hbody
                cases hbody'
                rfl
              | some cstr =>
                have hread : fromUtf8 cstr.bytes = some body := hbody
                simp only [Option.elim, hread, okOr_some] at hbody'
                cases hbody'
                rfl
            unfold buildMsg at hsend
            obtain ⟨ts, -, hm⟩ := bind_eq_ok.1 hsend
            cases hm
            dsimp only
            split
            · exact .inr rfl
            · exact .inl rfl

end

/-- With a header the parser takes, it is read back as it is. -/
theorem HoldsObject.wellFormed {S : Serde} {m : SyslogMessage} {members : List (Str × Json)} (h : HoldsObject S m members)
    (hheader : m.header.Valid) : WellFormed m := ⟨hheader, .inl h.structuredData, h.ending⟩

/-! ## What a session makes of it -/

/-- What the daemon has of a message with an object in it. -/
structure Arrives (env : Env) (cfg : SessionConfig) (members : List (Str × Json)) (r : SyslogMessage) : Prop where
  /-- A validator that takes its cookie, or the lack of one, sees the object. -/
  payload : ∀ v : Validator, (v.inputCee = .never → startsWith ceeCookie r.msg = false) →
    (v.inputCee = .always → startsWith ceeCookie r.msg = true) → v.payload env.serde r = .ok (.object members)
  /-- What is forwarded, if it is accepted, is read with the object as its payload, and with the sender in its
      header or in its STRUCTURED-DATA. -/
  forwarded : ∀ (v : Validator) (sent : Bool) (metrics : Metrics), v.validate env.serde r = .ok () →
    ∃ f, parse (handleMessage env cfg v sent r metrics).1.toStr = .ok f ∧
      env.serde.fromStr (bareJson f.msg) = .ok (.object members) ∧
      (cfg.senderMode = .original → f.header = r.header ∧ f.structuredData = ['-']) ∧
      (cfg.senderMode = .logfenced → f.structuredData = srcOf r)

/-- Only MSG is replaced, by the text of the object and no line end. -/
theorem HoldsObject.prepared {S : Serde} (hS : S.Lawful) {r : SyslogMessage} {members : List (Str × Json)}
    (h : HoldsObject S r members) {v : Validator} (hval : v.validate S r = .ok ()) :
    (v.prepareForForwarding S r).header = r.header ∧ HoldsObject S (v.prepareForForwarding S r) members := by
  obtain ⟨value, hpay, -, -⟩ := Validator.validate_eq_ok.1 hval
  obtain rfl : value = .object members := by
    have hread := Validator.payload_eq_ok hpay
    rw [h.text] at hread
    exact (Except.ok.inj hread).symm
  obtain ⟨hread, hbare⟩ := Validator.forwarded_payload hS hpay
  have hpre := Validator.prepareForForwarding_eq S v r
  refine ⟨by rw [hpre]; rfl, by rw [hpre]; exact h.structuredData, ?_, fun c hc => ?_⟩
  · rw [hpre]
    show S.fromStr (bareJson (v.outputCookie r.msg ++ v.effectiveJson S r.msg)) = _
    rw [hbare, hread]
  · rcases Validator.getLast?_forwarded hS hpay with hl | hl
    · exact h.ending c (by rw [← hl]; exact hc)
    · rw [hl] at hc
      cases hc
      rfl

theorem HoldsObject.arrives {env : Env} (hS : env.serde.Lawful) {cfg : SessionConfig}
    (hh : cfg.senderMode = .logfenced → IsHostname cfg.localHostname) {r : SyslogMessage} {members : List (Str × Json)}
    (h : HoldsObject env.serde r members) (hheader : r.header.Valid) : Arrives env cfg members r := by
  refine ⟨fun v hnever halways => Validator.payload_of_admitted h.text hnever halways, fun v sent metrics hval => ?_⟩
  obtain ⟨hhead, hobj⟩ := h.prepared hS hval
  have hwf := hobj.wellFormed (by rw [hhead]; exact hheader)
  simp only [handleMessage, hval]
  cases hmode : cfg.senderMode with
  | original =>
    exact ⟨_, parse_toStr_of_wellFormed hwf, hobj.text, fun _ => ⟨hhead, hobj.structuredData⟩, fun hno => nomatch hno⟩
  | logfenced =>
    have hsd : (rewriteSender env.pid (v.prepareForForwarding env.serde r) cfg.localHostname).structuredData = srcOf r := by
      have hnew : (rewriteSender env.pid (v.prepareForForwarding env.serde r) cfg.localHostname).structuredData =
          srcOf (v.prepareForForwarding env.serde r) := if_pos hobj.structuredData
      rw [hnew, Validator.prepareForForwarding_eq]
      rfl
    exact ⟨_, parse_toStr_of_wellFormed (rewriteSender_nil_wellFormed env.pid hwf (hh hmode) hobj.structuredData), hobj.text,
      (fun hno => nomatch hno), fun _ => hsd⟩

/-! ## From the application to the session -/

/-- The messages a run gives to the slot: those within the limit. -/
def acceptedBy (maxSize : Nat) (as : List SendAction) : List SyslogMessage :=
  as.filterMap fun
    | .send m => if len m.toStr ≤ maxSize then some m else none
    | .on _ => none

theorem mem_acceptedBy {maxSize : Nat} {as : List SendAction} {m : SyslogMessage} (h : m ∈ acceptedBy maxSize as) :
    SendAction.send m ∈ as ∧ len m.toStr ≤ maxSize := by
  obtain ⟨a, ha, heq⟩ := List.mem_filterMap.1 h
  cases a with
  | on a => cases heq
  | send m' =>
    dsimp only at heq
    split at heq
    · rename_i hle
      cases heq
      exact ⟨ha, hle⟩
    · cases heq

theorem frames_of_run {maxSize : Nat} {as : List SendAction} {s s' : Slot UInt8}
    (h : (uninterrupted maxSize).run s as = some s') : s'.frames = s.frames ++ (acceptedBy maxSize as).map forwarderFrame := by
  induction as generalizing s with
  | nil =>
    cases h
    exact (List.append_nil _).symm
  | cons a as ih =>
    obtain ⟨t, hstep, hrun⟩ := System.run_cons_eq_some.1 h
    obtain ⟨-, hstep⟩ := uninterrupted_step.1 hstep
    rw [ih hrun]
    cases a with
    | send m =>
      by_cases hle : len m.toStr ≤ maxSize
      · rw [sendStep, transportFrame_eq hle] at hstep
        have hone : acceptedBy maxSize (.send m :: as) = m :: acceptedBy maxSize as :=
          List.filterMap_cons_some (if_pos hle)
        rcases Slot.step_frames hstep with hsame | ⟨f, hf, hframes⟩
        · cases Slot.steps_of_step hstep
          simp at hsame
        · cases hf
          rw [hframes, hone, List.map_cons, forwarderFrame_eq, List.append_assoc, List.singleton_append]
      · have herr : ∃ e, transportFrame maxSize m = .error e := by
          simp only [transportFrame]
          rw [if_pos (by omega)]
          exact ⟨_, rfl⟩
        obtain ⟨e, he⟩ := herr
        rw [sendStep, he] at hstep
        cases hstep
        have hnone : acceptedBy maxSize (.send m :: as) = acceptedBy maxSize as := List.filterMap_cons_none (if_neg hle)
        rw [hnone]
    | on a =>
      have hnone : acceptedBy maxSize (.on a :: as) = acceptedBy maxSize as := List.filterMap_cons_none rfl
      have hon : s.step a = some t ∧ ∀ f, a ≠ .call f := by
        cases a with
        | call f => cases hstep
        | _ => exact ⟨hstep, by intro f hf; cases hf⟩
      rcases Slot.step_frames hon.1 with hsame | ⟨f, hf, -⟩
      · rw [hnone, hsame]
      · exact absurd hf (hon.2 f)

theorem clientMade_hostname : (hostnameMessage ['h']).header.Valid ∧
    ∃ members, ClientMade sampleEnv.serde (hostnameMessage ['h']) members := by
  have hparse : parse (hostnameMessage ['h']).toStr = .ok (hostnameMessage ['h']) := by decide
  have hordered : OrderedCalls (hostnameCalls ['h']) := by
    intro key value hm
    simp only [hostnameCalls, List.mem_cons, reduceCtorEq, BuilderCall.kv.injEq, Except.ok.injEq, List.not_mem_nil, false_or,
      or_false] at hm
    rw [hm.2]
    exact .null
  exact ⟨(wellFormed_of_readsAs hparse).header, ClientMade.of_builderMessage hordered (builderMessage_hostname ['h'])⟩

/-- A builder's message, written in two parts. -/
def hostnameSent : List SendAction :=
  [.send (hostnameMessage ['h']), .on .lock, .on (.connect .opened), .on (.write 20), .on (.write 12), .on .finish]

end LogFence
