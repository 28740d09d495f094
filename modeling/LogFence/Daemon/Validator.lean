import LogFence.Proto.Message
import LogFence.Rust.JsonText

/-!
# Payload validation (`logfence-daemon/src/validator.rs`)

| here | there |
| --- | --- |
| `ValidationMode`, `CeeCookieMode` | the two modes of `config.rs:317`, `config.rs:304` |
| `ValidationError`, `toStr`   | `ValidationError` (`validator.rs:24`) with its `Display` |
| `DiscriminatorMap`, `Validator` | the two structs (`:49`, `:58`) |
| `Validator.payload`, `validate` | `Validator::validate` (`:175`), cut after `serde_json::from_str` |
| `Validator.schemaMatches`    | `Validator::schema_matches` (`:302`) |
| `Validator.prepareForForwardingCow`, `prepareForForwarding` | `Validator::prepare_for_forwarding` (`:240`), and the message in its `Cow` |
| `canonicalizeJson`, `sortedValue` | the two functions (`:324`, `:334`) |

A compiled schema is the predicate `is_valid`, any predicate on values. `serde_json` is the parameter `S`.

* `validate_eq_ok` — what `validate` accepts;
* `strict_enforces_iff` — in strict mode the payload matches a configured schema, but for one case;
* `prepareForForwarding_eq`, `forwarded_payload` — what is forwarded is the payload that was validated;
* `prepareForForwarding_policy` — cookies, canonical text, copies and the next hop.
-/

namespace LogFence

open Rust

/-! ## The code -/

inductive ValidationMode where
  | strict | warn | off
deriving DecidableEq, Repr

inductive CeeCookieMode where
  | never | optional | always
deriving DecidableEq, Repr

def ceeCookie : Str := "@cee:".toList

inductive ValidationError where
  | notJson (e : Str)
  | notObject (kind : String)
  | schemaRejected
  | unexpectedCeeCookie
  | missingCeeCookie
deriving DecidableEq, Repr

def ValidationError.toStr : ValidationError → Str
  | .notJson e => "message is not valid JSON: ".toList ++ e
  | .notObject kind => "message must be a JSON object, got ".toList ++ kind.toList
  | .schemaRejected => "message does not match any configured schema".toList
  | .unexpectedCeeCookie => "message has CEE cookie but input_cee = \"never\"".toList
  | .missingCeeCookie => "message is missing required CEE cookie (@cee:)".toList

/-- `is_valid` of a compiled schema. -/
abbrev Schema := Json → Bool

structure DiscriminatorMap where
  field : Str
  map : List (Str × Schema)
  /-- A `HashMap` has one value for a key. -/
  distinct : (map.map Prod.fst).Nodup

structure Validator where
  mode : ValidationMode
  schemas : List Schema
  discriminator : Option DiscriminatorMap
  inputCee : CeeCookieMode
  outputCee : CeeCookieMode
  canonicalJson : Bool

def jsonKind : Json → String
  | .null => "null"
  | .bool _ => "boolean"
  | .number _ => "number"
  | .string _ => "string"
  | .array _ => "array"
  | .object _ => "object"

/-- `&msg[CEE_COOKIE.len()..]`, taken only behind a cookie (`slice_ceeCookie`). -/
def dropCookie (msg : Str) : Str := msg.drop ceeCookie.length

inductive Cow (α : Type) where
  | borrowed (a : α)
  | owned (a : α)
deriving DecidableEq, Repr

def Cow.get {α : Type} : Cow α → α
  | .borrowed a => a
  | .owned a => a

def Cow.isBorrowed {α : Type} : Cow α → Bool
  | .borrowed _ => true
  | .owned _ => false

mutual

/-- `sorted_value` (`validator.rs:334`). -/
def sortedValue : Json → Json
  | .object members => .object (toBTreeMap (sortedMembers members))
  | .array items => .array (sortedItems items)
  | .null => .null
  | .bool b => .bool b
  | .number n => .number n
  | .string s => .string s

def sortedItems : List Json → List Json
  | [] => []
  | v :: vs => sortedValue v :: sortedItems vs

def sortedMembers : List (Str × Json) → List (Str × Json)
  | [] => []
  | (k, v) :: ms => (k, sortedValue v) :: sortedMembers ms

end

/-- `canonicalize_json` (`validator.rs:324`). -/
def canonicalizeJson (S : Serde) (jsonStr : Str) : Option Str :=
  match S.fromStr jsonStr with
  | .ok value => some (S.toString (sortedValue value))
  | .error _ => none

namespace Validator

/-- The schema the discriminator selects (`validator.rs:303-308`). -/
def routed (v : Validator) (value : Json) : Option Schema :=
  match v.discriminator with
  | some disc =>
    match (value.get disc.field).bind Json.asStr with
    | some discVal => disc.map.lookup discVal
    | none => none
  | none => none

def schemaMatches (v : Validator) (value : Json) : Bool :=
  match v.routed value with
  | some schema => schema value
  | none => if v.schemas.isEmpty then true else v.schemas.any fun schema => schema value

/-- `json_str` of `validate` (`validator.rs:176-197`). -/
def jsonStr (v : Validator) (msg : Str) : Except ValidationError Str :=
  let hasCookie := startsWith ceeCookie msg
  match v.inputCee with
  | .never => if hasCookie then .error .unexpectedCeeCookie else .ok msg
  | .optional => if hasCookie then .ok (dropCookie msg) else .ok msg
  | .always => if !hasCookie then .error .missingCeeCookie else .ok (dropCookie msg)

/-- The JSON payload of a message (`validator.rs:199`). -/
def payload (S : Serde) (v : Validator) (m : SyslogMessage) : Except ValidationError Json :=
  match v.jsonStr m.msg with
  | .error e => .error e
  | .ok s => (S.fromStr s).mapError .notJson

def validate (S : Serde) (v : Validator) (m : SyslogMessage) : Except ValidationError Unit :=
  match v.payload S m with
  | .error e => .error e
  | .ok value =>
    if value.isObject then
      if v.mode = .off then .ok ()
      else if v.schemaMatches value then .ok ()
      else
        match v.mode with
        | .strict => .error .schemaRejected
        | .warn => .ok ()
        | .off => .ok ()
    else .error (.notObject (jsonKind value))

/-- The canonical text, if it is asked for and differs (`validator.rs:253-257`). -/
def canonical (S : Serde) (v : Validator) (bareJson : Str) : Option Str :=
  if v.canonicalJson then (canonicalizeJson S bareJson).filter (· ≠ bareJson) else none

/-- `new_msg` of `prepare_for_forwarding` (`validator.rs:244-288`): the MSG to put in, if it changes. -/
def newMsg (S : Serde) (v : Validator) (msg : Str) : Option Str :=
  let hasCookie := startsWith ceeCookie msg
  let bareJson := if hasCookie then dropCookie msg else msg
  let canonical := v.canonical S bareJson
  let effectiveJson := canonical.getD bareJson
  match v.outputCee with
  | .never => if !hasCookie && canonical.isNone then none else some effectiveJson
  | .optional => canonical.map fun cj => if hasCookie then ceeCookie ++ cj else cj
  | .always => if hasCookie && canonical.isNone then none else some (ceeCookie ++ effectiveJson)

/-- `prepare_for_forwarding` (`validator.rs:240`). -/
def prepareForForwardingCow (S : Serde) (v : Validator) (msg : SyslogMessage) : Cow SyslogMessage :=
  match v.newMsg S msg.msg with
  | some msgField => .owned { msg with msg := msgField }
  | none => .borrowed msg

/-- The message in that `Cow`. -/
def prepareForForwarding (S : Serde) (v : Validator) (msg : SyslogMessage) : SyslogMessage :=
  (v.prepareForForwardingCow S msg).get

end Validator

/-! ## The cookie -/

theorem startsWith_ceeCookie {msg : Str} : startsWith ceeCookie msg = true ↔ ∃ t, msg = ceeCookie ++ t := by
  rw [startsWith, List.isPrefixOf_iff_prefix]
  constructor
  · rintro ⟨t, ht⟩; exact ⟨t, ht.symm⟩
  · rintro ⟨t, ht⟩; exact ⟨t, ht.symm⟩

theorem dropCookie_append (t : Str) : dropCookie (ceeCookie ++ t) = t := List.drop_left

/-- Behind a cookie the slice stands on a character boundary. -/
theorem slice_ceeCookie {ε : Type} {msg : Str} (h : startsWith ceeCookie msg = true) :
    (slice msg (len ceeCookie) (len msg) : Outcome ε Str) = .ok (dropCookie msg) := by
  obtain ⟨t, rfl⟩ := startsWith_ceeCookie.1 h
  rw [dropCookie_append]
  have hs := slice_append (ε := ε) ceeCookie t []
  rwa [List.append_nil] at hs

/-- MSG with one leading cookie removed. -/
def bareJson (msg : Str) : Str := if startsWith ceeCookie msg then dropCookie msg else msg

theorem bareJson_cookie (t : Str) : bareJson (ceeCookie ++ t) = t := by
  rw [bareJson, if_pos (startsWith_ceeCookie.2 ⟨t, rfl⟩), dropCookie_append]

theorem bareJson_of_head {c : Char} {t : Str} (h : c ≠ '@') : bareJson (c :: t) = c :: t := by
  refine if_neg fun hs => ?_
  obtain ⟨u, hu⟩ := startsWith_ceeCookie.1 hs
  exact h (List.cons.inj hu).1

/-- Whatever the cookie mode, the text that is read is MSG without its cookie. -/
theorem Validator.jsonStr_eq_ok {v : Validator} {msg s : Str} (h : v.jsonStr msg = .ok s) : s = bareJson msg := by
  unfold bareJson
  cases hc : startsWith ceeCookie msg <;> cases hi : v.inputCee <;>
    simp only [Validator.jsonStr, hc, hi, Bool.not_true, Bool.not_false, if_true, if_false, Bool.false_eq_true] at h ⊢ <;>
    cases h <;> rfl

/-! ## What `validate` accepts -/

namespace Validator

theorem payload_eq_ok {S : Serde} {v : Validator} {m : SyslogMessage} {value : Json} (h : v.payload S m = .ok value) :
    S.fromStr (bareJson m.msg) = .ok value := by
  unfold payload at h
  split at h
  · cases h
  · rename_i s hs
    rw [← jsonStr_eq_ok hs]
    cases hf : S.fromStr s with
    | ok value' => rw [hf] at h; simpa [Except.mapError] using h
    | error e => rw [hf] at h; simp [Except.mapError] at h

theorem validate_eq_ok {S : Serde} {v : Validator} {m : SyslogMessage} :
    v.validate S m = .ok () ↔ ∃ value, v.payload S m = .ok value ∧ value.isObject = true ∧
      (v.mode = .strict → v.schemaMatches value = true) := by
  unfold validate
  cases hp : v.payload S m with
  | error e => simp
  | ok value =>
    cases ho : value.isObject with
    | false => simp [ho]
    | true =>
      cases hmode : v.mode <;> cases hs : v.schemaMatches value <;> simp [ho, hs]

/-! ## Schemas in strict mode -/

/-- Every schema the configuration names: the linear list and the discriminator's map. -/
def configured (v : Validator) : List Schema :=
  v.schemas ++ (v.discriminator.map fun disc => disc.map.map Prod.snd).getD []

/-- The payload's discriminator field is a string, and `schema` is that key's schema. -/
def Routes (v : Validator) (value : Json) (schema : Schema) : Prop :=
  ∃ disc key, v.discriminator = some disc ∧ value.get disc.field = some (.string key) ∧ (key, schema) ∈ disc.map

theorem lookup_eq_some_iff (disc : DiscriminatorMap) {key : Str} {schema : Schema} :
    disc.map.lookup key = some schema ↔ (key, schema) ∈ disc.map := by
  rw [List.lookup_eq_some_iff]
  constructor
  · rintro ⟨l₁, l₂, hl, -⟩
    rw [hl]; simp
  · intro hm
    obtain ⟨l₁, l₂, hl⟩ := List.append_of_mem hm
    refine ⟨l₁, l₂, hl, fun p hp => ?_⟩
    have hd := disc.distinct
    rw [hl, List.map_append, List.nodup_append] at hd
    have hne := hd.2.2 p.1 (List.mem_map_of_mem hp) key (by simp)
    exact bne_iff_ne.2 fun he => hne he.symm

theorem routed_eq_some {v : Validator} {value : Json} {schema : Schema} :
    v.routed value = some schema ↔ v.Routes value schema := by
  unfold routed Routes
  cases v.discriminator with
  | none => simp
  | some disc =>
    have hget : ∀ key, (value.get disc.field).bind Json.asStr = some key ↔ value.get disc.field = some (.string key) := by
      intro key
      cases value.get disc.field with
      | none => simp
      | some w => cases w <;> simp [Json.asStr]
    cases hb : (value.get disc.field).bind Json.asStr with
    | none =>
      simp only [hb, reduceCtorEq, false_iff]
      rintro ⟨d, key, hd, hk, -⟩
      cases hd
      rw [(hget key).2 hk] at hb; cases hb
    | some key =>
      simp only [hb, lookup_eq_some_iff]
      constructor
      · intro hm; exact ⟨disc, key, rfl, (hget key).1 hb, hm⟩
      · rintro ⟨d, key', hd, hk, hm⟩
        cases hd
        rw [(hget key').2 hk] at hb
        cases hb; exact hm

theorem mem_configured_of_routes {v : Validator} {value : Json} {schema : Schema} (h : v.Routes value schema) :
    schema ∈ v.configured := by
  obtain ⟨disc, key, hd, -, hm⟩ := h
  refine List.mem_append.2 (.inr ?_)
  simp only [hd, Option.map_some, Option.getD_some]
  exact List.mem_map.2 ⟨(key, schema), hm, rfl⟩

/-- An accepted payload is valid against a configured schema: the one its discriminator names, or else
    one of the linear list. -/
def EnforcesSchemas (S : Serde) (v : Validator) (m : SyslogMessage) : Prop :=
  v.validate S m = .ok () → ∃ value, v.payload S m = .ok value ∧
    (∃ schema ∈ v.configured, schema value = true) ∧ (∀ schema, v.Routes value schema → schema value = true) ∧
    ((∀ schema, ¬ v.Routes value schema) → ∃ schema ∈ v.schemas, schema value = true)

/-- The linear list is empty, and the payload is an object whose discriminator is absent, not a string or
    not a key of the map. -/
def Unrouted (S : Serde) (v : Validator) (m : SyslogMessage) : Prop :=
  v.schemas = [] ∧ ∃ value, v.payload S m = .ok value ∧ value.isObject = true ∧ ∀ schema, ¬ v.Routes value schema

/-- **Strict mode enforces the schemas**, except on unrouted payloads: there `schemas.is_empty()` accepts
    them, with or without a discriminator. -/
theorem strict_enforces_iff (S : Serde) (v : Validator) (m : SyslogMessage) (hmode : v.mode = .strict) :
    v.EnforcesSchemas S m ↔ ¬ v.Unrouted S m := by
  constructor
  · rintro henf ⟨hnil, value, hp, hobj, hno⟩
    have hrouted : v.routed value = none := by
      rw [Option.eq_none_iff_forall_ne_some]
      intro schema hs
      exact hno schema (routed_eq_some.1 hs)
    have hmatch : v.schemaMatches value = true := by simp [schemaMatches, hrouted, hnil]
    obtain ⟨value', hp', -, -, hlin⟩ := henf (validate_eq_ok.2 ⟨value, hp, hobj, fun _ => hmatch⟩)
    rw [hp] at hp'
    cases hp'
    obtain ⟨schema, hs, -⟩ := hlin hno
    rw [hnil] at hs; cases hs
  · intro hun hval
    obtain ⟨value, hp, hobj, hstrict⟩ := validate_eq_ok.1 hval
    have hmatch := hstrict hmode
    refine ⟨value, hp, ?_⟩
    unfold schemaMatches at hmatch
    cases hr : v.routed value with
    | some schema =>
      rw [hr] at hmatch
      have hroute := routed_eq_some.1 hr
      refine ⟨⟨schema, mem_configured_of_routes hroute, hmatch⟩, ?_, fun hno => absurd hroute (hno schema)⟩
      intro schema' hs'
      have := routed_eq_some.2 hs'
      rw [hr] at this
      cases this; exact hmatch
    | none =>
      rw [hr] at hmatch
      have hno : ∀ schema, ¬ v.Routes value schema := by
        intro schema hs
        rw [routed_eq_some.2 hs] at hr; cases hr
      have hne : v.schemas ≠ [] := fun hnil => hun ⟨hnil, value, hp, hobj, hno⟩
      have hany : ∃ schema ∈ v.schemas, schema value = true := by simpa [hne] using hmatch
      obtain ⟨schema, hs, hv⟩ := hany
      exact ⟨⟨schema, List.mem_append.2 (.inl hs), hv⟩, fun schema' hs' => absurd hs' (hno schema'), fun _ => ⟨schema, hs, hv⟩⟩

/-- Without cookies, a message whose MSG is the text of an object has that object as its payload. -/
theorem payload_toString {S : Serde} (hS : S.Lawful) {v : Validator} (hin : v.inputCee = .never) {m : SyslogMessage}
    {members : List (Str × Json)} (hord : (Json.object members).Ordered) (hm : m.msg = S.toString (.object members)) :
    v.payload S m = .ok (.object members) := by
  have hno : startsWith ceeCookie m.msg = false := by
    obtain ⟨t, ht⟩ := hS.braces members
    rw [hm, ht]; rfl
  simp only [payload, jsonStr, hin, hno, Bool.false_eq_true, if_false]
  rw [hm, hS.undoes hord]
  rfl

/-- Strict mode with a discriminator `service`, one key, and an empty linear list. -/
def webOnly : Validator where
  mode := .strict
  schemas := []
  discriminator := some ⟨"service".toList, [("web".toList, fun v => (v.get "level".toList).isSome)], by simp⟩
  inputCee := .never
  outputCee := .never
  canonicalJson := false

def serviceRecord (members : List (Str × Json)) : SyslogMessage :=
  ⟨⟨.user, .notice⟩, none, none, none, none, none, ['-'], compact.toString (.object members)⟩

theorem webOnly_payload {members : List (Str × Json)} (h : (Json.object members).Ordered) :
    webOnly.payload compact (serviceRecord members) = .ok (.object members) :=
  payload_toString compact_lawful rfl h rfl

theorem strict_enforces_routed :
    webOnly.validate compact (serviceRecord [("level".toList, .null), ("service".toList, .string "web".toList)]) = .ok () ∧
      webOnly.EnforcesSchemas compact
        (serviceRecord [("level".toList, .null), ("service".toList, .string "web".toList)]) := by
  have hord : (Json.object [("level".toList, .null), ("service".toList, .string "web".toList)]).Ordered := by
    refine .object (by decide) ?_
    simp only [List.mem_cons, List.not_mem_nil, or_false]
    rintro m (rfl | rfl)
    · exact .null
    · exact .string _
  have hpay := webOnly_payload hord
  refine ⟨validate_eq_ok.2 ⟨_, hpay, rfl, fun _ => by decide⟩, (strict_enforces_iff compact webOnly _ rfl).2 ?_⟩
  rintro ⟨-, value, hp, -, hno⟩
  rw [hpay] at hp
  cases hp
  exact hno _ ⟨_, "web".toList, rfl, rfl, List.mem_singleton.2 rfl⟩

/-- The record of a service that is no key of the map passes, though no configured schema accepts it. -/
theorem strict_accepts_unrouted :
    webOnly.mode = .strict ∧ webOnly.configured ≠ [] ∧
      webOnly.validate compact (serviceRecord [("service".toList, .string "db".toList)]) = .ok () ∧
      (∀ schema ∈ webOnly.configured, schema (.object [("service".toList, .string "db".toList)]) = false) ∧
      ¬ webOnly.EnforcesSchemas compact (serviceRecord [("service".toList, .string "db".toList)]) := by
  have hord : (Json.object [("service".toList, .string "db".toList)]).Ordered :=
    .object (by decide) (by simp only [List.mem_singleton]; rintro m rfl; exact .string _)
  have hpay := webOnly_payload hord
  have hrej : ∀ schema ∈ webOnly.configured, schema (.object [("service".toList, .string "db".toList)]) = false := by
    intro schema hs
    obtain rfl : schema = fun v => (v.get "level".toList).isSome := by simpa [configured, webOnly] using hs
    decide
  have hval : webOnly.validate compact (serviceRecord [("service".toList, .string "db".toList)]) = .ok () :=
    validate_eq_ok.2 ⟨_, hpay, rfl, fun _ => by decide⟩
  refine ⟨rfl, by simp [configured, webOnly], hval, hrej, fun henf => ?_⟩
  obtain ⟨value, hp, ⟨schema, hs, hv⟩, -⟩ := henf hval
  rw [hpay] at hp
  cases hp
  rw [hrej schema hs] at hv; cases hv

/-! ## What is forwarded -/

/-- The JSON text that is forwarded. -/
def effectiveJson (S : Serde) (v : Validator) (msg : Str) : Str :=
  if v.canonicalJson then (canonicalizeJson S (bareJson msg)).getD (bareJson msg) else bareJson msg

/-- What stands before it. -/
def outputCookie (v : Validator) (msg : Str) : Str :=
  match v.outputCee with
  | .never => []
  | .optional => if startsWith ceeCookie msg then ceeCookie else []
  | .always => ceeCookie

theorem outputCookie_cases (v : Validator) (msg : Str) : v.outputCookie msg = [] ∨ v.outputCookie msg = ceeCookie := by
  unfold outputCookie
  split
  · exact .inl rfl
  · split
    · exact .inr rfl
    · exact .inl rfl
  · exact .inr rfl

theorem cookie_append_bareJson (msg : Str) :
    (if startsWith ceeCookie msg then ceeCookie else []) ++ bareJson msg = msg := by
  unfold bareJson
  split
  · rename_i h
    obtain ⟨t, rfl⟩ := startsWith_ceeCookie.1 h
    rw [dropCookie_append]
  · rfl

theorem canonical_cases (S : Serde) (v : Validator) (msg : Str) :
    v.canonical S (bareJson msg) = none ∧ v.effectiveJson S msg = bareJson msg ∨
      ∃ cj, v.canonical S (bareJson msg) = some cj ∧ v.effectiveJson S msg = cj := by
  unfold canonical effectiveJson
  cases v.canonicalJson with
  | false => exact .inl ⟨rfl, rfl⟩
  | true =>
    cases canonicalizeJson S (bareJson msg) with
    | none => exact .inl ⟨rfl, rfl⟩
    | some cj =>
      by_cases heq : cj = bareJson msg
      · exact .inl ⟨by simp [Option.filter, heq], heq⟩
      · exact .inr ⟨cj, by simp [Option.filter, heq], rfl⟩

/-- **`prepare_for_forwarding` replaces MSG**, by the effective text behind the output cookie. -/
theorem prepareForForwarding_eq (S : Serde) (v : Validator) (m : SyslogMessage) :
    v.prepareForForwarding S m = { m with msg := v.outputCookie m.msg ++ v.effectiveJson S m.msg } := by
  have hcookie := cookie_append_bareJson m.msg
  have hbare : (if startsWith ceeCookie m.msg then dropCookie m.msg else m.msg) = bareJson m.msg := rfl
  unfold prepareForForwarding prepareForForwardingCow newMsg
  dsimp only
  rw [hbare]
  rcases canonical_cases S v m.msg with ⟨hcan, heff⟩ | ⟨cj, hcan, heff⟩
  · -- MSG changes only if the cookie does
    rw [hcan, heff, outputCookie]
    cases v.outputCee <;> cases hc : startsWith ceeCookie m.msg <;> rw [hc] at hcookie <;>
      simp [Cow.get] at hcookie ⊢ <;> rw [hcookie]
  · rw [hcan, heff, outputCookie]
    cases v.outputCee <;> cases startsWith ceeCookie m.msg <;> simp [Cow.get]

theorem sortedItems_eq_map : ∀ items : List Json, sortedItems items = items.map sortedValue
  | [] => rfl
  | v :: vs => by rw [sortedItems, sortedItems_eq_map vs, List.map_cons]

theorem sortedMembers_eq_map : ∀ members : List (Str × Json), sortedMembers members = members.map (Prod.map id sortedValue)
  | [] => rfl
  | (k, v) :: ms => by
    rw [sortedMembers, sortedMembers_eq_map ms]
    rfl

/-- What `serde_json` reads is sorted already. -/
theorem sortedValue_eq_self {v : Json} (h : v.Ordered) : sortedValue v = v := by
  induction h with
  | null => rfl
  | bool b => rfl
  | number n => rfl
  | string s => rfl
  | array _ ih =>
    rw [sortedValue, sortedItems_eq_map, List.map_congr_left ih, List.map_id']
  | object hasc _ ih =>
    have hself : ∀ m ∈ _, Prod.map id sortedValue m = id m := fun m hm => Prod.ext rfl (ih m hm)
    rw [sortedValue, sortedMembers_eq_map, List.map_congr_left hself, List.map_id, toBTreeMap_eq_self hasc]

section
variable {S : Serde} (hS : S.Lawful) {v : Validator} {m : SyslogMessage}
include hS

theorem canonicalizeJson_of_read {s : Str} {value : Json} (h : S.fromStr s = .ok value) :
    canonicalizeJson S s = some (S.toString value) := by
  rw [canonicalizeJson, h]
  simp only [sortedValue_eq_self (hS.ordered h)]

theorem effectiveJson_of_payload {value : Json} (h : v.payload S m = .ok value) :
    v.effectiveJson S m.msg = bareJson m.msg ∨ v.effectiveJson S m.msg = S.toString value := by
  unfold effectiveJson
  split
  · rw [canonicalizeJson_of_read hS (payload_eq_ok h)]
    exact .inr rfl
  · exact .inl rfl

/-- **The forwarded text is the payload that was validated**, behind at most one cookie. -/
theorem forwarded_payload {value : Json} (h : v.payload S m = .ok value) :
    S.fromStr (v.effectiveJson S m.msg) = .ok value ∧
      bareJson (v.outputCookie m.msg ++ v.effectiveJson S m.msg) = v.effectiveJson S m.msg := by
  have hread := payload_eq_ok h
  have heff : S.fromStr (v.effectiveJson S m.msg) = .ok value := by
    rcases effectiveJson_of_payload hS h with he | he
    · rw [he]; exact hread
    · rw [he]; exact hS.undoes (hS.ordered hread)
  refine ⟨heff, ?_⟩
  rcases v.outputCookie_cases m.msg with hc | hc
  · obtain ⟨c, t, hct, hne⟩ := hS.start heff
    rw [hc, List.nil_append, hct, bareJson_of_head hne]
  · rw [hc, bareJson_cookie]

/-- It ends as MSG did, or in a brace. -/
theorem getLast?_forwarded {members : List (Str × Json)} (h : v.payload S m = .ok (.object members)) :
    (v.prepareForForwarding S m).msg.getLast? = m.msg.getLast? ∨
      (v.prepareForForwarding S m).msg.getLast? = some '}' := by
  have hlast : (v.outputCookie m.msg ++ v.effectiveJson S m.msg).getLast? = (v.effectiveJson S m.msg).getLast? := by
    obtain ⟨c, t, hct, -⟩ := hS.start (forwarded_payload hS h).1
    rw [hct, List.getLast?_append, List.getLast?_cons]; rfl
  rw [prepareForForwarding_eq]
  simp only [hlast]
  rcases effectiveJson_of_payload hS h with he | he
  · left
    obtain ⟨c, t, hct, -⟩ := hS.start (payload_eq_ok h)
    conv => rhs; rw [← cookie_append_bareJson m.msg]
    rw [he, hct, List.getLast?_append, List.getLast?_cons]; rfl
  · right
    obtain ⟨t, ht⟩ := hS.braces members
    rw [he, ht]
    simp [List.getLast?_cons]

/-! ## The forwarding policy -/

/-- Behind the output cookie, what is forwarded shows a cookie exactly if there is one. -/
theorem startsWith_forwarded {value : Json} (h : v.payload S m = .ok value) :
    startsWith ceeCookie (v.outputCookie m.msg ++ v.effectiveJson S m.msg) = true ↔ v.outputCookie m.msg = ceeCookie := by
  rcases v.outputCookie_cases m.msg with hc | hc
  · obtain ⟨c, t, hct, hne⟩ := hS.start (forwarded_payload hS h).1
    rw [hc, List.nil_append, hct, startsWith_ceeCookie]
    constructor
    · rintro ⟨u, hu⟩; exact absurd (List.cons.inj hu).1 hne
    · intro hnil; cases hnil
  · rw [hc]
    exact ⟨fun _ => rfl, fun _ => startsWith_ceeCookie.2 ⟨_, rfl⟩⟩

/-- MSG is left alone exactly when the text to put in is the one that is there. -/
theorem newMsg_eq_none_iff {value : Json} (h : v.payload S m = .ok value) :
    v.newMsg S m.msg = none ↔ v.outputCookie m.msg ++ v.effectiveJson S m.msg = m.msg := by
  have hbare : (if startsWith ceeCookie m.msg then dropCookie m.msg else m.msg) = bareJson m.msg := rfl
  have hcookie := cookie_append_bareJson m.msg
  have hstart := startsWith_forwarded hS h
  constructor
  · intro hnone
    have hp := congrArg SyslogMessage.msg (prepareForForwarding_eq S v m)
    simp only [prepareForForwarding, prepareForForwardingCow, hnone, Cow.get] at hp
    exact hp.symm
  · intro heq
    -- the cookie is as it was, and so is the text behind it
    have hsame : v.outputCookie m.msg = ceeCookie ↔ startsWith ceeCookie m.msg = true := by rw [← hstart, heq]
    have htext : v.effectiveJson S m.msg = bareJson m.msg := by rw [← (forwarded_payload hS h).2, heq]
    have hcan : v.canonical S (bareJson m.msg) = none := by
      rcases canonical_cases S v m.msg with ⟨hcan, -⟩ | ⟨cj, hcan, heff⟩
      · exact hcan
      · exfalso
        rw [htext] at heff
        unfold canonical at hcan
        split at hcan
        · obtain ⟨-, hne⟩ := Option.filter_eq_some_iff.1 hcan
          simp [heff] at hne
        · cases hcan
    unfold newMsg
    dsimp only
    rw [hbare, hcan]
    unfold outputCookie at hsame
    have hne : [] ≠ ceeCookie := by decide
    cases hout : v.outputCee <;> cases hc : startsWith ceeCookie m.msg <;> simp [hout, hc, hne] at hsame ⊢

/-- Forwarding what was forwarded changes nothing. -/
theorem prepareForForwarding_idem {value : Json} (h : v.payload S m = .ok value) :
    v.prepareForForwarding S (v.prepareForForwarding S m) = v.prepareForForwarding S m := by
  obtain ⟨hread, hbare⟩ := forwarded_payload hS h
  have hstart := startsWith_forwarded hS h
  have hcookie : v.outputCookie (v.outputCookie m.msg ++ v.effectiveJson S m.msg) = v.outputCookie m.msg := by
    rcases v.outputCookie_cases m.msg with hc | hc
    · have hno : ¬ startsWith ceeCookie (v.outputCookie m.msg ++ v.effectiveJson S m.msg) = true := by
        rw [hstart, hc]; decide
      unfold outputCookie at hc hno ⊢
      cases hout : v.outputCee <;> simp only [hout] at hc hno ⊢
      rw [if_neg hno, hc]
    · have hyes := hstart.2 hc
      unfold outputCookie at hc hyes ⊢
      cases hout : v.outputCee <;> simp only [hout] at hc hyes ⊢
      rw [if_pos hyes, hc]
  have htext : v.effectiveJson S (v.outputCookie m.msg ++ v.effectiveJson S m.msg) = v.effectiveJson S m.msg := by
    rw [effectiveJson, hbare]
    split
    · rename_i hcan
      -- what is canonical is the text of its value
      have htwice : v.effectiveJson S m.msg = S.toString value := by
        rw [effectiveJson, if_pos hcan, canonicalizeJson_of_read hS (payload_eq_ok h), Option.getD_some]
      rw [canonicalizeJson_of_read hS hread, Option.getD_some, htwice]
    · rfl
  rw [prepareForForwarding_eq S v (v.prepareForForwarding S m), prepareForForwarding_eq S v m]
  simp only [hcookie, htext]

end

/-- The payload behind a cookie the input mode admits. -/
theorem payload_of_admitted {S : Serde} {v : Validator} {m : SyslogMessage} {value : Json}
    (hread : S.fromStr (bareJson m.msg) = .ok value) (hnever : v.inputCee = .never → startsWith ceeCookie m.msg = false)
    (halways : v.inputCee = .always → startsWith ceeCookie m.msg = true) : v.payload S m = .ok value := by
  have hstr : v.jsonStr m.msg = .ok (bareJson m.msg) := by
    unfold jsonStr bareJson
    cases hi : v.inputCee with
    | never => simp [hnever hi]
    | optional => simp only; split <;> rfl
    | always => simp [halways hi]
  rw [payload, hstr]
  simp [hread, Except.mapError]

/-- The policy `prepare_for_forwarding` documents, of what it makes of `m`. -/
structure Forwards (S : Serde) (v : Validator) (m : SyslogMessage) (p : Cow SyslogMessage) : Prop where
  onlyMsg : p.get = { m with msg := p.get.msg }
  never : v.outputCee = .never → startsWith ceeCookie p.get.msg = false
  optional : v.outputCee = .optional → startsWith ceeCookie p.get.msg = startsWith ceeCookie m.msg
  always : v.outputCee = .always → startsWith ceeCookie p.get.msg = true
  verbatim : v.canonicalJson = false → bareJson p.get.msg = bareJson m.msg
  canonical : v.canonicalJson = true → canonicalizeJson S (bareJson m.msg) = some (bareJson p.get.msg)
  sameValue : ∃ value, S.fromStr (bareJson m.msg) = .ok value ∧ S.fromStr (bareJson p.get.msg) = .ok value
  borrowed : p.isBorrowed = true ↔ p.get.msg = m.msg
  again : v.prepareForForwarding S p.get = p.get
  /-- A second hop that takes cookies or not accepts it. -/
  nextOptional : { v with inputCee := .optional }.validate S p.get = .ok ()
  /-- So does one that asks for the cookies this one writes. -/
  nextHop : v.outputCee ≠ .optional → { v with inputCee := v.outputCee }.validate S p.get = .ok ()

/-- **`prepare_for_forwarding` keeps its policy** on every message its validator accepts. -/
theorem prepareForForwarding_policy {S : Serde} (hS : S.Lawful) (v : Validator) (m : SyslogMessage)
    (hval : v.validate S m = .ok ()) : v.Forwards S m (v.prepareForForwardingCow S m) := by
  obtain ⟨value, hpay, hobj, hstrict⟩ := validate_eq_ok.1 hval
  obtain ⟨hread, hbare⟩ := forwarded_payload hS hpay
  have hstart := startsWith_forwarded hS hpay
  have heq : (v.prepareForForwardingCow S m).get = { m with msg := v.outputCookie m.msg ++ v.effectiveJson S m.msg } :=
    prepareForForwarding_eq S v m
  have hmsg : (v.prepareForForwardingCow S m).get.msg = v.outputCookie m.msg ++ v.effectiveJson S m.msg := by rw [heq]
  have hnever : v.outputCee = .never → startsWith ceeCookie (v.outputCookie m.msg ++ v.effectiveJson S m.msg) = false := by
    intro hout
    have hno : v.outputCookie m.msg ≠ ceeCookie := by simp only [outputCookie, hout]; decide
    simpa using fun h => hno (hstart.1 h)
  have halways : v.outputCee = .always → startsWith ceeCookie (v.outputCookie m.msg ++ v.effectiveJson S m.msg) = true := by
    intro hout
    exact hstart.2 (by simp only [outputCookie, hout])
  -- a validator that differs in its input mode alone accepts what it can read
  have hnext : ∀ mode, (mode = .never → v.outputCee = .never) → (mode = .always → v.outputCee = .always) →
      { v with inputCee := mode }.validate S (v.prepareForForwardingCow S m).get = .ok () := by
    intro mode hn ha
    refine validate_eq_ok.2 ⟨value, payload_of_admitted ?_ ?_ ?_, hobj, hstrict⟩
    · rw [hmsg, hbare, hread]
    · intro h; rw [hmsg]; exact hnever (hn h)
    · intro h; rw [hmsg]; exact halways (ha h)
  refine ⟨by rw [heq], ?_, ?_, ?_, ?_, ?_, ⟨value, payload_eq_ok hpay, by rw [hmsg, hbare, hread]⟩, ?_,
    prepareForForwarding_idem hS hpay, hnext .optional (by simp) (by simp), ?_⟩
  · rw [hmsg]; exact hnever
  · intro hout
    have hopt : v.outputCookie m.msg = if startsWith ceeCookie m.msg then ceeCookie else [] := by simp only [outputCookie, hout]
    have hempty : [] ≠ ceeCookie := by decide
    rw [hmsg, Bool.eq_iff_iff, hstart, hopt]
    cases startsWith ceeCookie m.msg <;> simp [hempty]
  · rw [hmsg]; exact halways
  · intro hcan
    rw [hmsg, hbare, effectiveJson, hcan]; rfl
  · intro hcan
    rw [hmsg, hbare, effectiveJson, if_pos hcan, canonicalizeJson_of_read hS (payload_eq_ok hpay)]; rfl
  · rw [hmsg, ← newMsg_eq_none_iff hS hpay, prepareForForwardingCow]
    cases v.newMsg S m.msg <;> simp [Cow.isBorrowed]
  · exact fun _ => hnext v.outputCee id id

/-- Takes any object, and writes it with a cookie and sorted. -/
def cookieWriter : Validator := ⟨.off, [], none, .optional, .always, true⟩

def unsortedRecord : SyslogMessage := { serviceRecord [] with msg := "\x7b\"b\":1,\"a\":2\x7d".toList }

theorem prepareForForwarding_policy_cookie :
    cookieWriter.validate compact unsortedRecord = .ok () ∧
      cookieWriter.Forwards compact unsortedRecord (cookieWriter.prepareForForwardingCow compact unsortedRecord) := by
  have hval : cookieWriter.validate compact unsortedRecord = .ok () := by decide +kernel
  exact ⟨hval, prepareForForwarding_policy compact_lawful cookieWriter _ hval⟩

end Validator

end LogFence
