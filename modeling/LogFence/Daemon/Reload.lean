import LogFence.Daemon.Config

/-!
# Building a validator (`logfence-daemon/src/main.rs`, `validator.rs`)

| here | there |
| --- | --- |
| `Validator.new`, `fromValues`, `withDiscriminatorDocs`, .. | the constructors (`validator.rs:75-154`) |
| `readSchema`, `loadSchemaFiles`, `loadSchemaFilesMap` | `load_schema_files`, `load_schema_files_map` (`main.rs:326`, `:339`) |
| `buildValidator`, `reloadValidator` | the two functions (`main.rs:307`, `:256`) |

`reloadValidator_fails_iff` lists every way a reload fails: the configuration does not load, or one of the
schema files it names, for the scan or for the discriminator, cannot be read, parsed or compiled.
-/

namespace LogFence

open Rust

/-! ## The code -/

namespace Validator

def new (mode : ValidationMode) (schemas : List Schema) : Validator := ⟨mode, schemas, none, .never, .never, false⟩

def withInputCee (v : Validator) (mode : CeeCookieMode) : Validator := { v with inputCee := mode }

def withOutputCee (v : Validator) (mode : CeeCookieMode) : Validator := { v with outputCee := mode }

def withCanonicalJson (v : Validator) (enabled : Bool) : Validator := { v with canonicalJson := enabled }

def fromValues (host : Host) (mode : ValidationMode) (docs : List Json) : Except Str Validator :=
  (collect host.validatorFor docs).map (Validator.new mode)

/-- The compiled schema for a key (`validator.rs:126-130`). -/
def compileFor (host : Host) (key : Str) (doc : Json) : Except Str Schema :=
  (host.validatorFor doc).mapError fun e =>
    "invalid discriminator schema for '".toList ++ key ++ "': ".toList ++ e

def withDiscriminatorDocs (host : Host) (v : Validator) (field : Str) (docs : HashMap Json) : Except Str Validator :=
  (docs.traverse (compileFor host)).map fun map =>
    { v with discriminator := some ⟨field, map.entries, map.distinct⟩ }

end Validator

/-- A schema document; `kind` is what the two loaders call it in their errors. -/
def readSchema (S : Serde) (host : Host) (kind : String) (path : Str) : Except Str Json :=
  match host.readToString path with
  | .error e => .error ("cannot read ".toList ++ kind.toList ++ " '".toList ++ path ++ "': ".toList ++ e)
  | .ok text =>
    (S.fromStr text).mapError fun e =>
      "cannot parse ".toList ++ kind.toList ++ " '".toList ++ path ++ "': ".toList ++ e

def loadSchemaFiles (S : Serde) (host : Host) (paths : List Str) : Except Str (List Json) :=
  collect (readSchema S host "schema") paths

def loadSchemaFilesMap (S : Serde) (host : Host) (schemaMap : HashMap Str) : Except Str (HashMap Json) :=
  schemaMap.traverse fun _ path => readSchema S host "discriminator schema" path

def buildValidator (S : Serde) (host : Host) (cfg : ValidationConfig) : Except Str Validator :=
  match loadSchemaFiles S host cfg.schemas with
  | .error e => .error e
  | .ok docs =>
    match Validator.fromValues host cfg.mode docs with
    | .error e => .error ("invalid JSON schema: ".toList ++ e)
    | .ok v =>
      let v := ((v.withInputCee cfg.inputCee).withOutputCee cfg.outputCee).withCanonicalJson cfg.canonicalJson
      match cfg.discriminator with
      | none => .ok v
      | some field =>
        match loadSchemaFilesMap S host cfg.schemaMap with
        | .error e => .error e
        | .ok docs =>
          (v.withDiscriminatorDocs host field docs).mapError fun e => "invalid discriminator schema: ".toList ++ e

def reloadValidator (S : Serde) (host : Host) (configPath : Str) : Except Str (ValidationConfig × Validator) :=
  match load host configPath with
  | .error e => .error e.toStr
  | .ok cfg =>
    match buildValidator S host cfg.validation with
    | .error e => .error e
    | .ok v => .ok (cfg.validation, v)

/-! ## When it fails -/

/-- A file that gives a compiled schema. -/
def GoodSchema (S : Serde) (host : Host) (path : Str) : Prop :=
  ∃ text doc schema, host.readToString path = .ok text ∧ S.fromStr text = .ok doc ∧ host.validatorFor doc = .ok schema

theorem readSchema_eq_ok {S : Serde} {host : Host} {kind : String} {path : Str} {doc : Json} :
    readSchema S host kind path = .ok doc ↔ ∃ text, host.readToString path = .ok text ∧ S.fromStr text = .ok doc := by
  unfold readSchema
  cases host.readToString path with
  | error e => simp
  | ok text => simp [mapError_eq_ok]

theorem goodSchema_iff {S : Serde} {host : Host} {path : Str} (kind : String) :
    GoodSchema S host path ↔ ∃ doc, readSchema S host kind path = .ok doc ∧ ∃ schema, host.validatorFor doc = .ok schema := by
  constructor
  · rintro ⟨text, doc, schema, htext, hdoc, hschema⟩
    exact ⟨doc, readSchema_eq_ok.2 ⟨text, htext, hdoc⟩, schema, hschema⟩
  · rintro ⟨doc, hdoc, schema, hschema⟩
    obtain ⟨text, htext, hdoc⟩ := readSchema_eq_ok.1 hdoc
    exact ⟨text, doc, schema, htext, hdoc, hschema⟩

theorem compileFor_eq_ok {host : Host} {key : Str} {doc : Json} {schema : Schema} :
    Validator.compileFor host key doc = .ok schema ↔ host.validatorFor doc = .ok schema := by
  rw [Validator.compileFor, mapError_eq_ok]

/-- The schemas of the linear scan. -/
theorem scan_ok_iff {S : Serde} {host : Host} {mode : ValidationMode} {paths : List Str} :
    (∃ docs, loadSchemaFiles S host paths = .ok docs ∧ ∃ v, Validator.fromValues host mode docs = .ok v) ↔
      ∀ path ∈ paths, GoodSchema S host path := by
  have hvalues : ∀ docs, (∃ v, Validator.fromValues host mode docs = .ok v) ↔
      ∃ schemas, collect host.validatorFor docs = .ok schemas := by
    intro docs
    unfold Validator.fromValues
    cases collect host.validatorFor docs <;> simp [Except.map]
  simp only [hvalues, loadSchemaFiles, collect_collect, goodSchema_iff "schema"]

/-- The schemas of the discriminator. -/
theorem routes_ok_iff {S : Serde} {host : Host} {v : Validator} {field : Str} {schemaMap : HashMap Str} :
    (∃ docs, loadSchemaFilesMap S host schemaMap = .ok docs ∧ ∃ v', v.withDiscriminatorDocs host field docs = .ok v') ↔
      ∀ e ∈ schemaMap.entries, GoodSchema S host e.2 := by
  have hdocs : ∀ docs, (∃ v', v.withDiscriminatorDocs host field docs = .ok v') ↔
      ∃ map, docs.traverse (Validator.compileFor host) = .ok map := by
    intro docs
    unfold Validator.withDiscriminatorDocs
    cases docs.traverse (Validator.compileFor host) <;> simp [Except.map]
  simp only [hdocs, loadSchemaFilesMap, HashMap.traverse_traverse, compileFor_eq_ok,
    goodSchema_iff "discriminator schema"]

theorem buildValidator_ok_iff {S : Serde} {host : Host} {cfg : ValidationConfig} :
    (∃ v, buildValidator S host cfg = .ok v) ↔ (∀ path ∈ cfg.schemas, GoodSchema S host path) ∧
      (cfg.discriminator.isSome = true → ∀ e ∈ cfg.schemaMap.entries, GoodSchema S host e.2) := by
  rw [← @scan_ok_iff S host cfg.mode cfg.schemas]
  constructor
  · rintro ⟨v, h⟩
    unfold buildValidator at h
    split at h
    · cases h
    · rename_i docs hdocs
      split at h
      · cases h
      · rename_i v₀ hv₀
        refine ⟨⟨docs, hdocs, v₀, hv₀⟩, fun hsome => ?_⟩
        dsimp only at h
        split at h
        · rename_i hnone
          rw [hnone] at hsome
          cases hsome
        · split at h
          · cases h
          · rename_i docs' hdocs'
            exact routes_ok_iff.1 ⟨docs', hdocs', v, mapError_eq_ok.1 h⟩
  · rintro ⟨⟨docs, hdocs, v₀, hv₀⟩, hroutes⟩
    cases hdisc : cfg.discriminator with
    | none => simp [buildValidator, hdocs, hv₀, hdisc]
    | some field =>
      obtain ⟨docs', hdocs', v, hv⟩ := routes_ok_iff.2 (hroutes (by rw [hdisc]; rfl))
      refine ⟨v, ?_⟩
      simp only [buildValidator, hdocs, hv₀, hdisc, hdocs']
      exact mapError_eq_ok.2 hv

theorem reloadValidator_ok_iff {S : Serde} {host : Host} {configPath : Str} :
    (∃ r, reloadValidator S host configPath = .ok r) ↔
      ∃ cfg, load host configPath = .ok cfg ∧ ∃ v, buildValidator S host cfg.validation = .ok v := by
  unfold reloadValidator
  cases load host configPath with
  | error e => simp
  | ok cfg => cases hv : buildValidator S host cfg.validation <;> simp [hv]

/-- **A reload fails just if something it needs does**: the configuration, or any of its schemas. -/
theorem reloadValidator_fails_iff {S : Serde} {host : Host} {configPath : Str} :
    (∃ e, reloadValidator S host configPath = .error e) ↔ ∀ cfg, load host configPath = .ok cfg →
      (∃ path ∈ cfg.validation.schemas, ¬ GoodSchema S host path) ∨
        cfg.validation.discriminator.isSome = true ∧ ∃ e ∈ cfg.validation.schemaMap.entries, ¬ GoodSchema S host e.2 := by
  rw [fails_iff, reloadValidator_ok_iff]
  simp only [buildValidator_ok_iff]
  constructor
  · intro h cfg hcfg
    by_contra hno
    push Not at hno
    exact h ⟨cfg, hcfg, hno⟩
  · rintro h ⟨cfg, hcfg, hscan, hroutes⟩
    rcases h cfg hcfg with ⟨path, hm, hbad⟩ | ⟨hsome, e, hm, hbad⟩
    · exact hbad (hscan path hm)
    · exact hbad (hroutes hsome e hm)

end LogFence
