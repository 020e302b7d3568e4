import RestSql.Proofs.Request.Operations
import RestSql.Proofs.Settings.Environment
import RestSql.Settings.Document

namespace RestSql

open RestSql.Text (isBlankText)

theorem ConventionSection.schema_convention (part : ConventionSection) :
    part.convention.schema = part.schema.getD
      ((part.dialect.map fun d => d.convention.schema).getD Convention.standard.schema) := by
  cases hdialect : part.dialect with
  | none => simp [convention, hdialect]
  | some d => simp [convention, hdialect]

namespace Settings

variable {s s' : Settings} {env : Environment} {text : String} {v w : Variable}

/-! ## One variable -/

namespace Variable

def accepts : Variable → String → Bool
  | databaseUrl, _ | bindAddress, _ => true
  | port, text => (Text.count? (Nat.pow 2 16) text).isSome
  | recordLimit, text => (Text.count? Text.countBound text).isSome
  | schema, text => !isBlankText text
  | maxConnections, text => (Text.count? (Nat.pow 2 32) text).isSome

/-- A variable has its text put in one place, and no place is that of the convention. -/
theorem set_eq_ok (h : v.set text s = .ok s') :
    v.accepts text = true ∧ s'.convention = s.convention ∧
      s'.schema = (if v = schema then some text else s.schema) ∧
      s'.databaseUrl = (if v = databaseUrl then some text else s.databaseUrl) := by
  cases v with
  | databaseUrl | bindAddress =>
    obtain rfl := Except.ok.inj h
    exact ⟨rfl, rfl, rfl, rfl⟩
  | port | recordLimit | maxConnections =>
    rw [set] at h
    split at h
    · rename_i n hn
      obtain rfl := Except.ok.inj h
      exact ⟨by rw [accepts, hn, Option.isSome_some], rfl, rfl, rfl⟩
    · cases h
  | schema =>
    rw [set] at h
    split at h
    · cases h
    · rename_i hblank
      obtain rfl := Except.ok.inj h
      exact ⟨by simpa [accepts] using hblank, rfl, rfl, rfl⟩

theorem set_eq_error {fault : ConfigFault} (h : v.set text s = .error fault) :
    v.accepts text = false := by
  cases v with
  | databaseUrl | bindAddress => cases h
  | port | recordLimit | maxConnections =>
    rw [set] at h
    split at h
    · cases h
    · rename_i hn
      rw [accepts, hn, Option.isSome_none]
  | schema =>
    rw [set] at h
    split at h
    · rename_i hblank
      simpa [accepts] using hblank
    · cases h

end Variable

/-! ## One environment -/

/-- The value that an environment gives a variable among those of a list, if it is one and no
variable before it in the list has a text that is none. -/
def acceptedIn? (env : Environment) (v : Variable) (vs : List Variable) : Option String :=
  if v ∈ vs ∧ ∀ u ∈ vs.takeWhile (· ≠ v), (env u.name).all u.accepts = true then
    (env v.name).filter v.accepts
  else none

def accepted? (env : Environment) (v : Variable) : Option String :=
  acceptedIn? env v Variable.all

theorem convention_applyVariables (vs : List Variable) :
    (applyVariables env vs s).1.convention = s.convention :=
  sameElsewhere_applyVariables.convention

/-- The place of a variable: its text is put there, and no other variable's is. -/
def IsPlaceOf (place : Settings → Option String) (v : Variable) : Prop :=
  ∀ u text s s', Variable.set u text s = .ok s' →
    place s' = if u = v then some text else place s

theorem isPlaceOf_schema : IsPlaceOf Settings.schema .schema :=
  fun _ _ _ _ h => (Variable.set_eq_ok h).2.2.1

theorem isPlaceOf_databaseUrl : IsPlaceOf Settings.databaseUrl .databaseUrl :=
  fun _ _ _ _ h => (Variable.set_eq_ok h).2.2.2

theorem acceptedIn?_cons_self {vs : List Variable} :
    acceptedIn? env v (v :: vs) = (env v.name).filter v.accepts := by
  rw [acceptedIn?, if_pos]
  simp

theorem acceptedIn?_cons_of_ne {u : Variable} {vs : List Variable} (h : u ≠ v) :
    acceptedIn? env v (u :: vs) =
      if (env u.name).all u.accepts = true then acceptedIn? env v vs else none := by
  by_cases hu : (env u.name).all u.accepts = true
  · rw [if_pos hu, acceptedIn?, acceptedIn?]
    simp [h, hu, Ne.symm h]
  · rw [if_neg hu, acceptedIn?, if_neg]
    simp [h, hu]

/-- After an environment a variable's place holds the value that was given, or what it held. -/
theorem place_applyVariables {place : Settings → Option String} (h : IsPlaceOf place v)
    {vs : List Variable} (hnodup : vs.Nodup) :
    place (applyVariables env vs s).1 = (acceptedIn? env v vs).or (place s) := by
  induction vs generalizing s with
  | nil => simp [applyVariables, acceptedIn?]
  | cons u us ih =>
    obtain ⟨hu, hus⟩ := List.nodup_cons.1 hnodup
    by_cases huv : u = v
    · -- the text of the variable itself is the last one that is put in its place
      subst huv
      have hlater : acceptedIn? env u us = none := if_neg fun hc => hu hc.1
      rw [acceptedIn?_cons_self]
      cases henv : env u.name with
      | none => rw [applyVariables_of_none us henv, ih hus, hlater, Option.filter_none]
      | some text =>
        cases hset : u.set text s with
        | ok s' =>
          rw [applyVariables_of_ok us henv hset, ih hus, hlater, h u text s s' hset, if_pos rfl,
            Option.filter_some, if_pos (Variable.set_eq_ok hset).1, Option.none_or, Option.some_or]
        | error fault =>
          rw [applyVariables_of_error us henv hset, Option.filter_some, if_neg, Option.none_or]
          simp [Variable.set_eq_error hset]
    · rw [acceptedIn?_cons_of_ne huv]
      cases henv : env u.name with
      | none => rw [applyVariables_of_none us henv, ih hus, Option.all_none, if_pos rfl]
      | some text =>
        cases hset : u.set text s with
        | ok s' =>
          rw [applyVariables_of_ok us henv hset, ih hus, h u text s s' hset, if_neg huv,
            Option.all_some, if_pos (Variable.set_eq_ok hset).1]
        | error fault =>
          rw [applyVariables_of_error us henv hset, Option.all_some, if_neg, Option.none_or]
          simp [Variable.set_eq_error hset]

theorem place_applyEnvironment {place : Settings → Option String} (h : IsPlaceOf place v) :
    place (s.applyEnvironment env).1 = (accepted? env v).or (place s) :=
  place_applyVariables h (by decide)

/-! ## Environments one after the other -/

/-- The settings after several environments, each of which may have been taken in part only. -/
def after (s : Settings) (envs : List Environment) : Settings :=
  envs.foldl (fun s env => (s.applyEnvironment env).1) s

def lastAccepted? (v : Variable) (envs : List Environment) : Option String :=
  (envs.filterMap fun env => accepted? env v).getLast?

theorem convention_after (s : Settings) (envs : List Environment) :
    (s.after envs).convention = s.convention := by
  induction envs generalizing s with
  | nil => rfl
  | cons env envs ih => exact (ih _).trans (convention_applyVariables _)

theorem accepts_of_accepted? (h : accepted? env v = some text) : v.accepts text = true := by
  rw [accepted?, acceptedIn?] at h
  split at h
  · exact (Option.filter_eq_some_iff.1 h).2
  · cases h

theorem lastAccepted?_cons (env : Environment) (envs : List Environment) :
    lastAccepted? v (env :: envs) = (lastAccepted? v envs).or (accepted? env v) := by
  rw [lastAccepted?, lastAccepted?, List.filterMap_cons]
  cases accepted? env v with
  | none => simp
  | some text =>
    simp only [List.getLast?_cons]
    cases (envs.filterMap fun env => accepted? env v).getLast? <;> rfl

theorem place_after {place : Settings → Option String} (h : IsPlaceOf place v) (s : Settings)
    (envs : List Environment) :
    place (s.after envs) = (lastAccepted? v envs).or (place s) := by
  induction envs generalizing s with
  | nil => rfl
  | cons env envs ih =>
    have hstep : place (s.after (env :: envs)) =
        (lastAccepted? v envs).or (place (s.applyEnvironment env).1) := ih _
    rw [hstep, place_applyEnvironment h, lastAccepted?_cons, Option.or_assoc]

/-! ## Schemas -/

theorem schemasNamed_iff : s.schemasNamed = true ↔
    (∀ name ∈ s.schema, isBlankText name = false) ∧
      ∀ c ∈ s.convention, isBlankText c.schema = false := by
  cases hschema : s.schema <;> cases hconvention : s.convention <;>
    simp [schemasNamed, hschema, hconvention]

def schemaOfUrl (url : Option String) : String :=
  ((url.bind Dialect.ofUrl?).map fun d => d.convention.schema).getD Convention.standard.schema

theorem isBlankText_schemaOfUrl (url : Option String) : isBlankText (schemaOfUrl url) = false := by
  rw [schemaOfUrl]
  cases url.bind Dialect.ofUrl? with
  | none => decide
  | some d => cases d <;> decide

theorem schema_baseConvention (s : Settings) :
    s.baseConvention.schema = (s.convention.map (·.schema)).getD (schemaOfUrl s.databaseUrl) := by
  rw [baseConvention, schemaOfUrl]
  cases s.convention with
  | some c => rfl
  | none => cases s.databaseUrl.bind Dialect.ofUrl? <;> rfl

theorem isBlankText_effectiveConvention (h : s.schemasNamed = true) :
    isBlankText s.effectiveConvention.schema = false := by
  obtain ⟨hschema, hconvention⟩ := schemasNamed_iff.1 h
  have hbase : isBlankText s.baseConvention.schema = false := by
    rw [schema_baseConvention]
    cases hc : s.convention with
    | none => exact isBlankText_schemaOfUrl _
    | some c => exact hconvention c hc
  rw [effectiveConvention]
  cases hs : s.schema with
  | none => exact hbase
  | some name => exact hschema name hs

theorem table_eq_ok_of_schemasNamed (h : s.schemasNamed = true) {name : String}
    (hname : name ≠ "") :
    s.mapping.table name = .ok ⟨s.effectiveConvention.schema, name⟩ := by
  refine Mapping.table_eq_ok.2 ⟨fun hempty => ?_, hname, rfl⟩
  have hblank := isBlankText_effectiveConvention h
  rw [show s.effectiveConvention.schema = "" from hempty] at hblank
  cases hblank

theorem schemasNamed_after (h : s.schemasNamed = true) (envs : List Environment) :
    (s.after envs).schemasNamed = true := by
  obtain ⟨hschema, hconvention⟩ := schemasNamed_iff.1 h
  refine schemasNamed_iff.2 ⟨fun name hname => ?_, ?_⟩
  · rw [place_after isPlaceOf_schema] at hname
    cases hlast : lastAccepted? .schema envs with
    | none => exact hschema name (by simpa [hlast] using hname)
    | some text =>
      obtain rfl : text = name := by simpa [hlast] using hname
      obtain ⟨env, -, henv⟩ := List.mem_filterMap.1 (List.mem_of_getLast? hlast)
      simpa [Variable.accepts] using accepts_of_accepted? henv
  · rwa [convention_after]

/-! ## Documents -/

theorem exists_section_of_ofToml (h : ofToml text = .ok s) :
    s.schemasNamed = true ∧ ∃ entries part, Toml.ofText? text = some entries ∧
      optional? string? (Toml.Value.entry? entries "default_schema") = some s.schema ∧
      optional? section? (Toml.Value.entry? entries "compiler") = some part ∧
      s.convention = part.map ConventionSection.convention := by
  rw [ofToml] at h
  split at h
  · cases h
  · rename_i r hr
    split at h
    · rename_i hnamed
      obtain rfl := Except.ok.inj h
      obtain ⟨entries, htext, hentries⟩ := Option.bind_eq_some_iff.1 hr
      rw [ofEntries?] at hentries
      obtain ⟨url, -, hentries⟩ := Option.bind_eq_some_iff.1 hentries
      obtain ⟨address, -, hentries⟩ := Option.bind_eq_some_iff.1 hentries
      obtain ⟨connections, -, hentries⟩ := Option.bind_eq_some_iff.1 hentries
      obtain ⟨origin, -, hentries⟩ := Option.bind_eq_some_iff.1 hentries
      obtain ⟨limit, -, hentries⟩ := Option.bind_eq_some_iff.1 hentries
      obtain ⟨allow, -, hentries⟩ := Option.bind_eq_some_iff.1 hentries
      obtain ⟨schema, hschema, hentries⟩ := Option.bind_eq_some_iff.1 hentries
      obtain ⟨part, hpart, hentries⟩ := Option.bind_eq_some_iff.1 hentries
      obtain rfl := Option.some.inj hentries
      exact ⟨hnamed, entries, part, htext, hschema, hpart, rfl⟩
    · cases h

/-- The settings that there are before any variable is taken: the standard ones, those of a
document, and those that are put together with a convention or without one. -/
inductive Initial : Settings → Prop
  | standard : Initial .standard
  | document {text : String} {s : Settings} (h : ofToml text = .ok s) : Initial s
  | built {s : Settings} (hschema : s.schema = none)
    (hconvention : ∀ c ∈ s.convention, isBlankText c.schema = false) : Initial s

theorem Initial.schemasNamed (h : Initial s) : s.schemasNamed = true := by
  cases h with
  | standard => decide
  | document h => exact (exists_section_of_ofToml h).1
  | built hschema hconvention =>
    exact schemasNamed_iff.2 ⟨fun name hname => by simp [hschema] at hname, hconvention⟩

/-- No schema is ever blank in settings, whatever environments they go through in full or in part,
so every table with a name has one in full. The schema in force is the last one that a variable
gave, or else the one the settings began with, or else that of their convention, or else that of
the dialect of their last database. A document gives the schema and the convention that its entries
say, and where its section names no schema the dialect of the section does. -/
theorem schema_named (h : Initial s) (envs : List Environment) :
    let t := s.after envs
    (∀ name ∈ t.schema, isBlankText name = false) ∧
      (∀ c ∈ t.convention, isBlankText c.schema = false) ∧
      isBlankText t.effectiveConvention.schema = false ∧
      (∀ name, name ≠ "" → t.mapping.table name = .ok ⟨t.effectiveConvention.schema, name⟩) ∧
      t.effectiveConvention.schema = (lastAccepted? .schema envs).getD
        (s.schema.getD ((s.convention.map (·.schema)).getD
          (schemaOfUrl ((lastAccepted? .databaseUrl envs).or s.databaseUrl)))) ∧
      ∀ text, ofToml text = .ok s → ∃ entries part, Toml.ofText? text = some entries ∧
        optional? string? (Toml.Value.entry? entries "default_schema") = some s.schema ∧
        optional? section? (Toml.Value.entry? entries "compiler") = some part ∧
        s.convention = part.map ConventionSection.convention ∧
        ∀ c ∈ part, c.convention.schema = c.schema.getD
          ((c.dialect.map fun d => d.convention.schema).getD Convention.standard.schema) := by
  intro t
  have hnamed : t.schemasNamed = true := schemasNamed_after h.schemasNamed envs
  obtain ⟨hschema, hconvention⟩ := schemasNamed_iff.1 hnamed
  refine ⟨hschema, hconvention, isBlankText_effectiveConvention hnamed,
    fun name hname => table_eq_ok_of_schemasNamed hnamed hname, ?_, fun text htext => ?_⟩
  · show t.schema.getD t.baseConvention.schema = _
    rw [schema_baseConvention, convention_after, place_after isPlaceOf_databaseUrl,
      place_after isPlaceOf_schema, Option.getD_or]
  · obtain ⟨-, entries, part, hentries, htop, hpart, hsection⟩ := exists_section_of_ofToml htext
    exact ⟨entries, part, hentries, htop, hpart, hsection, fun c _ => c.schema_convention⟩

/-- Of an environment that is refused behind the schema the schema stays, and of one that is refused
before it the database stays. -/
theorem schema_named_in_part :
    let behind : Environment := fun name =>
      [("DB_SCHEMA", "a"), ("DB_MAX_CONNECTIONS", "x")].lookup name
    let before : Environment := fun name =>
      [("DATABASE_URL", "sqlite:b"), ("PORT", "x"), ("DB_SCHEMA", "b")].lookup name
    ∃ s, ofToml "[compiler]\ndialect = \"postgres\"\n" = .ok s ∧
      (s.after []).effectiveConvention.schema = "public" ∧
      (s.after [behind, before]).effectiveConvention.schema = "a" ∧
      (s.after [behind, before]).mapping.table "t" = .ok ⟨"a", "t"⟩ := by
  intro behind before
  have hdocument : (ofToml "[compiler]\ndialect = \"postgres\"\n").toOption =
      some { standard with convention := some Dialect.postgres.convention } := by
    decide +kernel
  have hinitial := Initial.document (ok_of_toOption hdocument)
  obtain ⟨-, -, -, -, hpublic, -⟩ := schema_named hinitial []
  obtain ⟨-, -, -, htable, ha, -⟩ := schema_named hinitial [behind, before]
  have hlast : lastAccepted? .schema [behind, before] = some "a" := by decide +kernel
  rw [hlast, Option.getD_some] at ha
  refine ⟨_, ok_of_toOption hdocument, hpublic, ha, ?_⟩
  rw [htable "t" (by decide), ha]

end Settings

end RestSql
