import RestSql.Cli.Preview
import RestSql.Proofs.Request.Qualified
import RestSql.Settings.Loading

namespace RestSql

/-! ## Operations -/

namespace Mapping

variable {m : Mapping} {target : String} {q : Query} {body : Json} {r : Request}

theorem eq_of_table {table : TableName} (h : m.table target = .ok table) :
    table = ⟨m.convention.schema, target⟩ := (table_eq_ok.1 h).2.2

theorem object_read (h : m.read target q = .ok r) : r.object = ⟨m.convention.schema, target⟩ := by
  obtain ⟨s, limit, rfl, htable, -⟩ := read_eq_ok h
  exact eq_of_table htable

theorem object_insert (h : m.insert target body = .ok r) :
    r.object = ⟨m.convention.schema, target⟩ := by
  obtain ⟨table, row, rfl, htable, -⟩ := insert_eq_ok h
  exact eq_of_table htable

theorem object_update (h : m.update target q body = .ok r) :
    r.object = ⟨m.convention.schema, target⟩ := by
  obtain ⟨u, rfl, htable, -⟩ := update_eq_ok h
  exact eq_of_table htable

theorem object_delete (h : m.delete target q = .ok r) :
    r.object = ⟨m.convention.schema, target⟩ := by
  obtain ⟨table, fs, rfl, htable, -⟩ := delete_eq_ok h
  exact eq_of_table htable

end Mapping

namespace Cli.Preview

variable {p : Preview} {s : Settings} {m : Mapping} {body : Json} {r : Request} {st : Statement}

/-! ## Previews -/

/-- The schema that the body of a routine call names; an empty one is none. -/
def bodySchema? (p : Preview) : Option String :=
  match p.method, p.bodyJson with
  | .rpc, .ok v => ((RoutineBody.ofCall v).toOption.bind (·.schema)).filter (· ≠ "")
  | _, _ => none

/-- A table is in the schema of the convention, a routine in that of its body if it names one. -/
theorem object_request (hbody : p.bodyJson = .ok body) (h : p.request m body = .ok r) :
    r.object = ⟨p.bodySchema?.getD m.convention.schema, p.target⟩ := by
  rw [request] at h
  cases hm : p.method with
  | get =>
    rw [hm] at h
    rw [Mapping.object_read (ok_of_mapError h), bodySchema?, hm]
    rfl
  | post =>
    rw [hm] at h
    rw [Mapping.object_insert (ok_of_mapError h), bodySchema?, hm]
    rfl
  | patch | put =>
    rw [hm] at h
    rw [Mapping.object_update (ok_of_mapError h), bodySchema?, hm]
    rfl
  | delete =>
    rw [hm] at h
    rw [Mapping.object_delete (ok_of_mapError h), bodySchema?, hm]
    rfl
  | rpc =>
    rw [hm] at h
    obtain ⟨b, hb, h⟩ := ok_of_bind h
    rw [(Mapping.object_call (ok_of_mapError h)).2, bodySchema?, hm, hbody]
    simp only [ok_of_mapError hb]
    rfl

theorem schema_convention (p : Preview) (s : Settings) : (p.convention s).schema =
    p.schema.getD ((p.dialect.map fun d => d.convention.schema).getD
      s.effectiveConvention.schema) := by
  rw [convention]
  cases p.dialect <;> rfl

/-- The statement of a preview is about its target, in the schema that the body of a routine call
names, or else in that of the option, or else in that of the dialect that is asked for, or else in
that of the settings. So if the settings have a schema, a statement that names no other is in it
unless a dialect is asked for that has another schema. -/
theorem schema_shown (h : p.statement s = .ok st) :
    ∃ sketch, Sketch.ofText? (p.convention s) st.text = some sketch ∧
      sketch.object = ⟨p.bodySchema?.getD (p.schema.getD
        ((p.dialect.map fun d => d.convention.schema).getD s.effectiveConvention.schema)),
        p.target⟩ ∧
      ∀ name, s.schema = some name → p.bodySchema? = none →
        (∀ x, p.schema = some x → sketch.object.schema = x) ∧
        (p.schema = none → (sketch.object.schema = name ↔
          ∀ d, p.dialect = some d → d.convention.schema = name)) := by
  obtain ⟨body, hbody, h⟩ := ok_of_bind h
  obtain ⟨r, hr, h⟩ := ok_of_bind h
  obtain ⟨sketch, htext, hobject⟩ := Request.object_ofText? (ok_of_mapError h)
  have hsketch := hobject.trans (object_request hbody hr)
  rw [show (p.mapping s).convention = p.convention s from rfl, schema_convention] at hsketch
  refine ⟨sketch, htext, hsketch, fun name hname hnone => ⟨fun x hx => ?_, fun hschema => ?_⟩⟩
  · rw [hsketch, hnone, hx]
    rfl
  · have hsettings : s.effectiveConvention.schema = name := by
      rw [Settings.effectiveConvention, hname]
      rfl
    rw [hsketch, hnone, hschema, hsettings]
    cases p.dialect <;> simp

/-- Without a dialect to ask for, the schema of the settings. -/
theorem schema_shown_settings :
    let s : Settings := { Settings.standard with schema := some "sales" }
    let p : Preview := ⟨.get, "t", .empty, none, none, some .dollar, some .top, none, false⟩
    ∃ st sketch, p.statement s = .ok st ∧
      Sketch.ofText? (p.convention s) st.text = some sketch ∧ sketch.object.schema = "sales" := by
  intro s p
  have hstatement : (p.statement s).toOption =
      some ⟨"SELECT TOP (1000) * FROM [sales].[t]", []⟩ := by
    decide +kernel
  obtain ⟨sketch, htext, -, hschema⟩ := schema_shown (ok_of_toOption hstatement)
  exact ⟨_, sketch, ok_of_toOption hstatement, htext,
    ((hschema "sales" rfl rfl).2 rfl).2 fun d hd => by cases hd⟩

/-- The schema of a document is lost to that of the dialect. -/
theorem schema_of_dialect_shown :
    ∃ s, Settings.load (some ("config.toml", "default_schema = \"sales\"\n")) (fun _ => none) =
        .ok s ∧ s.schema = some "sales" ∧ s.effectiveConvention.schema = "sales" ∧
      let p : Preview := ⟨.get, "t", .empty, none, some .postgres, none, none, none, false⟩
      ∃ st sketch, p.statement s = .ok st ∧ st.text = "SELECT * FROM \"public\".\"t\" LIMIT 1000" ∧
        Sketch.ofText? (p.convention s) st.text = some sketch ∧
        sketch.object = ⟨"public", "t"⟩ := by
  have hload : (Settings.load (some ("config.toml", "default_schema = \"sales\"\n"))
      (fun _ => none)).toOption = some { Settings.standard with schema := some "sales" } := by
    decide +kernel
  refine ⟨_, ok_of_toOption hload, rfl, rfl, ?_⟩
  intro p
  have hstatement : (p.statement { Settings.standard with schema := some "sales" }).toOption =
      some ⟨"SELECT * FROM \"public\".\"t\" LIMIT 1000", []⟩ := by
    decide +kernel
  have hsketch : ((Sketch.ofText? (p.convention { Settings.standard with schema := some "sales" })
      "SELECT * FROM \"public\".\"t\" LIMIT 1000").map Sketch.object) = some ⟨"public", "t"⟩ := by
    decide +kernel
  obtain ⟨sketch, htext, hobject⟩ := Option.map_eq_some_iff.1 hsketch
  exact ⟨_, sketch, ok_of_toOption hstatement, rfl, htext, hobject⟩

end Cli.Preview

end RestSql
