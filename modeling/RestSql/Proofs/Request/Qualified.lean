import RestSql.Proofs.Request.Operations
import RestSql.Proofs.Statement.Decoding

namespace RestSql

def Request.object : Request → TableName
  | .select s => s.table
  | .insert table _ | .delete table _ => table
  | .update u => u.table
  | .call k => ⟨k.routine.schema, k.routine.name⟩

def Sketch.object {α : Type} : Sketch α → TableName
  | .select table .. | .insert table _ | .update table .. | .delete table _ => table
  | .call _ schema name _ => ⟨schema, name⟩

def TableName.IsComplete (t : TableName) : Prop := t.schema ≠ "" ∧ t.name ≠ ""

theorem Request.object_ofText? {c : Convention} {r : Request} {s : Statement}
    (h : r.compile c = .ok s) :
    ∃ sketch, Sketch.ofText? c s.text = some sketch ∧ sketch.object = r.object := by
  refine ⟨_, ofText?_compile h, ?_⟩
  cases r <;> rfl

namespace Mapping

variable {m : Mapping} {target : String} {r : Request}

theorem isComplete_of_table {table : TableName} (h : m.table target = .ok table) :
    table.IsComplete := by
  obtain ⟨hschema, htarget, rfl⟩ := table_eq_ok.1 h
  exact ⟨hschema, htarget⟩

/-- The schema of a routine is that of the body, or else that of the convention. -/
theorem object_call {body : RoutineBody} (h : m.call target body = .ok r) :
    target ≠ "" ∧
      r.object = ⟨(body.schema.filter (· ≠ "")).getD m.convention.schema, target⟩ := by
  rw [call] at h
  obtain ⟨htarget, h⟩ := ok_of_check h
  obtain ⟨k, hk, h⟩ := ok_of_bind h
  obtain rfl := ok_of_pure h
  refine ⟨htarget, ?_⟩
  rw [Request.object, (Call.of_eq_ok hk).1]

theorem schema_eq_empty {schema : Option String} {default : String} :
    (schema.filter (· ≠ "")).getD default = "" ↔ default = "" ∧ schema.getD "" = "" := by
  cases schema with
  | none => simp
  | some s =>
    rw [Option.filter_some]
    by_cases hs : s = ""
    · simp [hs]
    · simp [hs]

/-- What a read, an insert, an update or a delete is about has names in full. So has a routine that
is called, unless the schema of the convention is empty and the body names no other; nothing refuses
that call. A statement is about what its request is about. -/
theorem complete_unless_call (m : Mapping) (target : String) :
    (∀ q r, m.read target q = .ok r → r.object.IsComplete) ∧
      (∀ body r, m.insert target body = .ok r → r.object.IsComplete) ∧
      (∀ q body r, m.update target q body = .ok r → r.object.IsComplete) ∧
      (∀ q r, m.delete target q = .ok r → r.object.IsComplete) ∧
      (∀ body r, m.call target body = .ok r → r.object.name ≠ "" ∧
        (r.object.IsComplete ↔ ¬(m.convention.schema = "" ∧ body.schema.getD "" = ""))) ∧
      ∀ r s, m.compile r = .ok s →
        ∃ sketch, Sketch.ofText? m.convention s.text = some sketch ∧ sketch.object = r.object := by
  refine ⟨fun q r h => ?_, fun body r h => ?_, fun q body r h => ?_, fun q r h => ?_,
    fun body r h => ?_, fun r s h => Request.object_ofText? h⟩
  · obtain ⟨s, limit, rfl, htable, -⟩ := read_eq_ok h
    exact isComplete_of_table htable
  · obtain ⟨table, row, rfl, htable, -⟩ := insert_eq_ok h
    exact isComplete_of_table htable
  · obtain ⟨u, rfl, htable, -⟩ := update_eq_ok h
    exact isComplete_of_table htable
  · obtain ⟨table, fs, rfl, htable, -⟩ := delete_eq_ok h
    exact isComplete_of_table htable
  · obtain ⟨htarget, hobject⟩ := object_call h
    rw [hobject, TableName.IsComplete, ← schema_eq_empty]
    exact ⟨htarget, fun hc => hc.1, fun hc => ⟨hc, htarget⟩⟩

/-- An empty schema in the body leaves the one of the convention. -/
theorem complete_unless_call_default :
    ∃ r, call ⟨.standard, .standard⟩ "f" ⟨some "", false, none, []⟩ = .ok r ∧
      r.object.IsComplete := by
  have h : ∃ r, call ⟨.standard, .standard⟩ "f" ⟨some "", false, none, []⟩ = .ok r := ⟨_, rfl⟩
  obtain ⟨r, hr⟩ := h
  have hcall := ((complete_unless_call ⟨.standard, .standard⟩ "f").2.2.2.2.1 _ r hr).2
  exact ⟨r, hr, hcall.2 (by decide)⟩

/-- A routine in no schema is called, where a table in none is refused. -/
theorem call_without_schema :
    let m : Mapping := ⟨⟨.sqlServer, "", .positional, .limitOffset, false⟩, .standard⟩
    (∃ r s, m.call "f" .empty = .ok r ∧ r.object = ⟨"", "f"⟩ ∧ m.compile r = .ok s ∧
      s.text = "\x7bcall [].[f]()\x7d") ∧
      m.read "f" .empty = .error (.shape .emptySchema) := by
  intro m
  refine ⟨⟨_, _, rfl, rfl, rfl, ?_⟩, rfl⟩
  decide +kernel

end Mapping

end RestSql
