import RestSql.Proofs.Failure
import RestSql.Request.Mapping

namespace RestSql

/-! ## What is built -/

theorem Row.of_eq_ok {kind : WriteKind} {columns : List String} {values : List Value} {row : Row}
    (h : Row.of kind columns values = .ok row) :
    columns.length = values.length ∧ row.cells = columns.zip values := by
  rw [Row.of] at h
  split at h
  · simp at h
  · rename_i hlength
    split at h
    · simp at h
    · exact ⟨Decidable.not_not.1 hlength, congrArg Row.cells (Except.ok.inj h).symm⟩

theorem Update.of_eq_ok {table : TableName} {columns : List String} {values : List Value}
    {filters : List Filter} {u : Update} (h : Update.of table columns values filters = .ok u) :
    u.table = table ∧ u.filters = filters ∧ Row.of .update columns values = .ok u.row := by
  rw [Update.of] at h
  split at h
  · simp at h
  · obtain ⟨row, hrow, h⟩ := ok_of_bind h
    split at h
    · obtain rfl := ok_of_pure h
      exact ⟨rfl, rfl, hrow⟩
    · simp [throw, throwThe, MonadExceptOf.throw] at h

theorem Call.of_eq_ok {routine : Routine} {args : List Value} {k : Call}
    (h : Call.of routine args = .ok k) : k.routine = routine ∧ k.args = args := by
  rw [Call.of] at h
  split at h
  · split at h
    · simp at h
    · obtain rfl := Except.ok.inj h
      exact ⟨rfl, rfl⟩
  · simp at h

/-! ## Operations of a mapping -/

/-- The request changes rows that are there. -/
def Request.isWrite : Request → Bool
  | .update _ | .delete _ _ => true
  | _ => false

namespace Mapping

variable {m : Mapping} {target : String} {q : Query} {r : Request}

theorem table_eq_ok {table : TableName} : m.table target = .ok table ↔
    m.convention.schema ≠ "" ∧ target ≠ "" ∧ table = ⟨m.convention.schema, target⟩ := by
  rw [Mapping.table, TableName.of]
  split
  · simp_all
  split
  · simp_all
  · rename_i hschema htarget
    simp only [Except.ok.injEq, ne_eq, hschema, htarget, not_false_eq_true, true_and]
    exact eq_comm

/-- The schema is looked at first. -/
theorem table_eq_error {f : Failure} : m.table target = .error f ↔
    (m.convention.schema = "" ∧ f = .shape .emptySchema) ∨
      (m.convention.schema ≠ "" ∧ target = "" ∧ f = .shape .emptyTable) := by
  rw [Mapping.table, TableName.of]
  split
  · rename_i hschema
    simp only [Except.error.injEq, hschema, true_and, ne_eq, not_true_eq_false, false_and, or_false]
    exact eq_comm
  split
  · rename_i hschema htarget
    simp only [Except.error.injEq, hschema, htarget, true_and, ne_eq, not_false_eq_true, false_and,
      false_or]
    exact eq_comm
  · simp_all

theorem read_eq_ok (h : m.read target q = .ok r) :
    ∃ s limit, r = .select s ∧ m.table target = .ok s.table ∧
      Filter.ofEntries q.filters = .ok s.filters ∧ CountKey.limit.read q.limit = .ok limit ∧
      CountKey.offset.read q.offset = .ok s.window.offset ∧
      s.window.limit = limit.or m.policy.defaultLimit := by
  obtain ⟨table, htable, h⟩ := ok_of_bind h
  obtain ⟨fs, hfilters, h⟩ := ok_of_bind h
  obtain ⟨limit, hlimit, h⟩ := ok_of_bind h
  obtain ⟨offset, hoffset, h⟩ := ok_of_bind h
  obtain rfl := ok_of_pure h
  exact ⟨_, limit, rfl, htable, hfilters, hlimit, hoffset, rfl⟩

/-- The filters of a write are those of the query's entries, and there are some unless the policy
does not ask for any. -/
theorem writeFilters_eq_ok {kind : WriteKind} {fs : List Filter}
    (h : m.writeFilters kind q = .ok fs) :
    Filter.ofEntries q.filters = .ok fs ∧ (m.policy.allowUnfilteredWrites = false → fs ≠ []) := by
  obtain ⟨gs, he, h⟩ := ok_of_bind h
  obtain ⟨hguard, h⟩ := ok_of_check h
  obtain rfl := ok_of_pure h
  refine ⟨he, fun hpolicy hnil => hguard ?_⟩
  simp [hpolicy, hnil]

theorem update_eq_ok {body : Json} (h : m.update target q body = .ok r) :
    ∃ u, r = .update u ∧ m.table target = .ok u.table ∧ cellsOfJson body = .ok u.row.cells ∧
      m.writeFilters .update q = .ok u.filters := by
  obtain ⟨table, htable, h⟩ := ok_of_bind h
  obtain ⟨fs, hfilters, h⟩ := ok_of_bind h
  obtain ⟨cells, hcells, h⟩ := ok_of_bind h
  obtain ⟨-, h⟩ := ok_of_check h
  obtain ⟨u, hu, h⟩ := ok_of_bind h
  obtain rfl := ok_of_pure h
  obtain ⟨rfl, rfl, hrow⟩ := Update.of_eq_ok hu
  refine ⟨u, rfl, htable, ?_, hfilters⟩
  rw [hcells, (Row.of_eq_ok hrow).2]
  exact congrArg Except.ok (List.zip_of_prod rfl rfl)

theorem delete_eq_ok (h : m.delete target q = .ok r) :
    ∃ table fs, r = .delete table fs ∧ m.table target = .ok table ∧
      m.writeFilters .delete q = .ok fs := by
  obtain ⟨table, htable, h⟩ := ok_of_bind h
  obtain ⟨fs, hfilters, h⟩ := ok_of_bind h
  obtain rfl := ok_of_pure h
  exact ⟨table, fs, rfl, htable, hfilters⟩

theorem insert_eq_ok {body : Json} (h : m.insert target body = .ok r) :
    ∃ table row, r = .insert table row ∧ m.table target = .ok table ∧
      cellsOfJson body = .ok row.cells := by
  obtain ⟨table, htable, h⟩ := ok_of_bind h
  obtain ⟨cells, hcells, h⟩ := ok_of_bind h
  obtain ⟨row, hrow, h⟩ := ok_of_bind h
  obtain rfl := ok_of_pure h
  refine ⟨table, row, rfl, htable, ?_⟩
  rw [hcells, (Row.of_eq_ok hrow).2]
  exact congrArg Except.ok (List.zip_of_prod rfl rfl)

theorem call_eq_ok {body : RoutineBody} (h : m.call target body = .ok r) :
    ∃ k, r = .call k ∧ k.args = body.args.map fun a => Value.ofJson a.value := by
  rw [call] at h
  obtain ⟨-, h⟩ := ok_of_check h
  obtain ⟨k, hk, h⟩ := ok_of_bind h
  obtain rfl := ok_of_pure h
  exact ⟨k, rfl, (Call.of_eq_ok hk).2⟩

theorem isWrite_read (h : m.read target q = .ok r) : r.isWrite = false := by
  obtain ⟨s, limit, rfl, -⟩ := read_eq_ok h
  rfl

theorem isWrite_insert {body : Json} (h : m.insert target body = .ok r) : r.isWrite = false := by
  obtain ⟨table, row, rfl, -⟩ := insert_eq_ok h
  rfl

theorem isWrite_call {body : RoutineBody} (h : m.call target body = .ok r) : r.isWrite = false := by
  obtain ⟨k, rfl, -⟩ := call_eq_ok h
  rfl

theorem isWrite_callJson {body : Json} (h : m.callJson target body = .ok r) :
    r.isWrite = false := by
  obtain ⟨b, -, h⟩ := ok_of_bind h
  exact isWrite_call h

end Mapping

end RestSql
