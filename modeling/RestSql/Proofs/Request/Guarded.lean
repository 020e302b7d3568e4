import RestSql.Proofs.Http.Journal
import RestSql.Proofs.Request.Operations
import RestSql.Proofs.Request.Query
import RestSql.Proofs.Statement.Writes

namespace RestSql

/-! ## Guarded requests -/

/-- Writes have filters. -/
def Request.Guarded : Request → Prop
  | .update u => u.filters ≠ []
  | .delete _ filters => filters ≠ []
  | _ => True

theorem Request.guarded_of_not_isWrite {r : Request} (h : r.isWrite = false) : r.Guarded := by
  cases r with
  | update u => simp [isWrite] at h
  | delete table fs => simp [isWrite] at h
  | _ => trivial

/-! ## Writes of a service -/

/-- Writes have a condition. -/
def Sketch.Guarded {α : Type} : Sketch α → Prop
  | .update _ _ filters | .delete _ filters => filters ≠ []
  | _ => True

theorem Request.Guarded.ofText? {c : Convention} {r : Request} {s : Statement} (hr : r.Guarded)
    (h : r.compile c = .ok s) :
    ∃ sketch, Sketch.ofText? c s.text = some sketch ∧ sketch.Guarded := by
  refine ⟨_, ofText?_compile h, ?_⟩
  have hlength : (Param.markerTexts c s.params).length = r.slotCount := by
    rw [Param.length_markerTexts, length_params h]
  cases r with
  | update u =>
    apply Filter.conditions_ne_nil hr
    simp only [slotCount] at hlength
    rw [List.length_drop]
    omega
  | delete table fs => exact Filter.conditions_ne_nil hr hlength
  | _ => trivial

namespace Mapping

variable {m : Mapping}

/-- An update or a delete that is mapped is guarded, where the policy asks for filters. -/
theorem guarded_update (hpolicy : m.policy.allowUnfilteredWrites = false) {target : String}
    {q : Query} {body : Json} {r : Request} (h : m.update target q body = .ok r) : r.Guarded := by
  obtain ⟨u, rfl, -, -, hfilters⟩ := update_eq_ok h
  exact (writeFilters_eq_ok hfilters).2 hpolicy

theorem guarded_delete (hpolicy : m.policy.allowUnfilteredWrites = false) {target : String}
    {q : Query} {r : Request} (h : m.delete target q = .ok r) : r.Guarded := by
  obtain ⟨table, fs, rfl, -, hfilters⟩ := delete_eq_ok h
  exact (writeFilters_eq_ok hfilters).2 hpolicy

theorem guarded_request (hpolicy : m.policy.allowUnfilteredWrites = false) {route : Http.Route}
    {target method : String} {q : Query} {body : List UInt8} {r : Request}
    (h : Http.Service.request m route target method q body = .ok r) : r.Guarded := by
  rw [Http.Service.request.eq_def] at h
  -- a call, an insert, an update by either method, a delete, and a read by any other
  split at h
  · obtain ⟨v, -, h⟩ := ok_of_bind h
    exact Request.guarded_of_not_isWrite (isWrite_callJson h)
  · obtain ⟨v, -, h⟩ := ok_of_bind h
    exact Request.guarded_of_not_isWrite (isWrite_insert h)
  · obtain ⟨v, -, h⟩ := ok_of_bind h
    exact guarded_update hpolicy h
  · obtain ⟨v, -, h⟩ := ok_of_bind h
    exact guarded_update hpolicy h
  · exact guarded_delete hpolicy h
  · exact Request.guarded_of_not_isWrite (isWrite_read h)

/-- Unless the policy lets writes touch every row, an update or a delete that is mapped from a
request has a filter at least, and compiles: its condition has a predicate for each filter that the
query's entries give, in order. No other operation makes a write. So in no run of the service on any
engine an update or a delete without a condition is handed over. -/
theorem writes_are_filtered (hpolicy : m.policy.allowUnfilteredWrites = false) :
    (∀ target pairs body r, m.update target (Query.ofPairs pairs) body = .ok r →
      ∃ u s, r = .update u ∧ m.table target = .ok u.table ∧
        Filter.ofEntries (Query.filterValues pairs) = .ok u.filters ∧ u.filters ≠ [] ∧
        m.compile r = .ok s ∧ s.params.length = u.row.columns.length + u.filters.length ∧
        s.text = "UPDATE " ++ u.table.quoted m.convention ++ " SET " ++
          u.row.assignments m.convention (Param.markers m.convention s.params) ++ " WHERE " ++
          Filter.condition m.convention u.filters
            ((Param.markers m.convention s.params).drop u.row.columns.length)) ∧
      (∀ target pairs r, m.delete target (Query.ofPairs pairs) = .ok r →
        ∃ table fs s, r = .delete table fs ∧ m.table target = .ok table ∧
          Filter.ofEntries (Query.filterValues pairs) = .ok fs ∧ fs ≠ [] ∧
          m.compile r = .ok s ∧ s.params.length = fs.length ∧
          s.text = "DELETE FROM " ++ table.quoted m.convention ++ " WHERE " ++
            Filter.condition m.convention fs (Param.markers m.convention s.params)) ∧
      (∀ target q r, m.read target q = .ok r → r.isWrite = false) ∧
      (∀ target body r, m.insert target body = .ok r → r.isWrite = false) ∧
      (∀ target body r, m.call target body = .ok r → r.isWrite = false) ∧
      ∀ (σ : Type) (e : Http.Engine σ) crossOrigin rs x, x.journal = [] →
        ∀ s ∈ (e.serve ⟨m, crossOrigin⟩ rs x).2.journal,
          ∃ sketch, Sketch.ofText? m.convention s.text = some sketch ∧ sketch.Guarded := by
  refine ⟨fun target pairs body r h => ?_, fun target pairs r h => ?_, fun _ _ _ => isWrite_read,
    fun _ _ _ => isWrite_insert, fun _ _ _ => isWrite_call, ?_⟩
  · obtain ⟨u, rfl, htable, -, hfilters⟩ := update_eq_ok h
    obtain ⟨hentries, hne⟩ := writeFilters_eq_ok hfilters
    rw [Query.filters_ofPairs] at hentries
    obtain ⟨s, hcompile, hlength, htext⟩ := Request.compile_update m.convention u (hne hpolicy)
    exact ⟨u, s, rfl, htable, hentries, hne hpolicy, hcompile, hlength, htext⟩
  · obtain ⟨table, fs, rfl, htable, hfilters⟩ := delete_eq_ok h
    obtain ⟨hentries, hne⟩ := writeFilters_eq_ok hfilters
    rw [Query.filters_ofPairs] at hentries
    obtain ⟨s, hcompile, hlength, htext⟩ := Request.compile_delete m.convention table (hne hpolicy)
    exact ⟨table, fs, s, rfl, htable, hentries, hne hpolicy, hcompile, hlength, htext⟩
  · intro σ e crossOrigin rs x hx
    refine e.journal_serve (fun r => Http.Service.act_all _ ?_ r) rs (by simp [hx])
    intro route target method pairs body req s hr hs
    have hguarded := guarded_request hpolicy hr
    exact hguarded.ofText? hs

/-- Blank entries give no filters, and here one entry is left. -/
theorem writes_are_filtered_blank :
    delete ⟨.standard, .standard⟩ "t" (Query.ofPairs [("filters", " "), ("filters", "a=eq.1")]) =
      .ok (.delete ⟨"dbo", "t"⟩ [⟨"a", .eq, "1"⟩]) ∧
    ∃ s, compile ⟨.standard, .standard⟩ (.delete ⟨"dbo", "t"⟩ [⟨"a", .eq, "1"⟩]) = .ok s ∧
      s.params.length = 1 := by
  have h : delete ⟨.standard, .standard⟩ "t"
      (Query.ofPairs [("filters", " "), ("filters", "a=eq.1")]) =
      .ok (.delete ⟨"dbo", "t"⟩ [⟨"a", .eq, "1"⟩]) := rfl
  obtain ⟨table, fs, s, hr, -, -, -, hs, hlength, -⟩ :=
    (writes_are_filtered (m := ⟨.standard, .standard⟩) rfl).2.1 _ _ _ h
  obtain ⟨rfl, rfl⟩ := Request.delete.inj hr
  exact ⟨h, s, hs, hlength⟩

end Mapping

end RestSql
