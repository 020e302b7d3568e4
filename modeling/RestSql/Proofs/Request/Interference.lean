import RestSql.Proofs.Request.Entries
import RestSql.Proofs.Statement.Values
import RestSql.Request.Mapping

namespace RestSql

/-! ## Filters -/

namespace Filter

/-- Entries with the same column and token are read alike. -/
theorem ofEntry_wire_withoutValue {column : String} (op : Operator) (v w : String)
    (hne : column ≠ "") (hfree : '=' ∉ column.toList)
    (hplain : (⟨column, "", ""⟩ : Parts).IsPlain) :
    (ofEntry (Parts.wire ⟨column, op.token, v⟩)).map (List.map withoutValue) =
      (ofEntry (Parts.wire ⟨column, op.token, w⟩)).map (List.map withoutValue) := by
  have hread : ∀ value, ofEntry (Parts.wire ⟨column, op.token, value⟩) =
      .ok [⟨column, op, value⟩] := by
    intro value
    have hsplits : (⟨column, op.token, value⟩ : Parts).Splits :=
      splits_parts (f := ⟨column, op, value⟩) hne hfree
    rw [Parts.ofEntry_wire hsplits hplain, Parts.read_of_token rfl]
    rfl
  rw [hread, hread]
  rfl

theorem ofEntry_wire_of_no_column (token value : String) :
    ofEntry (Parts.wire ⟨"", token, value⟩) =
      .error (.filterSyntax (Parts.wire ⟨"", token, value⟩)) := by
  rw [Parts.ofEntry_wire_eq_ofWire (by simp [Parts.IsPlain])]
  rcases splits_or_filterSyntax (Parts.wire ⟨"", token, value⟩) with ⟨p, hp, hwire⟩ | herror
  · -- a column that ends at the first equals sign would be empty
    have hcut := Text.cutFirst?_append hp.column_free (p.token.toList ++ '.' :: p.value.toList)
    rw [← Parts.toList_wire, hwire, Parts.toList_wire] at hcut
    have hempty : p.column.toList = [] := by
      simpa [Text.cutFirst?] using (Prod.mk.inj (Option.some.inj hcut)).1.symm
    exact absurd (String.toList_inj.1 hempty) hp.column_ne
  · rw [herror]
    rfl

theorem ofEntries_withoutValue {raw raw' : String}
    (h : (ofEntry raw).map (List.map withoutValue) = (ofEntry raw').map (List.map withoutValue))
    (before behind : List String) :
    (ofEntries (before ++ raw :: behind)).map (List.map withoutValue) =
      (ofEntries (before ++ raw' :: behind)).map (List.map withoutValue) := by
  rw [ofEntries_append, ofEntries_append]
  refine map_bind_congr fun fs => ?_
  refine map_bind_eq (p := List.map withoutValue) ?_ fun gs gs' hgs => ?_
  · refine map_bind_eq h fun gs gs' hgs => ?_
    refine map_bind_congr fun hs => ?_
    simp [pure, Except.pure, Except.map, hgs]
  · simp [pure, Except.pure, Except.map, hgs]

end Filter

/-! ## Requests -/

def Query.withFilters (q : Query) (entries : List String) : Query := { q with filters := entries }

namespace Mapping

variable {m : Mapping} {target : String} {q : Query}

section

variable {entries entries' : List String}
  (h : (Filter.ofEntries entries).map (List.map Filter.withoutValue) =
    (Filter.ofEntries entries').map (List.map Filter.withoutValue))

include h

theorem read_withoutValues :
    (m.read target (q.withFilters entries)).map Request.withoutValues =
      (m.read target (q.withFilters entries')).map Request.withoutValues := by
  refine map_bind_congr fun table => ?_
  refine map_bind_eq h fun fs fs' hfs => ?_
  refine map_bind_congr fun limit => ?_
  refine map_bind_congr fun offset => ?_
  simp [pure, Except.pure, Except.map, Request.withoutValues, Query.withFilters, hfs]

theorem writeFilters_withoutValue (kind : WriteKind) :
    (m.writeFilters kind (q.withFilters entries)).map (List.map Filter.withoutValue) =
      (m.writeFilters kind (q.withFilters entries')).map (List.map Filter.withoutValue) := by
  refine map_bind_eq h fun fs fs' hfs => ?_
  have hempty : fs.isEmpty = fs'.isEmpty := by
    rw [← List.isEmpty_map (f := Filter.withoutValue), hfs, List.isEmpty_map]
  rw [hempty]
  split
  · rfl
  · simp [pure, Except.pure, Except.map, hfs]

theorem delete_withoutValues :
    (m.delete target (q.withFilters entries)).map Request.withoutValues =
      (m.delete target (q.withFilters entries')).map Request.withoutValues := by
  refine map_bind_congr fun table => ?_
  refine map_bind_eq (writeFilters_withoutValue h .delete) fun fs fs' hfs => ?_
  simp [pure, Except.pure, Except.map, Request.withoutValues, hfs]

theorem update_withoutValues (body : Json) :
    (m.update target (q.withFilters entries) body).map Request.withoutValues =
      (m.update target (q.withFilters entries') body).map Request.withoutValues := by
  refine map_bind_congr fun table => ?_
  refine map_bind_eq (writeFilters_withoutValue h .update) fun fs fs' hfs => ?_
  refine map_bind_congr fun cells => ?_
  dsimp only
  split
  · rfl
  refine map_bind_eq (p := Update.withoutValues) ?_ fun u u' hu => ?_
  · rw [Update.of, Update.of]
    split
    · rfl
    refine map_bind_congr fun row => ?_
    split
    · simp [pure, Except.pure, Except.map, Update.withoutValues, hfs]
    · rfl
  · simp [pure, Except.pure, Except.map, Request.withoutValues, hu]

end

/-- The statements of a read, an update and a delete with one query, without their values. -/
def outlines (m : Mapping) (target : String) (q : Query) (body : Json) :
    List (Except Failure (String × List (Option String))) :=
  [m.read target q, m.update target q body, m.delete target q].map fun r =>
    (r >>= m.compile).map Statement.outline

/-- Filters that are the same without their values lead to the same statements without theirs. -/
theorem outlines_eq {entries entries' : List String}
    (h : (Filter.ofEntries entries).map (List.map Filter.withoutValue) =
      (Filter.ofEntries entries').map (List.map Filter.withoutValue)) (body : Json) :
    m.outlines target (q.withFilters entries) body =
      m.outlines target (q.withFilters entries') body := by
  have hcompile : ∀ {x y : Except Failure Request},
      x.map Request.withoutValues = y.map Request.withoutValues →
        (x >>= m.compile).map Statement.outline = (y >>= m.compile).map Statement.outline :=
    fun hxy => map_bind_eq hxy fun _ _ hr => Request.outline_eq hr
  simp only [outlines, List.map_cons, List.map_nil, hcompile (read_withoutValues h),
    hcompile (update_withoutValues h body), hcompile (delete_withoutValues h)]

/-- Requests that are the same but for their values, the types of parameters and the spelling of a
return type have the same text and the same names of parameters, or fail alike, and parameters
differ only where the supplied values do. So the value of an entry changes nothing in the text of a
statement, whatever stands in it; an entry without a column gives no statement at all. -/
theorem values_do_not_interfere (c : Convention) :
    (∀ r r' : Request, r.withoutValues = r'.withoutValues →
      (r.compile c).map Statement.outline = (r'.compile c).map Statement.outline ∧
        ∀ s s', r.compile c = .ok s → r'.compile c = .ok s' →
          s.params.length = r.supplied.length ∧ s'.params.length = r'.supplied.length ∧
            ∀ i : Nat, r.supplied[i]? = r'.supplied[i]? → s.params[i]? = s'.params[i]?) ∧
      ∀ (column : String) (op : Operator), '=' ∉ column.toList →
        column.toList.find? (!Text.isBlank ·) ≠ some '{' →
          ∀ (before behind : List String) (v w : String),
            (column ≠ "" → ∀ policy target (q : Query) body,
              outlines ⟨c, policy⟩ target (q.withFilters
                  (before ++ (column ++ "=" ++ op.token ++ "." ++ v) :: behind)) body =
                outlines ⟨c, policy⟩ target (q.withFilters
                  (before ++ (column ++ "=" ++ op.token ++ "." ++ w) :: behind)) body) ∧
            (column = "" → ∀ fs, Filter.ofEntries
              (before ++ (column ++ "=" ++ op.token ++ "." ++ v) :: behind) ≠ .ok fs) := by
  refine ⟨fun r r' h => ⟨Request.outline_eq h, fun s s' hs hs' => ⟨?_, ?_, fun i hi =>
    Request.getElem?_params_eq h hs hs' hi⟩⟩, fun column op hfree hplain before behind v w =>
      ⟨fun hne policy target q body => ?_, fun hcolumn fs hfs => ?_⟩⟩
  · rw [Request.length_supplied c, ← Request.map_value_params hs, List.length_map]
  · rw [Request.length_supplied c, ← Request.map_value_params hs', List.length_map]
  · apply outlines_eq
    apply Filter.ofEntries_withoutValue
    exact Filter.ofEntry_wire_withoutValue op v w hne hfree hplain
  · subst hcolumn
    -- the entries before are read, so this one would be
    obtain ⟨gs, hs, -, hrest, -⟩ := Filter.ofEntries_append_eq_ok.1 hfs
    obtain ⟨ks, hks, -⟩ := ok_of_bind hrest
    have herror := Filter.ofEntry_wire_of_no_column op.token v
    rw [Filter.Parts.wire] at herror
    rw [hks] at herror
    cases herror

/-- A value that looks like the end of a statement, and one that looks like a number. -/
theorem values_do_not_interfere_hostile :
    (Request.delete ⟨"dbo", "t"⟩ [⟨"a", .eq, "1"⟩]).withoutValues =
        (Request.delete ⟨"dbo", "t"⟩ [⟨"a", .eq, "'; DROP TABLE t --"⟩]).withoutValues ∧
      (Request.compile .standard (.delete ⟨"dbo", "t"⟩ [⟨"a", .eq, "1"⟩])).map
          Statement.outline =
        (Request.compile .standard (.delete ⟨"dbo", "t"⟩ [⟨"a", .eq, "'; DROP TABLE t --"⟩])).map
          Statement.outline ∧
      outlines ⟨.standard, .standard⟩ "t" (Query.empty.withFilters ["a=eq.{1}=.2"]) .null =
        outlines ⟨.standard, .standard⟩ "t" (Query.empty.withFilters ["a=eq.'; DROP"]) .null ∧
      ∀ fs, Filter.ofEntries ["=eq.1"] ≠ .ok fs := by
  have h : (Request.delete ⟨"dbo", "t"⟩ [⟨"a", .eq, "1"⟩]).withoutValues =
      (Request.delete ⟨"dbo", "t"⟩ [⟨"a", .eq, "'; DROP TABLE t --"⟩]).withoutValues := rfl
  refine ⟨h, ((values_do_not_interfere .standard).1 _ _ h).1, ?_, ?_⟩
  · exact ((values_do_not_interfere .standard).2 "a" .eq (by decide) (by decide) [] []
      "{1}=.2" "'; DROP").1 (by decide) .standard "t" .empty .null
  · exact ((values_do_not_interfere .standard).2 "" .eq (by decide) (by decide) [] [] "1" "").2 rfl

end Mapping

end RestSql
