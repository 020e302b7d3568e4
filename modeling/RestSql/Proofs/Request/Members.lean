import RestSql.Proofs.Http.Exchange
import RestSql.Proofs.Json.Order
import RestSql.Proofs.Json.Reading
import RestSql.Proofs.Request.Operations

namespace RestSql

open RestSql.Json (Letter Written memberNames?)

/-! ## Filters -/

namespace Filter

theorem column_of_ofMember {raw : String} {member : String × Json} {f : Filter}
    (h : ofMember raw member = .ok f) : f.column = member.1 := by
  rw [ofMember] at h
  split at h
  · cases h
  split at h
  · cases h
  · obtain ⟨op, -, h⟩ := ok_of_bind h
    split at h
    · obtain rfl := ok_of_pure h
      rfl
    · cases h

theorem columns_of_mapM_ofMember {raw : String} {members : List (String × Json)} {fs : List Filter}
    (h : members.mapM (ofMember raw) = .ok fs) : fs.map (·.column) = members.map (·.1) := by
  induction members generalizing fs with
  | nil =>
    obtain rfl := ok_of_pure h
    rfl
  | cons member members ih =>
    rw [List.mapM_cons] at h
    obtain ⟨f, hf, h⟩ := ok_of_bind h
    obtain ⟨gs, hgs, h⟩ := ok_of_bind h
    obtain rfl := ok_of_pure h
    rw [List.map_cons, List.map_cons, column_of_ofMember hf, ih hgs]

theorem ofObject_eq_ok {raw : String} {fs : List Filter} (h : ofObject raw = .ok fs) :
    ∃ names, memberNames? raw = some names ∧ (fs.map (·.column)).Perm names.dedup := by
  rw [ofObject] at h
  split at h
  · rename_i members hmembers
    obtain ⟨ws, hws⟩ := Json.object_of_ofText? hmembers
    obtain ⟨names, ms, hnames, hms, hperm⟩ := Json.exists_members_of_object hws hmembers
    obtain rfl := Json.object.inj hms
    refine ⟨names, hnames, ?_⟩
    rwa [columns_of_mapM_ofMember h]
  · cases h

end Filter

/-! ## Columns -/

def Sketch.assigned {α : Type} : Sketch α → List String
  | .insert _ cells | .update _ cells _ => cells.map (·.1)
  | _ => []

def Request.assigned : Request → List String
  | .insert _ row => row.columns
  | .update u => u.row.columns
  | _ => []

theorem Request.assigned_sketch {α : Type} {r : Request} {slots : List α}
    (h : slots.length = r.slotCount) : (r.sketch slots).assigned = r.assigned := by
  cases r with
  | insert table row =>
    rw [slotCount] at h
    exact List.map_fst_zip (by omega)
  | update u =>
    rw [slotCount] at h
    exact List.map_fst_zip (by omega)
  | _ => rfl

theorem Request.assigned_ofText? {c : Convention} {r : Request} {s : Statement}
    (h : r.compile c = .ok s) :
    ∃ sketch, Sketch.ofText? c s.text = some sketch ∧ sketch.assigned = r.assigned := by
  refine ⟨_, ofText?_compile h, assigned_sketch ?_⟩
  rw [Param.length_markerTexts, length_params h]

namespace Http

open RestSql.Text.Utf8 (encode)

theorem bodyJson_encode_object {text : String} {ws : List (List Letter × Written)}
    (htext : Written.ofText? text = some (.object ws)) :
    bodyJson (encode text) = (Json.ofText? text).elim (.error (.body .notJson)) .ok := by
  have hbrace : '{' ∈ text.toList := List.mem_of_find?_eq_some (Json.find?_of_object htext)
  have hbyte : (0x7B : UInt8) ∈ encode text := by
    rw [Text.Utf8.encode_eq]
    exact List.mem_flatMap.2 ⟨_, hbrace, by decide⟩
  exact bodyJson_encode (List.all_eq_false.2 ⟨_, hbyte, by decide⟩)

end Http

namespace Mapping

open RestSql.Text.Utf8 (encode)

variable {m : Mapping} {target : String} {ms : List (String × Json)} {r : Request}

theorem names_of_cells {cells : List (String × Value)}
    (h : cellsOfJson (.object ms) = .ok cells) : cells.map (·.1) = ms.map (·.1) := by
  obtain rfl := Except.ok.inj h
  simp

theorem assigned_insert (h : m.insert target (.object ms) = .ok r) :
    (∀ s, r ≠ .select s) ∧ r.assigned = ms.map (·.1) := by
  obtain ⟨table, row, rfl, -, hcells⟩ := insert_eq_ok h
  exact ⟨fun s => by simp, names_of_cells hcells⟩

theorem assigned_update {q : Query} (h : m.update target q (.object ms) = .ok r) :
    (∀ s, r ≠ .select s) ∧ r.assigned = ms.map (·.1) := by
  obtain ⟨u, rfl, -, hcells, -⟩ := update_eq_ok h
  exact ⟨fun s => by simp, names_of_cells hcells⟩

def bodyMethods : List String := ["POST", "PATCH", "PUT"]

/-- A body's object reaches the request with each of its names once. -/
theorem assigned_perm {x : Http.Extracted} {raw : List Char} {text : String}
    {ws : List (List Letter × Written)} (hroute : x.route = .table raw)
    (hmethod : x.method ∈ bodyMethods) (hbody : x.body = encode text)
    (htext : Written.ofText? text = some (.object ws)) (h : x.request m = .ok r) :
    (∀ s, r ≠ .select s) ∧
      ∃ names, memberNames? text = some names ∧ r.assigned.Perm names.dedup := by
  obtain ⟨route, target, method, q, body⟩ := x
  subst hroute hbody
  have hrow : ∃ v, Http.bodyJson (encode text) = .ok v ∧
      (m.insert target v = .ok r ∨ m.update target q v = .ok r) := by
    simp only [bodyMethods, List.mem_cons, List.not_mem_nil, or_false] at hmethod
    rcases hmethod with rfl | rfl | rfl
    all_goals obtain ⟨v, hv, h⟩ := ok_of_bind h
    · exact ⟨v, hv, .inl h⟩
    · exact ⟨v, hv, .inr h⟩
    · exact ⟨v, hv, .inr h⟩
  obtain ⟨v, hv, hrow⟩ := hrow
  have hmeaning : Json.ofText? text = some v := by
    rw [Http.bodyJson_encode_object htext] at hv
    cases hw : Json.ofText? text with
    | none => simp [hw] at hv
    | some w => simpa [hw] using hv
  obtain ⟨names, ms, hnames, rfl, hperm⟩ := Json.exists_members_of_object htext hmeaning
  obtain ⟨hselect, hassigned⟩ := hrow.elim assigned_insert assigned_update
  exact ⟨hselect, names, hnames, hassigned ▸ hperm⟩

/-- A filter object gives one filter, and an object as the body of an insert or an update one
column, for each name that is written in it. So there are as many as members were written exactly
if no name was written twice, and otherwise fewer. -/
theorem members_kept_iff (m : Mapping) :
    (∀ raw fs, Filter.ofObject raw = .ok fs →
      ∃ names, memberNames? raw = some names ∧ (fs.map (·.column)).Perm names.dedup ∧
        (fs.length = names.length ↔ names.Nodup)) ∧
      ∀ (x : Http.Extracted) raw text ws r, x.route = .table raw → x.method ∈ bodyMethods →
        x.body = encode text → Written.ofText? text = some (.object ws) → x.request m = .ok r →
        ∃ names s sketch, memberNames? text = some names ∧ m.compile r = .ok s ∧
          Sketch.ofText? m.convention s.text = some sketch ∧
          sketch.assigned.Perm names.dedup ∧
          (sketch.assigned.length = names.length ↔ names.Nodup) := by
  refine ⟨fun raw fs h => ?_, fun x raw text ws r hroute hmethod hbody htext h => ?_⟩
  · obtain ⟨names, hnames, hperm⟩ := Filter.ofObject_eq_ok h
    have hlength := Json.length_eq_iff_of_perm_dedup hperm
    rw [List.length_map] at hlength
    exact ⟨names, hnames, hperm, hlength⟩
  · obtain ⟨hselect, names, hnames, hperm⟩ := assigned_perm hroute hmethod hbody htext h
    obtain ⟨s, hs⟩ := Request.exists_compile (c := m.convention) hselect
    obtain ⟨sketch, hsketch, hassigned⟩ := Request.assigned_ofText? hs
    rw [← hassigned] at hperm
    exact ⟨names, s, sketch, hnames, hs, hsketch, hperm, Json.length_eq_iff_of_perm_dedup hperm⟩

/-- Two filters, and two columns. -/
theorem members_kept_iff_distinct :
    let filters := "\x7b\"b\":[\"gt\",1],\"a\":[\"lt\",5]\x7d"
    let row := "\x7b\"b\":1,\"a\":2\x7d"
    let x : Http.Extracted := ⟨.table ['t'], "t", "POST", .empty, encode row⟩
    (∃ fs, Filter.ofObject filters = .ok fs ∧ fs.length = 2) ∧
      ∃ r s sketch, x.request ⟨.standard, .standard⟩ = .ok r ∧
        compile ⟨.standard, .standard⟩ r = .ok s ∧ Sketch.ofText? .standard s.text = some sketch ∧
        sketch.assigned.length = 2 := by
  intro filters row x
  have hfilters : (Filter.ofObject filters).toOption = some [⟨"a", .lt, "5"⟩, ⟨"b", .gt, "1"⟩] := by
    decide +kernel
  have hfilterNames : memberNames? filters = some ["b", "a"] := by decide +kernel
  have hrow : ((x.request ⟨.standard, .standard⟩).toOption.map Request.assigned) =
      some ["a", "b"] := by
    decide +kernel
  have hrowNames : memberNames? row = some ["b", "a"] := by decide +kernel
  obtain ⟨hfilter, hcolumn⟩ := members_kept_iff ⟨.standard, .standard⟩
  obtain ⟨names, hnames, -, hkept⟩ := hfilter filters _ (ok_of_toOption hfilters)
  obtain rfl := Option.some.inj (hfilterNames.symm.trans hnames)
  obtain ⟨r, hr, -⟩ := Option.map_eq_some_iff.1 hrow
  obtain ⟨ws, hws⟩ := Json.object_of_memberNames? hrowNames
  obtain ⟨names, s, sketch, hnames, hs, hsketch, -, hassigned⟩ :=
    hcolumn x ['t'] row ws r rfl (by decide) rfl hws (ok_of_toOption hr)
  obtain rfl := Option.some.inj (hrowNames.symm.trans hnames)
  exact ⟨⟨_, ok_of_toOption hfilters, hkept.2 (by decide)⟩, r, s, sketch, ok_of_toOption hr, hs,
    hsketch, hassigned.2 (by decide)⟩

/-- Of two members with one name the first one is lost, of a filter object and of an inserted row,
and both are accepted. -/
theorem repeated_member_lost :
    let filters := "\x7b\"a\":[\"gt\",1],\"a\":[\"lt\",5]\x7d"
    let row := "\x7b\"a\":1,\"a\":2\x7d"
    let x : Http.Extracted := ⟨.table ['t'], "t", "POST", .empty, encode row⟩
    memberNames? filters = some ["a", "a"] ∧ Filter.ofObject filters = .ok [⟨"a", .lt, "5"⟩] ∧
      memberNames? row = some ["a", "a"] ∧
        ∃ r s sketch, x.request ⟨.standard, .standard⟩ = .ok r ∧
          compile ⟨.standard, .standard⟩ r = .ok s ∧
          Sketch.ofText? .standard s.text = some sketch ∧ sketch.assigned = ["a"] := by
  intro filters row x
  have hfilters : (Filter.ofObject filters).toOption = some [⟨"a", .lt, "5"⟩] := by decide +kernel
  have hrow : (x.request ⟨.standard, .standard⟩).toOption.map
      (fun r => (r.assigned, r.returnsRows)) = some (["a"], false) := by
    decide +kernel
  obtain ⟨r, hr, hassigned⟩ := Option.map_eq_some_iff.1 hrow
  obtain ⟨hcolumns, hrows⟩ := Prod.mk.inj hassigned
  obtain ⟨s, hs⟩ := Request.exists_compile (c := .standard) (r := r) (by rintro s rfl; cases hrows)
  obtain ⟨sketch, hsketch, hassigned⟩ := Request.assigned_ofText? hs
  exact ⟨by decide +kernel, ok_of_toOption hfilters, by decide +kernel, r, s, sketch,
    ok_of_toOption hr, hs, hsketch, hassigned.trans hcolumns⟩

end Mapping

end RestSql
