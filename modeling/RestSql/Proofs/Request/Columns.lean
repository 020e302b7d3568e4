import RestSql.Proofs.Json.Equality
import RestSql.Proofs.Json.Reading
import RestSql.Proofs.Json.Reordered
import RestSql.Proofs.Request.Entries
import RestSql.Proofs.Request.Window
import RestSql.Proofs.Statement.Slots
import RestSql.Proofs.Text.Utf8

/-!
Objects as bodies and as filter entries. The order in which members are written means nothing, on
any level. A row has the keys of its object as columns, in the order of their bytes, and each has
the value of its own key: the object is taken apart into columns and values, and the statement puts
every value back behind its column.
-/

namespace RestSql

open RestSql.Json (Letter Written)
open RestSql.Text.Utf8 (encode encode_lt_iff)

/-! ## Filter entries -/

namespace Filter

/-- The same result, apart from the entry that a failure quotes. -/
def AgreeUpTo {α : Type} (raw raw' : String) (x y : Except Failure α) : Prop :=
  x = y ∨ x = .error (.filterSyntax raw) ∧ y = .error (.filterSyntax raw')

namespace AgreeUpTo

variable {α β : Type} {raw raw' : String} {x y : Except Failure α} {f g : α → Except Failure β}

theorem quoted : AgreeUpTo (α := α) raw raw' (.error (.filterSyntax raw))
    (.error (.filterSyntax raw')) :=
  .inr ⟨rfl, rfl⟩

theorem bind (h : AgreeUpTo raw raw' x y) (hstep : ∀ a, AgreeUpTo raw raw' (f a) (g a)) :
    AgreeUpTo raw raw' (x >>= f) (y >>= g) := by
  obtain rfl | ⟨rfl, rfl⟩ := h
  · cases x with
    | error e => exact .inl rfl
    | ok a => exact hstep a
  · exact quoted

theorem mapM {γ : Type} {f g : γ → Except Failure β} (h : ∀ c, AgreeUpTo raw raw' (f c) (g c))
    (cs : List γ) : AgreeUpTo raw raw' (cs.mapM f) (cs.mapM g) := by
  induction cs with
  | nil => exact .inl rfl
  | cons c cs ih =>
    rw [List.mapM_cons, List.mapM_cons]
    exact (h c).bind fun b => ih.bind fun bs => .inl rfl

end AgreeUpTo

variable {raw raw' : String}

theorem ofMember_agree (raw raw' : String) (member : String × Json) :
    AgreeUpTo raw raw' (ofMember raw member) (ofMember raw' member) := by
  rw [ofMember, ofMember]
  split
  · exact .quoted
  split
  · exact .quoted
  · refine .bind (.inl rfl) fun op => ?_
    split
    · exact .inl rfl
    · exact .quoted

theorem ofObject_agree (h : Json.ofText? raw = Json.ofText? raw') :
    AgreeUpTo raw raw' (ofObject raw) (ofObject raw') := by
  rw [ofObject, ofObject, h]
  split
  · exact .mapM (ofMember_agree raw raw') _
  · exact .quoted

/-- An object text in a list of entries can be exchanged for one with the same value. -/
theorem ofEntries_agree {ms ns : List (List Letter × Written)}
    (hraw : Written.ofText? raw = some (.object ms))
    (hraw' : Written.ofText? raw' = some (.object ns))
    (h : Json.ofText? raw = Json.ofText? raw') (before behind : List String) :
    AgreeUpTo raw raw' (ofEntries (before ++ raw :: behind))
      (ofEntries (before ++ raw' :: behind)) := by
  have hentry : AgreeUpTo raw raw' (ofEntry raw) (ofEntry raw') := by
    rw [ofEntry_of_brace (Json.find?_of_object hraw), ofEntry_of_brace (Json.find?_of_object hraw')]
    exact ofObject_agree h
  rw [ofEntries_append, ofEntries_append, ofEntries, ofEntries]
  refine .bind (.inl rfl) fun fs => .bind ?_ fun gs => .inl rfl
  exact hentry.bind fun gs => .inl rfl

end Filter

/-! ## Rows -/

/-- What a statement says, with the values that its markers denote. -/
def Statement.says? (c : Convention) (s : Statement) : Option (Sketch Value) :=
  (s.resolved? c).bind Sketch.ofLexemes?

/-- A statement says what its request is, values included. -/
theorem Request.says?_compile {c : Convention} {r : Request} {s : Statement}
    (h : r.compile c = .ok s) : s.says? c = some (r.sketch (r.values c)) := by
  obtain ⟨ps, hp, hresolved⟩ := resolved?_compile h
  have hlength : (Param.places s.params).length = r.slotCount := by
    rw [Param.length_places, length_params h]
  rw [Statement.says?, hresolved, Option.bind_some, ofLexemes?_pieces hlength hp,
    Param.slotsAt_nth (map_value_params h)]

theorem nameFault?_eq_none_of {kind : WriteKind} {seen names : List String} (hne : "" ∉ names)
    (hnodup : names.Nodup) (hseen : ∀ n ∈ names, n ∉ seen) : nameFault? kind seen names = none := by
  induction names generalizing seen with
  | nil => rfl
  | cons n ns ih =>
    obtain ⟨hn, hns⟩ := List.nodup_cons.1 hnodup
    obtain ⟨hnseen, hrest⟩ := List.forall_mem_cons.1 hseen
    obtain ⟨hempty, hnsne⟩ := not_or.1 (fun h => hne (List.mem_cons.2 h))
    rw [nameFault?, if_neg (Ne.symm hempty), if_neg hnseen]
    refine ih hnsne hns fun k hk hmem => ?_
    rcases List.mem_cons.1 hmem with rfl | hmem
    · exact hn hk
    · exact hrest k hk hmem

/-- Cells with names that are not empty and differ are a row, taken apart and put together. -/
theorem Row.exists_of {cells : List (String × Value)} (kind : WriteKind)
    (hne : "" ∉ cells.map (·.1)) (hnodup : (cells.map (·.1)).Nodup) :
    ∃ row, Row.of kind (cells.map (·.1)) (cells.map (·.2)) = .ok row ∧ row.cells = cells := by
  have hzip : (cells.map (·.1)).zip (cells.map (·.2)) = cells := (List.zip_of_prod rfl rfl).symm
  rw [Row.of, if_neg (by simp)]
  split
  · rename_i fault hfault
    rw [hzip, nameFault?_eq_none_of hne hnodup (by simp)] at hfault
    cases hfault
  · exact ⟨_, rfl, hzip⟩

/-- Columns and values that were taken apart are put together again, whatever values follow. -/
theorem zip_cells (cells : List (String × Value)) (rest : List Value) :
    (cells.map (·.1)).zip (cells.map (·.2) ++ rest) = cells := by
  induction cells with
  | nil => rfl
  | cons cell cells ih =>
    rw [List.map_cons, List.map_cons, List.cons_append, List.zip_cons_cons, ih]

theorem Filter.conditions_operands (c : Convention) (fs : List Filter) :
    Filter.conditions fs (fs.map (·.operand c)) =
      fs.map fun f => ⟨f.column, f.op, f.operand c⟩ := by
  rw [Filter.conditions, List.zipWith_map_right, List.zipWith_self]

theorem Request.sketch_insert_values (c : Convention) (table : TableName) (row : Row) :
    (Request.insert table row).sketch ((Request.insert table row).values c) =
      .insert table row.cells := by
  rw [sketch, values, Row.columns, ← List.append_nil (row.cells.map (·.2)), zip_cells]

theorem Request.sketch_update_values (c : Convention) (u : Update) :
    (Request.update u).sketch ((Request.update u).values c) =
      .update u.table u.row.cells (u.filters.map fun f => ⟨f.column, f.op, f.operand c⟩) := by
  have hlength : u.row.columns.length = (u.row.cells.map (·.2)).length := by simp [Row.columns]
  rw [sketch, values, hlength, List.drop_left, Filter.conditions_operands, Row.columns, zip_cells]

namespace Mapping

variable {m : Mapping} {target : String} {q : Query} {ms : List (String × Json)} {fs : List Filter}

/-- The names stand in the order of their bytes, each once. -/
def InOrder (ms : List (String × Json)) : Prop :=
  ms.Pairwise fun x y => encode x.1 < encode y.1

def cells (ms : List (String × Json)) : List (String × Value) :=
  ms.map fun x => (x.1, Value.ofJson x.2)

theorem map_fst_cells (ms : List (String × Json)) : (cells ms).map (·.1) = ms.map (·.1) := by
  rw [cells, List.map_map]
  rfl

theorem exists_row (kind : WriteKind) (horder : InOrder ms) (hne : "" ∉ ms.map (·.1)) :
    ∃ row, Row.of kind ((cells ms).map (·.1)) ((cells ms).map (·.2)) = .ok row ∧
      row.cells = cells ms := by
  rw [← map_fst_cells ms] at hne
  refine Row.exists_of kind hne ?_
  rw [map_fst_cells]
  exact List.pairwise_map.2 (horder.imp fun h => ne_of_lt (encode_lt_iff.1 h))

theorem table_of_names (hn : m.Names target) :
    m.table target = .ok ⟨m.convention.schema, target⟩ :=
  table_eq_ok.2 ⟨hn.1, hn.2, rfl⟩

/-! ### Inserts -/

theorem insert_of_row {body : Json} {cells : List (String × Value)} {row : Row}
    (hn : m.Names target) (hcells : cellsOfJson body = .ok cells)
    (hrow : Row.of .insert (cells.map (·.1)) (cells.map (·.2)) = .ok row) :
    m.insert target body = .ok (.insert ⟨m.convention.schema, target⟩ row) := by
  simp only [insert, table_of_names hn, hcells, hrow, bind, Except.bind, pure, Except.pure]

theorem insert_object (hn : m.Names target) (horder : InOrder ms) (hne : "" ∉ ms.map (·.1)) :
    ∃ r s, m.insert target (.object ms) = .ok r ∧ m.compile r = .ok s ∧
      s.says? m.convention = some (.insert ⟨m.convention.schema, target⟩ (cells ms)) := by
  obtain ⟨row, hrow, hcells⟩ := exists_row .insert horder hne
  have hobject : cellsOfJson (.object ms) = .ok (cells ms) := rfl
  have hinsert := insert_of_row hn hobject hrow
  obtain ⟨s, hs⟩ := Request.exists_compile (c := m.convention)
    (r := .insert ⟨m.convention.schema, target⟩ row) (by simp)
  refine ⟨_, s, hinsert, hs, ?_⟩
  rw [Request.says?_compile hs, Request.sketch_insert_values, hcells]

/-- An insert is refused for a name that is empty, or for a body that has no columns to give. -/
theorem exists_insert_eq_error {body : Json} (horder : ∀ ms, body = .object ms → InOrder ms) :
    (∃ f, m.insert target body = .error f) ↔ m.convention.schema = "" ∨ target = "" ∨
      (∃ ms, body = .object ms ∧ "" ∈ ms.map (·.1)) ∨
      (body ≠ .null ∧ ∀ ms, body ≠ .object ms) := by
  constructor
  · rintro ⟨f, hf⟩
    by_contra hnone
    simp only [not_or, not_exists, not_and] at hnone
    obtain ⟨hschema, htarget, hkeys, hbody⟩ := hnone
    -- the body is null or an object, and the insert succeeds
    have hok : ∃ r, m.insert target body = .ok r := by
      by_cases hnull : body = .null
      · subst hnull
        exact ⟨_, insert_of_row ⟨hschema, htarget⟩ rfl rfl⟩
      · obtain ⟨ms, hms⟩ := not_forall_not.1 (hbody hnull)
        obtain ⟨r, -, hr, -⟩ := insert_object ⟨hschema, htarget⟩ (horder ms hms) (hkeys ms hms)
        exact ⟨r, hms ▸ hr⟩
    obtain ⟨r, hr⟩ := hok
    rw [hr] at hf
    cases hf
  · intro hfault
    cases hinsert : m.insert target body with
    | error f => exact ⟨f, rfl⟩
    | ok r =>
      obtain ⟨table, row, rfl, htable, hcells⟩ := insert_eq_ok hinsert
      obtain ⟨hschema, htarget, -⟩ := table_eq_ok.1 htable
      obtain h | h | ⟨ms, rfl, h⟩ | ⟨hnull, hobject⟩ := hfault
      · exact absurd h hschema
      · exact absurd h htarget
      · have hnames : row.cells = cells ms := (Except.ok.inj hcells).symm
        rw [← map_fst_cells, ← hnames] at h
        exact absurd h row.names_ne
      · cases body with
        | null => exact absurd rfl hnull
        | object ms => exact absurd rfl (hobject ms)
        | _ => cases hcells

/-! ### Updates -/

theorem update_of_row {body : Json} {cells : List (String × Value)} {row : Row}
    (hn : m.Names target) (hfilters : m.writeFilters .update q = .ok fs)
    (hcells : cellsOfJson body = .ok cells) (hne : cells ≠ [])
    (hrow : Row.of .update (cells.map (·.1)) (cells.map (·.2)) = .ok row)
    (hsome : row.cells ≠ []) :
    m.update target q body =
      .ok (.update ⟨⟨m.convention.schema, target⟩, row, fs, hsome⟩) := by
  simp [update, table_of_names hn, hfilters, hcells, Update.of, hrow, hne, hsome, bind, Except.bind,
    pure, Except.pure]

theorem update_object (hn : m.Names target) (hfilters : m.writeFilters .update q = .ok fs)
    (horder : InOrder ms) (hne : "" ∉ ms.map (·.1)) (hsome : ms ≠ []) :
    ∃ r s, m.update target q (.object ms) = .ok r ∧ m.compile r = .ok s ∧
      s.says? m.convention = some (.update ⟨m.convention.schema, target⟩ (cells ms)
        (fs.map fun f => ⟨f.column, f.op, f.operand m.convention⟩)) := by
  obtain ⟨row, hrow, hcells⟩ := exists_row .update horder hne
  have hobject : cellsOfJson (.object ms) = .ok (cells ms) := rfl
  have hcellsNe : cells ms ≠ [] := fun h => hsome (List.map_eq_nil_iff.1 h)
  obtain ⟨u, hupdate, htable, hucells, hufilters⟩ : ∃ u, m.update target q (.object ms) =
      .ok (.update u) ∧ u.table = ⟨m.convention.schema, target⟩ ∧ u.row.cells = cells ms ∧
        u.filters = fs :=
    ⟨_, update_of_row hn hfilters hobject hcellsNe hrow (hcells ▸ hcellsNe), rfl, hcells, rfl⟩
  obtain ⟨s, hs⟩ := Request.exists_compile (c := m.convention) (r := .update u) (by simp)
  refine ⟨_, s, hupdate, hs, ?_⟩
  rw [Request.says?_compile hs, Request.sketch_update_values, htable, hucells, hufilters]

theorem update_nil (hn : m.Names target) (hfilters : m.writeFilters .update q = .ok fs) :
    m.update target q (.object []) = .error (.body .noColumns) := by
  rw [update, table_of_names hn]
  show (m.writeFilters .update q >>= _) = _
  rw [hfilters]
  rfl

/-! ### Bodies as they are written -/

/-- An object whose names differ holds the members as they are written, in order. -/
theorem members_of_object {raw : String} {ws : List (List Letter × Written)} {v : Json}
    (hraw : Written.ofText? raw = some (.object ws)) (hv : Json.ofText? raw = some v)
    (hnodup : (Written.memberTexts ws).Nodup) :
    ∃ vs ms, Written.meaningMembers? ws = some vs ∧ v = .object ms ∧ ms.Perm vs ∧ InOrder ms := by
  rw [Json.ofText?, hraw, Option.bind_some, Written.toJson?] at hv
  split at hv
  · rw [Written.meaning?] at hv
    obtain ⟨vs, hvs, rfl⟩ := Option.map_eq_some_iff.1 hv
    rw [Written.memberTexts_of_meaningMembers? hvs] at hnodup
    refine ⟨vs, _, hvs, rfl, Json.foldl_insertMember_perm hnodup, ?_⟩
    exact (Json.pairwise_ordered vs).imp encode_lt_iff.2
  · cases hv

/-- An object text means the same in whatever order its members are written, on any level, as long
as no object in it names a member twice: as the body of an insert, an update or a call it gives the
same result, and in a list of filter entries the same filters, or the same failure up to the entry
that is quoted. The body is an object of the members that are written, in the order of their names'
bytes. An insert of such an object, and an update that has filters as it should, says just these
columns, each with the value of its own key; an update without columns is refused. An insert is
refused exactly for an empty name of the schema, the table or a column, and for a body that is
neither an object nor null. -/
theorem objects_by_key (m : Mapping) (target : String) :
    (∀ raw raw' ms w', Written.ofText? raw = some (.object ms) → Written.ofText? raw' = some w' →
      Written.Reordered (.object ms) w' → Written.isDistinct (.object ms) = true →
        (Json.ofText? raw).map (m.insert target) = (Json.ofText? raw').map (m.insert target) ∧
        (∀ q, (Json.ofText? raw).map (m.update target q) =
          (Json.ofText? raw').map (m.update target q)) ∧
        (Json.ofText? raw).map (m.callJson target) = (Json.ofText? raw').map (m.callJson target) ∧
        ∀ before behind, Filter.AgreeUpTo raw raw' (Filter.ofEntries (before ++ raw :: behind))
          (Filter.ofEntries (before ++ raw' :: behind))) ∧
      (∀ raw ws v, Written.ofText? raw = some (.object ws) → Json.ofText? raw = some v →
        (Written.memberTexts ws).Nodup → ∃ vs ms, Written.meaningMembers? ws = some vs ∧
          v = .object ms ∧ ms.Perm vs ∧ InOrder ms) ∧
      (∀ ms, m.Names target → InOrder ms → "" ∉ ms.map (·.1) →
        (∃ r s, m.insert target (.object ms) = .ok r ∧ m.compile r = .ok s ∧
          s.says? m.convention = some (.insert ⟨m.convention.schema, target⟩ (cells ms))) ∧
        ∀ q fs, m.writeFilters .update q = .ok fs →
          if ms = [] then m.update target q (.object ms) = .error (.body .noColumns)
          else ∃ r s, m.update target q (.object ms) = .ok r ∧ m.compile r = .ok s ∧
            s.says? m.convention = some (.update ⟨m.convention.schema, target⟩ (cells ms)
              (fs.map fun f => ⟨f.column, f.op, f.operand m.convention⟩))) ∧
      ∀ body, (∀ ms, body = .object ms → InOrder ms) →
        ((∃ f, m.insert target body = .error f) ↔ m.convention.schema = "" ∨ target = "" ∨
          (∃ ms, body = .object ms ∧ "" ∈ ms.map (·.1)) ∨
          (body ≠ .null ∧ ∀ ms, body ≠ .object ms)) := by
  refine ⟨fun raw raw' ms w' hraw hraw' hreordered hdistinct => ?_,
    fun raw ws v => members_of_object, fun ms hn horder hne =>
      ⟨insert_object hn horder hne, fun q fs hfilters => ?_⟩,
    fun body horder => exists_insert_eq_error horder⟩
  · have hsame := hreordered.ofText?_eq hdistinct hraw hraw'
    obtain ⟨ns, rfl⟩ := hreordered.exists_object
    exact ⟨by rw [hsame], fun q => by rw [hsame], by rw [hsame],
      Filter.ofEntries_agree hraw hraw' hsame⟩
  · split
    · rename_i hnil
      subst hnil
      exact update_nil hn hfilters
    · rename_i hsome
      exact update_object hn hfilters horder hne hsome

/-- Members out of order on both levels, the inner ones in an array that is bound as text. -/
theorem objects_by_key_nested :
    let m : Mapping := ⟨.standard, .standard⟩
    let raw := "\x7b\"b\":[\x7b\"q\":2,\"p\":3\x7d],\"a\":\"5\"\x7d"
    let raw' := "\x7b\"a\":\"5\",\"b\":[\x7b\"p\":3,\"q\":2\x7d]\x7d"
    let ms : List (String × Json) := [("a", .string "5"),
      ("b", .array [.object [("p", .number (.whole 3)), ("q", .number (.whole 2))]])]
    Json.ofText? raw = some (.object ms) ∧
      (Json.ofText? raw).map (m.insert "t") = (Json.ofText? raw').map (m.insert "t") ∧
      (∃ r s, m.insert "t" (.object ms) = .ok r ∧ m.compile r = .ok s ∧
        s.says? m.convention = some (.insert ⟨"dbo", "t"⟩
          [("a", .string "5"), ("b", .string "[\x7b\"p\":3,\"q\":2\x7d]")])) ∧
      (∃ r s, m.update "t" ⟨none, none, ["c=lt.x"], none, none⟩ (.object ms) = .ok r ∧
        m.compile r = .ok s ∧ s.says? m.convention = some (.update ⟨"dbo", "t"⟩
          [("a", .string "5"), ("b", .string "[\x7b\"p\":3,\"q\":2\x7d]")]
          [⟨"c", .lt, .string "x"⟩])) ∧
      ∃ f, m.insert "t" (.string "5") = .error f := by
  intro m raw raw' ms
  let inner : List (List Letter × Written) :=
    [([.char 'q'], .number ⟨false, ['2'], [], none⟩),
      ([.char 'p'], .number ⟨false, ['3'], [], none⟩)]
  let last : List Letter × Written := ([.char 'a'], .string [.char '5'])
  have hraw : Written.ofText? raw =
      some (.object [([.char 'b'], .array [.object inner]), last]) := by
    simp only [raw, Written.ofText?, String.reduceToList]
    rfl
  have hraw' : Written.ofText? raw' =
      some (.object [last, ([.char 'b'], .array [.object inner.reverse])]) := by
    simp only [raw', Written.ofText?, String.reduceToList]
    rfl
  have hreordered : Written.Reordered (.object [([.char 'b'], .array [.object inner]), last])
      (.object [last, ([.char 'b'], .array [.object inner.reverse])]) :=
    .trans (.inMember [] [last] _ (.inItem [] [] (.members (List.reverse_perm inner).symm)))
      (.members (.swap _ _ _))
  have hvalue : Json.ofText? raw = some (.object ms) := by decide +kernel
  have hcells : cells ms = [("a", .string "5"), ("b", .string "[\x7b\"p\":3,\"q\":2\x7d]")] := by
    decide +kernel
  have horder : InOrder ms := by
    simp only [InOrder, encode_lt_iff]
    decide
  have hfilters : m.writeFilters .update ⟨none, none, ["c=lt.x"], none, none⟩ =
      .ok [⟨"c", .lt, "x"⟩] := rfl
  obtain ⟨hsame, -, hrow, hrefused⟩ := objects_by_key m "t"
  obtain ⟨hinsert, -⟩ := hsame raw raw' _ _ hraw hraw' hreordered (by decide)
  obtain ⟨hinserted, hupdated⟩ := hrow ms ⟨by decide, by decide⟩ horder (by decide)
  have hupdated := hupdated _ _ hfilters
  rw [if_neg (by simp [ms])] at hupdated
  rw [hcells] at hinserted hupdated
  refine ⟨hvalue, hinsert, hinserted, hupdated, (hrefused _ (by simp)).2 (.inr (.inr (.inr ?_)))⟩
  simp

end Mapping

end RestSql
