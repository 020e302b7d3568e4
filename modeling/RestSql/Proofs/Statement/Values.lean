import RestSql.Proofs.Statement.Slots

/-!
Values reach the parameters of a statement and nothing else. Two requests that are the same but for
what a client supplies for their markers have the same text and the same names of parameters, and
each parameter depends on its own value only.
-/

namespace RestSql

open Piece

/-! ## Requests without their values -/

def Filter.withoutValue (f : Filter) : Filter := { f with value := "" }

def Row.withoutValues (r : Row) : Row where
  cells := r.cells.map fun cell => (cell.1, .null)
  names_ne := by simpa using r.names_ne
  names_nodup := by simpa [Function.comp_def] using r.names_nodup

/-- The types of the parameters do not stay, and of the return type only whether it is a table. -/
def Routine.withoutTypes (r : Routine) : Routine :=
  { r with
    params := r.params.map fun p => { p with dataType := "" }
    returnType := if r.returnsTable then "TABLE" else "" }

def Call.withoutValues (k : Call) : Call where
  routine := k.routine.withoutTypes
  args := k.args.map fun _ => .null
  complete := by simpa [Routine.withoutTypes] using k.complete
  distinct := by
    simpa [Routine.withoutTypes, Routine.Parameter.bareName, Function.comp_def] using k.distinct

def Update.withoutValues (u : Update) : Update where
  table := u.table
  row := u.row.withoutValues
  filters := u.filters.map Filter.withoutValue
  cells_ne := by simpa [Row.withoutValues] using u.cells_ne

def Request.withoutValues : Request → Request
  | .select s => .select { s with filters := s.filters.map Filter.withoutValue }
  | .insert table row => .insert table row.withoutValues
  | .update u => .update u.withoutValues
  | .delete table filters => .delete table (filters.map Filter.withoutValue)
  | .call k => .call k.withoutValues

/-- What a client supplies for a marker: the text of a filter, or a value. -/
inductive Supplied
  | text (s : String)
  | value (v : Value)
deriving DecidableEq, Repr

def Request.supplied : Request → List Supplied
  | .select s => s.filters.map (.text ·.value)
  | .insert _ row => row.cells.map (.value ·.2)
  | .update u => u.row.cells.map (.value ·.2) ++ u.filters.map (.text ·.value)
  | .delete _ filters => filters.map (.text ·.value)
  | .call k => k.args.map .value

def Statement.outline (s : Statement) : String × List (Option String) :=
  (s.text, s.params.map (·.name))

/-! ## Pieces and names -/

section

variable (c : Convention) (markers : List Piece)

theorem Filter.clause_withoutValue (fs : List Filter) :
    Filter.clause (fs.map Filter.withoutValue) markers = Filter.clause fs markers := by
  rw [Filter.clause, Filter.clause, List.isEmpty_map, List.zipWith_map_left]
  rfl

theorem Row.columns_withoutValues (r : Row) : r.withoutValues.columns = r.columns := by
  simp [Row.columns, Row.withoutValues]

theorem Routine.returnsTable_withoutTypes (r : Routine) :
    r.withoutTypes.returnsTable = r.returnsTable := by
  rw [Routine.withoutTypes]
  cases hr : r.returnsTable with
  | false => simp [Routine.returnsTable]
  | true =>
    have hfunction : r.isFunction = true := by
      rw [Routine.returnsTable, Bool.and_eq_true] at hr
      exact hr.1
    simp only [Routine.returnsTable, hfunction, if_true]
    rfl

/-- No piece but a marker comes from a value. -/
theorem Request.pieces_withoutValues (r : Request) :
    r.withoutValues.pieces c markers = r.pieces c markers := by
  cases r with
  | select s =>
    simp only [withoutValues, Request.pieces, Select.pieces, Filter.clause_withoutValue]
  | insert table row =>
    have hcells : row.withoutValues.cells.isEmpty = row.cells.isEmpty := List.isEmpty_map
    simp only [withoutValues, Request.pieces, insertPieces, hcells, Row.columns_withoutValues]
  | update u =>
    simp only [withoutValues, Update.withoutValues, Request.pieces, Update.pieces,
      Row.columns_withoutValues, Filter.clause_withoutValue]
  | delete table fs =>
    simp only [withoutValues, Request.pieces, deletePieces, Filter.clause_withoutValue]
  | call k =>
    simp only [withoutValues, Call.withoutValues, Request.pieces, Call.pieces,
      Routine.returnsTable_withoutTypes]
    rfl

theorem Filter.map_fst_bindings_withoutValue (fs : List Filter) :
    (Filter.bindings c (fs.map Filter.withoutValue)).map (·.1) =
      (Filter.bindings c fs).map (·.1) := by
  rw [Filter.bindings, Filter.bindings, List.zipIdx_map, List.map_map, List.map_map, List.map_map]
  rfl

/-- No hint for a name comes from a value. -/
theorem Request.map_fst_bindings_withoutValues (r : Request) :
    (r.withoutValues.bindings c).map (·.1) = (r.bindings c).map (·.1) := by
  have hrow : ∀ row : Row, row.withoutValues.bindings.map (·.1) = row.bindings.map (·.1) := by
    intro row
    rw [Row.bindings, Row.bindings, Row.withoutValues, List.map_map, List.map_map, List.map_map]
    rfl
  cases r with
  | select s => exact Filter.map_fst_bindings_withoutValue c s.filters
  | insert table row => exact hrow row
  | update u =>
    simp only [withoutValues, Update.withoutValues, bindings, List.map_append, hrow,
      Filter.map_fst_bindings_withoutValue]
  | delete table fs => exact Filter.map_fst_bindings_withoutValue c fs
  | call k =>
    have hlength : k.routine.params.length = k.args.length := k.complete.symm
    simp only [withoutValues, Call.withoutValues, Routine.withoutTypes, bindings, List.map_map]
    rw [List.map_fst_zip (by simp [hlength]), List.map_fst_zip (by simp [hlength])]
    rfl

end

theorem Binding.map_name_named {bs bs' : List (String × Value)}
    (h : bs.map (·.1) = bs'.map (·.1)) (used : List String) (position : Nat) :
    (named used position bs).map (·.name) = (named used position bs').map (·.name) := by
  induction bs generalizing bs' used position with
  | nil =>
    obtain rfl : bs' = [] := by simpa using h.symm
    rfl
  | cons b bs ih =>
    obtain ⟨b', bs', rfl⟩ : ∃ b' tail, bs' = b' :: tail := by
      cases bs' with
      | nil => cases h
      | cons b' tail => exact ⟨b', tail, rfl⟩
    obtain ⟨hhint, hrest⟩ := List.cons.inj h
    obtain ⟨hint, v⟩ := b
    obtain rfl : hint = b'.1 := hhint
    exact congrArg (_ :: ·) (ih hrest _ _)

theorem MarkerStyle.map_name_params (style : MarkerStyle) {bs bs' : List (String × Value)}
    (h : bs.map (·.1) = bs'.map (·.1)) :
    (style.params bs).map (·.name) = (style.params bs').map (·.name) := by
  rw [params, params]
  split
  · exact Binding.map_name_named h [] 1
  · have hnone := congrArg (List.map fun _ => (none : Option String)) h
    simpa only [List.map_map, Function.comp_def] using hnone

theorem Piece.markers_eq {ps qs : List Param} (h : ps.map (·.name) = qs.map (·.name)) :
    markers ps = markers qs := by
  have hnames : ∀ ps : List Param, markers ps =
      (ps.map (·.name)).zipIdx.map fun p => marker (p.2 + 1) (p.1.getD "") := by
    intro ps
    rw [markers, List.zipIdx_map, List.map_map]
    rfl
  rw [hnames, hnames, h]

/-! ## Parameters -/

/-- A supplied text becomes the literal that it spells, or stays as it is. -/
def Supplied.bound (isLiteral : Bool) : Supplied → Value
  | .text s => if isLiteral then Value.infer s else .string s
  | .value v => v

def Request.literals (c : Convention) : Request → List Bool
  | .select s => s.filters.map fun f => c.typedFilters && !f.op.isPattern
  | .insert _ row => row.cells.map fun _ => false
  | .update u =>
    (u.row.cells.map fun _ => false) ++ u.filters.map fun f => c.typedFilters && !f.op.isPattern
  | .delete _ filters => filters.map fun f => c.typedFilters && !f.op.isPattern
  | .call k => k.args.map fun _ => false

namespace Request

variable {c : Convention} {r r' : Request} {s s' : Statement}

theorem literals_withoutValues (c : Convention) (r : Request) :
    r.withoutValues.literals c = r.literals c := by
  cases r <;> simp [withoutValues, literals, Row.withoutValues, Update.withoutValues,
    Call.withoutValues, Filter.withoutValue]

theorem zipWith_bound (c : Convention) (r : Request) :
    List.zipWith Supplied.bound (r.literals c) r.supplied = r.values c := by
  have hfilters : ∀ fs : List Filter,
      List.zipWith Supplied.bound (fs.map fun f => c.typedFilters && !f.op.isPattern)
        (fs.map (.text ·.value)) = fs.map (·.operand c) := by
    intro fs
    rw [List.zipWith_map, List.zipWith_self]
    rfl
  have hcells : ∀ cells : List (String × Value),
      List.zipWith Supplied.bound (cells.map fun _ => false) (cells.map (.value ·.2)) =
        cells.map (·.2) := by
    intro cells
    rw [List.zipWith_map, List.zipWith_self]
    rfl
  cases r with
  | select s => exact hfilters s.filters
  | insert table row => exact hcells row.cells
  | update u =>
    rw [literals, supplied, values, List.zipWith_append (by simp), hcells, hfilters]
  | delete table fs => exact hfilters fs
  | call k =>
    rw [literals, supplied, values, List.zipWith_map, List.zipWith_self]
    exact List.map_id' _

theorem length_supplied (c : Convention) (r : Request) :
    r.supplied.length = (r.values c).length := by
  cases r <;> simp [supplied, values]

/-- What is compiled has the same text and the same names without the values. -/
theorem compile_withoutValues (c : Convention) (r : Request) :
    (r.withoutValues.compile c).map Statement.outline = (r.compile c).map Statement.outline := by
  have hnames := c.markers.map_name_params (r.map_fst_bindings_withoutValues c)
  rw [compile, compile, markers_eq hnames, pieces_withoutValues]
  cases r.pieces c (Piece.markers (c.markers.params (r.bindings c))) with
  | error e => rfl
  | ok ps => exact congrArg (fun ns => Except.ok (Piece.render c ps, ns)) hnames

theorem outline_eq (h : r.withoutValues = r'.withoutValues) :
    (r.compile c).map Statement.outline = (r'.compile c).map Statement.outline := by
  rw [← compile_withoutValues, h, compile_withoutValues]

/-- Each parameter depends on what is supplied in its place. -/
theorem getElem?_params_eq (h : r.withoutValues = r'.withoutValues) (hs : r.compile c = .ok s)
    (hs' : r'.compile c = .ok s') {i : Nat} (hi : r.supplied[i]? = r'.supplied[i]?) :
    s.params[i]? = s'.params[i]? := by
  have hliterals : r.literals c = r'.literals c := by
    rw [← literals_withoutValues, h, literals_withoutValues]
  have hvalue : (s.params.map (·.value))[i]? = (s'.params.map (·.value))[i]? := by
    rw [map_value_params hs, map_value_params hs', ← zipWith_bound, ← zipWith_bound, hliterals,
      List.getElem?_zipWith, List.getElem?_zipWith, hi]
  have hname : (s.params.map (·.name))[i]? = (s'.params.map (·.name))[i]? := by
    have houtline := outline_eq (c := c) h
    rw [hs, hs'] at houtline
    exact congrArg (·[i]?) (Prod.mk.inj (Except.ok.inj houtline)).2
  rw [List.getElem?_map, List.getElem?_map] at hvalue hname
  cases hp : s.params[i]? with
  | none =>
    have hnone : s'.params[i]? = none := by simpa [hp] using hvalue.symm
    rw [hnone]
  | some p =>
    obtain ⟨q, hq, hqvalue⟩ : ∃ q, s'.params[i]? = some q ∧ q.value = p.value := by
      simpa [hp] using hvalue.symm
    have hqname : q.name = p.name := by simpa [hp, hq] using hname.symm
    rw [hq]
    obtain ⟨name, v⟩ := p
    obtain ⟨name', v'⟩ := q
    exact congrArg some (by rw [Param.mk.injEq]; exact ⟨hqname.symm, hqvalue.symm⟩)

end Request

end RestSql
