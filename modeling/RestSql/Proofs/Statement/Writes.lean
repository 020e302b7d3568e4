import RestSql.Proofs.Statement.Content
import RestSql.Proofs.Statement.Decoding

namespace RestSql

open Piece

namespace Piece

variable (c : Convention)

theorem render_append (ps qs : List Piece) : render c (ps ++ qs) = render c ps ++ render c qs := by
  simp [render]

theorem render_cons (p : Piece) (ps : List Piece) :
    render c (p :: ps) = p.text c ++ render c ps := by
  simp [render]

theorem render_nil : render c [] = "" := rfl

theorem render_separated (separator : String) (parts : List (List Piece)) :
    render c (separated separator parts) = String.intercalate separator (parts.map (render c)) := by
  rw [separated]
  induction parts with
  | nil => rfl
  | cons part parts ih =>
    cases parts with
    | nil => simp
    | cons next parts =>
      simp only [List.map_cons] at ih ⊢
      rw [List.intercalate_cons_cons, render_append, render_append, ih,
        String.intercalate_cons_cons, render_cons, render_nil, String.append_empty]
      rfl

end Piece

/-! ## Parts of writes -/

def TableName.quoted (c : Convention) (t : TableName) : String :=
  c.dialect.quote t.schema ++ "." ++ c.dialect.quote t.name

def Filter.predicate (c : Convention) (f : Filter) (marker : String) : String :=
  if f.op.isMembership then c.dialect.quote f.column ++ " " ++ f.op.sql ++ " (" ++ marker ++ ")"
  else c.dialect.quote f.column ++ " " ++ f.op.sql ++ " " ++ marker

def Filter.condition (c : Convention) (fs : List Filter) (markers : List String) : String :=
  String.intercalate " AND " (List.zipWith (Filter.predicate c) fs markers)

def Row.assignments (c : Convention) (row : Row) (markers : List String) : String :=
  String.intercalate ", "
    (List.zipWith (fun column marker => c.dialect.quote column ++ " = " ++ marker) row.columns
      markers)

def Param.markers (c : Convention) (params : List Param) : List String :=
  (places params).map fun place => c.markers.render place.1 place.2

section Texts

variable {c : Convention}

theorem TableName.render_pieces (t : TableName) : render c t.pieces = t.quoted c := by
  simp [TableName.pieces, render_cons, render_nil, TableName.quoted, Piece.text,
    String.append_assoc]

theorem Filter.render_pieces (f : Filter) (m : Piece) :
    render c (f.pieces m) = f.predicate c (m.text c) := by
  rw [Filter.pieces, Filter.predicate]
  split <;> simp [render_cons, render_nil, Piece.text, String.append_assoc]

theorem Filter.render_clause {fs : List Filter} (hne : fs ≠ []) (markers : List Piece) :
    render c (Filter.clause fs markers) =
      " WHERE " ++ Filter.condition c fs (markers.map (Piece.text c)) := by
  rw [Filter.clause, if_neg (by simpa using hne), render_cons, render_separated, List.map_zipWith,
    Filter.condition, List.zipWith_map_right]
  simp only [Filter.render_pieces]
  rfl

theorem Row.render_assignments (row : Row) (markers : List Piece) :
    render c (separated ", " (List.zipWith (fun n m => [ident n, word " = ", m]) row.columns
      markers)) = row.assignments c (markers.map (Piece.text c)) := by
  rw [render_separated, List.map_zipWith, Row.assignments, List.zipWith_map_right]
  simp [render_cons, render_nil, Piece.text, String.append_assoc]

/-! ## Writes -/

namespace Request

theorem map_text_markers (c : Convention) (params : List Param) :
    (Piece.markers params).map (Piece.text c) = Param.markers c params := by
  rw [← Param.markersAt_places, markersAt, List.map_map]
  rfl

theorem compile_delete (c : Convention) (table : TableName) {fs : List Filter} (hne : fs ≠ []) :
    ∃ s, compile c (.delete table fs) = .ok s ∧ s.params.length = fs.length ∧
      s.text = "DELETE FROM " ++ table.quoted c ++ " WHERE " ++
        Filter.condition c fs (Param.markers c s.params) := by
  have hcompile : compile c (.delete table fs) = .ok
      ⟨Piece.render c (deletePieces table fs
        (Piece.markers (c.markers.params (bindings c (.delete table fs))))),
        c.markers.params (bindings c (.delete table fs))⟩ := rfl
  refine ⟨_, hcompile, length_params hcompile, ?_⟩
  rw [deletePieces, render_append, render_cons, TableName.render_pieces,
    Filter.render_clause hne, map_text_markers]
  simp [Piece.text, String.append_assoc]

theorem compile_update (c : Convention) (u : Update) (hne : u.filters ≠ []) :
    ∃ s, compile c (.update u) = .ok s ∧
      s.params.length = u.row.columns.length + u.filters.length ∧
      s.text = "UPDATE " ++ u.table.quoted c ++ " SET " ++
        u.row.assignments c (Param.markers c s.params) ++ " WHERE " ++
        Filter.condition c u.filters ((Param.markers c s.params).drop u.row.columns.length) := by
  have hcompile : compile c (.update u) = .ok
      ⟨Piece.render c (u.pieces (Piece.markers (c.markers.params (bindings c (.update u))))),
        c.markers.params (bindings c (.update u))⟩ := rfl
  refine ⟨_, hcompile, length_params hcompile, ?_⟩
  rw [Update.pieces, render_append, render_append, render_cons, render_cons,
    TableName.render_pieces, Row.render_assignments, Filter.render_clause hne,
    List.map_drop, map_text_markers]
  simp [Piece.text, String.append_assoc]

/-! ## Keywords -/

def keyword : Request → String
  | .select _ => "SELECT "
  | .insert _ _ => "INSERT INTO "
  | .update _ => "UPDATE "
  | .delete _ _ => "DELETE FROM "
  | .call k => if k.routine.isFunction then "SELECT " else "\x7bcall "

theorem exists_text_eq {r : Request} {s : Statement} (h : r.compile c = .ok s) :
    ∃ rest, s.text = r.keyword ++ rest := by
  obtain ⟨-, ps, hp, ht⟩ := compile_eq_ok h
  rw [ht]
  cases r with
  | select q =>
    obtain ⟨head, -, rfl⟩ := Select.pieces_eq hp
    simp only [List.cons_append, List.append_assoc, render_cons]
    exact ⟨_, rfl⟩
  | insert table row =>
    obtain rfl := Except.ok.inj hp
    exact ⟨_, render_cons c _ _⟩
  | update u =>
    obtain rfl := Except.ok.inj hp
    rw [Update.pieces, List.append_assoc, List.cons_append, List.cons_append]
    exact ⟨_, render_cons c _ _⟩
  | delete table fs =>
    obtain rfl := Except.ok.inj hp
    exact ⟨_, render_cons c _ _⟩
  | call k =>
    obtain rfl := Except.ok.inj hp
    rw [Call.pieces, keyword]
    cases k.routine.isFunction with
    | false =>
      simp only [Bool.not_false, if_true, List.cons_append]
      exact ⟨_, render_cons c _ _⟩
    | true =>
      simp only [Bool.not_true, Bool.false_eq_true, if_false, if_true]
      split
      · -- the longer keyword of a function that returns a table begins with the shorter one
        have hword : "SELECT * FROM " = "SELECT " ++ "* FROM " := rfl
        rw [List.cons_append, List.cons_append, render_cons, Piece.text, hword, String.append_assoc]
        exact ⟨_, rfl⟩
      · exact ⟨_, render_cons c _ _⟩

/-- A statement that yields rows is one that selects. -/
theorem select_prefix_iff {r : Request} {s : Statement} (h : r.compile c = .ok s) :
    "SELECT".toList <+: s.text.toList ↔ r.returnsRows = true := by
  obtain ⟨rest, htext⟩ := exists_text_eq h
  rw [htext, String.toList_append]
  cases r with
  | call k =>
    rw [keyword, returnsRows]
    cases k.routine.isFunction <;> simp
  | _ => simp [keyword, returnsRows]

end Request

end Texts

end RestSql
