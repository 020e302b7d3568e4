import RestSql.Proofs.Statement.Writes

/-!
The text of reads. The row window stands in front of the columns or at the end, as the convention
has it, and the window at the end can need an order. A read is refused if its window has an offset
and stands in front, and for nothing else.
-/

namespace RestSql

open Piece

/-! ## Windows -/

namespace Window

def leading (w : Window) : WindowStyle → String
  | .top => w.limit.elim "" fun n => "TOP (" ++ toString n ++ ") "
  | _ => ""

def trailing (w : Window) : WindowStyle → String
  | .top => ""
  | .limitOffset =>
    (w.limit.elim "" fun n => " LIMIT " ++ toString n) ++
      w.offset.elim "" fun n => " OFFSET " ++ toString n
  | .offsetFetch =>
    if w = ⟨none, none⟩ then ""
    else
      " OFFSET " ++ toString (w.offset.getD 0) ++ " ROWS" ++
        w.limit.elim "" fun n => " FETCH NEXT " ++ toString n ++ " ROWS ONLY"

def needsOrder (w : Window) (style : WindowStyle) : Bool :=
  style = .offsetFetch && w ≠ ⟨none, none⟩

variable {c : Convention} {style : WindowStyle} {w : Window}

theorem head_eq_error {f : Failure} : w.head style = .error f ↔
    style = .top ∧ ∃ n, w.effectiveOffset = some n ∧ f = .shape (.offsetWithTop n) := by
  cases style with
  | top =>
    cases ho : w.effectiveOffset with
    | some n =>
      simp only [head, ho, Except.error.injEq, Option.some.injEq, true_and, exists_eq_left']
      exact eq_comm
    | none => cases hl : w.limit <;> simp [head, ho, hl]
  | _ => simp [head]

theorem render_head {ps : List Piece} (h : w.head style = .ok ps) :
    render c ps = w.effective.leading style := by
  rw [head_eq h]
  cases style with
  | top =>
    cases hl : w.limit with
    | none => simp [leading, effective, hl, render_nil]
    | some n =>
      simp [leading, effective, hl, render_cons, render_nil, Piece.text, String.append_assoc]
  | _ => rfl

/-- Behind the order that is asked for, or behind one that orders nothing where it is needed. -/
theorem render_tail (ordered : Bool) : render c (w.tail style ordered) =
    (if !ordered && w.effective.needsOrder style then " ORDER BY (SELECT NULL)" else "") ++
      w.effective.trailing style := by
  cases style with
  | top => simp [tail, needsOrder, trailing, render_nil]
  | limitOffset =>
    cases hl : w.limit <;> cases ho : w.effectiveOffset <;>
      simp [tail, needsOrder, trailing, effective, hl, ho, render_cons, render_nil, Piece.text,
        String.append_assoc]
  | offsetFetch =>
    cases hl : w.limit <;> cases ho : w.effectiveOffset <;> cases ordered <;>
      simp [tail, needsOrder, trailing, effective, hl, ho, render_cons, render_nil, Piece.text,
        String.append_assoc]

/-- A window restricts nothing exactly if it stands nowhere. -/
theorem eq_none_iff (htop : style = .top → w.offset = none) :
    w.leading style = "" ∧ w.trailing style = "" ↔ w = ⟨none, none⟩ := by
  obtain ⟨limit, offset⟩ := w
  cases style with
  | top =>
    obtain rfl := htop rfl
    cases limit <;> simp [leading, trailing]
  | limitOffset => cases limit <;> cases offset <;> simp [leading, trailing]
  | offsetFetch => cases limit <;> cases offset <;> simp [leading, trailing]

end Window

/-! ## Clauses -/

def Select.columnList (c : Convention) (s : Select) : String :=
  if s.columns.isEmpty then "*" else String.intercalate ", " (s.columns.map c.dialect.quote)

def Filter.clauseText (c : Convention) (fs : List Filter) (markers : List String) : String :=
  if fs.isEmpty then "" else " WHERE " ++ Filter.condition c fs markers

def OrderItem.text (c : Convention) (o : OrderItem) : String :=
  c.dialect.quote o.identifier ++ o.direction.elim "" fun d => " " ++ d.sql

def OrderItem.listText (c : Convention) (order : List OrderItem) : String :=
  if order.isEmpty then "(SELECT NULL)" else String.intercalate ", " (order.map (text c))

/-- The order of a read, if it asks for one or its window needs one. -/
def Select.orderClause (c : Convention) (s : Select) : String :=
  if s.order.isEmpty && !s.window.effective.needsOrder c.window then ""
  else " ORDER BY " ++ OrderItem.listText c s.order

section Clauses

variable {c : Convention}

theorem Piece.render_names (ns : List String) :
    render c (names ns) = String.intercalate ", " (ns.map c.dialect.quote) := by
  rw [names, render_separated, List.map_map]
  congr 1
  refine List.map_congr_left fun n _ => ?_
  simp [render_cons, render_nil, Piece.text]

theorem Select.render_columns (s : Select) :
    render c (if s.columns.isEmpty then [word "*"] else names s.columns) = s.columnList c := by
  rw [Select.columnList]
  split
  · simp [render_cons, render_nil, Piece.text]
  · exact render_names _

theorem Filter.render_clause_eq (fs : List Filter) (markers : List Piece) :
    render c (Filter.clause fs markers) =
      Filter.clauseText c fs (markers.map (Piece.text c)) := by
  by_cases hne : fs = []
  · subst hne
    rfl
  · rw [Filter.render_clause hne, Filter.clauseText, if_neg (by simpa using hne)]

theorem OrderItem.render_pieces (o : OrderItem) : render c o.pieces = o.text c := by
  obtain ⟨n, direction⟩ := o
  cases direction <;>
    simp [OrderItem.pieces, OrderItem.text, render_cons, render_nil, Piece.text]

theorem OrderItem.render_clause (order : List OrderItem) : render c (OrderItem.clause order) =
    if order.isEmpty then "" else " ORDER BY " ++ OrderItem.listText c order := by
  by_cases hne : order = []
  · subst hne
    rfl
  · have hitems : (order.map OrderItem.pieces).map (render c) = order.map (OrderItem.text c) := by
      rw [List.map_map]
      exact List.map_congr_left fun o _ => OrderItem.render_pieces o
    have hfalse : order.isEmpty = false := by simpa using hne
    rw [OrderItem.clause, OrderItem.listText, hfalse]
    simp only [Bool.false_eq_true, if_false]
    rw [render_cons, render_separated, hitems]
    rfl

theorem Select.render_order_tail (s : Select) :
    render c (OrderItem.clause s.order) ++ render c (s.window.tail c.window !s.order.isEmpty) =
      s.orderClause c ++ s.window.effective.trailing c.window := by
  rw [Window.render_tail, ← String.append_assoc, OrderItem.render_clause, Select.orderClause,
    Bool.not_not]
  congr 1
  cases hempty : s.order.isEmpty with
  | false => simp
  | true =>
    have hlist : OrderItem.listText c s.order = "(SELECT NULL)" := if_pos hempty
    rw [hlist]
    cases s.window.effective.needsOrder c.window <;> rfl

end Clauses

/-! ## Reads -/

namespace Request

variable {c : Convention} {s : Select}

/-- A read is refused for its offset only, where there is no place for it. -/
theorem compile_select_eq_error {f : Failure} : compile c (.select s) = .error f ↔
    c.window = .top ∧ ∃ n, s.window.effectiveOffset = some n ∧ f = .shape (.offsetWithTop n) := by
  rw [← Window.head_eq_error]
  cases hh : s.window.head c.window with
  | error e => simp [compile, pieces, Select.pieces, hh, bind, Except.bind]
  | ok ps => simp [compile, pieces, Select.pieces, hh, bind, Except.bind, pure, Except.pure]

theorem text_select {st : Statement} (h : compile c (.select s) = .ok st) :
    st.text = "SELECT " ++ s.window.effective.leading c.window ++ s.columnList c ++ " FROM " ++
      s.table.quoted c ++ Filter.clauseText c s.filters (Param.markers c st.params) ++
      s.orderClause c ++ s.window.effective.trailing c.window := by
  obtain ⟨-, ps, hp, ht⟩ := compile_eq_ok h
  obtain ⟨head, hhead, rfl⟩ := Select.pieces_eq hp
  have hend := Select.render_order_tail (c := c) s
  simp only [String.append_assoc, ← hend]
  rw [ht]
  simp only [List.cons_append, List.append_assoc, render_append, render_cons,
    Window.render_head hhead, Select.render_columns, TableName.render_pieces,
    Filter.render_clause_eq, map_text_markers, Piece.text]

end Request

/-- The window stands in the text where the convention has it, behind an order where it needs one,
and it is what the text says. -/
structure Select.ShowsWindow (c : Convention) (s : Select) (w : Window) (st : Statement) :
    Prop where
  text_eq : st.text = "SELECT " ++ w.leading c.window ++ s.columnList c ++ " FROM " ++
    s.table.quoted c ++ Filter.clauseText c s.filters (Param.markers c st.params) ++
    s.orderClause c ++ w.trailing c.window
  ordered : w.needsOrder c.window = true → ∃ items, s.orderClause c = " ORDER BY " ++ items
  read_back : ∃ conditions, Sketch.ofText? c st.text =
    some (.select s.table s.columns conditions s.order w)
  absent_iff : w.leading c.window = "" ∧ w.trailing c.window = "" ↔ w = ⟨none, none⟩

theorem Select.showsWindow {c : Convention} {s : Select} {st : Statement}
    (h : Request.compile c (.select s) = .ok st) : s.ShowsWindow c s.window.effective st where
  text_eq := Request.text_select h
  ordered hneeded := by
    rw [Select.orderClause, hneeded, Bool.not_true, Bool.and_false]
    exact ⟨_, rfl⟩
  read_back := ⟨_, Request.ofText?_compile h⟩
  absent_iff := by
    apply Window.eq_none_iff
    intro htop
    cases ho : s.window.effectiveOffset with
    | none => exact ho
    | some n =>
      have herror := Request.compile_select_eq_error.2 ⟨htop, n, ho, rfl⟩
      rw [h] at herror
      cases herror

end RestSql
