import RestSql.Statement.Binding

namespace RestSql

open Piece

def TableName.pieces (t : TableName) : List Piece := [ident t.schema, word ".", ident t.name]

def Filter.pieces (f : Filter) (marker : Piece) : List Piece :=
  if f.op.isMembership then [ident f.column, word (" " ++ f.op.sql ++ " ("), marker, word ")"]
  else [ident f.column, word (" " ++ f.op.sql ++ " "), marker]

def Filter.clause (fs : List Filter) (markers : List Piece) : List Piece :=
  if fs.isEmpty then []
  else word " WHERE " :: separated " AND " (List.zipWith Filter.pieces fs markers)

def OrderItem.pieces (o : OrderItem) : List Piece :=
  match o.direction with
  | some d => [ident o.identifier, word (" " ++ d.sql)]
  | none => [ident o.identifier]

def OrderItem.clause (order : List OrderItem) : List Piece :=
  if order.isEmpty then [] else word " ORDER BY " :: separated ", " (order.map OrderItem.pieces)

namespace Window

/-- The row window in front of the columns; `TOP` has no offset. -/
def head (style : WindowStyle) (w : Window) : Except Failure (List Piece) :=
  match style, w.effectiveOffset, w.limit with
  | .top, some n, _ => .error (.shape (.offsetWithTop n))
  | .top, none, some n => .ok [word "TOP (", number n, word ") "]
  | _, _, _ => .ok []

/-- The row window at the end. `OFFSET` and `FETCH` stand after an order only, so one that orders
nothing is supplied where there is none. -/
def tail (style : WindowStyle) (ordered : Bool) (w : Window) : List Piece :=
  match style with
  | .top => []
  | .limitOffset =>
    (w.limit.elim [] fun n => [word " LIMIT ", number n]) ++
      (w.effectiveOffset.elim [] fun n => [word " OFFSET ", number n])
  | .offsetFetch =>
    if w.limit.isNone && w.effectiveOffset.isNone then []
    else
      (if ordered then [] else [word " ORDER BY (SELECT NULL)"]) ++
        [word " OFFSET ", number (w.effectiveOffset.getD 0), word " ROWS"] ++
        (w.limit.elim [] fun n => [word " FETCH NEXT ", number n, word " ROWS ONLY"])

end Window

def Select.pieces (style : WindowStyle) (s : Select) (markers : List Piece) :
    Except Failure (List Piece) := do
  let head ← s.window.head style
  let columns := if s.columns.isEmpty then [word "*"] else names s.columns
  return word "SELECT " :: head ++ columns ++ word " FROM " :: s.table.pieces ++
    Filter.clause s.filters markers ++ OrderItem.clause s.order ++
    s.window.tail style !s.order.isEmpty

def insertPieces (table : TableName) (row : Row) (markers : List Piece) : List Piece :=
  word "INSERT INTO " :: table.pieces ++
    if row.cells.isEmpty then [word " DEFAULT VALUES"]
    else
      word " (" :: names row.columns ++ word ") VALUES (" ::
        separated ", " (markers.map fun m => [m]) ++ [word ")"]

/-- The first markers belong to the assigned columns, the others to the filters. -/
def Update.pieces (u : Update) (markers : List Piece) : List Piece :=
  let columns := u.row.columns
  let assignments := List.zipWith (fun c m => [ident c, word " = ", m]) columns markers
  word "UPDATE " :: u.table.pieces ++ word " SET " :: separated ", " assignments ++
    Filter.clause u.filters (markers.drop columns.length)

def deletePieces (table : TableName) (filters : List Filter) (markers : List Piece) : List Piece :=
  word "DELETE FROM " :: table.pieces ++ Filter.clause filters markers

/-- A procedure is called, a function is selected, and one that returns a table is selected from. -/
def Call.pieces (k : Call) (markers : List Piece) : List Piece :=
  let target := [ident k.routine.schema, word ".", ident k.routine.name]
  let arguments :=
    if markers.isEmpty then [word "()"]
    else word "( " :: separated ", " (markers.map fun m => [m]) ++ [word " )"]
  if !k.routine.isFunction then word "\x7bcall " :: target ++ arguments ++ [word "\x7d"]
  else if k.routine.returnsTable then word "SELECT * FROM " :: target ++ arguments
  else word "SELECT " :: target ++ arguments

def Request.pieces (c : Convention) (r : Request) (markers : List Piece) :
    Except Failure (List Piece) :=
  match r with
  | .select s => s.pieces c.window markers
  | .insert table row => .ok (insertPieces table row markers)
  | .update u => .ok (u.pieces markers)
  | .delete table filters => .ok (deletePieces table filters markers)
  | .call k => .ok (k.pieces markers)

def Request.compile (c : Convention) (r : Request) : Except Failure Statement := do
  let params := c.markers.params (r.bindings c)
  let pieces ← r.pieces c (Piece.markers params)
  return ⟨Piece.render c pieces, params⟩

end RestSql
