import RestSql.Failure
import RestSql.Sql.Operator
import RestSql.Sql.Value

/-!
Requests: what a statement is made of. Rows and routine calls carry what makes them well formed, so
every one that can be built can be compiled.
-/

namespace RestSql

structure TableName where
  schema : String
  name : String
deriving DecidableEq, Repr

namespace TableName

/-- Neither part is empty. -/
def of (schema name : String) : Except Failure TableName :=
  if schema = "" then .error (.shape .emptySchema)
  else if name = "" then .error (.shape .emptyTable)
  else .ok ⟨schema, name⟩

def text (t : TableName) : String := t.schema ++ "." ++ t.name

end TableName

structure Filter where
  column : String
  op : Operator
  value : String
deriving DecidableEq, Repr

def Filter.wire (f : Filter) : String := f.column ++ "=" ++ f.op.token ++ "." ++ f.value

inductive Direction
  | ascending | descending
deriving DecidableEq, Repr

def Direction.sql : Direction → String
  | .ascending => "ASC"
  | .descending => "DESC"

structure OrderItem where
  identifier : String
  direction : Option Direction
deriving DecidableEq, Repr

/-- The rows that a read asks for; a bound that is absent restricts nothing. -/
structure Window where
  limit : Option Nat
  offset : Option Nat
deriving DecidableEq, Repr

def Window.effectiveOffset (w : Window) : Option Nat := w.offset.filter (0 < ·)

/-! ## Rows -/

/-- The first name that is empty or was seen before. -/
def nameFault? (kind : WriteKind) (seen : List String) : List String → Option ShapeFault
  | [] => none
  | n :: ns =>
    if n = "" then some (.emptyColumn kind)
    else if n ∈ seen then some (.repeatedColumn kind n)
    else nameFault? kind (n :: seen) ns

theorem nameFault?_eq_none {kind : WriteKind} {seen names : List String}
    (h : nameFault? kind seen names = none) :
    "" ∉ names ∧ names.Nodup ∧ ∀ n ∈ names, n ∉ seen := by
  induction names generalizing seen with
  | nil => simp
  | cons n ns ih =>
    rw [nameFault?] at h
    split at h
    · simp at h
    · rename_i hne
      split at h
      · simp at h
      · rename_i hseen
        obtain ⟨h1, h2, h3⟩ := ih h
        have h4 : n ∉ ns := fun hn => by simpa using h3 n hn
        refine ⟨by simp [Ne.symm hne, h1], List.nodup_cons.2 ⟨h4, h2⟩, ?_⟩
        simp only [List.mem_cons, forall_eq_or_imp]
        exact ⟨hseen, fun m hm => fun hs => h3 m hm (by simp [hs])⟩

structure Row where
  cells : List (String × Value)
  names_ne : "" ∉ cells.map (·.1)
  names_nodup : (cells.map (·.1)).Nodup

namespace Row

def columns (r : Row) : List String := r.cells.map (·.1)

/-- As many values as columns, and every column named, once. -/
def of (kind : WriteKind) (columns : List String) (values : List Value) : Except Failure Row :=
  if columns.length ≠ values.length then
    .error (.shape (.columnCount kind columns.length values.length))
  else
    match h : nameFault? kind [] ((columns.zip values).map (·.1)) with
    | some fault => .error (.shape fault)
    | none => .ok ⟨columns.zip values, (nameFault?_eq_none h).1, (nameFault?_eq_none h).2.1⟩

end Row

/-! ## Routines -/

structure Routine.Parameter where
  name : String
  dataType : String
deriving DecidableEq, Repr

def Routine.Parameter.bareName (p : Routine.Parameter) : List Char :=
  p.name.toList.dropWhile fun c => c == '@' || c == ':'

structure Routine where
  schema : String
  name : String
  params : List Routine.Parameter
  returnType : String
  isFunction : Bool
deriving DecidableEq, Repr

/-- A function that returns a table is selected from. -/
def Routine.returnsTable (r : Routine) : Bool :=
  r.isFunction && r.returnType.toList.map Char.toLower = ['t', 'a', 'b', 'l', 'e']

/-- The first parameter with the bare name of one before it. -/
def repeatedParameter? (seen : List (List Char)) :
    List Routine.Parameter → Option Routine.Parameter
  | [] => none
  | p :: ps =>
    if p.bareName ∈ seen then some p else repeatedParameter? (p.bareName :: seen) ps

theorem repeatedParameter?_eq_none {seen : List (List Char)} {ps : List Routine.Parameter}
    (h : repeatedParameter? seen ps = none) :
    (ps.map (·.bareName)).Nodup ∧ ∀ p ∈ ps, p.bareName ∉ seen := by
  induction ps generalizing seen with
  | nil => simp
  | cons p ps ih =>
    rw [repeatedParameter?] at h
    split at h
    · simp at h
    · rename_i hseen
      obtain ⟨h1, h2⟩ := ih h
      simp only [List.map_cons, List.nodup_cons, List.mem_map, not_exists, not_and, List.mem_cons,
        forall_eq_or_imp]
      refine ⟨⟨fun q hq he => ?_, h1⟩, hseen, fun q hq hs => h2 q hq (by simp [hs])⟩
      exact h2 q hq (by simp [he])

structure Call where
  routine : Routine
  args : List Value
  complete : args.length = routine.params.length
  distinct : (routine.params.map (·.bareName)).Nodup

def Call.of (routine : Routine) (args : List Value) : Except Failure Call :=
  if h : args.length = routine.params.length then
    match hr : repeatedParameter? [] routine.params with
    | some p => .error (.shape (.repeatedParameter routine.name p.name))
    | none => .ok ⟨routine, args, h, (repeatedParameter?_eq_none hr).1⟩
  else .error (.shape (.argumentCount routine.name routine.params.length args.length))

/-! ## Requests -/

structure Select where
  table : TableName
  filters : List Filter
  /-- No columns at all means every column. -/
  columns : List String
  order : List OrderItem
  window : Window

structure Update where
  table : TableName
  row : Row
  filters : List Filter
  cells_ne : row.cells ≠ []

/-- An update assigns one column at least. -/
def Update.of (table : TableName) (columns : List String) (values : List Value)
    (filters : List Filter) : Except Failure Update :=
  if columns = [] then .error (.shape .noColumns)
  else do
    let row ← Row.of .update columns values
    if h : row.cells ≠ [] then return ⟨table, row, filters, h⟩ else throw (.shape .noColumns)

/-- Without columns an insert makes a row of defaults; without filters a delete takes every row. -/
inductive Request
  | select (s : Select)
  | insert (table : TableName) (row : Row)
  | update (u : Update)
  | delete (table : TableName) (filters : List Filter)
  | call (c : Call)

def Request.returnsRows : Request → Bool
  | .select _ => true
  | .call c => c.routine.isFunction
  | _ => false

end RestSql
