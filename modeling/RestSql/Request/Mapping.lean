import RestSql.Request.Filters
import RestSql.Request.Lists
import RestSql.Request.Query
import RestSql.Request.RoutineBody
import RestSql.Statement.Compile

/-!
From targets, queries and bodies to requests, under two policies: reads without a limit get the
default one, and updates and deletes without filters are refused.
-/

namespace RestSql

structure Policy where
  /-- The limit of a read that names none. -/
  defaultLimit : Option Nat
  allowUnfilteredWrites : Bool
deriving DecidableEq, Repr

def Policy.standard : Policy := ⟨some 1000, false⟩

structure Mapping where
  convention : Convention
  policy : Policy
deriving DecidableEq, Repr

/-- The columns and values of a body, in order of the columns; null is an object without any. -/
def cellsOfJson : Json → Except Failure (List (String × Value))
  | .object members => .ok (members.map fun m => (m.1, Value.ofJson m.2))
  | .null => .ok []
  | v => .error (.body (.notObject v))

namespace Mapping

def table (m : Mapping) (name : String) : Except Failure TableName :=
  TableName.of m.convention.schema name

def read (m : Mapping) (target : String) (q : Query) : Except Failure Request := do
  let table ← m.table target
  let filters ← Filter.ofEntries q.filters
  let limit ← CountKey.limit.read q.limit
  let offset ← CountKey.offset.read q.offset
  return .select {
    table, filters
    columns := (q.select.map columnsOfText).getD []
    order := (q.order.map OrderItem.listOfText).getD []
    window := ⟨limit.or m.policy.defaultLimit, offset⟩ }

def insert (m : Mapping) (target : String) (body : Json) : Except Failure Request := do
  let table ← m.table target
  let cells ← cellsOfJson body
  let row ← Row.of .insert (cells.map (·.1)) (cells.map (·.2))
  return .insert table row

/-- The filters of a statement that changes rows; there is one at least unless the policy lets it
touch every row. -/
def writeFilters (m : Mapping) (kind : WriteKind) (q : Query) : Except Failure (List Filter) := do
  let filters ← Filter.ofEntries q.filters
  if filters.isEmpty && !m.policy.allowUnfilteredWrites then throw (.shape (.unfiltered kind))
  return filters

def update (m : Mapping) (target : String) (q : Query) (body : Json) :
    Except Failure Request := do
  let table ← m.table target
  let filters ← m.writeFilters .update q
  let cells ← cellsOfJson body
  if cells.isEmpty then throw (.body .noColumns)
  return .update (← Update.of table (cells.map (·.1)) (cells.map (·.2)) filters)

def delete (m : Mapping) (target : String) (q : Query) : Except Failure Request := do
  let table ← m.table target
  return .delete table (← m.writeFilters .delete q)

/-- A routine is in the schema that the body names, or in the default one. -/
def call (m : Mapping) (target : String) (body : RoutineBody) : Except Failure Request := do
  if target = "" then throw (.shape .emptyRoutine)
  let routine : Routine := {
    schema := (body.schema.filter (· ≠ "")).getD m.convention.schema
    name := target
    params := body.args.map fun a => ⟨a.name, a.dataType⟩
    returnType := body.returns.getD ""
    isFunction := body.isFunction }
  return .call (← Call.of routine (body.args.map fun a => Value.ofJson a.value))

def callJson (m : Mapping) (target : String) (body : Json) : Except Failure Request := do
  m.call target (← (RoutineBody.ofCall body).mapError fun f => .body (.form f))

def compile (m : Mapping) (r : Request) : Except Failure Statement := r.compile m.convention

end Mapping

end RestSql
