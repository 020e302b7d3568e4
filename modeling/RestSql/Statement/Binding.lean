import RestSql.Request.Basic
import RestSql.Statement.Basic

/-!
The parameters of a request: which values are bound, in which order, and under which names. In the
named marker styles a name is made from a hint, and no two parameters of a statement share one.
-/

namespace RestSql

namespace Binding

def isNameChar (c : Char) : Bool :=
  ('a' ≤ c && c ≤ 'z') || ('A' ≤ c && c ≤ 'Z') || ('0' ≤ c && c ≤ '9') || c == '_'

/-- The hint in the characters that a marker can hold, without marker signs in front; a hint of
nothing else becomes the position. -/
def baseName (hint : String) (position : Nat) : String :=
  let cs := hint.toList.dropWhile fun c => c == '@' || c == ':'
  if cs.isEmpty then "p" ++ toString position
  else String.ofList (cs.map fun c => if isNameChar c then c else '_')

/-- The base, or the base with the least suffix from the position on that is free. Among one more
suffixes than there are names in use, one is free. -/
def freeName (used : List String) (hint : String) (position : Nat) : String :=
  let base := baseName hint position
  if base ∈ used then
    let candidates := (List.range' position (used.length + 1)).map fun k =>
      base ++ "_" ++ toString k
    (candidates.find? (· ∉ used)).getD base
  else base

def named (used : List String) (position : Nat) : List (String × Value) → List Param
  | [] => []
  | (hint, value) :: rest =>
    let name := freeName used hint position
    ⟨some name, value⟩ :: named (name :: used) (position + 1) rest

end Binding

namespace MarkerStyle

def params (style : MarkerStyle) (bindings : List (String × Value)) : List Param :=
  if style.isNamed then Binding.named [] 1 bindings else bindings.map fun b => ⟨none, b.2⟩

end MarkerStyle

def Piece.markers (params : List Param) : List Piece :=
  params.zipIdx.map fun p => .marker (p.2 + 1) (p.1.name.getD "")

/-- What a filter is compared with: under typed filters the literal that its text spells, except
for patterns. -/
def Filter.operand (c : Convention) (f : Filter) : Value :=
  if c.typedFilters && !f.op.isPattern then Value.infer f.value else .string f.value

def Filter.bindings (c : Convention) (fs : List Filter) : List (String × Value) :=
  fs.zipIdx.map fun f => ("f" ++ toString f.2 ++ "_" ++ f.1.column, f.1.operand c)

def Row.bindings (r : Row) : List (String × Value) := r.cells.map fun c => ("v_" ++ c.1, c.2)

def Request.bindings (c : Convention) : Request → List (String × Value)
  | .select s => Filter.bindings c s.filters
  | .insert _ row => row.bindings
  | .update u => u.row.bindings ++ Filter.bindings c u.filters
  | .delete _ filters => Filter.bindings c filters
  | .call k => (k.routine.params.map (·.name)).zip k.args

end RestSql
