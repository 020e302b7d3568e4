import RestSql.Json.Form
import RestSql.Request.Basic
import RestSql.Settings.Basic
import RestSql.Statement.Basic

/-!
Statements, and the parts of requests and conventions, as JSON: `toJson` writes them with their
fields in order, and `ofWritten?` reads them back from text.
-/

namespace RestSql

open Json Json.Form

/-! ## Operators and conventions -/

def Operator.toJson (op : Operator) : Json := .string op.token

def Operator.ofWritten? : Written → Option Operator := named? Operator.ofToken?

def Dialect.toJson (d : Dialect) : Json := .string d.name

def Dialect.ofWritten? : Written → Option Dialect := named? Dialect.ofName?

namespace Convention

def toJson (c : Convention) : Json :=
  .object [("dialect", c.dialect.toJson), ("default_schema", .string c.schema),
    ("placeholders", .string c.markers.name), ("pagination", .string c.window.name),
    ("typed_filter_values", .bool c.typedFilters)]

def formFields : List Field :=
  [⟨"dialect", .inArray⟩, ⟨"default_schema", .inArray⟩, ⟨"placeholders", .inArray⟩,
    ⟨"pagination", .inArray⟩, ⟨"typed_filter_values", .inArray⟩]

/-- What is not given follows the dialect, and other members are refused. -/
def ofWritten? (w : Written) : Option Convention := do
  match ← fields? true formFields w with
  | [dialect, schema, markers, window, typed] =>
    let dialect ← optional? Dialect.ofWritten? dialect
    let schema ← optional? string? schema
    let markers ← optional? (named? MarkerStyle.ofName?) markers
    let window ← optional? (named? WindowStyle.ofName?) window
    let typed ← optional? bool? typed
    return ConventionSection.convention ⟨dialect, schema, markers, window, typed⟩
  | _ => none

end Convention

/-! ## Parts of requests -/

namespace TableName

def toJson (t : TableName) : Json :=
  .object [("schema", .string t.schema), ("name", .string t.name)]

/-- The parts may be empty here. -/
def ofWritten? (w : Written) : Option TableName := do
  match ← fields? false [⟨"schema", .required⟩, ⟨"name", .required⟩] w with
  | [some schema, some name] => return ⟨← string? schema, ← string? name⟩
  | _ => none

end TableName

namespace Filter

def toJson (f : Filter) : Json :=
  .object [("column", .string f.column), ("op", f.op.toJson), ("value", .string f.value)]

def ofWritten? (w : Written) : Option Filter := do
  match ← fields? false [⟨"column", .required⟩, ⟨"op", .required⟩, ⟨"value", .required⟩] w with
  | [some column, some op, some value] =>
    return ⟨← string? column, ← Operator.ofWritten? op, ← string? value⟩
  | _ => none

end Filter

namespace Direction

def name : Direction → String
  | ascending => "Asc"
  | descending => "Desc"

def ofName? (name : String) : Option Direction :=
  [ascending, descending].find? (·.name = name)

def toJson (d : Direction) : Json := .string d.name

def ofWritten? : Written → Option Direction := named? Direction.ofName?

end Direction

namespace OrderItem

def toJson (o : OrderItem) : Json :=
  .object [("identifier", .string o.identifier),
    ("direction", Json.ofOption Direction.toJson o.direction)]

def ofWritten? (w : Written) : Option OrderItem := do
  match ← fields? false [⟨"identifier", .required⟩, ⟨"direction", .inArray⟩] w with
  | [some identifier, direction] =>
    return ⟨← string? identifier, ← optional? Direction.ofWritten? direction⟩
  | _ => none

end OrderItem

namespace Window

def toJson (w : Window) : Json :=
  .object [("limit", Json.ofOption Json.ofNat w.limit),
    ("offset", Json.ofOption Json.ofNat w.offset)]

def ofWritten? (w : Written) : Option Window := do
  match ← fields? false [⟨"limit", .inArray⟩, ⟨"offset", .inArray⟩] w with
  | [limit, offset] => return ⟨← optional? count? limit, ← optional? count? offset⟩
  | _ => none

end Window

namespace Routine

namespace Parameter

def toJson (p : Parameter) : Json :=
  .object [("name", .string p.name), ("type", .string p.dataType)]

def ofWritten? (w : Written) : Option Parameter := do
  match ← fields? false [⟨"name", .required⟩, ⟨"type", .optional⟩] w with
  | [some name, dataType] => return ⟨← string? name, ← dataType.elim (some "") string?⟩
  | _ => none

end Parameter

def toJson (r : Routine) : Json :=
  .object [("schema", .string r.schema), ("name", .string r.name),
    ("params", .array (r.params.map Parameter.toJson)), ("return_type", .string r.returnType),
    ("is_function", .bool r.isFunction)]

def formFields : List Field :=
  [⟨"schema", .required⟩, ⟨"name", .required⟩, ⟨"params", .required⟩, ⟨"return_type", .required⟩,
    ⟨"is_function", .required⟩]

def ofWritten? (w : Written) : Option Routine := do
  match ← fields? false formFields w with
  | [some schema, some name, some params, some returnType, some isFunction] =>
    return ⟨← string? schema, ← string? name, ← list? Parameter.ofWritten? params,
      ← string? returnType, ← bool? isFunction⟩
  | _ => none

end Routine

/-! ## Statements -/

/-- Text names no kind: a value is the first of null, boolean, 64 bit integer, double and string
that fits. -/
def Value.ofWritten? : Written → Option Value
  | .null => some .null
  | .bool b => some (.bool b)
  | .number n => n.value?.map fun n => Value.ofJson (.number n)
  | .string ls => (letters ls).map .string
  | _ => none

namespace Param

def toJson (p : Param) : Json :=
  .object [("name", Json.ofOption Json.string p.name), ("value", p.value.toJson)]

def ofWritten? (w : Written) : Option Param := do
  match ← fields? false [⟨"name", .inArray⟩, ⟨"value", .required⟩] w with
  | [name, some value] => return ⟨← optional? string? name, ← Value.ofWritten? value⟩
  | _ => none

end Param

namespace Statement

def toJson (s : Statement) : Json :=
  .object [("text", .string s.text), ("params", .array (s.params.map Param.toJson))]

def ofWritten? (w : Written) : Option Statement := do
  match ← fields? false [⟨"text", .required⟩, ⟨"params", .required⟩] w with
  | [some text, some params] => return ⟨← string? text, ← list? Param.ofWritten? params⟩
  | _ => none

end Statement

end RestSql
