import RestSql.Json.Meaning
import RestSql.Request.Names
import RestSql.Text.Split

/-!
Filters from query entries. An entry is either in wire form, `column=op.value`, or a JSON object
with a member for each column; `Filter.ofEntries` reads a list of both.
-/

namespace RestSql

open RestSql.Text

namespace Filter

/-- The column ends at the first equals sign and the operator at the first point after it; the
value is everything else. -/
def ofWire (raw : String) : Except Failure Filter :=
  match cutFirst? '=' raw.toList with
  | none => .error (.filterSyntax raw)
  | some (column, rest) =>
    match cutFirst? '.' rest with
    | none => .error (.filterSyntax raw)
    | some (token, value) =>
      if column.isEmpty || token.isEmpty || token.contains '=' then .error (.filterSyntax raw)
      else
        (Operator.ofToken (String.ofList token)).map
          fun op => ⟨String.ofList column, op, String.ofList value⟩

/-- How an object entry names its operator: by token, or by a literal that may be SQL text and can
be confirmed by SQL text. -/
inductive OperatorName
  | token (t : String)
  | literal (text : String) (sql : Option String)

namespace OperatorName

def ofJson? : Json → Option OperatorName
  | .string t => some (.token t)
  | .object members =>
    match Json.member? members "literal", Json.member? members "sql" with
    | some (.string text), none => some (.literal text none)
    | some (.string text), some .null => some (.literal text none)
    | some (.string text), some (.string sql) => some (.literal text (some sql))
    | _, _ => none
  | _ => none

def resolve : OperatorName → Except Failure Operator
  | .token t => Operator.ofToken t
  | .literal text sql =>
    match (Operator.ofToken? text).or (Operator.ofSql? text) with
    | none => .error (.unknownOperator text)
    | some op =>
      match sql with
      | none => .ok op
      | some s => if Operator.ofSql? s = some op then .ok op else .error (.unknownOperator s)

end OperatorName

def entryParts? : Json → Option (OperatorName × Json)
  | .object [("op", op), ("value", value)] => (OperatorName.ofJson? op).map (·, value)
  | .array [op, value] => (OperatorName.ofJson? op).map (·, value)
  | _ => none

def scalarText? : Json → Option String
  | .string s => some s
  | .number n => some n.text
  | .bool b => some (if b then "true" else "false")
  | _ => none

/-- The text of a scalar, or the texts of an array of scalars with commas between. -/
def valueText? : Json → Option String
  | .array items => (items.mapM scalarText?).map (String.intercalate ",")
  | v => scalarText? v

def ofMember (raw : String) (member : String × Json) : Except Failure Filter :=
  if member.1 = "" then .error (.filterSyntax raw)
  else
    match entryParts? member.2 with
    | none => .error (.filterSyntax raw)
    | some (name, value) => do
      let op ← name.resolve
      match valueText? value with
      | some text => return ⟨member.1, op, text⟩
      | none => throw (.filterSyntax raw)

def ofObject (raw : String) : Except Failure (List Filter) :=
  match Json.ofText? raw with
  | some (.object members) => members.mapM (ofMember raw)
  | _ => .error (.filterSyntax raw)

/-- A blank entry asks for nothing; one that begins with a brace is an object. -/
def ofEntry (raw : String) : Except Failure (List Filter) :=
  match trim raw.toList with
  | [] => .ok []
  | '{' :: _ => ofObject raw
  | _ => (ofWire raw).map ([·])

def ofEntries : List String → Except Failure (List Filter)
  | [] => .ok []
  | raw :: rest => do
    let fs ← ofEntry raw
    let gs ← ofEntries rest
    return fs ++ gs

end Filter

end RestSql
