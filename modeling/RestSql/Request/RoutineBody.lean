import RestSql.Failure

/-!
The body of a routine call: an object, or an array with the same parts by position. All parts may be
absent but the names of the arguments. Members are read in order of their names, so the first fault
in that order is the one that is told.
-/

namespace RestSql

structure RoutineArgument where
  name : String
  dataType : String
  value : Json
deriving Repr

structure RoutineBody where
  schema : Option String
  isFunction : Bool
  returns : Option String
  args : List RoutineArgument
deriving Repr

def RoutineBody.empty : RoutineBody := ⟨none, false, none, []⟩

namespace BodyForm

def readString : Json → Except FormFault String
  | .string s => .ok s
  | v => .error (.wrongType v .string)

def readOptional : Json → Except FormFault (Option String)
  | .null => .ok none
  | v => (readString v).map some

def readBoolean : Json → Except FormFault Bool
  | .bool b => .ok b
  | v => .error (.wrongType v .boolean)

def readOr {α : Type} (read : Json → Except FormFault α) (absent : α) :
    Option Json → Except FormFault α
  | none => .ok absent
  | some v => read v

end BodyForm

open BodyForm

namespace RoutineArgument

def ofJson : Json → Except FormFault RoutineArgument
  | .object members => do
    let name ← readOr (fun v => (readString v).map some) none (Json.member? members "name")
    let dataType ← readOr readString "" (Json.member? members "type")
    match name with
    | some name => return ⟨name, dataType, (Json.member? members "value").getD .null⟩
    | none => throw .missingName
  | .array [] => .error .emptyArgument
  | .array (first :: rest) => do
    let name ← readString first
    let dataType ← readOr readString "" rest[0]?
    if 2 < rest.length then throw (.tooLong (rest.length + 1))
    return ⟨name, dataType, rest[1]?.getD .null⟩
  | v => .error (.wrongType v .routineArgument)

def listOfJson : Json → Except FormFault (List RoutineArgument)
  | .array items => items.mapM ofJson
  | v => .error (.wrongType v .sequence)

end RoutineArgument

def RoutineBody.ofJson : Json → Except FormFault RoutineBody
  | .object members => do
    let args ← readOr RoutineArgument.listOfJson [] (Json.member? members "args")
    let isFunction ← readOr readBoolean false (Json.member? members "function")
    let returns ← readOr readOptional none (Json.member? members "returns")
    let schema ← readOr readOptional none (Json.member? members "schema")
    return ⟨schema, isFunction, returns, args⟩
  | .array items => do
    let schema ← readOr readOptional none items[0]?
    let isFunction ← readOr readBoolean false items[1]?
    let returns ← readOr readOptional none items[2]?
    let args ← readOr RoutineArgument.listOfJson [] items[3]?
    if 4 < items.length then throw (.tooLong items.length)
    return ⟨schema, isFunction, returns, args⟩
  | v => .error (.wrongType v .routineBody)

/-- The body of a call, where null is as good as none. -/
def RoutineBody.ofCall : Json → Except FormFault RoutineBody
  | .null => .ok .empty
  | v => ofJson v

end RestSql
