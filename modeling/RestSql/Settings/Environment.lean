import RestSql.Settings.Basic

/-!
Settings from environment variables. The variables are taken in a fixed order, and the first invalid
one ends the change: what went before it stays, it and what follows it change nothing.
-/

namespace RestSql.Settings

inductive Variable
  | databaseUrl | bindAddress | port | recordLimit | schema | maxConnections
deriving DecidableEq, Repr

namespace Variable

/-- The order in which variables are taken; a port comes after the address that it replaces. -/
def all : List Variable := [databaseUrl, bindAddress, port, recordLimit, schema, maxConnections]

def name : Variable → String
  | databaseUrl => "DATABASE_URL"
  | bindAddress => "BIND_ADDRESS"
  | port => "PORT"
  | recordLimit => "RECORD_LIMIT"
  | schema => "DB_SCHEMA"
  | maxConnections => "DB_MAX_CONNECTIONS"

def set (v : Variable) (text : String) (s : Settings) : Except ConfigFault Settings :=
  match v with
  | databaseUrl => .ok { s with databaseUrl := some text }
  | bindAddress => .ok { s with bindAddress := text }
  | port =>
    match Text.count? (Nat.pow 2 16) text with
    | some n => .ok { s with bindAddress := "0.0.0.0:" ++ toString n }
    | none => .error (.port text)
  | recordLimit =>
    match Text.count? Text.countBound text with
    | some n => .ok { s with recordLimit := n }
    | none => .error (.recordLimit text)
  | schema =>
    if Text.isBlankText text then .error .emptySchemaVariable
    else .ok { s with schema := some text }
  | maxConnections =>
    match Text.count? (Nat.pow 2 32) text with
    | some n => .ok { s with maxConnections := n }
    | none => .error (.maxConnections text)

end Variable

abbrev Environment := String → Option String

/-- The settings reached, and the fault of the variable that ended the change, if one did. -/
def applyVariables (env : Environment) : List Variable → Settings → Settings × Option ConfigFault
  | [], s => (s, none)
  | v :: vs, s =>
    match env v.name with
    | none => applyVariables env vs s
    | some text =>
      match v.set text s with
      | .ok s' => applyVariables env vs s'
      | .error fault => (s, some fault)

def applyEnvironment (s : Settings) (env : Environment) : Settings × Option ConfigFault :=
  applyVariables env Variable.all s

end RestSql.Settings
