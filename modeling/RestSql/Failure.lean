import RestSql.Json.Printer
import RestSql.Sql.Convention
import RestSql.Text.Escape

/-!
Why a request, a body or a configuration is refused. Every failure is a cause; its wording, its
stable code and its HTTP status are functions of the cause.
-/

namespace RestSql

inductive WriteKind
  | insert | update | delete
deriving DecidableEq, Repr

def WriteKind.word : WriteKind → String
  | .insert => "INSERT"
  | .update => "UPDATE"
  | .delete => "DELETE"

inductive ShapeFault
  | emptySchema
  | emptyTable
  | emptyRoutine
  | noColumns
  | columnCount (kind : WriteKind) (columns values : Nat)
  | emptyColumn (kind : WriteKind)
  | repeatedColumn (kind : WriteKind) (column : String)
  | argumentCount (routine : String) (declared given : Nat)
  | repeatedParameter (routine parameter : String)
  | offsetWithTop (offset : Nat)
  | unfiltered (kind : WriteKind)
deriving DecidableEq, Repr

inductive BodyForm
  | string | boolean | sequence | routineBody | routineArgument
deriving DecidableEq, Repr

inductive FormFault
  | wrongType (found : Json) (expected : BodyForm)
  | missingName
  | emptyArgument
  | tooLong (length : Nat)
deriving Repr

inductive BodyFault
  | notJson
  | notObject (found : Json)
  | noColumns
  | form (fault : FormFault)
deriving Repr

inductive CountKey
  | limit | offset
deriving DecidableEq, Repr

inductive ConfigFault
  | notToml
  | emptySchema
  | port (text : String)
  | recordLimit (text : String)
  | emptySchemaVariable
  | maxConnections (text : String)
  | unknownDialect (name : String)
  | unknownMarkers (name : String)
  | unknownWindow (name : String)
  | namedMarkers (style : MarkerStyle)
  | noDatabase
  | inFile (path : String) (fault : ConfigFault)
deriving DecidableEq, Repr

inductive FileFault
  | notFound | denied | notDirectory | isDirectory | nameTooLong | notText
deriving DecidableEq, Repr

inductive Failure
  | filterSyntax (raw : String)
  | unknownOperator (token : String)
  | shape (fault : ShapeFault)
  | parameter (key : CountKey) (value : String)
  | body (fault : BodyFault)
  | connection (message : String)
  | execution (message : String)
  | config (fault : ConfigFault)
  | file (fault : FileFault)
deriving Repr

def ShapeFault.message : ShapeFault → String
  | .emptySchema => "schema name is empty"
  | .emptyTable => "table name is empty"
  | .emptyRoutine => "routine name is empty"
  | .noColumns => "UPDATE requires at least one column"
  | .columnCount kind columns values =>
    kind.word ++ " has " ++ toString columns ++ " column(s) but " ++ toString values ++ " value(s)"
  | .emptyColumn kind => kind.word ++ " column name is empty"
  | .repeatedColumn kind column => kind.word ++ " names column '" ++ column ++ "' more than once"
  | .argumentCount routine declared given =>
    "routine '" ++ routine ++ "' takes " ++ toString declared ++ " argument(s), got " ++
      toString given
  | .repeatedParameter routine parameter =>
    "routine '" ++ routine ++ "' declares parameter '" ++ parameter ++ "' more than once"
  | .offsetWithTop offset =>
    "offset " ++ toString offset ++ " cannot be expressed with TOP pagination"
  | .unfiltered kind => kind.word ++ " without filters would touch every row"

/-- The kind of a JSON value, with its value where that is short. -/
def Json.found : Json → String
  | .null => "null"
  | .bool true => "boolean `true`"
  | .bool false => "boolean `false`"
  | .number (.whole n) => "integer `" ++ toString n ++ "`"
  | .number (.float x) => "floating point `" ++ Double.Layout.json.write x ++ "`"
  | .string s => "string " ++ Text.escapedLiteral s
  | .array _ => "sequence"
  | .object _ => "map"

def Json.kind : Json → String
  | .null => "null"
  | .bool _ => "a boolean"
  | .number _ => "a number"
  | .string _ => "a string"
  | .array _ => "an array"
  | .object _ => "an object"

def BodyForm.words : BodyForm → String
  | .string => "a string"
  | .boolean => "a boolean"
  | .sequence => "a sequence"
  | .routineBody => "struct RoutineBody"
  | .routineArgument => "struct RoutineArg"

def FormFault.message : FormFault → String
  | .wrongType found expected => "invalid type: " ++ found.found ++ ", expected " ++ expected.words
  | .missingName => "missing field `name`"
  | .emptyArgument => "invalid length 0, expected struct RoutineArg with 3 elements"
  | .tooLong length => "invalid length " ++ toString length ++ ", expected fewer elements in array"

/-- Where the text is no JSON at all, no place in it is told. -/
def BodyFault.message : BodyFault → String
  | .notJson => "<json>"
  | .notObject found => "expected a JSON object, got " ++ found.kind
  | .noColumns => "UPDATE body must set at least one column"
  | .form fault => fault.message

def CountKey.word : CountKey → String
  | .limit => "limit"
  | .offset => "offset"

def MarkerStyle.title : MarkerStyle → String
  | .positional => "Positional"
  | .dollar => "Dollar"
  | .atIndexed => "AtIndexed"
  | .namedAt => "NamedAt"
  | .namedColon => "NamedColon"

def ConfigFault.message : ConfigFault → String
  | .notToml => "<toml>"
  | .emptySchema => "default_schema is empty"
  | .port text => "PORT is not a port number: '" ++ text ++ "'"
  | .recordLimit text => "RECORD_LIMIT is not a number: '" ++ text ++ "'"
  | .emptySchemaVariable => "DB_SCHEMA is empty"
  | .maxConnections text => "DB_MAX_CONNECTIONS is not a number: '" ++ text ++ "'"
  | .unknownDialect name => "unknown dialect '" ++ name ++ "'"
  | .unknownMarkers name => "unknown placeholder style '" ++ name ++ "'"
  | .unknownWindow name => "unknown pagination style '" ++ name ++ "'"
  | .namedMarkers style =>
    "placeholder style " ++ style.title ++
      " cannot be bound positionally; use it with `tablegate sql` only"
  | .noDatabase => "database_url is not set"
  | .inFile path fault => path ++ ": Configuration error: " ++ fault.message

namespace FileFault

def words : FileFault → String
  | notFound => "No such file or directory"
  | denied => "Permission denied"
  | notDirectory => "Not a directory"
  | isDirectory => "Is a directory"
  | nameTooLong => "File name too long"
  | notText => "stream did not contain valid UTF-8"

/-- The system's number of the fault; the text of a file is not the system's concern. -/
def number? : FileFault → Option Nat
  | notFound => some 2
  | denied => some 13
  | notDirectory => some 20
  | isDirectory => some 21
  | nameTooLong => some 36
  | notText => none

def ofNumber? (n : Nat) : Option FileFault :=
  [notFound, denied, notDirectory, isDirectory, nameTooLong].find? (·.number? = some n)

def message (f : FileFault) : String :=
  match f.number? with
  | some n => f.words ++ " (os error " ++ toString n ++ ")"
  | none => f.words

def isAbsence : FileFault → Bool
  | notFound | notDirectory | nameTooLong => true
  | _ => false

end FileFault

namespace Failure

def message : Failure → String
  | .filterSyntax raw => "Invalid filter format: '" ++ raw ++ "'"
  | .unknownOperator token =>
    "Unknown operator: '" ++ token ++
      "'. Expected one of: eq, neq, gt, lt, gte, lte, like, nlike, in, nin"
  | .shape fault => "Invalid statement: " ++ fault.message
  | .parameter key value => "Invalid value for '" ++ key.word ++ "': '" ++ value ++ "'"
  | .body fault => "Invalid request body: " ++ fault.message
  | .connection message => "Connection error: " ++ message
  | .execution message => "Execution error: " ++ message
  | .config fault => "Configuration error: " ++ fault.message
  | .file fault => "IO error: " ++ fault.message

/-- The HTTP status: 400 for what the client can mend, 503 where a retry may help, else 500. -/
def status : Failure → Nat
  | .filterSyntax _ | .unknownOperator _ | .shape _ | .parameter .. | .body _ => 400
  | .connection _ => 503
  | .execution _ | .config _ | .file _ => 500

def code : Failure → String
  | .filterSyntax _ => "FILTER_SYNTAX"
  | .unknownOperator _ => "UNKNOWN_OPERATOR"
  | .shape _ => "INVALID_STATEMENT"
  | .parameter .. => "INVALID_PARAMETER"
  | .body _ => "INVALID_BODY"
  | .connection _ => "CONNECTION_ERROR"
  | .execution _ => "EXECUTION_ERROR"
  | .config _ => "CONFIG_ERROR"
  | .file _ => "IO_ERROR"

def isClientFault (f : Failure) : Bool := f.status < 500

end Failure

end RestSql
