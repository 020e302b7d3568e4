import RestSql.Http.Message
import RestSql.Text.Percent
import RestSql.Text.Split

/-!
Routes are found in the raw path: a literal segment goes before a parameter, a parameter is one
segment that is not empty, and escapes are decoded afterwards.
-/

namespace RestSql.Http

inductive Route
  | health
  /-- `/rpc/` and a routine. -/
  | routine (raw : List Char)
  | table (raw : List Char)
deriving DecidableEq, Repr

namespace Route

def ofPath? (path : String) : Option Route :=
  match Text.splitOn '/' path.toList with
  | [[], segment] =>
    if segment.isEmpty then none
    else if String.ofList segment = "health" then some .health
    else some (.table segment)
  | [[], first, segment] =>
    if String.ofList first = "rpc" && !segment.isEmpty then some (.routine segment) else none
  | _ => none

def methods : Route → List String
  | .health => ["GET", "HEAD"]
  | .routine _ => ["POST"]
  | .table _ => ["GET", "HEAD", "POST", "PATCH", "PUT", "DELETE"]

def allow (r : Route) : String := String.intercalate "," r.methods

/-- Whether the answer to a method depends on the request's body. -/
def readsBody : Route → String → Bool
  | .health, _ => false
  | .routine _, _ => true
  | .table _, method => ["POST", "PATCH", "PUT"].contains method

def decodeParameter? (raw : List Char) : Option String :=
  Text.Utf8.decode? (Text.Percent.decode (Text.Utf8.encode (String.ofList raw)))

end Route

end RestSql.Http
