import RestSql.Failure
import RestSql.Http.Target

namespace RestSql.Http

structure Request where
  method : String
  target : Target
  body : List UInt8
deriving Repr

namespace Request

def isMethodChar (c : Char) : Bool :=
  Target.isLetterOrDigit c || "!#$%&'*+-.^_\x60|~".toList.contains c

def ofParts? (method target : String) (body : List UInt8) : Option Request :=
  if method.isEmpty || !method.toList.all isMethodChar then none
  else (Target.ofText? target).map fun t => ⟨method, t, body⟩

end Request

structure Response where
  status : Nat
  headers : List (String × String)
  body : String
deriving DecidableEq, Repr

namespace Response

def json (status : Nat) (v : Json) : Response :=
  ⟨status, [("content-type", "application/json")], v.compact⟩

def text (status : Nat) (body : String) : Response :=
  ⟨status, [("content-type", "text/plain; charset=utf-8")], body⟩

def empty (status : Nat) : Response := ⟨status, [], ""⟩

def withHeader (r : Response) (name value : String) : Response :=
  { r with headers := r.headers ++ [(name, value)] }

def ofFailure (f : Failure) : Response :=
  json f.status (.object [("error", .string f.message), ("code", .string f.code)])

end Response

end RestSql.Http
