import RestSql.Http.Route
import RestSql.Request.Mapping
import RestSql.Version

/-!
The service: what it does with a request, as a tree of answers and calls of the database engine, and
how such a tree is run. Everything but the calls is settled without the engine.
-/

namespace RestSql

inductive EngineFault
  | connection (message : String)
  | execution (message : String)
deriving DecidableEq, Repr

def EngineFault.failure : EngineFault → Failure
  | .connection m => .connection m
  | .execution m => .execution m

namespace Http

/-- An answer, or a statement to be run with what follows on its result. A statement is run for its
rows or for the number of rows it changed. -/
inductive Action
  | answer (r : Response)
  | fetch (s : Statement) (next : Except EngineFault (List Json) → Action)
  | execute (s : Statement) (next : Except EngineFault Nat → Action)

def Action.run {m : Type → Type} [Monad m] (fetch : Statement → m (Except EngineFault (List Json)))
    (execute : Statement → m (Except EngineFault Nat)) : Action → m Response
  | .answer r => pure r
  | .fetch s next => do (next (← fetch s)).run fetch execute
  | .execute s next => do (next (← execute s)).run fetch execute

def Action.mapAnswer (f : Response → Response) : Action → Action
  | .answer r => .answer (f r)
  | .fetch s next => .fetch s fun x => (next x).mapAnswer f
  | .execute s next => .execute s fun x => (next x).mapAnswer f

structure Service where
  mapping : Mapping
  /-- Answers may be read by pages from any origin. -/
  crossOrigin : Bool
deriving Repr

def isBlankByte (b : UInt8) : Bool := b == 0x20 || b == 0x09 || b == 0x0A || b == 0x0C || b == 0x0D

def bodyBound : Nat := 2097152

/-- A body of blanks alone is null. -/
def bodyJson (bytes : List UInt8) : Except Failure Json :=
  if bytes.all isBlankByte then .ok .null
  else
    match (Text.Utf8.decode? bytes).bind Json.ofText? with
    | some v => .ok v
    | none => .error (.body .notJson)

def healthResponse : Response :=
  .json 200 (.object [("status", .string "ok"), ("version", .string version)])

def rowsAffected (status n : Nat) : Response :=
  .json status (.object [("rowsAffected", .ofNat n)])

def fetchRows (s : Statement) : Action :=
  .fetch s fun
    | .ok rows => .answer (.json 200 (.array rows))
    | .error e => .answer (.ofFailure e.failure)

def executeRows (status : Nat) (s : Statement) : Action :=
  .execute s fun
    | .ok n => .answer (rowsAffected status n)
    | .error e => .answer (.ofFailure e.failure)

def Action.ofExcept : Except Failure Action → Action
  | .ok a => a
  | .error f => .answer (.ofFailure f)

namespace Service

/-- The body is read before anything else is looked at. -/
def request (m : Mapping) (route : Route) (target method : String) (q : Query)
    (body : List UInt8) : Except Failure RestSql.Request :=
  match route, method with
  | .routine _, _ => do m.callJson target (← bodyJson body)
  | _, "POST" => do m.insert target (← bodyJson body)
  | _, "PATCH" | _, "PUT" => do m.update target q (← bodyJson body)
  | _, "DELETE" => m.delete target q
  | _, _ => m.read target q

def handle (m : Mapping) (route : Route) (target method : String) (q : Query)
    (body : List UInt8) : Action :=
  .ofExcept do
    let r ← request m route target method q body
    let s ← m.compile r
    return match r with
      | .insert .. => executeRows 201 s
      | r => if r.returnsRows then fetchRows s else executeRows 200 s

/-- A parameter is decoded before the handler sees the request. -/
def withParameter (label : String) (raw : List Char) (handler : String → Action) : Action :=
  match Route.decodeParameter? raw with
  | some target => handler target
  | none => .answer (.text 400 ("Invalid URL: Invalid UTF-8 in `" ++ label ++ "`"))

def serve (m : Mapping) (route : Route) (target : String) (r : Request) : Action :=
  if route.readsBody r.method && bodyBound < r.body.length then
    .answer (.text 413 "Failed to buffer the request body: length limit exceeded")
  else
    let q := Query.ofPairs (Text.Percent.queryPairs r.target.query)
    handle m route target r.method q r.body

/-- A method that the route does not answer is told the ones it does. -/
def dispatch (service : Service) (route : Route) (r : Request) : Action :=
  if !route.methods.contains r.method then
    .answer ((Response.empty 405).withHeader "allow" route.allow)
  else
    match route with
    | .health => .answer healthResponse
    | .routine raw =>
      withParameter "routine" raw fun target => serve service.mapping route target r
    | .table raw =>
      withParameter "table" raw fun target => serve service.mapping route target r

def withoutBody (method : String) (r : Response) : Response :=
  if method = "HEAD" then { r with body := "" } else r

/-- Across origins every answer says so, and questions about methods are answered at once. -/
def act (service : Service) (r : Request) : Action :=
  let route := Route.ofPath? r.target.path
  let direct := match route with
    | some route => service.dispatch route r
    | none => .answer (.empty 404)
  let anyOrigin := fun (a : Response) => a.withHeader "access-control-allow-origin" "*"
  if !service.crossOrigin then direct.mapAnswer (withoutBody r.method)
  else if r.method = "OPTIONS" then
    let a := (anyOrigin (.empty 200)).withHeader "access-control-allow-methods" "*"
    .answer (route.elim a fun route => a.withHeader "allow" route.allow)
  else direct.mapAnswer fun a => anyOrigin (withoutBody r.method a)

end Service

end Http

end RestSql
