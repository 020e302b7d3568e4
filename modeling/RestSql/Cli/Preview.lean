import RestSql.Cli.Invocation
import RestSql.Cli.Report
import RestSql.Settings.Basic

namespace RestSql.Cli.Preview

/-- A dialect that is asked for takes the place of the whole convention of the settings; the other
parts take their places in what that leaves. -/
def convention (p : Preview) (s : Settings) : Convention :=
  let base := (p.dialect.map Dialect.convention).getD s.effectiveConvention
  { base with
    markers := p.markers.getD base.markers
    window := p.window.getD base.window
    schema := p.schema.getD base.schema }

def mapping (p : Preview) (s : Settings) : Mapping := ⟨p.convention s, s.policy⟩

/-- A body is read whatever the method, and null where there is none. -/
def bodyJson (p : Preview) : Except Trouble Json :=
  match p.body with
  | none => .ok .null
  | some text =>
    match Json.ofText? text with
    | some v => .ok v
    | none => .error (.body .notJson)

def request (p : Preview) (m : Mapping) (body : Json) : Except Trouble Request :=
  match p.method with
  | .get => (m.read p.target p.query).mapError .refused
  | .post => (m.insert p.target body).mapError .refused
  | .patch | .put => (m.update p.target p.query body).mapError .refused
  | .delete => (m.delete p.target p.query).mapError .refused
  | .rpc => do
    let b ← (RoutineBody.ofCall body).mapError fun f => .body (.form f)
    (m.call p.target b).mapError .refused

def statement (p : Preview) (s : Settings) : Except Trouble Statement := do
  let body ← p.bodyJson
  let r ← p.request (p.mapping s) body
  ((p.mapping s).compile r).mapError .refused

def print (colours : Bool) (p : Preview) (s : Statement) : String :=
  if p.asJson then s.toJson.pretty ++ "\n" else listing colours s

def report (colours : Bool) (p : Preview) (s : Settings) : Report :=
  match p.statement s with
  | .ok statement => .ofOutput (p.print colours statement)
  | .error t => .ofTrouble colours "" t

end RestSql.Cli.Preview
