import RestSql.Cli.Run

namespace RestSql

def errorNumber? : IO.Error → Option Nat
  | .noFileOrDirectory _ n _ | .permissionDenied _ n _ | .inappropriateType _ n _
  | .invalidArgument _ n _ | .noSuchThing _ n _ | .resourceExhausted _ n _ => some n.toNat
  | _ => none

def readFile (path : String) : IO (Except FileFault String) := do
  match ← (IO.FS.readFile path).toBaseIO with
  | .ok text => return .ok text
  | .error e => return .error (((errorNumber? e).bind FileFault.ofNumber?).getD .notText)

def variableNames : List String :=
  ["HOME", "XDG_CONFIG_HOME", "CLICOLOR_FORCE", "NO_COLOR", "CLICOLOR"] ++
    Settings.Variable.all.map (·.name)

def surroundings (words : List String) : IO Cli.Surroundings := do
  let values ← variableNames.filterMapM fun name =>
    return (← IO.getEnv name).map fun value => (name, value)
  let environment : Settings.Environment := fun name => values.lookup name
  let texts ← (Cli.files environment words).mapM fun path => return (path, ← readFile path)
  let terminal ← (← IO.getStdout).isTty
  return ⟨fun path => (texts.lookup path).getD (.error .notFound), environment, terminal⟩

end RestSql

/-- The program has no engine, so a service that could start ends where it would connect. -/
def main (words : List String) : IO UInt32 := do
  match RestSql.Cli.run (← RestSql.surroundings words) words with
  | .done r =>
    IO.print r.output
    IO.eprint r.errors
    return r.code.toUInt32
  | .serve output _ =>
    IO.print output
    IO.eprint "Error: Connection error: there is no database engine\n"
    return 1
