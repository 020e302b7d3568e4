import RestSql.Cli.Preview
import RestSql.Settings.Loading
import RestSql.Version

namespace RestSql.Cli

structure Surroundings where
  read : String → Except FileFault String
  environment : Settings.Environment
  /-- The output goes to a terminal. -/
  terminal : Bool

/-- A service that nothing keeps from starting is left to be served. -/
inductive Outcome
  | done (r : Report)
  | serve (output : String) (s : Settings)
deriving Repr

def inFolder (folder name : String) : String :=
  if folder.toList.getLast? = some '/' then folder ++ name else folder ++ "/" ++ name

/-- The configuration file when no other is named: in the folder of configuration files, which is
the one that is named if its path is absolute, or the usual one in the home of the user. -/
def defaultConfig? (env : Settings.Environment) : Option String :=
  let named := (env "XDG_CONFIG_HOME").filter fun path => path.toList.head? = some '/'
  let home := (env "HOME").filter (· ≠ "")
  (named.or (home.map (inFolder · ".config"))).map (inFolder · "tablegate/config.toml")

namespace Surroundings

def colours (w : Surroundings) : Bool := usesColours w.environment w.terminal

def settings (w : Surroundings) (config : Option String) : Except Trouble Settings := do
  let file ← (Settings.file w.read config (defaultConfig? w.environment)).mapError fun f =>
    .loading (.file f)
  (Settings.load file w.environment).mapError fun f => .loading (.config f)

end Surroundings

def Serving.settings (o : Serving) (s : Settings) : Settings :=
  { s with
    databaseUrl := o.databaseUrl.or s.databaseUrl
    bindAddress := o.bindAddress.getD s.bindAddress
    allowUnfilteredWrites := o.allowUnfilteredWrites || s.allowUnfilteredWrites }

/-- The title is printed before a service is refused. -/
def Serving.outcome (colours : Bool) (o : Serving) (s : Settings) : Outcome :=
  match (o.settings s).servingFault? with
  | some fault => .done (.ofTrouble colours (title colours) (.refused (.config fault)))
  | none => .serve (title colours) (o.settings s)

def Command.outcome (colours : Bool) (c : Command) (settings : Except Trouble Settings) : Outcome :=
  match c, settings with
  | .operators, _ => .done (.ofOutput (operatorTable colours))
  | _, .error t => .done (.ofTrouble colours "" t)
  | .serve o, .ok s => o.outcome colours s
  | .preview p, .ok s => .done (p.report colours s)

def Invocation.outcome (i : Invocation) (w : Surroundings) : Outcome :=
  match i with
  | version => .done (.ofOutput ("tablegate " ++ RestSql.version ++ "\n"))
  | command config c => c.outcome w.colours (w.settings config)

def run (w : Surroundings) (words : List String) : Outcome :=
  match Invocation.ofWords? words with
  | some i => i.outcome w
  | none => .done .usage

def files (env : Settings.Environment) (words : List String) : List String :=
  match Invocation.ofWords? words with
  | some (.command config _) => (config.or (defaultConfig? env)).toList
  | _ => []

end RestSql.Cli
