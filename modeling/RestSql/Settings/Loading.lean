import RestSql.Settings.Document
import RestSql.Settings.Environment

namespace RestSql.Settings

/-- The file that holds the configuration: the one that is named, which has to be there, or the
default one, which need not. It is given with its text. -/
def file (read : String → Except FileFault String) (named default : Option String) :
    Except FileFault (Option (String × String)) :=
  match named, default with
  | some path, _ => (read path).map fun text => some (path, text)
  | none, none => .ok none
  | none, some path =>
    match read path with
    | .ok text => .ok (some (path, text))
    | .error fault => if fault.isAbsence then .ok none else .error fault

def ofEnvironment (s : Settings) (env : Environment) : Except ConfigFault Settings :=
  match s.applyEnvironment env with
  | (s, none) => .ok s
  | (_, some fault) => .error fault

/-- The environment counts more than the file. -/
def load (file : Option (String × String)) (env : Environment) : Except ConfigFault Settings := do
  match file with
  | none => standard.ofEnvironment env
  | some (path, text) => (← ofFile path text).ofEnvironment env

end RestSql.Settings
