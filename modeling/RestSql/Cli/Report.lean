import RestSql.Cli.Style
import RestSql.Statement.Document

namespace RestSql.Cli

structure Report where
  code : Nat
  output : String
  errors : String
deriving DecidableEq, Repr

inductive Trouble
  | loading (failure : Failure)
  | body (fault : BodyFault)
  | refused (failure : Failure)
deriving Repr

/-- The message with those of its causes; a failure to read a file has a cause of its own. -/
def causes : Failure → String
  | .file fault => (Failure.file fault).message ++ ": " ++ fault.message
  | f => f.message

def Trouble.message : Trouble → String
  | .loading f => "loading configuration: " ++ causes f
  | .body fault => "parsing --body: " ++ fault.message
  | .refused f => causes f

namespace Report

def ofOutput (output : String) : Report := ⟨0, output, ""⟩

def ofTrouble (colours : Bool) (output : String) (t : Trouble) : Report :=
  ⟨1, output, Style.trouble.paint colours "Error:" ++ " " ++ t.message ++ "\n"⟩

def usage : Report :=
  ⟨2, "", "usage: tablegate [-c FILE] (serve | sql METHOD TARGET | operators) [OPTION]...\n"⟩

end Report

def title (colours : Bool) : String := Style.title.paint colours "tablegate" ++ "\n"

/-! ## The operator table -/

def padded (width : Nat) (s : String) : String :=
  s ++ String.ofList (List.replicate (width - s.length) ' ')

/-- A row of three columns, the first two of them as wide as their longest cells. -/
def tableRow (token sql sample : String → String) (cells : String × String × String) : String :=
  token (padded 8 cells.1) ++ " " ++ sql (padded 10 cells.2.1) ++ " " ++ sample cells.2.2 ++ "\n"

def sampleFilter (op : Operator) : String :=
  if op.isPattern then "name=" ++ op.token ++ ".proj%"
  else if op.isMembership then "id=" ++ op.token ++ ".7"
  else "age=" ++ op.token ++ ".18"

def operatorTable (colours : Bool) : String :=
  let head := Style.column.paint colours
  Style.title.paint colours "tablegate Filter Operators" ++ "\n\n" ++
    tableRow head head head ("Token", "SQL", "Example") ++
    Style.sample.paint colours (String.ofList (List.replicate 50 '─')) ++ "\n" ++
    String.join (Operator.all.map fun op =>
      tableRow (Style.title.paint colours) (Style.value.paint colours) (Style.sample.paint colours)
        (op.token, op.sql, sampleFilter op))

/-! ## Statements -/

def bindingLine (colours : Bool) (position : Nat) (p : Param) : String :=
  "  " ++ p.name.getD ("#" ++ toString position) ++ " = " ++
    Style.value.paint colours p.value.literal ++ "\n"

def bindingLines (colours : Bool) (position : Nat) : List Param → String
  | [] => ""
  | p :: ps => bindingLine colours position p ++ bindingLines colours (position + 1) ps

def listing (colours : Bool) (s : Statement) : String :=
  Style.result.paint colours "Generated SQL:" ++ "\n" ++ Style.code.paint colours s.text ++ "\n" ++
    if s.params.isEmpty then ""
    else "\n" ++ Style.label.paint colours "Bindings:" ++ "\n" ++ bindingLines colours 1 s.params

end RestSql.Cli
