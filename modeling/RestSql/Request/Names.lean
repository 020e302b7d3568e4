import RestSql.Request.Basic

namespace RestSql

def Operator.ofToken (token : String) : Except Failure Operator :=
  (ofToken? token).elim (.error (.unknownOperator token)) .ok

def Operator.ofSql (sql : String) : Except Failure Operator :=
  (ofSql? sql).elim (.error (.unknownOperator sql)) .ok

/-- The failure tells the name in lower case, as it was looked for. -/
def Dialect.ofAlias (name : String) : Except Failure Dialect :=
  (ofAlias? name).elim (.error (.config (.unknownDialect (asciiLower name)))) .ok

def MarkerStyle.ofAlias (name : String) : Except Failure MarkerStyle :=
  (ofAlias? name).elim (.error (.config (.unknownMarkers name))) .ok

def WindowStyle.ofName (name : String) : Except Failure WindowStyle :=
  (ofName? name).elim (.error (.config (.unknownWindow name))) .ok

end RestSql
