import RestSql.Text.Blank

namespace RestSql

inductive Operator
  | eq | neq | gt | lt | gte | lte | like | notLike | among | notAmong
deriving DecidableEq, Repr

namespace Operator

def all : List Operator := [eq, neq, gt, lt, gte, lte, like, notLike, among, notAmong]

def token : Operator → String
  | eq => "eq"
  | neq => "neq"
  | gt => "gt"
  | lt => "lt"
  | gte => "gte"
  | lte => "lte"
  | like => "like"
  | notLike => "nlike"
  | among => "in"
  | notAmong => "nin"

def sql : Operator → String
  | eq => "="
  | neq => "<>"
  | gt => ">"
  | lt => "<"
  | gte => ">="
  | lte => "<="
  | like => "LIKE"
  | notLike => "NOT LIKE"
  | among => "IN"
  | notAmong => "NOT IN"

/-- Membership takes its operand in parentheses. -/
def isMembership : Operator → Bool
  | among | notAmong => true
  | _ => false

/-- The operand is a pattern, which is text whatever it looks like. -/
def isPattern : Operator → Bool
  | like | notLike => true
  | _ => false

def ofToken? (token : String) : Option Operator := all.find? (·.token = token)

def lower (cs : List Char) : List Char := cs.map Char.toLower

/-- SQL text matches with any blanks between its words and in any ASCII case, and `!=` is another
spelling of `<>`. -/
def ofSql? (sql : String) : Option Operator :=
  let words := List.intercalate [' '] (Text.words sql.toList)
  if words = ['!', '='] then some neq
  else all.find? fun op => lower op.sql.toList = lower words

end Operator

end RestSql
