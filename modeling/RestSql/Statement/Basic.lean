import RestSql.Sql.Convention
import RestSql.Sql.Value
import RestSql.Text.Quoted

/-!
Statements in pieces. A piece is fixed text, an identifier, a parameter marker or a number, so what
a request supplies enters a statement only as an identifier or behind a marker.
-/

namespace RestSql

/-- A value bound to a marker; the name is there in the named marker styles. -/
structure Param where
  name : Option String
  value : Value
deriving DecidableEq, Repr

structure Statement where
  text : String
  params : List Param
deriving DecidableEq, Repr

inductive Piece
  | word (text : String)
  | ident (name : String)
  | marker (position : Nat) (label : String)
  | number (n : Nat)
deriving DecidableEq, Repr

def Dialect.quote (d : Dialect) (name : String) : String :=
  String.ofList (Text.Quoted.write d.delimiters.1 d.delimiters.2 name.toList)

namespace Piece

def text (c : Convention) : Piece → String
  | word t => t
  | ident n => c.dialect.quote n
  | marker position label => c.markers.render position label
  | number n => toString n

def render (c : Convention) (pieces : List Piece) : String :=
  String.ofList (pieces.flatMap fun p => (p.text c).toList)

def separated (separator : String) (parts : List (List Piece)) : List Piece :=
  List.intercalate [word separator] parts

def names (ns : List String) : List Piece := separated ", " (ns.map fun n => [ident n])

end Piece

end RestSql
