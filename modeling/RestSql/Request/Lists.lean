import RestSql.Request.Basic
import RestSql.Text.Blank
import RestSql.Text.Split

namespace RestSql

open RestSql.Text

def listPieces (cs : List Char) : List (List Char) :=
  ((splitOn ',' cs).map trim).filter (!·.isEmpty)

/-- The columns of a select list; a star alone, or nothing, asks for all of them. -/
def columnsOfText (raw : String) : List String :=
  let cs := trim raw.toList
  if cs = [] || cs = ['*'] then [] else (listPieces cs).map String.ofList

def Direction.ofWord? (cs : List Char) : Option Direction :=
  let w := cs.map Char.toLower
  if w = ['a', 's', 'c'] then some .ascending
  else if w = ['d', 'e', 's', 'c'] then some .descending
  else none

namespace OrderItem

/-- A direction stands after the last point, with something before it; otherwise the whole text is
the identifier. -/
def ofText (cs : List Char) : OrderItem :=
  match cutLast? '.' cs with
  | some (identifier, word) =>
    match Direction.ofWord? word with
    | some d =>
      if identifier = [] then ⟨String.ofList cs, none⟩ else ⟨String.ofList identifier, some d⟩
    | none => ⟨String.ofList cs, none⟩
  | none => ⟨String.ofList cs, none⟩

def listOfText (raw : String) : List OrderItem := (listPieces raw.toList).map ofText

end OrderItem

end RestSql
