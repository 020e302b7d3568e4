/-!
Delimited text: a closing delimiter inside the text is written twice, and a single one ends it.
SQL identifiers and SQL string literals are both written this way.
-/

namespace RestSql.Text.Quoted

def doubled (close : Char) : List Char → List Char
  | [] => []
  | c :: cs => if c = close then close :: close :: doubled close cs else c :: doubled close cs

def write (opening close : Char) (cs : List Char) : List Char :=
  opening :: (doubled close cs ++ [close])

/-- What follows an opening delimiter: the text up to the first closing delimiter that is not
doubled, and what comes after it. -/
def readBody? (close : Char) : List Char → Option (List Char × List Char)
  | [] => none
  | [c] => if c = close then some ([], []) else none
  | c :: d :: cs =>
    if c = close then
      if d = close then (readBody? close cs).map fun p => (close :: p.1, p.2)
      else some ([], d :: cs)
    else (readBody? close (d :: cs)).map fun p => (c :: p.1, p.2)

def read? (opening close : Char) : List Char → Option (List Char × List Char)
  | [] => none
  | c :: cs => if c = opening then readBody? close cs else none

end RestSql.Text.Quoted
