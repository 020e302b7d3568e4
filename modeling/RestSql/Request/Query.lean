import RestSql.Failure
import RestSql.Text.Blank
import RestSql.Text.Numeral

/-!
What a request says in its query string. Filters add up; of any other key the last pair counts, and
unknown keys count for nothing.
-/

namespace RestSql

structure Query where
  select : Option String
  order : Option String
  filters : List String
  limit : Option String
  offset : Option String
deriving DecidableEq, Repr

namespace Query

def empty : Query := ⟨none, none, [], none, none⟩

def add (q : Query) (pair : String × String) : Query :=
  match pair with
  | ("select", v) => { q with select := some v }
  | ("order", v) => { q with order := some v }
  | ("filters", v) => { q with filters := q.filters ++ [v] }
  | ("limit", v) => { q with limit := some v }
  | ("offset", v) => { q with offset := some v }
  | _ => q

def ofPairs (pairs : List (String × String)) : Query := pairs.foldl add empty

end Query

/-- The number of rows in a query value; a blank value is as good as none. -/
def CountKey.read (key : CountKey) : Option String → Except Failure (Option Nat)
  | none => .ok none
  | some raw =>
    let text := Text.trimmed raw
    if text = "" then .ok none
    else
      match Text.count? Text.countBound text with
      | some n => .ok (some n)
      | none => .error (.parameter key text)

end RestSql
