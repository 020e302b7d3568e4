import RestSql.Toml.Value

/-!
The tree that a TOML document builds. A table knows whether its own header has been seen and whether
dotted keys made it, because that decides what may still be added to it.
-/

namespace RestSql.Toml

inductive Node
  | leaf (v : Value)
  /-- An implicit table has had no header of its own; a dotted one came from a dotted key. -/
  | table (isImplicit isDotted : Bool) (entries : List (String × Node))
  /-- The elements of an array of tables, in order. -/
  | tables (elements : List (List (String × Node)))
deriving Inhabited

namespace Node

abbrev Entries := List (String × Node)

def find? (entries : Entries) (key : String) : Option Node :=
  (entries.find? (·.1 = key)).map (·.2)

def replace (entries : Entries) (key : String) (n : Node) : Entries :=
  entries.map fun e => if e.1 = key then (key, n) else e

/-- Changes the table at a path. Tables that are missing on the way are made; of an array of tables
the last element is meant. Dotted keys do not go through a table that has its own header. -/
def update (dotted : Bool) (change : Bool → Entries → Option Entries) :
    List String → Bool → Entries → Option Entries
  | [], isDotted, entries => change isDotted entries
  | k :: ks, _, entries =>
    match find? entries k with
    | none =>
      (update dotted change ks dotted []).map fun es => entries ++ [(k, .table true dotted es)]
    | some (.leaf _) => none
    | some (.tables elements) =>
      match elements.getLast? with
      | none => none
      | some last =>
        (update dotted change ks false last).map fun es =>
          replace entries k (.tables (elements.dropLast ++ [es]))
    | some (.table isImplicit isDotted es) =>
      if dotted && !isImplicit then none
      else
        (update dotted change ks isDotted es).map fun es =>
          replace entries k (.table isImplicit isDotted es)

/-- Adds an entry under a dotted key; a key is defined once, and a dotted key adds to tables of
dotted keys only. -/
def assign (path : List String) (key : String) (n : Node) (isDotted : Bool) (entries : Entries) :
    Option Entries :=
  let add := fun (isDotted : Bool) (es : Entries) =>
    if isDotted == path.isEmpty || (find? es key).isSome then none else some (es ++ [(key, n)])
  update true add path isDotted entries

/-- Begins the table of a header. Its table may exist already where only headers of tables inside it
have been seen. -/
def openTable (path : List String) (entries : Entries) : Option Entries :=
  match path.getLast? with
  | none => none
  | some key =>
    let begin := fun (_ : Bool) (es : Entries) =>
      match find? es key with
      | none => some (es ++ [(key, .table false false [])])
      | some (.table true false inner) => some (replace es key (.table false false inner))
      | some _ => none
    update false begin path.dropLast false entries

def openElement (path : List String) (entries : Entries) : Option Entries :=
  match path.getLast? with
  | none => none
  | some key =>
    let begin := fun (_ : Bool) (es : Entries) =>
      match find? es key with
      | none => some (es ++ [(key, .tables [[]])])
      | some (.tables elements) => some (replace es key (.tables (elements ++ [[]])))
      | some _ => none
    update false begin path.dropLast false entries

mutual

def value : Node → Value
  | .leaf v => v
  | .table _ _ entries => .table (values entries)
  | .tables elements => .array (tableValues elements)

def values : List (String × Node) → List (String × Value)
  | [] => []
  | (k, n) :: rest => (k, n.value) :: values rest

def tableValues : List (List (String × Node)) → List Value
  | [] => []
  | es :: rest => .table (values es) :: tableValues rest

end

end Node

end RestSql.Toml
