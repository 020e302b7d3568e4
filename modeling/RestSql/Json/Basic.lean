import RestSql.Double.Basic

/-!
JSON values. An object is a list of members: values that were read have theirs in increasing order
of the names, each name once, and values that are built keep the order they are given in.
-/

namespace RestSql

/-- A number is whole and kept exactly, or a finite double. -/
inductive Json.Number
  | whole (n : Int)
  | float (x : Double)
deriving DecidableEq, Repr

inductive Json
  | null
  | bool (b : Bool)
  | number (n : Json.Number)
  | string (s : String)
  | array (items : List Json)
  | object (members : List (String × Json))
deriving Repr, Inhabited

namespace Json

/-- Puts a member in its place; one of the same name is replaced. -/
def insertMember (name : String) (value : Json) : List (String × Json) → List (String × Json)
  | [] => [(name, value)]
  | m :: ms =>
    if name < m.1 then (name, value) :: m :: ms
    else if name = m.1 then (name, value) :: ms
    else m :: insertMember name value ms

/-- The members as an object holds them: ordered by name, and of two with one name the later. -/
def ordered (members : List (String × Json)) : List (String × Json) :=
  members.foldl (fun ms m => insertMember m.1 m.2 ms) []

def member? (members : List (String × Json)) (name : String) : Option Json :=
  (members.find? (·.1 = name)).map (·.2)

def ofNat (n : Nat) : Json := .number (.whole n)

def ofOption {α : Type} (f : α → Json) : Option α → Json
  | none => .null
  | some a => f a

end Json

end RestSql
