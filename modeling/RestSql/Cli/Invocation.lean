import RestSql.Cli.Item
import RestSql.Request.Query
import RestSql.Sql.Convention

/-!
What a command line asks for. A line with an unknown, repeated or unfinished option, or with
operands that its command does not have, asks for nothing.
-/

namespace RestSql.Cli

inductive Method
  | get | post | patch | put | delete | rpc
deriving DecidableEq, Repr

namespace Method

def all : List Method := [get, post, patch, put, delete, rpc]

def name : Method → String
  | get => "get"
  | post => "post"
  | patch => "patch"
  | put => "put"
  | delete => "delete"
  | rpc => "rpc"

def ofName? (name : String) : Option Method := all.find? (·.name = name)

end Method

/-- A request whose statement is shown, and what takes the place of parts of the convention. -/
structure Preview where
  method : Method
  target : String
  query : Query
  body : Option String
  dialect : Option Dialect
  markers : Option MarkerStyle
  window : Option WindowStyle
  schema : Option String
  asJson : Bool
deriving DecidableEq, Repr

structure Serving where
  databaseUrl : Option String
  bindAddress : Option String
  allowUnfilteredWrites : Bool
deriving DecidableEq, Repr

inductive Command
  | serve (s : Serving)
  | preview (p : Preview)
  | operators
deriving DecidableEq, Repr

inductive Invocation
  | version
  | command (config : Option String) (c : Command)
deriving DecidableEq, Repr

structure Line where
  options : List (Key × String)
  operands : List String
deriving DecidableEq, Repr

namespace Line

def values (l : Line) (k : Key) : List String :=
  l.options.filterMap fun o => if o.1 = k then some o.2 else none

def value? (l : Line) (k : Key) : Option String := (l.values k).head?

def has (l : Line) (k : Key) : Bool := !(l.values k).isEmpty

/-- The path of a file is not empty. -/
def addOption? (l : Line) (k : Key) (v : String) : Option Line :=
  if (l.has k && !k.isRepeatable) || (k = .config && v = "") then none
  else some { l with options := (k, v) :: l.options }

def addOperand (l : Line) (w : String) : Line := { l with operands := w :: l.operands }

def ofItems? : List Item → Option Line
  | [] => some ⟨[], []⟩
  | .option k v :: items => do (← ofItems? items).addOption? k v
  | .word w _ :: items => return (← ofItems? items).addOperand w
  | .operand w :: items => return (← ofItems? items).addOperand w
  | .fault :: _ => none

def ofWords? (keys : List Key) (words : List String) : Option Line :=
  ofItems? (Item.ofWords keys words)

/-- An option may be absent, but it does not name what there is not. -/
def named? {α : Type} (l : Line) (k : Key) (ofName? : String → Option α) : Option (Option α) :=
  match l.value? k with
  | none => some none
  | some name => (ofName? name).map some

def query (l : Line) : Query where
  select := l.value? .select
  order := l.value? .order
  filters := l.values .filter
  limit := l.value? .limit
  offset := l.value? .offset

def serving? (l : Line) : Option Serving :=
  if l.operands.isEmpty then
    some ⟨l.value? .databaseUrl, l.value? .bindAddress, l.has .allowUnfilteredWrites⟩
  else none

def preview? (l : Line) : Option Preview := do
  let [method, target] := l.operands | none
  let method ← Method.ofName? method
  let dialect ← l.named? .dialect Dialect.ofAlias?
  let markers ← l.named? .markers MarkerStyle.ofAlias?
  let window ← l.named? .window WindowStyle.ofName?
  return {
    method, target, dialect, markers, window
    query := l.query
    body := l.value? .body
    schema := l.value? .schema
    asJson := l.has .asJson }

end Line

namespace Invocation

/-- The path behind the command's name counts more than the one before it. -/
def ofLine (config : Option String) (l : Line) (c : Command) : Invocation :=
  command ((l.value? .config).or config) c

def ofCommand? (config : Option String) (name : String) (words : List String) :
    Option Invocation :=
  match name with
  | "serve" => do
    let l ← Line.ofWords? Key.serving words
    return ofLine config l (.serve (← l.serving?))
  | "sql" => do
    let l ← Line.ofWords? Key.previewing words
    return ofLine config l (.preview (← l.preview?))
  | "operators" => do
    let l ← Line.ofWords? Key.listing words
    if l.operands.isEmpty then return ofLine config l .operators else none
  | _ => none

/-- The version is told as soon as it is asked for, whatever follows. -/
def ofItems? (config : Option String) : List Item → Option Invocation
  | .option .version _ :: _ => some version
  | .option .config path :: items =>
    if config.isSome || path = "" then none else ofItems? (some path) items
  | .word name rest :: _ => ofCommand? config name rest
  | _ => none

def ofWords? (words : List String) : Option Invocation :=
  ofItems? none (Item.ofWords Key.leading words)

end Invocation

end RestSql.Cli
