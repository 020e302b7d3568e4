/-!
A convention fixes how statements are spelled for a server: its dialect quotes identifiers, and it
says how parameters are marked, where the row window stands, which schema an unqualified table is
in, and whether filter values are bound as typed literals.
-/

namespace RestSql

inductive Dialect
  | sqlServer | postgres | sqlite
deriving DecidableEq, Repr

/-- How a parameter is marked: `?`, `$1`, `@p1`, `@name` or `:name`. -/
inductive MarkerStyle
  | positional | dollar | atIndexed | namedAt | namedColon
deriving DecidableEq, Repr

/-- Where the row window stands: `LIMIT n OFFSET m` or `OFFSET m ROWS FETCH NEXT n ROWS ONLY` at the
end, or `TOP (n)` in front, which has no offset. -/
inductive WindowStyle
  | limitOffset | offsetFetch | top
deriving DecidableEq, Repr

structure Convention where
  dialect : Dialect
  schema : String
  markers : MarkerStyle
  window : WindowStyle
  typedFilters : Bool
deriving DecidableEq, Repr

namespace Dialect

def all : List Dialect := [sqlServer, postgres, sqlite]

def name : Dialect → String
  | sqlServer => "sql-server"
  | postgres => "postgres"
  | sqlite => "sqlite"

def ofName? (name : String) : Option Dialect := all.find? (·.name = name)

def asciiLower (s : String) : String := String.ofList (s.toList.map Char.toLower)

def ofAlias? (s : String) : Option Dialect :=
  let s := asciiLower s
  if s = "sql-server" || s = "sqlserver" || s = "mssql" then some sqlServer
  else if s = "postgres" || s = "postgresql" || s = "pg" then some postgres
  else if s = "sqlite" then some sqlite
  else none

def ofUrl? (url : String) : Option Dialect :=
  if url.toList.contains ':' then
    let scheme := String.ofList (url.toList.takeWhile (· ≠ ':'))
    if scheme = "postgres" || scheme = "postgresql" then some postgres
    else if scheme = "sqlite" then some sqlite
    else if scheme = "mssql" || scheme = "sqlserver" then some sqlServer
    else none
  else none

def delimiters : Dialect → Char × Char
  | sqlServer => ('[', ']')
  | postgres | sqlite => ('\x22', '\x22')

def convention : Dialect → Convention
  | sqlServer => ⟨sqlServer, "dbo", .atIndexed, .offsetFetch, false⟩
  | postgres => ⟨postgres, "public", .dollar, .limitOffset, true⟩
  | sqlite => ⟨sqlite, "main", .positional, .limitOffset, false⟩

end Dialect

namespace MarkerStyle

def all : List MarkerStyle := [positional, dollar, atIndexed, namedAt, namedColon]

def name : MarkerStyle → String
  | positional => "positional"
  | dollar => "dollar"
  | atIndexed => "at-indexed"
  | namedAt => "named-at"
  | namedColon => "named-colon"

def ofName? (name : String) : Option MarkerStyle := all.find? (·.name = name)

/-- A name, or the sign that begins such a marker where one style alone has it. -/
def ofAlias? (s : String) : Option MarkerStyle :=
  if s = "?" then some positional
  else if s = "$" then some dollar
  else if s = "@" then some namedAt
  else if s = ":" then some namedColon
  else ofName? s

def isNamed : MarkerStyle → Bool
  | namedAt | namedColon => true
  | _ => false

def render (style : MarkerStyle) (position : Nat) (label : String) : String :=
  match style with
  | positional => "?"
  | dollar => "$" ++ toString position
  | atIndexed => "@p" ++ toString position
  | namedAt => "@" ++ label
  | namedColon => ":" ++ label

end MarkerStyle

namespace WindowStyle

def all : List WindowStyle := [limitOffset, offsetFetch, top]

def name : WindowStyle → String
  | limitOffset => "limit-offset"
  | offsetFetch => "offset-fetch"
  | top => "top"

def ofName? (name : String) : Option WindowStyle := all.find? (·.name = name)

end WindowStyle

/-- Brackets, schema `dbo`, positional markers and a window at the end. -/
def Convention.standard : Convention := ⟨.sqlServer, "dbo", .positional, .limitOffset, false⟩

end RestSql
