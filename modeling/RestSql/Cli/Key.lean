namespace RestSql.Cli

inductive Key
  | version | config
  | databaseUrl | bindAddress | allowUnfilteredWrites
  | filter | select | order | limit | offset | body | dialect | markers | window | schema | asJson
deriving DecidableEq, Repr

namespace Key

def name : Key → String
  | version => "version"
  | config => "config"
  | databaseUrl => "database-url"
  | bindAddress => "bind"
  | allowUnfilteredWrites => "allow-unfiltered-writes"
  | filter => "filter"
  | select => "select"
  | order => "order"
  | limit => "limit"
  | offset => "offset"
  | body => "body"
  | dialect => "dialect"
  | markers => "placeholders"
  | window => "pagination"
  | schema => "schema"
  | asJson => "json"

def letter? : Key → Option Char
  | version => some 'V'
  | config => some 'c'
  | bindAddress => some 'b'
  | filter => some 'f'
  | select => some 's'
  | order => some 'o'
  | limit => some 'l'
  | body => some 'b'
  | _ => none

def isFlag : Key → Bool
  | version | allowUnfilteredWrites | asJson => true
  | _ => false

def isRepeatable (k : Key) : Bool := k = filter

/-- The options before the command's name. -/
def leading : List Key := [version, config]

def serving : List Key := [config, databaseUrl, bindAddress, allowUnfilteredWrites]

def previewing : List Key :=
  [config, filter, select, order, limit, offset, body, dialect, markers, window, schema, asJson]

def listing : List Key := [config]

end Key

end RestSql.Cli
