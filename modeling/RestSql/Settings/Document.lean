import RestSql.Settings.Basic
import RestSql.Toml.Document

/-!
Settings from a TOML document. Keys that are not settings are passed over, but the section of the
convention holds its own keys only.
-/

namespace RestSql.Settings

def string? : Toml.Value → Option String
  | .string s => some s
  | _ => none

def boolean? : Toml.Value → Option Bool
  | .boolean b => some b
  | _ => none

def natural? (bound : Nat) : Toml.Value → Option Nat
  | .integer n => if 0 ≤ n && n < bound then some n.toNat else none
  | _ => none

/-- A name, or a table that holds nothing but the name with an empty array or table. -/
def named? {α : Type} (ofName? : String → Option α) : Toml.Value → Option α
  | .string s => ofName? s
  | .table [(s, .array [])] => ofName? s
  | .table [(s, .table [])] => ofName? s
  | _ => none

/-- An entry that may be absent but is not of the wrong kind. -/
def optional? {α : Type} (read? : Toml.Value → Option α) :
    Option Toml.Value → Option (Option α)
  | none => some none
  | some v => (read? v).map some

def sectionKeys : List String :=
  ["dialect", "default_schema", "placeholders", "pagination", "typed_filter_values"]

def sectionOf? (part : Nat → Option Toml.Value) : Option ConventionSection := do
  let dialect ← optional? (named? Dialect.ofName?) (part 0)
  let schema ← optional? string? (part 1)
  let markers ← optional? (named? MarkerStyle.ofName?) (part 2)
  let window ← optional? (named? WindowStyle.ofName?) (part 3)
  let typedFilters ← optional? boolean? (part 4)
  return ⟨dialect, schema, markers, window, typedFilters⟩

/-- The section as a table, or as an array with a value for every key in order. -/
def section? : Toml.Value → Option ConventionSection
  | .table entries =>
    if entries.all fun e => sectionKeys.contains e.1 then
      sectionOf? fun i => (sectionKeys[i]?).bind (Toml.Value.entry? entries)
    else none
  | .array items =>
    if items.length < sectionKeys.length then none else sectionOf? fun i => items[i]?
  | _ => none

def ofEntries? (entries : Toml.Entries) : Option Settings := do
  let get := fun key => Toml.Value.entry? entries key
  let databaseUrl ← optional? string? (get "database_url")
  let bindAddress ← optional? string? (get "bind_address")
  let maxConnections ← optional? (natural? (Nat.pow 2 32)) (get "max_connections")
  let crossOrigin ← optional? boolean? (get "cors_enabled")
  let recordLimit ← optional? (natural? (Nat.pow 2 64)) (get "record_limit")
  let allow ← optional? boolean? (get "allow_unfiltered_writes")
  let schema ← optional? string? (get "default_schema")
  let convention ← optional? section? (get "compiler")
  return {
    databaseUrl, schema
    bindAddress := bindAddress.getD standard.bindAddress
    maxConnections := maxConnections.getD standard.maxConnections
    crossOrigin := crossOrigin.getD standard.crossOrigin
    recordLimit := recordLimit.getD standard.recordLimit
    allowUnfilteredWrites := allow.getD standard.allowUnfilteredWrites
    convention := convention.map ConventionSection.convention }

/-- Settings with a blank schema are refused, because every table is in a schema. -/
def ofToml (text : String) : Except ConfigFault Settings :=
  match (Toml.ofText? text).bind ofEntries? with
  | none => .error .notToml
  | some s => if s.schemasNamed then .ok s else .error .emptySchema

/-- A file's text; its path goes before the fault. -/
def ofFile (path text : String) : Except ConfigFault Settings :=
  (ofToml text).mapError (.inFile path)

end RestSql.Settings
