import RestSql.Failure
import RestSql.Request.Mapping
import RestSql.Text.Blank

namespace RestSql

structure Settings where
  databaseUrl : Option String
  bindAddress : String
  maxConnections : Nat
  crossOrigin : Bool
  /-- The limit of reads that name none; zero stands for no limit. -/
  recordLimit : Nat
  allowUnfilteredWrites : Bool
  /-- Takes the place of the convention's schema. -/
  schema : Option String
  convention : Option Convention
deriving DecidableEq, Repr

namespace Settings

def standard : Settings where
  databaseUrl := none
  bindAddress := "0.0.0.0:3000"
  maxConnections := 5
  crossOrigin := true
  recordLimit := 1000
  allowUnfilteredWrites := false
  schema := none
  convention := none

def schemasNamed (s : Settings) : Bool :=
  !s.schema.any Text.isBlankText && !s.convention.any fun c => Text.isBlankText c.schema

/-- The convention of the settings, or that of the dialect which the database's URL names. -/
def baseConvention (s : Settings) : Convention :=
  s.convention.getD (((s.databaseUrl.bind Dialect.ofUrl?).map Dialect.convention).getD .standard)

def effectiveConvention (s : Settings) : Convention :=
  { s.baseConvention with schema := s.schema.getD s.baseConvention.schema }

def defaultLimit (s : Settings) : Option Nat :=
  if 0 < s.recordLimit then some s.recordLimit else none

def policy (s : Settings) : Policy := ⟨s.defaultLimit, s.allowUnfilteredWrites⟩

def mapping (s : Settings) : Mapping := ⟨s.effectiveConvention, s.policy⟩

/-- What keeps a service from starting: markers that the engine cannot bind by position, or no
database. -/
def servingFault? (s : Settings) : Option ConfigFault :=
  if s.effectiveConvention.markers.isNamed then some (.namedMarkers s.effectiveConvention.markers)
  else if s.databaseUrl.isNone then some .noDatabase
  else none

end Settings

/-- The parts of a convention that are given; the others follow the dialect. -/
structure ConventionSection where
  dialect : Option Dialect
  schema : Option String
  markers : Option MarkerStyle
  window : Option WindowStyle
  typedFilters : Option Bool
deriving DecidableEq, Repr

def ConventionSection.convention (s : ConventionSection) : Convention :=
  let base := (s.dialect.map Dialect.convention).getD .standard
  ⟨base.dialect, s.schema.getD base.schema, s.markers.getD base.markers,
    s.window.getD base.window, s.typedFilters.getD base.typedFilters⟩

end RestSql
