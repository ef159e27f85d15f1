import TagSearch.Pattern.Reader
import TagSearch.Query.Error
import TagSearch.Record.Basic
import TagSearch.Settings

/-!
# Compilers

A compiler holds all that turning a search into a query depends on: the settings, the lookups, the
patterns of free tokens and the current time.
-/

namespace TagSearch

/-- What searches are compiled with. -/
structure Compiler where
  settings : Settings := {}
  resolver : Resolver := {}
  /-- The patterns of tokens that are not counted. -/
  unlimited : List Pattern := []
  now : Instant

namespace Compiler

/-- Reads the patterns of free tokens. -/
def readPatterns (sources : List Text) : Except QueryError (List Pattern) :=
  sources.mapM fun source =>
    match Pattern.read? source with
    | some pattern => .ok pattern
    | none => .error (.invalidPattern source)

/-- A compiler for some settings. -/
def ofSettings (settings : Settings) (resolver : Resolver) (now : Instant) :
    Except QueryError Compiler := do
  let unlimited ← readPatterns settings.unlimited
  return { settings, resolver, unlimited, now }

/-- Whether a token is not counted. -/
def isUnlimited (c : Compiler) (token : Text) : Bool :=
  c.unlimited.any fun pattern => pattern.occursIn token

end Compiler

end TagSearch
