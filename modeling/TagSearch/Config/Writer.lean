import TagSearch.Config.Basic
import TagSearch.Number.Integer
import TagSearch.Toml.Writer

/-!
# Writing the configuration

Every setting is written, defaults included; what may be unset is left out while it is. Numbers must
fit into 64 bits with a sign.
-/

namespace TagSearch.Config

open Number

/-- A number, if it can be written. -/
def writeNat? (n : Nat) : Option Toml :=
  if (n : Int) ≤ maxInt64 then some (.int n) else none

/-- A list of texts. -/
def writeTexts (ts : List Text) : Toml :=
  .array (ts.map .str)

/-- The entry of a key that may be unset. -/
def optional {α : Type} (key : String) (write : α → Option Toml) :
    Option α → Option (List (Text × Toml))
  | some a => (write a).map fun v => [(key.toList, v)]
  | none => some []

/-- The query settings as a table. -/
def settingsToToml? (s : Settings) : Option (List (Text × Toml)) := do
  let wildcardLimit ← optional "wildcard_limit" writeNat? s.wildcardLimit
  return [
    ("max_tags".toList, ← writeNat? s.maxTags),
    ("free_tags_count".toList, ← writeNat? s.freeTags),
    ("depth_limit".toList, ← writeNat? s.depthLimit),
    ("process_groups".toList, .bool s.processGroups),
    ("resolve_aliases".toList, .bool s.resolveAliases),
    ("return_with_data".toList, .bool s.returnWithData),
    ("error_on_depth_exceeded".toList, .bool s.failOnDepth),
    ("count_error_on_depth_exceeded".toList, .bool s.failOnCountDepth),
    ("hoisted_metatags".toList, writeTexts s.hoistedNames),
    ("unlimited_tags".toList, writeTexts s.unlimited)] ++ wildcardLimit

/-- The configuration as a document. -/
def toToml? (config : Config) : Option (List (Text × Toml)) := do
  let query ← settingsToToml? config.query
  let aliasesFile ← optional "aliases_file" (some ∘ .str) config.aliasesFile
  let referenceFile ← optional "reference_file" (some ∘ .str) config.referenceFile
  return aliasesFile ++ referenceFile ++ [
    ("always_show_deleted".toList, .bool config.alwaysShowDeleted),
    ("cache_ttl_secs".toList, ← writeNat? config.cacheSeconds),
    ("query".toList, .table query)]

/-- The text of a configuration file. -/
def save (config : Config) : Except Failure Text :=
  match toToml? config with
  | some document => .ok (Toml.write document)
  | none => .error .unwritable

end TagSearch.Config
