import TagSearch.Config.Basic
import TagSearch.Config.Convert
import TagSearch.Toml.Reader

/-!
# Reading the configuration

A configuration comes from a file and from environment variables, which come second and so win.
Both are merged into one table; the configuration is read from it, with defaults for what is not
there. Unknown keys are passed over.
-/

namespace TagSearch.Config

open Text Number

/-! ## Merging -/

/-- Replaces the value at a key, or adds it. -/
def replace (key : Text) (value : Toml) : List (Text × Toml) → List (Text × Toml)
  | [] => [(key, value)]
  | (k, v) :: rest => if k = key then (k, value) :: rest else (k, v) :: replace key value rest

/-- The table at a key; empty if there is none. -/
def tableAt (key : Text) (entries : List (Text × Toml)) : List (Text × Toml) :=
  match Toml.lookup? key entries with
  | some (.table inner) => inner
  | _ => []

mutual

/-- Puts a value at a key: tables are merged, everything else is replaced. -/
def put (entries : List (Text × Toml)) (key : Text) : Toml → List (Text × Toml)
  | .table incoming => replace key (.table (putAll (tableAt key entries) incoming)) entries
  | value => replace key value entries

/-- Puts several values at their keys. -/
def putAll (entries : List (Text × Toml)) : List (Text × Toml) → List (Text × Toml)
  | [] => entries
  | (key, value) :: rest => putAll (put entries key value) rest

end

/-- Puts a value at the end of a path of keys; tables on the way are added. -/
def putPath (value : Toml) : List Text → List (Text × Toml) → List (Text × Toml)
  | [], entries => entries
  | [key], entries => put entries key value
  | key :: path, entries =>
    replace key (.table (putPath value path (tableAt key entries))) entries

/-- The path that a key denotes: its parts between dots, if they are plain names. -/
def keyPath (key : Text) : List Text :=
  let parts := key.splitOn '.'
  let isPlain := fun part : Text =>
    !part.isEmpty && part.all fun c => c.isAlphanum || c == '_' || c == '-'
  if parts.all isPlain then parts else [key]

/-- Merges the entries of a source. -/
def merge (entries source : List (Text × Toml)) : List (Text × Toml) :=
  source.foldl (fun entries (key, value) => putPath value (keyPath key) entries) entries

/-! ## Environment variables -/

/-- What the names of the variables start with. -/
def variableStart : Text := "tagq__".toList

/-- Two underscores in a row become a dot. -/
def dotted : Text → Text
  | '_' :: '_' :: rest => '.' :: dotted rest
  | c :: rest => c :: dotted rest
  | [] => []

/-- Reads a float, infinities and the like included. -/
def readAnyFloat? (t : Text) : Option Float :=
  match readNumeral? t with
  | some n => some n.toFloat
  | none =>
    let (negative, body) := takeSign t
    let word := asciiLowercase body
    if word == "inf".toList || word == "infinity".toList then
      some (if negative then -1.0 / 0.0 else 1.0 / 0.0)
    else if word == "nan".toList then some (0.0 / 0.0)
    else none

/-- The value of a variable: a flag or a number if it reads as one. -/
def variableValue (t : Text) : Toml :=
  let word := t.lowercase
  if word == "true".toList then .bool true
  else if word == "false".toList then .bool false
  else match readInt? t, readAnyFloat? t with
    | some n, _ => .int n
    | none, some x => .float x
    | none, none => .str t

/-- The key and the value that a variable sets, if its name has the right start. -/
def entryOf? (name value : Text) : Option (Text × Toml) :=
  (dropStart? variableStart name.lowercase).map fun key => (dotted key, variableValue value)

/-- What environment variables set. -/
def ofVariables (vars : List (Text × Text)) : List (Text × Toml) :=
  vars.filterMap fun (name, value) => entryOf? name value

/-! ## Reading -/

/-- Reads the query settings. -/
def settings? (value : Toml) : Option Settings := do
  if !value.isRecord then none
  else
    let d : Settings := {}
    let maxTags ← value.memberOr? 0 "max_tags" nat? d.maxTags
    let freeTags ← value.memberOr? 1 "free_tags_count" nat? d.freeTags
    let depthLimit ← value.memberOr? 2 "depth_limit" nat? d.depthLimit
    let processGroups ← value.memberOr? 3 "process_groups" bool? d.processGroups
    let resolveAliases ← value.memberOr? 4 "resolve_aliases" bool? d.resolveAliases
    let returnWithData ← value.memberOr? 5 "return_with_data" bool? d.returnWithData
    let failOnDepth ← value.memberOr? 6 "error_on_depth_exceeded" bool? d.failOnDepth
    let failOnCountDepth ←
      value.memberOr? 7 "count_error_on_depth_exceeded" bool? d.failOnCountDepth
    let hoistedNames ← value.memberOr? 8 "hoisted_metatags" texts? d.hoistedNames
    let unlimited ← value.memberOr? 9 "unlimited_tags" texts? d.unlimited
    let wildcardLimit ←
      value.memberOr? 10 "wildcard_limit" (fun v => (nat? v).map some) d.wildcardLimit
    return {
      maxTags, freeTags, depthLimit, processGroups, resolveAliases, returnWithData, failOnDepth,
      failOnCountDepth, hoistedNames, unlimited, wildcardLimit }

/-- Reads a configuration from the members of a table. -/
def ofToml? (entries : List (Text × Toml)) : Option Config := do
  let root := Toml.table entries
  let query ← root.memberOr? 0 "query" settings? {}
  let aliasesFile ← root.memberOr? 1 "aliases_file" (fun v => (text? v).map some) none
  let referenceFile ← root.memberOr? 2 "reference_file" (fun v => (text? v).map some) none
  let alwaysShowDeleted ← root.memberOr? 3 "always_show_deleted" bool? false
  let cacheSeconds ← root.memberOr? 4 "cache_ttl_secs" nat? 300
  return { query, aliasesFile, referenceFile, alwaysShowDeleted, cacheSeconds }

/-- Reads a configuration from the text of its file, if there is one, and environment variables. -/
def load (vars : List (Text × Text)) (file : Option Text) : Except Failure Config :=
  match file with
  | none => .error .missing
  | some t =>
    match (Toml.read? t).bind fun document => ofToml? (merge (merge [] document)
        (ofVariables vars)) with
    | some config => .ok config
    | none => .error .malformed

end TagSearch.Config
