import Std.Time.DateTime.Timestamp
import TagSearch.Command.Run

/-!
# The command line

Carries out a session on real files, and prints what it ends with.
-/

namespace TagSearch

/-- What stands at a path. -/
def entryAt (path : Text) : IO PathEntry := do
  try
    return .file (← IO.FS.readFile path.toStr).toList
  catch
    | .noFileOrDirectory .. => return .absent
    | _ => return .unreadable

/-- The part of a path before its last slash. -/
def parentOf (path : Text) : Text :=
  ((path.reverse.dropWhile (· != '/')).drop 1).reverse

/-- Writes a file and the directories around it, if it can. -/
def writeText (path text : Text) : IO Bool := do
  try
    let parent := parentOf path
    if !parent.isEmpty then IO.FS.createDirAll parent.toStr
    IO.FS.writeFile path.toStr text.toStr
    return true
  catch _ =>
    return false

/-- Carries out a session. -/
def Session.perform : Session → IO Outcome
  | .done outcome => return outcome
  | .read path next => do (next (← entryAt path)).perform
  | .write path text next => do (next (← writeText path text)).perform

/-- The keys that environment variables can set. -/
def variableKeys : List String :=
  ["ALIASES_FILE", "REFERENCE_FILE", "ALWAYS_SHOW_DELETED", "CACHE_TTL_SECS", "QUERY__MAX_TAGS",
    "QUERY__FREE_TAGS_COUNT", "QUERY__DEPTH_LIMIT", "QUERY__PROCESS_GROUPS",
    "QUERY__RESOLVE_ALIASES", "QUERY__RETURN_WITH_DATA", "QUERY__ERROR_ON_DEPTH_EXCEEDED",
    "QUERY__COUNT_ERROR_ON_DEPTH_EXCEEDED", "QUERY__HOISTED_METATAGS", "QUERY__UNLIMITED_TAGS",
    "QUERY__WILDCARD_LIMIT"].map ("TAGQ__" ++ ·)

/-- The environment variables that are set, in either case. -/
def variablesSet : IO (List (Text × Text)) := do
  let names := variableKeys ++ variableKeys.map String.toLower
  names.filterMapM fun name => do
    return (← IO.getEnv name).map fun value => (name.toList, value.toList)

/-- The directory of configuration files. -/
def configDirectory : IO Text := do
  let base := match (← IO.getEnv "XDG_CONFIG_HOME").map String.toList with
    | some ('/' :: rest) => '/' :: rest
    | _ => []
  if base.isEmpty then
    return ((← IO.getEnv "HOME").getD "").toList ++ "/.config/tagq".toList
  else return base ++ "/tagq".toList

/-- The current time. -/
def currentInstant : IO Instant := do
  return ⟨(← Std.Time.Timestamp.now).toNanosecondsSinceUnixEpoch.val⟩

end TagSearch

open TagSearch in
/-- Runs the command line and returns its exit code. -/
def main (args : List String) : IO UInt32 := do
  let env : Environment := {
    directory := ← configDirectory
    vars := ← variablesSet
    now := ← currentInstant }
  let outcome ← (Command.run env (args.map String.toList)).perform
  IO.print outcome.output.toStr
  match outcome.error with
  | some line => IO.eprintln line.toStr
  | none => pure ()
  return outcome.code.toUInt32
