import TagSearch.Alias
import TagSearch.Command.Help
import TagSearch.Command.Session
import TagSearch.Command.Usage
import TagSearch.Config.Reader
import TagSearch.Config.Writer
import TagSearch.Query.Compile
import TagSearch.Record.Index
import TagSearch.Report.Summary
import TagSearch.Scan.Flat

/-!
# Running commands

A command first finds its configuration, then the alias table, then the record index, and then does
its work. Each step that fails ends the run with a line that says why.
-/

namespace TagSearch

/-- What a run depends on besides its arguments and files. -/
structure Environment where
  /-- The directory of configuration files. -/
  directory : Text
  vars : List (Text × Text) := []
  now : Instant
  /-- Whether labels are coloured. -/
  color : Bool := false

namespace Command

open Text

/-- The name and version of the program. -/
def versionText : Text := "tagq 0.3.0".toList

/-! ## Ends of a run -/

/-- Lines, each with its end. -/
def linesText (lines : List Text) : Text :=
  lines.flatMap fun line => line ++ ['\n']

/-- A run that prints lines. -/
def printed (lines : List Text) : Session :=
  .done { output := linesText lines }

/-- A run that fails after printing lines. -/
def failed (env : Environment) (message : Text) (lines : List Text) : Session :=
  .done {
    code := 1
    output := linesText lines
    error := some (Report.styled env.color .red ['❌'] ++ ' ' :: message) }

/-- A run whose files cannot be used. -/
def unresolved (env : Environment) (message : Text) : Session :=
  failed env ("Resolver error: ".toList ++ message) []

/-- A run whose arguments cannot be followed. -/
def misused : Usage.UsageError → Session
  | .help place => .done { output := place.helpText }
  | .version => printed [versionText]
  | error => .done { code := 2, error := some ("error: ".toList ++ error.message) }

/-! ## Files -/

/-- Goes on with a configuration, or reports that there is none. -/
def withLoaded (env : Environment) (loaded : Except Config.Failure Config)
    (next : Config → Session) : Session :=
  match loaded with
  | .ok config => next config
  | .error failure => failed env ("Configuration error: ".toList ++ failure.message) []

/-- Reads the configuration at a path. The path may lack its extension. -/
def readConfig (env : Environment) (path : Text) (next : Config → Session) : Session :=
  .read path fun
    | .file text => withLoaded env (Config.load env.vars (some text)) next
    | _ => .read (path ++ ".toml".toList) fun
      | .file text => withLoaded env (Config.load env.vars (some text)) next
      | _ => withLoaded env (.error .missing) next

/-- Writes the default configuration and goes on with it. Environment variables do not count. -/
def createConfig (env : Environment) (path : Text) (next : Config → Session) : Session :=
  let config : Config := {}
  withLoaded env (config.save.map fun _ => config) fun config =>
    .write path (config.save.toOption.getD []) fun
      | true => next config
      | false => withLoaded env (.error .unwritable) next

/-- Finds the configuration: the given one, or the default one, which is created if it is not
there. -/
def withConfig (env : Environment) (path : Option Text) (next : Config → Session) : Session :=
  match path with
  | some path => readConfig env path next
  | none =>
    let path := Config.defaultPath env.directory
    .read path fun
      | .absent => createConfig env path next
      | _ => readConfig env path next

/-- Finds the alias table; without a file it is empty. -/
def withAliases (env : Environment) (path : Text) (next : AliasTable → Session) : Session :=
  .read path fun
    | .absent => next {}
    | .unreadable => unresolved env "I/O error: alias file cannot be read".toList
    | .file text =>
      match AliasTable.ofFile text with
      | .ok table => next table
      | .error .malformed => unresolved env "TOML error: alias file is not valid".toList
      | .error (.refused error) => unresolved env error.message

/-- Finds the record index; without a path it is empty. -/
def withIndex (env : Environment) (path : Option Text) (next : Index → Session) : Session :=
  match path with
  | none => next {}
  | some path =>
    .read path fun
      | .file text =>
        match Index.ofFile? text with
        | some index => next index
        | none => unresolved env "TOML error: reference file is not valid".toList
      | _ => unresolved env "I/O error: reference file cannot be read".toList

/-! ## Commands -/

/-- A line that reports success. -/
def success (env : Environment) (message : Text) : Text :=
  Report.styled env.color .green ['✓'] ++ ' ' :: message

/-- Writes the alias table and reports success, unless asked to be quiet. -/
def saveAliases (env : Environment) (quiet : Bool) (path : Text) (message : Text) :
    Except AliasError AliasTable → Session
  | .ok table =>
    .write path table.toFile fun
      | true => printed (if quiet then [] else [success env message])
      | false => unresolved env "I/O error: alias file cannot be written".toList
  | .error error => unresolved env error.message

/-- Adds an alias. -/
def addAlias (env : Environment) (quiet : Bool) (path name canonical : Text) : Session :=
  withAliases env path fun table =>
    saveAliases env quiet path
      ("Added alias '".toList ++ name ++ "' → '".toList ++ canonical ++ ['\''])
      (table.add name canonical)

/-- Removes an alias. -/
def removeAlias (env : Environment) (quiet : Bool) (path name : Text) : Session :=
  withAliases env path fun table =>
    saveAliases env quiet path ("Removed alias '".toList ++ name ++ ['\'']) (table.remove name)

/-- Lists the aliases. -/
def listAliases (env : Environment) (quiet : Bool) (path : Text) : Session :=
  withAliases env path fun table =>
    printed <|
      if table.pairs.isEmpty && !quiet then ["No aliases defined".toList]
      else table.list.map fun (name, canonical) => Report.aliasLine env.color quiet name canonical

/-- A query as one line of JSON, or as several. -/
def queryText (pretty : Bool) (q : Query) : Text :=
  if pretty then q.toJson.pretty else q.toJson.compact

/-- Compiles a search and prints the query. -/
def parseSearch (env : Environment) (settings : Settings) (resolver : Resolver)
    (summary pretty : Bool) (search : Text) : Session :=
  match Compiler.ofSettings settings resolver env.now with
  | .error error => failed env error.message []
  | .ok compiler =>
    match compiler.compile search with
    | .ok q => printed (if summary then Report.summary env.color q else [queryText pretty q])
    | .error error =>
      failed env error.message ((error.built?.map (queryText pretty)).toList)

/-- The message of a depth error. -/
def depthMessage (error : DepthExceeded) : Text :=
  QueryError.depthMessage error.limit

/-- Does the work of a command that reads a search. -/
def runSearch (env : Environment) (config : Config) (resolver : Resolver) : Command → Session
  | .parse summary pretty search =>
    parseSearch env config.query resolver summary pretty search
  | .scan flags search =>
    if flags.recursive then
      match Scan.scan (flags.options config.query.depth) resolver.canonical search with
      | .ok items => printed [Report.scanText items]
      | .error error => failed env (depthMessage error) []
    else printed [unwords (Scan.flat search)]
  | .hoist search =>
    match Hoist.hoistTexts ⟨config.query.hoistedNames, config.query.depth,
        config.query.failOnDepth⟩ search with
    | .ok tokens => printed [unwords tokens]
    | .error error => failed env (depthMessage error) []
  | .normalize grouped search =>
    if grouped then
      match Scan.normalizeGrouped resolver.canonical true search with
      | .ok items => printed [unwords (Scan.Item.tagsOf items)]
      | .error error => failed env (depthMessage error) []
    else printed [Scan.normalize resolver.canonical search]
  | .hideDeleted search =>
    printed [if Lookup.hidesDeleted search config.alwaysShowDeleted then "true".toList
      else "false".toList]
  | .aliasAdd _ _ | .aliasRemove _ | .aliasList => printed []

/-- Runs a command. -/
def runInvocation (env : Environment) (i : Invocation) : Session :=
  withConfig env i.config fun config =>
    let config := { config with query := i.override config.query }
    let path := config.aliasesPath env.directory
    match i.command with
    | .aliasAdd name canonical => addAlias env i.quiet path name canonical
    | .aliasRemove name => removeAlias env i.quiet path name
    | .aliasList => listAliases env i.quiet path
    | command =>
      withAliases env path fun table =>
        withIndex env config.referenceFile fun index =>
          runSearch env config ⟨table.canonicalize, index.records⟩ command

/-- Runs the command line. -/
def run (env : Environment) (args : List Text) : Session :=
  match Usage.read args with
  | .ok invocation => runInvocation env invocation
  | .error error => misused error

end Command

end TagSearch
