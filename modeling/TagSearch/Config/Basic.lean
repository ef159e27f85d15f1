import TagSearch.Settings

/-!
# Configuration

What the command line is configured with: the query settings, where aliases and records are kept,
and two switches.
-/

namespace TagSearch

/-- The configuration of the command line. -/
structure Config where
  query : Settings := {}
  /-- Where the alias table is kept; next to the configuration unless set. -/
  aliasesFile : Option Text := none
  /-- Where the record index is kept. -/
  referenceFile : Option Text := none
  /-- Never hide deleted posts. -/
  alwaysShowDeleted : Bool := false
  /-- How long lookups are kept, in seconds. -/
  cacheSeconds : Nat := 300
  deriving DecidableEq, Repr

namespace Config

/-- Why there is no configuration. -/
inductive Failure where
  /-- There is no file. -/
  | missing
  /-- The text is not TOML, or a value is not of the right type. -/
  | malformed
  /-- A number is too large to be written, or the file cannot be written. -/
  | unwritable
  deriving DecidableEq, Repr

/-- What the failure is reported as. -/
def Failure.message : Failure → Text
  | missing => "configuration file not found".toList
  | malformed => "configuration file is not valid".toList
  | unwritable => "Failed to write config file".toList

/-- A file in a directory. -/
def inDirectory (directory : Text) (file : String) : Text :=
  directory ++ '/' :: file.toList

/-- Where the alias table is kept, for a directory of configuration files. -/
def aliasesPath (directory : Text) (config : Config) : Text :=
  config.aliasesFile.getD (inDirectory directory "aliases.toml")

/-- Where the configuration is kept unless told otherwise. -/
def defaultPath (directory : Text) : Text :=
  inDirectory directory "config.toml"

end Config

end TagSearch
