import TagSearch.Text.Basic

/-!
# Sessions

What a run of the command line does with files, as data: it reads and writes files one after the
other, and ends with what it prints. The outer layer carries a session out on real files;
`Session.run` carries it out on a list of files.
-/

namespace TagSearch

/-- How a run ends. -/
structure Outcome where
  code : Nat := 0
  /-- What is printed. -/
  output : Text := []
  /-- The line that reports an error. -/
  error : Option Text := none
  deriving DecidableEq, Repr

/-- What stands at a path. -/
inductive PathEntry where
  | absent
  /-- Something without a text, such as a directory. -/
  | unreadable
  | file (text : Text)
  deriving DecidableEq, Repr

/-- A run of the command line. -/
inductive Session where
  | done (outcome : Outcome)
  /-- Looks at a path, and goes on with what stands there. -/
  | read (path : Text) (next : PathEntry → Session)
  /-- Writes a file and the directories around it, and goes on with whether that was possible. -/
  | write (path text : Text) (next : Bool → Session)

/-- Files by path. -/
abbrev Files := List (Text × Text)

namespace Files

/-- The text of a file. -/
def get? (files : Files) (path : Text) : Option Text :=
  (files.find? fun file => file.1 == path).map Prod.snd

/-- Puts a file at a path. -/
def set (files : Files) (path text : Text) : Files :=
  (path, text) :: files.filter fun file => file.1 != path

/-- Whether one path lies below another. -/
def isBelow (path directory : Text) : Bool :=
  (directory ++ ['/']).isPrefixOf path

/-- What stands at a path. A path with files below it is a directory. -/
def entry (files : Files) (path : Text) : PathEntry :=
  match files.get? path with
  | some text => .file text
  | none => if files.any fun file => isBelow file.1 path then .unreadable else .absent

/-- Whether a file can be written: the path is no directory and lies below no file. -/
def accepts (files : Files) (path : Text) : Bool :=
  !path.isEmpty && files.entry path != .unreadable && !files.any fun file => isBelow path file.1

end Files

namespace Session

/-- Carries a session out on files. -/
def run : Session → Files → Outcome × Files
  | .done outcome, files => (outcome, files)
  | .read path next, files => (next (files.entry path)).run files
  | .write path text next, files =>
    if files.accepts path then (next true).run (files.set path text) else (next false).run files

/-- The session with other names for its paths. -/
def mapPaths (rename : Text → Text) : Session → Session
  | .done outcome => .done outcome
  | .read path next => .read (rename path) fun entry => (next entry).mapPaths rename
  | .write path text next => .write (rename path) text fun written =>
    (next written).mapPaths rename

end Session

end TagSearch
