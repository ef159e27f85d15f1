import TagSearch.Command.Grammar
import TagSearch.Config.Convert

/-!
# Reading the command line

Arguments are read from left to right. Each command opens a frame of its own; options belong to the
frame they stand in. The value of an option may be the next argument, so an option can be pending.
From the first word of a search on, or after `--`, everything is taken as it stands.

When the arguments end, the frames are checked from the innermost out.
-/

namespace TagSearch.Usage

open Text

/-- Why a command line cannot be followed. The last two ask for a text instead. -/
inductive UsageError where
  /-- An argument is missing, or an option lacks another that it needs. -/
  | missingArgument
  | missingCommand
  | unknownCommand
  | unknownArgument
  /-- An option is given twice. -/
  | conflict
  /-- An option has no value. -/
  | missingValue
  /-- The value of an option cannot be read. -/
  | invalidValue
  /-- A switch is given a value. -/
  | needlessValue
  /-- There is nothing at all where a command is needed. -/
  | helpForNothing
  /-- Asks for an explanation of a command. -/
  | help (place : Place)
  | version
  deriving DecidableEq, Repr

/-- What the error is reported as. -/
def UsageError.message : UsageError → Text
  | missingArgument => "a required argument is missing".toList
  | missingCommand | helpForNothing => "a command is required".toList
  | unknownCommand => "there is no such command".toList
  | unknownArgument => "unexpected argument".toList
  | conflict => "an option is given more than once".toList
  | missingValue => "an option lacks its value".toList
  | invalidValue => "the value of an option is not valid".toList
  | needlessValue => "an option takes no value".toList
  | help _ => "help is asked for".toList
  | version => "the version is asked for".toList

/-- What was read at one place. -/
structure Frame where
  place : Place
  switches : List Switch := []
  config : Option Text := none
  maxTags : Option Nat := none
  /-- The arguments. -/
  words : List Text := []
  /-- An option that is not yet stored, with its value if it was read. -/
  pending : Option (Valued × Option Text) := none
  /-- Whether everything is taken as it stands. -/
  verbatim : Bool := false
  deriving DecidableEq, Repr

namespace Frame

/-- Stores the value of an option. -/
def store (f : Frame) : Valued → Text → Except UsageError Frame
  | .config, value =>
    if f.config.isSome then .error .conflict
    else if value.isEmpty then .error .missingValue
    else .ok { f with config := some value }
  | .maxTags, value =>
    if f.maxTags.isSome then .error .conflict
    else match Config.readNat64? value with
      | some n => .ok { f with maxTags := some n }
      | none => .error .invalidValue

/-- Stores the option that is pending. -/
def settle (f : Frame) : Except UsageError Frame :=
  match f.pending with
  | none => .ok f
  | some (_, none) => .error .missingValue
  | some (v, some value) => { f with pending := none }.store v value

/-- Whether the next argument is the value of an option. -/
def awaitsValue (f : Frame) : Bool :=
  match f.pending with
  | some (_, none) => true
  | _ => false

/-- Gives a switch. -/
def turnOn (f : Frame) (s : Switch) : Except UsageError Frame := do
  let f ← f.settle
  match s with
  | .help => .error (.help f.place)
  | .version => .error .version
  | s =>
    if f.switches.contains s then .error .conflict
    else .ok { f with switches := s :: f.switches }

/-- Gives an option whose value may follow. -/
def await (f : Frame) (v : Valued) : Except UsageError Frame := do
  let f ← f.settle
  return { f with pending := some (v, none) }

/-- Gives an option with its value. -/
def attach (f : Frame) (v : Valued) (value : Text) : Except UsageError Frame := do
  let f ← f.settle
  f.store v value

/-- Reads letters of options. What follows the letter of an option with a value is the value; an
equals sign may stand between. -/
def letters (f : Frame) : Text → Except UsageError Frame
  | [] => .ok f
  | c :: rest =>
    match f.place.byLetter? c with
    | none => .error .unknownArgument
    | some (.switch s) => do letters (← f.turnOn s) rest
    | some (.valued v) =>
      match rest with
      | [] => f.await v
      | '=' :: value => f.attach v value
      | value => f.attach v value

/-- Adds an argument. -/
def addWord (f : Frame) (arg : Text) : Except UsageError Frame :=
  match f.place.arguments with
  | .search => do
    let f ← f.settle
    return { f with words := f.words ++ [arg], verbatim := true }
  | .names count =>
    if f.words.length < count then do
      let f ← f.settle
      return { f with words := f.words ++ [arg] }
    else .error .unknownArgument
  | .none =>
    if f.place.needsCommand && !(f.verbatim && (f.place.command? arg).isSome) then
      .error .unknownCommand
    else .error .unknownArgument

/-- Takes an argument that is no option: the value of an option, or an argument of its own. -/
def takeArgument (f : Frame) (arg : Text) : Except UsageError Frame :=
  match f.pending with
  | some (v, none) => .ok { f with pending := some (v, some arg) }
  | _ => f.addWord arg

/-- Takes an argument with two hyphens in front of `name`. A word that is no option starts a search,
if one may follow. -/
def takeLong (f : Frame) (arg name : Text) : Except UsageError Frame :=
  let (word, value) := match cut? '=' name with
    | some (word, value) => (word, some value)
    | none => (name, none)
  match f.place.byWord? word, value with
  | some (.valued v), some value => f.attach v value
  | some (.valued v), none => f.await v
  | some (.switch _), some _ => .error .needlessValue
  | some (.switch s), none => f.turnOn s
  | none, _ => if f.place.takesSearch then f.takeArgument arg else .error .unknownArgument

/-- Takes an argument with one hyphen in front of `name`. If one of its letters is no option, it
starts a search, if one may follow. -/
def takeShort (f : Frame) (arg name : Text) : Except UsageError Frame :=
  if f.place.takesSearch && name.any fun c => (f.place.byLetter? c).isNone then f.takeArgument arg
  else f.letters name

/-- Takes an argument that is no command. -/
def take (f : Frame) (arg : Text) : Except UsageError Frame :=
  if f.verbatim then f.addWord arg
  else match arg with
    | ['-', '-'] => .ok { f with verbatim := true }
    | '-' :: '-' :: name => f.takeLong arg name
    | ['-'] => f.takeArgument arg
    | '-' :: name => f.takeShort arg name
    | _ => f.takeArgument arg

/-- Whether an option was given. -/
def hasOptions (f : Frame) : Bool :=
  !f.switches.isEmpty || f.config.isSome || f.maxTags.isSome

/-- Whether all arguments are there. -/
def isComplete (f : Frame) : Bool :=
  match f.place.arguments with
  | .none => true
  | .search => !f.words.isEmpty
  | .names count => f.words.length == count

/-- Checks a frame when the arguments have ended. -/
def finish (f : Frame) (hasCommand : Bool) : Except UsageError Frame := do
  let f ← f.settle
  if f.place.needsCommand && !hasCommand then
    if f.hasOptions then .error .missingCommand else .error .helpForNothing
  else if !f.isComplete then .error .missingArgument
  else if f.switches.any nestedOnly.contains && !f.switches.contains .recursive then
    .error .missingArgument
  else .ok f

end Frame

/-- The reader between two arguments: the innermost frame and those around it. -/
structure Reader where
  frame : Frame := { place := .root }
  outer : List Frame := []
  deriving DecidableEq, Repr

namespace Reader

/-- The command that an argument opens. -/
def opened? (r : Reader) (arg : Text) : Option Place :=
  if r.frame.verbatim || r.frame.awaitsValue then none else r.frame.place.command? arg

/-- Reads one argument. -/
def step (r : Reader) (arg : Text) : Except UsageError Reader :=
  match r.opened? arg with
  | some place => .ok ⟨{ place }, r.frame :: r.outer⟩
  | none => do return ⟨← r.frame.take arg, r.outer⟩

end Reader

/-- The scan flags that switches stand for. -/
def scanFlags (switches : List Switch) : ScanFlags where
  recursive := switches.contains .recursive
  nested := switches.contains .nested
  stripModifiers := switches.contains .stripModifiers
  distributeModifiers := switches.contains .distributeModifiers
  dropRepeats := switches.contains .dropRepeats
  noDelimiters := switches.contains .noDelimiters
  sort := switches.contains .sort
  normalize := switches.contains .normalize
  strict := switches.contains .strict

/-- The command of the innermost frame. -/
def commandOf (f : Frame) : Except UsageError Command :=
  let search := unwords f.words
  match f.place with
  | .parse => .ok (.parse (f.switches.contains .summary) (f.switches.contains .pretty) search)
  | .scan => .ok (.scan (scanFlags f.switches) search)
  | .hoist => .ok (.hoist search)
  | .normalize => .ok (.normalize (f.switches.contains .grouped) search)
  | .hideDeleted => .ok (.hideDeleted search)
  | .aliasAdd => .ok (.aliasAdd (f.words.headD []) ((f.words.drop 1).headD []))
  | .aliasRemove => .ok (.aliasRemove (f.words.headD []))
  | .aliasList => .ok .aliasList
  | place => .error (.help place)

/-- Follows the names of commands after `help`. -/
def helpFor : Place → List Text → UsageError
  | place, [] => .help place
  | place, arg :: args =>
    match place.command? arg with
    | some place => helpFor place args
    | none => .unknownCommand

/-- Reads arguments up to their end, or up to `help`, after which only names of commands are read. -/
def readFrames (r : Reader) : List Text → Except UsageError Reader
  | [] => .ok r
  | arg :: args => do
    let next ← r.step arg
    if next.frame.place.isHelp then .error (helpFor r.frame.place args)
    else readFrames next args

/-- Reads a command line. Of an option that several frames give, the innermost counts. -/
def read (args : List Text) : Except UsageError Invocation := do
  let r ← readFrames {} args
  let leaf ← r.frame.finish false
  let outer ← r.outer.mapM fun f => f.finish true
  let frames := leaf :: outer
  let given (s : Switch) : Bool := frames.any fun f => f.switches.contains s
  return {
    command := ← commandOf leaf
    config := frames.findSome? Frame.config
    verbose := given .verbose
    quiet := given .quiet
    maxTags := frames.findSome? Frame.maxTags
    processGroups := given .processGroups }

end TagSearch.Usage
