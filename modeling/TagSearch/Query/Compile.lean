import TagSearch.Query.Change
import TagSearch.Query.Level

/-!
# Compiling searches

A search is compiled level by level. Hoisting yields the tokens of a level; each token is counted
against the limit of tags unless a pattern frees it, and then contributes a tag, a change of the
fields, or a group. Groups are compiled in the same way, or only counted.

The inside of a group is compiled while the depth limit leaves room, so the number of levels left
bounds the recursion.
-/

namespace TagSearch.Compiler

open Text

variable (c : Compiler)

/-! ## Tags -/

/-- The tag that stands for a wildcard that matches no tag. -/
def notFound : Text := "~~not_found~~".toList

/-- The tags that a wildcard stands for. -/
def expand (wildcard : Text) : List Text :=
  match c.resolver.records.wildcardTags wildcard c.settings.wildcards with
  | [] => [notFound]
  | tags => tags

/-- A plain tag in its clause. The text is taken in lowercase, and its first character is a modifier
if more follows. A wildcard that is ruled out rules out all tags it stands for; one that is asked
for makes them optional; one that is optional is taken literally. -/
def plainTags (text : Text) : Clause × List Text :=
  match text.lowercase with
  | '-' :: c₁ :: rest =>
    let tag := c₁ :: rest
    (.mustNot, if tag.contains '*' then c.expand tag else [tag])
  | '~' :: c₁ :: rest => (.should, [c₁ :: rest])
  | tag => if tag.contains '*' then (.should, c.expand tag) else (.must, [tag])

/-- Adds a plain tag. -/
def addTag (q : Query) (text : Text) : Query :=
  let (clause, tags) := c.plainTags text
  q.pushTags clause tags

/-! ## Tokens -/

/-- The metatag that a token is an occurrence of, and its value. The value must not be blank and
the metatag must take the token's modifier. -/
def metatag? (token : Token) : Option (Metatag × Text) :=
  match token.body with
  | .metatag name value _ =>
    if isWhite value then none
    else ((Metatag.ofName? name).filter (·.accepts token.clause)).map fun m => (m, value)
  | _ => none

/-- Adds a token that is not a group. -/
def addToken (q : Query) (token : Token) : Except QueryError Query :=
  let q := if c.isUnlimited token.text then q else q.charge 1
  match metatag? token with
  | some (m, value) => do return q.change (← c.changes m token.clause value)
  | none => .ok (c.addTag q token.text)

/-! ## Errors -/

/-- The query as a level hands it on. -/
def finished (level : Level) (q : Query) : Query :=
  if level.resolveAliases then q.canonicalize c.resolver.canonical else q

/-- The query that a level attaches to an error. -/
def attached (level : Level) (q : Query) : Option Query :=
  if level.returnWithData then some (c.finished level q) else none

/-- The error of a group that is nested too deep. -/
def depthError (level : Level) (q : Query) : QueryError :=
  .depthExceeded level.depthLimit (c.attached level q)

/-- The number of tags that a level may count. -/
def budget (level : Level) : Nat :=
  c.settings.maxTags - level.freeTags

/-- Fails if a query counts more tags than its level may. -/
def checkCount (level : Level) (q : Query) : Except QueryError Query :=
  if q.tagCount ≤ c.budget level then .ok q
  else .error (.countExceeded c.settings.maxTags (c.attached level q))

/-! ## Groups -/

/-- The options under which the tags of a group are counted. -/
def countOptions (level : Level) : Scan.Options where
  delimitGroups := false
  stripModifiers := true
  failOnDepth := c.settings.failOnCountDepth
  depthLimit := level.depthLimit
  baseDepth := level.depth - 1

/-- Adds a group that is only counted. -/
def countGroup (level : Level) (q : Query) (token : Token) (source : Text) :
    Except QueryError Query :=
  match Scan.scan (c.countOptions level) id token.text with
  | .ok items => .ok ((q.charge items.length).pushGroup token.clause (.unparsed source))
  | .error _ => .error (c.depthError level q)

/-- How the inside of a group is compiled, given the tags counted so far. -/
abbrev Build := Nat → Text → Except QueryError Query

/-- Adds a group by compiling its inside. A group over the limit of tags is kept up to where it went
over; the level around it then fails by its own count. -/
def buildGroup (build : Build) (level : Level) (q : Query) (token : Token) (source : Text) :
    Except QueryError Query :=
  match build (q.tagCount + level.freeTags) source with
  | .ok inner => .ok ((q.charge inner.tagCount).pushGroup token.clause (.parsed inner))
  | .error (.countExceeded max built) =>
    let inner := built.getD {}
    .ok ((q.charge inner.tagCount).pushGroup token.clause (.exceeded max inner))
  | .error (.depthExceeded _ _) => .error (c.depthError level q)
  | .error error => .error error

/-- Adds a group. Without a way to compile its inside the group is nested too deep. -/
def addGroup (build? : Option Build) (level : Level) (q : Query) (token : Token) (source : Text) :
    Except QueryError Query :=
  if !c.settings.processGroups then c.countGroup level q token source
  else match build? with
    | some build => c.buildGroup build level q token source
    | none =>
      if level.failOnDepth then .error (c.depthError level q)
      else .ok (q.pushGroup token.clause (.parsed {}))

/-! ## Levels -/

/-- Adds a token of a level, and checks the count. -/
def addNext (build? : Option Build) (level : Level) (q : Query) (token : Token) :
    Except QueryError Query := do
  let q ← match token.group? with
    | some source => c.addGroup build? level q token source
    | none => c.addToken q token
  c.checkCount level q

/-- The options under which a level is hoisted. -/
def hoistOptions (level : Level) : Hoist.Options where
  names := c.settings.hoistedNames
  depthLimit := level.remaining
  failOnDepth := level.failOnDepth

/-- Compiles the text of a level. -/
def compileLevel (level : Level) (text : Text) : Except QueryError Query :=
  match Hoist.hoist (c.hoistOptions level) text with
  | .error _ => .error (c.depthError level {})
  | .ok (tokens, unwrapped) => do
    let build? : Option Build :=
      if _h : (level.deeper unwrapped).exceeds then none
      else some fun free source => compileLevel ((level.deeper unwrapped).child free) source
    let q ← tokens.foldlM (c.addNext build? (level.deeper unwrapped)) {}
    return c.finished (level.deeper unwrapped) q
termination_by level.remaining
decreasing_by exact Level.remaining_child_deeper_lt _h

/-- Compiles a search. -/
def compile (search : Text) : Except QueryError Query :=
  c.compileLevel (Level.root c.settings) search

/-- Compiles a search given as a list of tokens. -/
def compileTokens (tokens : List Text) : Except QueryError Query :=
  c.compile (unwords tokens)

end TagSearch.Compiler
