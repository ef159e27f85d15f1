import TagSearch.Scan.Nested

/-!
# Hoisting

Some metatags mean the same wherever they stand. Hoisting lifts them out of the groups that hold
them, in document order, and writes those groups anew without them; all other groups are passed
on untouched. A search that is one plain group is first replaced by what the group holds.
-/

namespace TagSearch.Hoist

open Text

/-- The metatags that are hoisted unless the settings say otherwise. -/
def defaultNames : List Text :=
  ["order".toList, "limit".toList, "randseed".toList]

/-- The settings of the hoisting pass. -/
structure Options where
  /-- The names to hoist, in any case. -/
  names : List Text := defaultNames
  /-- The number of nested groups that may be opened; cut to `maxDepth`. -/
  depthLimit : Nat := maxDepth
  /-- Fail on a group past the limit instead of writing it empty. -/
  failOnDepth : Bool := false
  deriving DecidableEq, Repr

/-- The limit in force. -/
def Options.limit (options : Options) : Nat :=
  min options.depthLimit maxDepth

/-- Whether a token is a metatag to be hoisted. A bare metatag needs a value. -/
def isHoisted (names : List Text) (token : Token) : Bool :=
  match token.body with
  | .metatag name value quoted =>
    (quoted || !value.isEmpty) && names.any fun n => eqIgnoringAsciiCase n name
  | _ => false

mutual

/-- Whether a metatag to be hoisted stands anywhere in a tree. -/
def holdsHoisted (names : List Text) : Tree → Bool
  | .leaf token => isHoisted names token
  | .group _ children => anyHoisted names children

/-- Whether a metatag to be hoisted stands anywhere in some trees. -/
def anyHoisted (names : List Text) : List Tree → Bool
  | [] => false
  | tree :: rest => holdsHoisted names tree || anyHoisted names rest

end

/-- What lifting yields: the hoisted tokens, and what is left as text. -/
structure Lifted where
  tokens : List Token := []
  left : List Text := []

variable (options : Options) (limit remaining : Nat)

mutual

/-- Lifts the metatags out of one child of a group that is `nesting` groups deep. -/
def liftTree (nesting : Nat) : Tree → Except DepthExceeded Lifted
  | .leaf token =>
    if isHoisted options.names token then .ok { tokens := [token] }
    else .ok { left := [token.text] }
  | .group token children =>
    if anyHoisted options.names children then
      if nesting + 1 ≤ remaining then do
        let inner ← liftTrees (nesting + 1) children
        return ⟨inner.tokens, [renderGroup (Modifier.text token.modifier) inner.left]⟩
      else if options.failOnDepth then .error ⟨limit⟩
      else .ok { left := [renderGroup (Modifier.text token.modifier) []] }
    else .ok { left := [token.text] }

/-- Lifts the metatags out of the children of a group that is `nesting` groups deep. -/
def liftTrees (nesting : Nat) : List Tree → Except DepthExceeded Lifted
  | [] => .ok {}
  | tree :: rest => do
    let first ← liftTree nesting tree
    let others ← liftTrees nesting rest
    return ⟨first.tokens ++ others.tokens, first.left ++ others.left⟩

end

/-- What a top-level tree is replaced by. -/
def hoistTree (tree : Tree) : Except DepthExceeded (List Token) :=
  match tree with
  | .leaf token => .ok [token]
  | .group token _ =>
    if holdsHoisted options.names tree then do
      let lifted ← liftTree options limit remaining 0 tree
      return lifted.tokens ++ lifted.left.flatMap tokenize
    else .ok [token]

/-- The hoisted tokens of a text, and the number of groups that were unwrapped, when `remaining` of
`limit` levels are left. -/
def hoistText : (remaining : Nat) → Text → Except DepthExceeded (List Token × Nat)
  | remaining, text =>
    if text.isEmpty || isEmptyGroup text then .ok ([], limit - remaining)
    else match tokenize text with
      | [⟨none, .group source, _, _⟩] =>
        match remaining with
        | 0 => if options.failOnDepth then .error ⟨limit⟩ else .ok ([], limit)
        | remaining + 1 => hoistText remaining source
      | _ => do
        let hoisted ← (Tree.ofText text).mapM (hoistTree options limit remaining)
        return (hoisted.flatten, limit - remaining)

/-- Hoists the metatags of a search. The result is the top-level tokens and the number of enclosing
groups that were unwrapped. -/
def hoist (options : Options) (search : Text) : Except DepthExceeded (List Token × Nat) :=
  hoistText options options.limit options.limit (cleanSearch search)

/-- The texts of the hoisted tokens. -/
def hoistTexts (options : Options) (search : Text) : Except DepthExceeded (List Text) :=
  (fun result => result.1.map Token.text) <$> hoist options search

end TagSearch.Hoist
