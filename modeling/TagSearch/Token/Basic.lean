import TagSearch.Clause

/-!
# Tokens

A token is an optional modifier and a body. Bodies come in three shapes: a plain tag, a metatag
`name:value` whose value may be quoted, and a group in parentheses.

A group token holds the text between its parentheses. The tokens inside are found by lexing that
text, one level at a time.
-/

namespace TagSearch

/-- What a token holds besides its modifier. -/
inductive Body where
  /-- A run of characters without blanks. -/
  | tag (text : Text)
  /-- `name:value`, or `name:"value"` if quoted. -/
  | metatag (name value : Text) (quoted : Bool)
  /-- The text inside a pair of parentheses, without surrounding blanks. -/
  | group (source : Text)
  deriving DecidableEq, Repr

/-- A token of one level of a search. -/
structure Token where
  modifier : Option Modifier
  body : Body
  /-- The token as written, modifier included. -/
  text : Text
  /-- Where the token starts, in bytes of UTF-8. -/
  offset : Nat
  deriving DecidableEq, Repr

/-- The written form of a metatag. -/
def metatagText (name value : Text) (quoted : Bool) : Text :=
  if quoted then name ++ ':' :: '"' :: (value ++ ['"']) else name ++ ':' :: value

namespace Token

/-- The clause that the token contributes to. -/
def clause (t : Token) : Clause :=
  Clause.ofModifier t.modifier

/-- The text between a group's parentheses. -/
def group? (t : Token) : Option Text :=
  match t.body with
  | .group source => some source
  | _ => none

/-- Whether the token is a group. -/
def isGroup (t : Token) : Bool :=
  t.group?.isSome

/-- The token as written, without its modifier. -/
def bodyText (t : Token) : Text :=
  t.text.drop (Modifier.text t.modifier).length

/-- Where the token ends, in bytes of UTF-8. -/
def stop (t : Token) : Nat :=
  t.offset + t.text.byteLength

end Token

/-- Writes a group: its children apart by one space, inside spaced parentheses. Empty children
leave no trace, and a group without children is written `( )`. -/
def renderGroup (modifier : Text) (children : List Text) : Text :=
  let inner := Text.unwords (children.filter (!·.isEmpty))
  if inner.isEmpty then modifier ++ ['(', ' ', ')']
  else modifier ++ '(' :: ' ' :: (inner ++ [' ', ')'])

end TagSearch
