import TagSearch.Scan.Item
import TagSearch.Scan.Options
import TagSearch.Token.Tree

/-!
# Nested scanning

`scan` lists the tags of a search level by level. A group contributes the items of its own level,
marked and nested as the options say; a group past the depth limit contributes none.

A level is scanned in three steps: its entries in document order, repeats dropped, then sorted.
Repeats and order are judged by what an entry prints, so a group stays one block.
-/

namespace TagSearch

/-- Groups nest deeper than the limit allows. -/
structure DepthExceeded where
  limit : Nat
  deriving DecidableEq, Repr

namespace Scan

open Text

/-! ## Entries of a level -/

/-- What one token contributes to its level. -/
inductive Entry where
  | tag (text : Text)
  | group (items : List Item)

namespace Entry

/-- The items that the entry adds to its level. -/
def items : Entry → List Item
  | tag text => [.tag text]
  | group items => items

/-- Two tags are alike if they are equal, two groups if they print the same set of strings. -/
def alike : Entry → Entry → Bool
  | tag a, tag b => a == b
  | group a, group b =>
    let a := Item.tagsOf a
    let b := Item.tagsOf b
    a.all b.contains && b.all a.contains
  | _, _ => false

/-- Groups come before tags; groups are ordered by what they print, tags by their text. -/
def le : Entry → Entry → Bool
  | group a, group b => Text.leByFirst Text.le (Item.tagsOf a) (Item.tagsOf b)
  | group _, tag _ => true
  | tag _, group _ => false
  | tag a, tag b => Text.le a b

end Entry

/-- The items of a level, from its entries in document order. -/
def arrange (options : Options) (entries : List Entry) : List Item :=
  let kept := if options.dropRepeats then entries.eraseDupsBy Entry.alike else entries
  let sorted := if options.sortLevels then kept.mergeSort Entry.le else kept
  sorted.flatMap Entry.items

/-! ## Tags -/

/-- The modifier of a tag inside groups with the modifiers `outer`: `-` wins over `~`. -/
def effectiveModifier (outer : List Modifier) (own : Option Modifier) : Option Modifier :=
  let chain := outer ++ own.toList
  if chain.contains .mustNot then some .mustNot else chain.head?

/-- The sign written in front of a tag. -/
def tagSign (options : Options) (outer : List Modifier) (own : Option Modifier) : Text :=
  if options.stripModifiers then []
  else if options.distributeModifiers then Modifier.text (effectiveModifier outer own)
  else Modifier.text own

/-- A token that is not a group, as the scan writes it. -/
def tagText (options : Options) (canonical : Text → Text) (outer : List Modifier)
    (token : Token) : Text :=
  let body := match token.body with
    | .tag text => if options.normalizeTags then canonical (tagName text) else token.bodyText
    | _ => token.bodyText
  tagSign options outer token.modifier ++ body

/-! ## Groups -/

/-- The sign written on a group. -/
def groupSign (options : Options) (modifier : Option Modifier) : Text :=
  if options.stripModifiers || options.distributeModifiers || options.bareGroups then []
  else Modifier.text modifier

/-- Marks the items of a group and nests them, as the options say. -/
def wrap (options : Options) (modifier : Option Modifier) (items : List Item) : List Item :=
  let sign := groupSign options modifier
  let nest := fun items : List Item => if options.flatten then items else [.nested items]
  if options.delimitGroups then
    nest (.tag (sign ++ ['(']) :: items ++ [.tag [')']])
  else if sign.isEmpty then nest items
  else .tag sign :: nest items

/-- The modifiers in force inside a group. -/
def inner (options : Options) (outer : List Modifier) (modifier : Option Modifier) :
    List Modifier :=
  if options.distributeModifiers then outer ++ modifier.toList else outer

variable (options : Options) (canonical : Text → Text)

mutual

/-- Scans one tree of a level that is `nesting` groups deep. -/
def scanTree (nesting : Nat) (outer : List Modifier) : Tree → Except DepthExceeded Entry
  | .leaf token => .ok (.tag (tagText options canonical outer token))
  | .group token children => do
    let items ←
      if options.baseDepth + (nesting + 1) ≤ options.limit then
        arrange options <$> scanTrees (nesting + 1) (inner options outer token.modifier) children
      else if options.failOnDepth then .error ⟨options.limit⟩
      else .ok []
    return .group (wrap options token.modifier items)

/-- Scans the trees of a level that is `nesting` groups deep. -/
def scanTrees (nesting : Nat) (outer : List Modifier) :
    List Tree → Except DepthExceeded (List Entry)
  | [] => .ok []
  | tree :: rest => do
    let entry ← scanTree nesting outer tree
    let entries ← scanTrees nesting outer rest
    return entry :: entries

end

/-- Scans a search. A search that is exactly one group yields the items of that group. -/
def scan (search : Text) : Except DepthExceeded (List Item) :=
  match Tree.ofText (cleanSearch search) with
  | [.group token children] =>
    Entry.items <$> scanTree options canonical 0 [] (.group token children)
  | trees => arrange options <$> scanTrees options canonical 0 [] trees

/-! ## Canonical form -/

/-- The options under which a search comes out in canonical form. -/
def canonicalOptions (flatten : Bool) : Options :=
  { flatten, dropRepeats := true, sortLevels := true, normalizeTags := true }

/-- The canonical form of a search that keeps its groups. -/
def normalizeGrouped (flatten : Bool) (search : Text) : Except DepthExceeded (List Item) :=
  scan (canonicalOptions flatten) canonical search

end Scan

end TagSearch
