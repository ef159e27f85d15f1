import TagSearch.Text.Basic

/-!
# Scan results

A nested scan yields items: tags, and lists of items where a group keeps its own list.
-/

namespace TagSearch.Scan

/-- One element of a scan. -/
inductive Item where
  | tag (text : Text)
  | nested (items : List Item)

namespace Item

mutual

/-- The tags of an item, from left to right. -/
def tags : Item → List Text
  | tag text => [text]
  | nested items => tagsOf items

/-- The tags of some items, from left to right. -/
def tagsOf : List Item → List Text
  | [] => []
  | item :: rest => item.tags ++ tagsOf rest

end

end Item

end TagSearch.Scan
