import TagSearch.Proofs.Marks
import TagSearch.Proofs.Slices

/-!
# Distributed modifiers

A scan can write the modifiers of groups on the tags inside them. It keeps the modifiers of the
groups that it has entered, and works a tag's sign out of these and the tag's own. What comes out is
a property of the place alone: `-` if the leaf or a group around it is excluded, else `~` if one of
them is optional (`Place.sign`). No group that has been closed before the leaf, or opens behind it,
has a part in this.
-/

namespace TagSearch

open Text

/-! ## Signs and bodies -/

/-- The sign of a leaf by all modifiers on it and around it: `-` wins over `~`. -/
def Place.sign (place : Place) : Text :=
  let modifiers := (place.leaf :: place.groups).map Token.modifier
  if some .mustNot ∈ modifiers then ['-']
  else if some .should ∈ modifiers then ['~']
  else []

/-- A body as written, a plain tag by its canonical name if `normalize` says so. A group has no body
to be written. -/
def Body.written (normalize : Bool) (canonical : Text → Text) : Body → Text
  | .tag text => if normalize then canonical (tagName text) else text
  | .metatag name value quoted => metatagText name value quoted
  | .group _ => []

theorem Body.IsWrittenAs.eq_written {body : Body} {text : Text} (h : body.IsWrittenAs text)
    (hleaf : ∀ source, body ≠ .group source) (canonical : Text → Text) :
    text = body.written false canonical := by
  cases h with
  | tag text => rfl
  | metatag name value quoted => rfl
  | group _ _ => exact absurd rfl (hleaf _)

namespace Scan

variable {options : Options} {canonical : Text → Text}

theorem tagText_eq {token : Token} (hwritten : token.body.IsWrittenAs token.bodyText)
    (hleaf : ∀ source, token.body ≠ .group source) (outer : List Modifier) :
    tagText options canonical outer token
      = tagSign options outer token.modifier
        ++ token.body.written options.normalizeTags canonical := by
  rw [tagText, hwritten.eq_written hleaf canonical]
  cases hbody : token.body with
  | tag text => rfl
  | metatag name value quoted => rfl
  | group source => exact absurd hbody (hleaf source)

/-- The modifiers that are kept on the way to a leaf are those of the groups around it. -/
theorem outerOf_distributed (hdistribute : options.distributeModifiers = true)
    (groups : List Token) : outerOf options groups = groups.filterMap Token.modifier := by
  induction groups using List.reverseRecOn with
  | nil => rfl
  | append_singleton groups group ih =>
    rw [outerOf_concat, ih, inner, if_pos hdistribute, List.filterMap_append]
    cases hmodifier : group.modifier <;> simp [hmodifier]

/-- **The sign of a leaf is that of its place.** -/
theorem tagSign_distributed (hdistribute : options.distributeModifiers = true)
    (hstrip : options.stripModifiers = false) (place : Place) :
    tagSign options (outerOf options place.groups) place.leaf.modifier = place.sign := by
  have hchain : outerOf options place.groups ++ place.leaf.modifier.toList
      = (place.groups ++ [place.leaf]).filterMap Token.modifier := by
    rw [outerOf_distributed hdistribute, List.filterMap_append]
    cases hmodifier : place.leaf.modifier <;> simp [hmodifier]
  have hmem (m : Modifier) : m ∈ (place.groups ++ [place.leaf]).filterMap Token.modifier
      ↔ some m ∈ (place.leaf :: place.groups).map Token.modifier := by
    simp [or_comm, eq_comm]
  unfold tagSign Place.sign effectiveModifier
  simp only [hstrip, hdistribute, Bool.false_eq_true, if_false, if_true, hchain, ← hmem,
    List.contains_iff_mem]
  split
  · rfl
  · next hnot =>
    -- without a `-` all that can be in force is `~`
    cases hall : (place.groups ++ [place.leaf]).filterMap Token.modifier with
    | nil => rfl
    | cons m rest =>
      rw [hall] at hnot
      cases m with
      | mustNot => simp at hnot
      | should => simp [Modifier.text, Modifier.toChar]

variable (options canonical)

/-- **Distributed modifiers are a property of the place.** If repeats are kept and nothing is
sorted, a scan that distributes modifiers and succeeds writes the marks of the search in document
order: the parentheses of groups bare, if groups are delimited at all, and every leaf that the limit
has left as its sign and its body. -/
theorem scan_distributed (search : Text) (items : List Item)
    (hdistribute : options.distributeModifiers = true) (hstrip : options.stripModifiers = false)
    (hkeep : options.dropRepeats = false) (hsort : options.sortLevels = false)
    (h : scan options canonical search = .ok items) :
    let trees := Tree.ofText (cleanSearch search)
    let limit := min options.depthLimit 10
    let marks := Tree.marksOf [] (Tree.cutOf limit options.baseDepth trees)
    Item.tagsOf items = marks.filterMap (fun
        | .leaf place =>
          some (place.sign ++ place.leaf.body.written options.normalizeTags canonical)
        | .opening _ => if options.delimitGroups then some ['('] else none
        | .closing => if options.delimitGroups then some [')'] else none)
      ∧ marks.filterMap Mark.place? = (Tree.placesOf [] trees).filter fun place =>
          place.groups = [] ∨ options.baseDepth + place.groups.length ≤ limit := by
  intro trees limit marks
  refine ⟨?_, Tree.filterMap_marksOf_cutOf limit options.baseDepth trees⟩
  rw [tagsOf_scan canonical (undisturbed_eq hkeep hsort) h]
  refine List.filterMap_congr ?_
  intro mark hmark
  have hsign (modifier : Option Modifier) : groupSign options modifier = [] := by
    simp [groupSign, hdistribute]
  cases mark with
  | opening group => simp [written, hsign]
  | closing => rfl
  | leaf place =>
    obtain ⟨⟨level, hlevel⟩, hleaf⟩ := Tree.read_of_mem_marksOf hmark
    rw [written, tagText_eq (Token.written_of_mem hlevel).2 hleaf,
      tagSign_distributed hdistribute hstrip]

/-- Groups next to each other and inside each other, a quoted metatag, a tag to be normalized and a
group past the limit: the `-` reaches `B` through `~( .. )` and ends where its group does. -/
theorem scan_distributed_nested :
    let options : Options :=
      { flatten := false, distributeModifiers := true, normalizeTags := true, depthLimit := 2 }
    let search := "-( a ~( B x:\"C d\" ( e ) ) ~c ) ~( D -f g ) h".toList
    ∃ items, scan options id search = .ok items
      ∧ Item.tagsOf items = ["(", "-a", "(", "-b", "-x:\"C d\"", "(", ")", ")", "-c", ")",
          "(", "~d", "-f", "~g", ")", "h"].map String.toList := by
  intro options search
  obtain ⟨items, hscan⟩ := scan_silent options id rfl search
  refine ⟨items, hscan, ?_⟩
  rw [(scan_distributed options id search items rfl rfl rfl rfl hscan).1]
  decide +kernel

end Scan

end TagSearch
