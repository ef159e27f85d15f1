import TagSearch.Proofs.Marks
import TagSearch.Proofs.Slices
import TagSearch.Proofs.Unwrapping

/-!
# Looking tags up

Tags are looked up among entries. An entry that is one whole group is scanned, and the scan drops
repeats: strings that a level already has, and groups that print the strings of another group, even
if these are nested in another way. No leaf is lost by that (`mem_scan_iff`), and what is found
keeps the order of what was scanned (`tags_complete`).

The scan cleans what it is given. A group starts and ends with a character that joins with no other,
so a group that stands in a clean entry is clean on its own (`IsClean.trim`).
-/

namespace TagSearch

open Text Lexer

/-! ## Whole groups -/

/-- The text is one token, and this is a group. -/
def IsOneGroup (t : Text) : Prop :=
  ∃ token, tokenize t = [token] ∧ token.isGroup = true

/-- **A group as long as the text is all of the text.** -/
theorem Lookup.isWholeGroup_iff {t : Text} (ht : StartsSolid t ∧ EndsSolid t) :
    isWholeGroup t = true ↔ IsOneGroup t := by
  constructor
  · intro h
    have hne : t ≠ [] := by
      rintro rfl
      simp [isWholeGroup, tokenize] at h
    have htokens := tokensFrom_solid hne ht.1 0
    rw [isWholeGroup, tokenize, htokens, Bool.and_eq_true, beq_iff_eq] at h
    have hrest : (readToken 0 t).2 = [] := by
      by_contra hrest
      have hlength := congrArg byteLength (readToken_eq 0 t)
      have hpos := byteLength_pos hrest
      rw [byteLength_append] at hlength
      omega
    rw [hrest, tokensFrom_nil] at htokens
    exact ⟨_, htokens, h.1⟩
  · rintro ⟨token, htokens, hgroup⟩
    rw [isWholeGroup, htokens, eq_text_of_tokenize htokens ht]
    simp [hgroup]

/-- A text after trimming neither starts nor ends with a blank. -/
theorem solid_trim (t : Text) : StartsSolid t.trim ∧ EndsSolid t.trim := by
  have hsolid {c : Char} (h : isSpace c = false) : isBlank c = false := by
    by_contra hblank
    rw [isSpace_of_isBlank (by simpa using hblank)] at h
    exact absurd h (by decide)
  exact ⟨fun c hc => hsolid (trimBy_head? hc), fun c hc => hsolid (trimBy_getLast? hc)⟩

/-- White space around a clean group may be taken away. -/
theorem IsClean.trim {entry : Text} (h : IsClean entry) (hgroup : IsOneGroup entry.trim) :
    IsClean entry.trim := by
  obtain ⟨token, htokens, hgroup⟩ := hgroup
  obtain ⟨source, hbody⟩ := Token.isGroup_iff.mp hgroup
  obtain ⟨⟨rest, hreads⟩, hne⟩ :=
    exists_reads_of_mem_tokensFrom (htokens ▸ List.mem_singleton_self token)
  obtain ⟨inside, htext, -, -⟩ := hreads.exists_group hne hbody
  obtain ⟨left, right, hentry, -, -⟩ := exists_trimBy isSpace entry
  have htrim : entry.trim = Modifier.text token.modifier ++ '(' :: (inside ++ [')']) :=
    (eq_text_of_tokenize htokens (solid_trim entry)).trans htext
  have hwhole : entry
      = left ++ Modifier.text token.modifier ++ '(' :: (inside ++ ')' :: right) := by
    have hpadded : entry = left ++ entry.trim ++ right := hentry
    rw [htrim] at hpadded
    simpa using hpadded
  refine h.of_pieces ?_
  intro P hP hentry
  rw [hwhole, hP.cut (by decide), hP.cut (by decide)] at hentry
  rw [htrim, hP.cut (by decide), hP.concat (by decide)]
  exact ⟨hP.modifier _, hentry.2.1⟩

/-! ## The tags of an entry -/

namespace Lookup

variable {w : Text}

/-- Apart from the signs of groups, what is written is the text of a leaf. -/
theorem written_eq_some_iff {mark : Mark} (hminus : w ≠ ['-']) (htilde : w ≠ ['~'])
    (hread : ∀ place, mark.place? = some place → ∃ level, place.leaf ∈ tokenize level) :
    Scan.written tagOptions id mark = some w
      ↔ ∃ place, mark.place? = some place ∧ place.leaf.text = w := by
  cases mark with
  | opening group =>
    have hsign : Scan.written tagOptions id (.opening group) ≠ some w := by
      intro hw
      rcases hmodifier : group.modifier with _ | _ | _ <;>
        simp_all [Scan.written, Scan.groupSign, tagOptions, Modifier.text, Modifier.toChar]
    simp [hsign, Mark.place?]
  | closing => simp [Scan.written, tagOptions, Mark.place?]
  | leaf place =>
    obtain ⟨level, hlevel⟩ := hread place rfl
    have htext (outer : List Modifier) :
        Scan.tagText tagOptions id outer place.leaf = place.leaf.text := by
      rw [(Token.written_of_mem hlevel).1, Scan.tagText]
      cases place.leaf.body <;> rfl
    simp [Scan.written, Mark.place?, htext]

/-- **Every leaf of a search is found, whatever is dropped.** The leaves are those that have at most
ten groups around them. -/
theorem mem_scan_iff {t : Text} (hclean : cleanSearch t = t) (hminus : w ≠ ['-'])
    (htilde : w ≠ ['~']) {items : List Scan.Item} (h : Scan.scan tagOptions id t = .ok items) :
    w ∈ Scan.Item.tagsOf items
      ↔ ∃ place ∈ Tree.placesOf [] (Tree.ofText t), place.groups.length ≤ 10
          ∧ place.leaf.text = w := by
  let marks := Tree.marksOf [] (Tree.cutOf 10 0 (Tree.ofText t))
  have hread : ∀ mark ∈ marks, ∀ place, mark.place? = some place →
      ∃ level, place.leaf ∈ tokenize level := by
    intro mark hmark place hplace
    cases mark with
    | leaf _ => exact Option.some.inj hplace ▸ (Tree.read_of_mem_marksOf hmark).1
    | opening _ => cases hplace
    | closing => cases hplace
  have hreached (place : Place) : place.groups = [] ∨ 0 + place.groups.length ≤ 10
      ↔ place.groups.length ≤ 10 := by
    rw [Nat.zero_add, or_iff_right_iff_imp]
    intro hnone
    simp [hnone]
  have hscan := Scan.tagsOf_scan id Scan.undisturbed_mem h w
  rw [hclean] at hscan
  calc w ∈ Scan.Item.tagsOf items
    _ ↔ ∃ mark ∈ marks, Scan.written tagOptions id mark = some w :=
      hscan.trans List.mem_filterMap
    _ ↔ ∃ mark ∈ marks, ∃ place, mark.place? = some place ∧ place.leaf.text = w :=
      exists_congr fun mark => and_congr_right fun hmark =>
        written_eq_some_iff hminus htilde (hread mark hmark)
    _ ↔ ∃ place ∈ marks.filterMap Mark.place?, place.leaf.text = w := by
      simp only [List.mem_filterMap]
      constructor
      · rintro ⟨mark, hmark, place, hplace, hw⟩
        exact ⟨place, ⟨mark, hmark, hplace⟩, hw⟩
      · rintro ⟨place, ⟨mark, hmark, hplace⟩, hw⟩
        exact ⟨mark, hmark, place, hplace, hw⟩
    _ ↔ _ := by
      simp only [marks, Tree.filterMap_marksOf_cutOf, List.mem_filter, decide_eq_true_eq,
        hreached, and_assoc]

/-- The texts that are looked through for an entry: what a scan without repeats prints of a whole
group, and any other entry as it is. -/
inductive Searched (entry : Text) : List Text → Prop where
  | group {items : List Scan.Item} (h : IsOneGroup entry.trim)
    (hscan : Scan.scan { dropRepeats := true, delimitGroups := false } id entry.trim = .ok items) :
    Searched entry (Scan.Item.tagsOf items)
  | alone (h : ¬ IsOneGroup entry.trim) : Searched entry [entry.trim]

/-- An entry is looked through as it should be: the items of a flat scan are all tags. -/
theorem searched_entryTags (entry : Text) : Searched entry (entryTags entry) := by
  by_cases hgroup : IsOneGroup entry.trim
  · obtain ⟨nested, hnested⟩ :=
      Scan.scan_silent { tagOptions with flatten := false } id rfl entry.trim
    have hflat : Scan.scan tagOptions id entry.trim = .ok (Scan.flattened nested) := by
      have hscan := Scan.scan_flattened tagOptions id entry.trim
      rw [hnested] at hscan
      exact hscan
    have htags : entryTags entry = Scan.Item.tagsOf (Scan.flattened nested) := by
      rw [entryTags, if_pos ((isWholeGroup_iff (solid_trim entry)).mpr hgroup), hflat,
        Scan.tagsOf_flattened]
      simp [Scan.flattened, List.filterMap_map]
    rw [htags]
    exact .group hgroup hflat
  · have htags : entryTags entry = [entry.trim] := by
      rw [entryTags, if_neg (mt (isWholeGroup_iff (solid_trim entry)).mp hgroup)]
    rw [htags]
    exact .alone hgroup

theorem Searched.mem_iff {entry : Text} {texts : List Text} (h : Searched entry texts)
    (hclean : IsClean entry) (hminus : w ≠ ['-']) (htilde : w ≠ ['~']) :
    w ∈ texts ↔ (¬ IsOneGroup entry.trim ∧ entry.trim = w)
      ∨ (IsOneGroup entry.trim ∧ ∃ place ∈ Tree.placesOf [] (Tree.ofText entry.trim),
          place.groups.length ≤ 10 ∧ place.leaf.text = w) := by
  cases h with
  | group h hscan =>
    have hsame := cleanSearch_eq_self (hclean.trim h) (solid_trim entry).1 (solid_trim entry).2
    rw [mem_scan_iff hsame hminus htilde hscan]
    simp [h]
  | alone h => simp [h, eq_comm]

/-- **Looking tags up finds every leaf of every group, in spite of dropping repeats.** Among clean
entries, what is found comes once, is wanted, and is an entry that is no group or the text of a leaf
that stands in one, under at most ten groups; it comes in the order in which it first appears in
what is scanned. The bare signs are not to be looked for. -/
theorem tags_complete (entries wanted : List Text) (hclean : ∀ entry ∈ entries, IsClean entry)
    (hminus : ['-'] ∉ wanted) (htilde : ['~'] ∉ wanted) :
    let found := tags entries wanted true
    found.Nodup
      ∧ (∀ w, w ∈ found ↔ w ∈ wanted ∧ ∃ entry ∈ entries,
          (¬ IsOneGroup entry.trim ∧ entry.trim = w)
            ∨ (IsOneGroup entry.trim ∧ ∃ place ∈ Tree.placesOf [] (Tree.ofText entry.trim),
                place.groups.length ≤ 10 ∧ place.leaf.text = w))
      ∧ ∃ searched, List.Forall₂ Searched entries searched
          ∧ found.Pairwise fun a b => searched.flatten.idxOf a < searched.flatten.idxOf b := by
  intro found
  have hfound : found = ((entries.flatMap entryTags).filter wanted.contains).eraseDups := if_pos rfl
  refine ⟨hfound ▸ nodup_eraseDups _, ?_, entries.map entryTags, ?_, ?_⟩
  · intro w
    rw [hfound, List.mem_eraseDups, List.mem_filter, List.contains_iff_mem, List.mem_flatMap,
      and_comm]
    refine and_congr_right fun hw => exists_congr fun entry => and_congr_right fun hentry => ?_
    exact (searched_entryTags entry).mem_iff (hclean entry hentry)
      (fun h => hminus (h ▸ hw)) (fun h => htilde (h ▸ hw))
  · exact List.forall₂_map_right_iff.mpr (List.forall₂_same.mpr fun entry _ =>
      searched_entryTags entry)
  · rw [hfound, ← List.flatMap_def]
    exact eraseDups_inOrder _ _

/-- Two groups that print the same strings and are not nested alike, of which the scan keeps the
first, and an entry that starts with a group but is more than it. -/
theorem tags_complete_merged :
    let group : Text := "\u00a0-( ( b c ) ( b ( c ) ) -d ) ".toList
    let more : Text := "( x ) y".toList
    let wanted := [more, "c".toList, "x".toList]
    (∀ entry ∈ [group, more], IsClean entry) ∧ ['-'] ∉ wanted ∧ ['~'] ∉ wanted
      ∧ "c".toList ∈ tags [group, more] wanted true ∧ more ∈ tags [group, more] wanted true := by
  intro group more wanted
  have hclean : ∀ entry ∈ [group, more], IsClean entry := by
    intro entry hentry
    simp only [List.mem_cons, List.not_mem_nil, or_false] at hentry
    have hnoNul : entry.all (· != '\x00') = true := by
      rcases hentry with rfl | rfl <;> decide +kernel
    refine ⟨?_, fun c hc => by simpa using List.all_eq_true.mp hnoNul c hc⟩
    rcases hentry with rfl | rfl <;> decide +kernel
  have hminus : ['-'] ∉ wanted := by decide +kernel
  have htilde : ['~'] ∉ wanted := by decide +kernel
  have hgroup : IsOneGroup group.trim :=
    (isWholeGroup_iff (solid_trim group)).mp (by decide +kernel)
  have hmore : ¬ IsOneGroup more.trim :=
    mt (isWholeGroup_iff (solid_trim more)).mpr (by decide +kernel)
  have hplace : (Tree.placesOf [] (Tree.ofText group.trim)).any
      (fun place => place.groups.length ≤ 10 && place.leaf.text == "c".toList) = true := by
    decide +kernel
  simp only [List.any_eq_true, Bool.and_eq_true, decide_eq_true_eq, beq_iff_eq] at hplace
  obtain ⟨-, hfound, -⟩ := tags_complete [group, more] wanted hclean hminus htilde
  refine ⟨hclean, hminus, htilde, (hfound _).mpr ⟨?_, ?_⟩, (hfound _).mpr ⟨?_, ?_⟩⟩
  · exact List.mem_cons_of_mem _ List.mem_cons_self
  · exact ⟨group, List.mem_cons_self, .inr ⟨hgroup, hplace⟩⟩
  · exact List.mem_cons_self
  · exact ⟨more, List.mem_cons_of_mem _ List.mem_cons_self, .inl ⟨hmore, by decide +kernel⟩⟩

end Lookup

end TagSearch
