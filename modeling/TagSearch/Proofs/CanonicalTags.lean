import TagSearch.Proofs.CanonicalForm
import TagSearch.Proofs.Chains
import TagSearch.Proofs.PlainTags
import TagSearch.Record.Index

/-!
# Tags come out canonical and once

Repeats are dropped twice: among the tags as they were written, and once more after each of them was
replaced by its canonical name. The two together are as good as one: the tags of a clause are the
canonical names of all tags that the tokens of the level contribute, each at its first appearance.

Main statement: `compile_canonical_tags`.
-/

namespace TagSearch

namespace Clauses

/-- Adding items to a clause that has each item once adds their first appearances. -/
theorem get_foldl_pushNew (clause other : Clause) {items before : List Text} {cs : Clauses Text}
    (h : cs.get other = before.eraseDups) :
    (items.foldl (fun all tag => all.pushNew clause tag) cs).get other
      = (before ++ if clause = other then items else []).eraseDups := by
  induction items generalizing cs before with
  | nil => simpa using h
  | cons item rest ih =>
    rw [List.foldl_cons]
    by_cases hother : clause = other
    · subst hother
      have hnext : (cs.pushNew clause item).get clause = (before ++ [item]).eraseDups := by
        have hmem : before.eraseDups.contains item = before.contains item := by
          rw [Bool.eq_iff_iff, List.contains_iff_mem, List.contains_iff_mem, List.mem_eraseDups]
        rw [pushNew, eraseDups_concat, h, hmem]
        split
        · exact h
        · rw [push, get_set_same, h]
      rw [ih hnext]
      simp
    · have hnext : (cs.pushNew clause item).get other = before.eraseDups := by
        rw [pushNew]
        split
        · exact h
        · rw [push, get_set_other _ _ (Ne.symm hother), h]
      rw [ih hnext]
      simp [hother]

end Clauses

namespace Compiler

variable {c : Compiler}

/-! ## What tokens contribute -/

/-- A token that is added adds the first appearances of what it contributes. -/
theorem addToken_tags {q q' : Query} {token : Token} (hread : token.IsRead)
    (hleaf : token.group? = none) (h : c.addToken q token = .ok q') {clause : Clause}
    {before : List Text} (hq : q.tags.get clause = before.eraseDups) :
    q'.tags.get clause = (before ++ c.contributed clause token).eraseDups := by
  rcases addToken_cases h with ⟨m, value, changes, hm, _, rfl⟩ | ⟨hm, rfl⟩
  · rw [contributed_of_not_isTag (Token.isTag_of_metatag? hm), List.append_nil]
    exact hq
  · rw [contributed_of_isTag (Token.isTag_of_leaf hleaf hm), ← plainTags_eq c hread]
    exact Clauses.get_foldl_pushNew _ clause hq

theorem Added.tags {level : Level} {q q' : Query} {token : Token} (hread : token.IsRead)
    (h : c.Added (c.inside level) level q token q') {clause : Clause} {before : List Text}
    (hq : q.tags.get clause = before.eraseDups) :
    q'.tags.get clause = (before ++ c.contributed clause token).eraseDups := by
  cases h with
  | leaf hleaf hadd => exact addToken_tags hread hleaf hadd hq
  | counted hgroup | built hgroup | overrun hgroup | cut hgroup =>
    rw [contributed_of_not_isTag (Token.isTag_of_group? hgroup), List.append_nil]
    exact hq

/-- **The tags of a level are the first appearances of what its tokens contribute.** -/
theorem Reaches.tags {level : Level} {tokens : List Token} {q : Query}
    (h : c.Reaches level tokens q) (hread : ∀ token ∈ tokens, token.IsRead) (clause : Clause) :
    q.tags.get clause = (tokens.flatMap (c.contributed clause)).eraseDups := by
  induction h with
  | nil => cases clause <;> rfl
  | snoc _ hadded ih =>
    obtain ⟨hbefore, htoken⟩ := List.forall_mem_append.mp hread
    simpa using hadded.tags (List.forall_mem_singleton.mp htoken) (ih hbefore)

theorem finished_tags {level : Level} (hresolve : level.resolveAliases = true) (q : Query)
    (clause : Clause) :
    (c.finished level q).tags.get clause
      = ((q.tags.get clause).map c.resolver.canonical).eraseDups := by
  rw [finished, if_pos hresolve]
  cases clause <;> rfl

/-- The tags of what a level yields are the canonical names of what its tokens contribute. -/
theorem Yields.tags {level : Level} {text : Text} {whole : Bool} {taken : List Token} {q : Query}
    (h : c.Yields level text whole taken q) (hresolve : level.resolveAliases = true)
    (clause : Clause) :
    q.tags.get clause
      = ((taken.flatMap (c.contributed clause)).map c.resolver.canonical).eraseDups := by
  have hread := h.isRead
  obtain ⟨unwrapped, reached, hreached, rfl⟩ := h.exists_reached
  have hdeeper : (level.deeper unwrapped).resolveAliases = true := hresolve
  rw [finished_tags hdeeper, hreached.tags hread, eraseDups_map_eraseDups]

/-- The tags of a clause, as aliases and tokens determine them. -/
structure CanonicalTags (canonical : Text → Text) (contributed tags : List Text) : Prop where
  once : tags.Nodup
  fixed : ∀ tag ∈ tags, canonical tag = tag
  /-- In order of their first appearance. -/
  image : tags = (contributed.map canonical).eraseDups

theorem canonicalTags_eraseDups {canonical : Text → Text}
    (hfixed : ∀ tag, canonical (canonical tag) = canonical tag) (contributed : List Text) :
    CanonicalTags canonical contributed (contributed.map canonical).eraseDups where
  once := nodup_eraseDups _
  fixed := by
    intro tag htag
    obtain ⟨written, -, rfl⟩ := List.mem_map.mp (List.mem_eraseDups.mp htag)
    exact hfixed written
  image := rfl

/-- **Tags come out canonical and once.** If aliases are resolved by a table that any history of
edits led to, then in every query that a search hands out, with success or with an error, and in
every query inside it, the tags of a clause are the canonical names of what the tokens of its level
contribute, each once, in order of first appearance; and no canonical name is an alias. The tokens
are all tokens of the level if the search compiles, and else those up to where the level went over a
limit. -/
theorem compile_canonical_tags (c : Compiler) (edits : List AliasTable.Edit)
    (hresolve : c.settings.resolveAliases = true)
    (haliases : c.resolver.canonical = (edits.foldl AliasTable.after {}).canonicalize)
    {search : Text} {q : Query} (hreturns : c.Returns search q) :
    ∀ inner : Query, inner.Within q → ∃ level text whole taken,
      c.Sublevel (Level.root c.settings) search q level text inner
        ∧ c.Yields level text whole taken inner
        ∧ (c.compile search = .ok q → whole = true)
        ∧ ∀ clause, CanonicalTags c.resolver.canonical (taken.flatMap (c.contributed clause))
            (inner.tags.get clause) := by
  intro inner hwithin
  have hforest := AliasTable.isForest_of_edits edits
  have hfixed : ∀ tag,
      c.resolver.canonical (c.resolver.canonical tag) = c.resolver.canonical tag := by
    intro tag
    rw [haliases]
    exact AliasTable.follow_of_none (hforest.next?_canonicalize tag) _
  obtain ⟨whole, taken, hyields, hwhole⟩ := yields_of_returns hreturns
  obtain ⟨level, text, whole', taken', hsub, hinner, hwhole'⟩ := hyields.within hwithin
  have hlevel : level.resolveAliases = true := hsub.resolveAliases.trans hresolve
  refine ⟨level, text, whole', taken', hsub, hinner, fun hok => hwhole' (hwhole hok), ?_⟩
  intro clause
  rw [hinner.tags hlevel clause]
  exact canonicalTags_eraseDups hfixed _

/-- What comes with the error of a search. -/
def partly? (c : Compiler) (search : Text) : Option Query :=
  match c.compile search with
  | .ok _ => none
  | .error e => e.built?

theorem returns_of_partly? {search : Text} {q : Query} (h : c.partly? search = some q) :
    c.Returns search q := by
  unfold partly? at h
  split at h
  · cases h
  · next e herror => exact Or.inr ⟨e, herror, h⟩

/-- Knows three tags, the most used one first. -/
def catRecords : Records where
  __ := Records.none
  wildcardTags pattern limit :=
    (["kitty".toList, "tiger".toList, "cat".toList].filter (matchesGlob pattern)).take limit

/-- Resolves the aliases of some cats, takes five tags at most and hands on what it built. -/
def catCompiler : Compiler where
  settings := { maxTags := 5, processGroups := true, returnWithData := true }
  resolver := {
    canonical := (AliasTable.catEdits.foldl AliasTable.after {}).canonicalize
    records := catRecords }
  now := ⟨0⟩

/-- A search that goes over the limit inside its group. -/
def catSearch : Text := "a ( kitty KITTY -*t* ~*T* zebra* b )".toList

/-- The group is kept up to its fifth tag. The wildcard that is ruled out rules out three tags with
two names, the one behind `~` is a tag itself, and the last one matches nothing. -/
theorem compile_canonical_tags_cats :
    catCompiler.settings.resolveAliases = true
      ∧ ∃ q inner, catCompiler.Returns catSearch q ∧ inner.Within q
        ∧ inner.tags = {
            must := ["felis_catus".toList]
            mustNot := ["felis_catus".toList, "tiger".toList]
            should := ["*t*".toList, "~~not_found~~".toList] }
        ∧ ∃ level text whole taken,
          catCompiler.Sublevel (Level.root catCompiler.settings) catSearch q level text inner
            ∧ catCompiler.Yields level text whole taken inner
            ∧ ∀ clause, CanonicalTags catCompiler.resolver.canonical
                (taken.flatMap (catCompiler.contributed clause)) (inner.tags.get clause) := by
  have hbuilt : (do
      let q ← catCompiler.partly? catSearch
      let entry ← q.groups.must[0]?
      let inner ← entry.query?
      return inner.tags) = some {
        must := ["felis_catus".toList]
        mustNot := ["felis_catus".toList, "tiger".toList]
        should := ["*t*".toList, "~~not_found~~".toList] } := by
    decide +kernel
  obtain ⟨q, hq, hbuilt⟩ := Option.bind_eq_some_iff.mp hbuilt
  obtain ⟨entry, hentry, hbuilt⟩ := Option.bind_eq_some_iff.mp hbuilt
  obtain ⟨inner, hinner, hbuilt⟩ := Option.bind_eq_some_iff.mp hbuilt
  have hreturns : catCompiler.Returns catSearch q := returns_of_partly? hq
  have hmem : entry ∈ q.groups.get .must := List.mem_of_getElem? hentry
  have hwithin : inner.Within q := .group hmem hinner .self
  obtain ⟨level, text, whole, taken, hsub, hyields, -, hcanonical⟩ :=
    compile_canonical_tags catCompiler AliasTable.catEdits rfl rfl hreturns inner hwithin
  exact ⟨rfl, q, inner, hreturns, hwithin, Option.some.inj hbuilt, level, text, whole, taken, hsub,
    hyields, hcanonical⟩

end Compiler

end TagSearch
