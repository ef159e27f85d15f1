import TagSearch.Proofs.Casing
import TagSearch.Proofs.Slices
import TagSearch.Proofs.Weights

/-!
# The tags that a token stands for

A token stands for tags if it is no group and no metatag that means something where it stands. Its
modifier says which clause the tags belong to, and a `*` behind the modifier asks the lookup for
them. `contributed` says so of the parts that the lexer found: the modifier, the body and the text
behind the modifier.

The compiler has none of these parts in hand. It looks for the modifier a second time, in the whole
text of the token and after lowercasing. On what the lexer reads this comes to the same
(`plainTags_eq`): a sign that is no modifier stands alone, and lowercasing neither makes a sign nor
looks across one.
-/

namespace TagSearch

open Text Lexer

/-! ## Tags as tokens -/

namespace Token

/-- Whether a token is taken as tags. A metatag is taken so if its name is not known, if it has no
value, or if it does not go with the modifier. -/
def isTag (token : Token) : Bool :=
  match token.body with
  | .tag _ => true
  | .metatag name value _ => isWhite value || !(Metatag.ofName? name).any (·.accepts token.clause)
  | .group _ => false

/-- The tag that a token names: what stands behind the modifier, in lowercase. -/
def plainTag (token : Token) : Text :=
  token.bodyText.lowercase

theorem isTag_of_metatag? {token : Token} {m : Metatag} {value : Text}
    (h : Compiler.metatag? token = some (m, value)) : token.isTag = false := by
  unfold Compiler.metatag? at h
  split at h
  · next name value' quoted hbody =>
    split at h
    · simp at h
    · next hvalue =>
      obtain ⟨known, hknown, -⟩ := Option.map_eq_some_iff.mp h
      obtain ⟨hname, haccepts⟩ := Option.filter_eq_some_iff.mp hknown
      simp [isTag, hbody, hvalue, hname, haccepts]
  · simp at h

theorem isTag_of_group? {token : Token} {source : Text} (h : token.group? = some source) :
    token.isTag = false := by
  unfold group? at h
  split at h
  · next hbody => simp [isTag, hbody]
  · simp at h

theorem isTag_of_leaf {token : Token} (hleaf : token.group? = none)
    (h : Compiler.metatag? token = none) : token.isTag = true := by
  unfold isTag
  split
  · rfl
  · next name value quoted hbody =>
    simp only [Compiler.metatag?, hbody] at h
    cases hvalue : isWhite value with
    | true => rfl
    | false =>
      simp only [hvalue, Bool.false_eq_true, if_false, Option.map_eq_none_iff,
        Option.filter_eq_none_iff] at h
      cases hname : Metatag.ofName? name with
      | none => rfl
      | some m => simpa using h m hname
  · next source hbody => simp [group?, hbody] at hleaf

/-! ## Modifiers as the lexer reads them -/

namespace IsRead

variable {token : Token}

theorem text_eq (h : token.IsRead) :
    token.text = Modifier.text token.modifier ++ token.bodyText := by
  obtain ⟨t, ht⟩ := h
  exact (written_of_mem ht).1

theorem bodyText_ne_nil (h : token.IsRead) : token.bodyText ≠ [] := by
  obtain ⟨t, ht⟩ := h
  obtain ⟨⟨rest, hreads⟩, hne⟩ := exists_reads_of_mem_tokensFrom ht
  obtain ⟨body, hbody, htext, -⟩ := (reads_iff hne).mp hreads
  rwa [bodyText, htext, List.drop_left]

theorem plainTag_ne_nil (h : token.IsRead) : token.plainTag ≠ [] :=
  lowercase_ne_nil h.bodyText_ne_nil

/-- A sign at the start of a token without a modifier is the whole token. -/
theorem eq_nil_of_sign (h : token.IsRead) (hmodifier : token.modifier = none) {m : Modifier}
    {tail : Text} (htext : token.text = m.toChar :: tail) : tail = [] := by
  obtain ⟨t, ht⟩ := h
  obtain ⟨⟨rest, hreads⟩, hne⟩ := exists_reads_of_mem_tokensFrom ht
  obtain ⟨body, -, hbody, htake, hread⟩ := (reads_iff hne).mp hreads
  obtain rfl : token.text = body := by simpa [hmodifier, Modifier.text] using hbody
  rw [htext] at htake hread
  by_contra htail
  obtain ⟨d, tail, rfl⟩ := List.exists_cons_of_ne_nil htail
  -- only a blank keeps the sign from being a modifier, and a blank ends the run
  have hblank : isBlank d = true := by
    by_contra hsolid
    simp [takeModifier, hsolid, hmodifier] at htake
  have hmetatag : takeMetatag? (m.toChar :: d :: tail ++ rest) = none := by
    have hdrop : (m.toChar :: d :: tail ++ rest).dropWhile isNameChar
        = m.toChar :: d :: tail ++ rest :=
      List.dropWhile_cons_of_neg (by simp [not_isNameChar_toChar])
    unfold takeMetatag?
    rw [hdrop]
    cases m <;> rfl
  have hgroup : takeGroup? (m.toChar :: d :: tail ++ rest) = none :=
    takeGroup?_of_not_opens (by cases m <;> rfl)
  rw [readBody_of_run hmetatag hgroup] at hread
  simp [run, hblank] at hread

/-- The same of the token in lowercase. -/
theorem eq_nil_of_plainTag (h : token.IsRead) (hmodifier : token.modifier = none) {m : Modifier}
    {tail : Text} (htag : token.plainTag = m.toChar :: tail) : tail = [] := by
  have htext : token.bodyText = token.text := by simp [h.text_eq, hmodifier, Modifier.text]
  have hhead : m.toChar ∈ token.text.head? := by
    refine head?_of_lowercase (not_mem_lowered_toChar m) ?_
    rw [← htext]
    exact Option.mem_def.mpr (congrArg List.head? htag)
  obtain ⟨rest, hrest⟩ := List.head?_eq_some_iff.mp hhead
  rw [plainTag, htext, hrest, h.eq_nil_of_sign hmodifier hrest, lowercase_signed] at htag
  exact (List.cons.inj htag).2.symm

end IsRead

end Token

/-! ## What tokens contribute -/

namespace Compiler

/-- What a wildcard stands for: the tags that the lookup answers with, or a tag that says that there
are none. -/
def matched (c : Compiler) (wildcard : Text) : List Text :=
  let found := c.resolver.records.wildcardTags wildcard
    (c.settings.wildcardLimit.getD c.settings.maxTags)
  if found = [] then ["~~not_found~~".toList] else found

/-- The clause that a token belongs to as tags, and the tags. Without a modifier a wildcard is
optional; behind a `~` it is taken literally. -/
def placed (c : Compiler) (token : Token) : Clause × List Text :=
  match token.modifier with
  | none =>
    if '*' ∈ token.plainTag then (.should, c.matched token.plainTag) else (.must, [token.plainTag])
  | some .mustNot =>
    (.mustNot, if '*' ∈ token.plainTag then c.matched token.plainTag else [token.plainTag])
  | some .should => (.should, [token.plainTag])

/-- The tags that a token contributes to a clause. -/
def contributed (c : Compiler) (clause : Clause) (token : Token) : List Text :=
  if token.isTag ∧ (c.placed token).1 = clause then (c.placed token).2 else []

variable {c : Compiler}

theorem contributed_of_isTag {token : Token} (h : token.isTag = true) (clause : Clause) :
    c.contributed clause token
      = if (c.placed token).1 = clause then (c.placed token).2 else [] := by
  simp [contributed, h]

theorem contributed_of_not_isTag {token : Token} (h : token.isTag = false) (clause : Clause) :
    c.contributed clause token = [] := by
  simp [contributed, h]

theorem expand_eq (c : Compiler) (wildcard : Text) : c.expand wildcard = c.matched wildcard := by
  unfold expand matched Settings.wildcards
  split
  · next hnone => exact (if_pos hnone).symm
  · next hsome => exact (if_neg hsome).symm

/-- **The tags that are read off the text of a token are those that it stands for.** -/
theorem plainTags_eq (c : Compiler) {token : Token} (h : token.IsRead) :
    c.plainTags token.text = c.placed token := by
  have htext := h.text_eq
  obtain ⟨d, tail, htag⟩ := List.exists_cons_of_ne_nil h.plainTag_ne_nil
  cases hmodifier : token.modifier with
  | none =>
    have hlower : token.text.lowercase = token.plainTag := by
      rw [htext, hmodifier]
      rfl
    unfold plainTags
    rw [hlower]
    split
    · next hsign => exact absurd (h.eq_nil_of_plainTag hmodifier (m := .mustNot) hsign) (by simp)
    · next hsign => exact absurd (h.eq_nil_of_plainTag hmodifier (m := .should) hsign) (by simp)
    · simp only [placed, hmodifier, List.contains_iff_mem, expand_eq]
  | some m =>
    have hlower : token.text.lowercase = m.toChar :: token.plainTag := by
      rw [htext, hmodifier]
      exact lowercase_signed m token.bodyText
    unfold plainTags
    rw [hlower]
    cases m with
    | mustNot =>
      simp only [Modifier.toChar, placed, hmodifier, htag, List.contains_iff_mem, expand_eq]
    | should => simp only [Modifier.toChar, placed, hmodifier, htag]

end Compiler

end TagSearch
