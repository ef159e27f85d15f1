import Mathlib
import TagSearch.Proofs.Ordering
import TagSearch.Proofs.Pieces
import TagSearch.Record.Index

/-!
# Tags that match a wildcard

A pattern is cut at its stars, and a tag matches if it consists of the pieces with a gap on one line
between neighbours (`matchesParts_iff`). That is what `Glob` says of stars one by one, as long as the
tag itself is on one line (`matchesGlob_iff`); and so are all names of an index, in which every white
space became `_` (`isOrdered_of_ofFile`).

Main statement: `wildcardTags_ranked`.
-/

namespace TagSearch

open Text

/-! ## Stars and gaps -/

/-- A text matches a pattern in which `*` stands for any text, the empty one included, and every other
character for itself. -/
inductive Glob : (pattern t : Text) → Prop
  | nil : Glob [] []
  | star {pattern rest : Text} (gap : Text) (h : Glob pattern rest) :
    Glob ('*' :: pattern) (gap ++ rest)
  | literal {c : Char} {pattern rest : Text} (hc : c ≠ '*') (h : Glob pattern rest) :
    Glob (c :: pattern) (c :: rest)

/-- A text consists of parts, in order, with gaps on one line between neighbours. -/
inductive Gapped : (parts : List Text) → (t : Text) → Prop
  | last (part : Text) : Gapped [part] part
  | gap {parts : List Text} {rest : Text} (part gap : Text) (hgap : '\n' ∉ gap)
    (h : Gapped parts rest) : Gapped (part :: parts) (part ++ (gap ++ rest))

section Matching

variable {t part pattern : Text} {parts : List Text}

theorem passesAfterGap_iff {test : Text → Bool} : passesAfterGap test t = true
    ↔ ∃ gap rest, t = gap ++ rest ∧ '\n' ∉ gap ∧ test rest = true := by
  induction t with
  | nil =>
    simp only [passesAfterGap]
    constructor
    · intro h
      exact ⟨[], [], rfl, by simp, h⟩
    · rintro ⟨gap, rest, heq, -, h⟩
      rwa [(List.append_eq_nil_iff.mp heq.symm).2] at h
  | cons c t ih =>
    simp only [passesAfterGap, Bool.or_eq_true, Bool.and_eq_true, bne_iff_ne, ih]
    constructor
    · rintro (h | ⟨hc, gap, rest, rfl, hgap, h⟩)
      · exact ⟨[], c :: t, rfl, by simp, h⟩
      · exact ⟨c :: gap, rest, rfl, by simpa [Ne.symm hc] using hgap, h⟩
    · rintro ⟨gap, rest, heq, hgap, h⟩
      cases gap with
      | nil =>
        obtain rfl : c :: t = rest := heq
        exact Or.inl h
      | cons d gap =>
        obtain ⟨rfl, rfl⟩ := List.cons.inj heq
        rw [List.mem_cons, not_or] at hgap
        exact Or.inr ⟨Ne.symm hgap.1, gap, rest, rfl, hgap.2, h⟩

theorem dropStart?_eq_some_iff {rest : Text} : dropStart? part t = some rest ↔ t = part ++ rest := by
  unfold dropStart?
  constructor
  · intro h
    split at h
    · next hpart =>
      obtain ⟨more, rfl⟩ := List.isPrefixOf_iff_prefix.mp hpart
      simpa using h
    · simp at h
  · rintro rfl
    simp

theorem Gapped.ne_nil (h : Gapped parts t) : parts ≠ [] := by
  cases h <;> simp

/-- **The matcher looks for the parts and the gaps between them.** -/
theorem matchesParts_iff (h : parts ≠ []) : matchesParts parts t = true ↔ Gapped parts t := by
  induction parts generalizing t with
  | nil => exact absurd rfl h
  | cons part parts ih =>
    cases parts with
    | nil =>
      simp only [matchesParts, beq_iff_eq]
      constructor
      · rintro rfl
        exact .last part
      · intro h
        cases h with
        | last => rfl
        | gap _ _ _ hnone => exact absurd rfl hnone.ne_nil
    | cons next parts =>
      have ih := fun rest => ih (t := rest) (List.cons_ne_nil next parts)
      simp only [matchesParts]
      constructor
      · intro h
        split at h
        · next rest hrest =>
          obtain ⟨gap, rest, rfl, hgap, h⟩ := passesAfterGap_iff.mp h
          rw [dropStart?_eq_some_iff.mp hrest]
          exact .gap part gap hgap ((ih rest).mp h)
        · simp at h
      · intro h
        cases h with
        | @gap _ rest _ gap hgap h =>
          rw [dropStart?_eq_some_iff.mpr rfl]
          exact passesAfterGap_iff.mpr ⟨gap, rest, rfl, hgap, (ih rest).mpr h⟩

theorem gapped_singleton : Gapped [part] t ↔ t = part := by
  constructor
  · intro h
    cases h with
    | last => rfl
    | gap _ _ _ hnone => exact absurd rfl hnone.ne_nil
  · rintro rfl
    exact .last t

/-- An empty part in front leaves the gap behind it. -/
theorem gapped_nil_cons (h : parts ≠ []) : Gapped ([] :: parts) t
    ↔ ∃ gap rest, t = gap ++ rest ∧ '\n' ∉ gap ∧ Gapped parts rest := by
  constructor
  · intro hgapped
    cases hgapped with
    | last => exact absurd rfl h
    | @gap _ rest _ gap hgap h => exact ⟨gap, rest, rfl, hgap, h⟩
  · rintro ⟨gap, rest, rfl, hgap, h⟩
    exact .gap [] gap hgap h

theorem gapped_cons_cons {c : Char} : Gapped ((c :: part) :: parts) t
    ↔ ∃ rest, t = c :: rest ∧ Gapped (part :: parts) rest := by
  constructor
  · intro hgapped
    cases hgapped with
    | last => exact ⟨part, rfl, .last part⟩
    | gap _ gap hgap h => exact ⟨_, rfl, .gap part gap hgap h⟩
  · rintro ⟨rest, rfl, hgapped⟩
    cases hgapped with
    | last => exact .last (c :: part)
    | gap _ gap hgap h => exact .gap (c :: part) gap hgap h

/-- **On one line, the pieces between the stars are all that a pattern asks for.** -/
theorem gapped_splitOn_iff (hline : '\n' ∉ t) :
    Gapped (pattern.splitOn '*') t ↔ Glob pattern t := by
  induction pattern generalizing t with
  | nil =>
    rw [splitOn, piecesBy, gapped_singleton]
    constructor
    · rintro rfl
      exact .nil
    · rintro ⟨⟩
      rfl
  | cons c pattern ih =>
    obtain ⟨first, pieces, hsplit, hcons⟩ := splitOn_cons '*' c pattern
    rw [hsplit] at ih
    rw [hcons]
    split
    · next hc =>
      subst hc
      rw [gapped_nil_cons (by simp)]
      constructor
      · rintro ⟨gap, rest, rfl, -, h⟩
        exact .star gap ((ih fun hmem => hline (List.mem_append_right gap hmem)).mp h)
      · intro h
        cases h with
        | @star _ rest gap h =>
          rw [List.mem_append, not_or] at hline
          exact ⟨gap, rest, rfl, hline.1, (ih hline.2).mpr h⟩
        | literal hc => exact absurd rfl hc
    · next hc =>
      rw [gapped_cons_cons]
      constructor
      · rintro ⟨rest, rfl, h⟩
        exact .literal hc ((ih fun hmem => hline (List.mem_cons_of_mem c hmem)).mp h)
      · intro h
        cases h with
        | star => exact absurd rfl hc
        | @literal _ _ rest _ h =>
          exact ⟨rest, rfl, (ih fun hmem => hline (List.mem_cons_of_mem c hmem)).mpr h⟩

theorem matchesGlob_iff (hline : '\n' ∉ t) : matchesGlob pattern t = true ↔ Glob pattern t :=
  (matchesParts_iff (splitOn_ne_nil '*' pattern)).trans (gapped_splitOn_iff hline)

end Matching

/-! ## Names of an index -/

/-- No stored name has a line break. -/
theorem not_mem_recordName (t : Text) : '\n' ∉ recordName t := by
  intro h
  obtain ⟨c, -, hc⟩ := List.mem_map.mp h
  split at hc
  · exact absurd hc (by decide)
  · next hspace =>
    rw [hc] at hspace
    exact hspace (by decide)

namespace NameMap

variable {α : Type} {name : Text} {value : α} {entries : List (Text × α)}

/-- The name of an entry comes before that of another. -/
def Precedes (a b : Text × α) : Prop :=
  Text.le a.1 b.1 = true ∧ a.1 ≠ b.1

/-- The names are in strict order, and each is on one line. -/
structure IsOrdered (m : NameMap α) : Prop where
  sorted : m.entries.Pairwise Precedes
  oneLine : ∀ entry ∈ m.entries, '\n' ∉ entry.1

theorem mem_insertInto {entry : Text × α} (h : entry ∈ insertInto name value entries) :
    entry = (name, value) ∨ entry ∈ entries := by
  induction entries with
  | nil => exact Or.inl (List.mem_singleton.mp h)
  | cons first rest ih =>
    rw [insertInto] at h
    split at h
    · exact (List.mem_cons.mp h).imp_right (List.mem_cons_of_mem first)
    · split at h
      · exact List.mem_cons.mp h
      · rcases List.mem_cons.mp h with rfl | h
        · exact Or.inr List.mem_cons_self
        · exact (ih h).imp_right (List.mem_cons_of_mem first)

theorem pairwise_insertInto (h : entries.Pairwise Precedes) :
    (insertInto name value entries).Pairwise Precedes := by
  induction entries with
  | nil => exact List.pairwise_singleton _ _
  | cons first rest ih =>
    obtain ⟨hfirst, hrest⟩ := List.pairwise_cons.mp h
    rw [insertInto]
    split
    · next hsame => exact List.pairwise_cons.mpr ⟨fun entry hentry => hsame ▸ hfirst entry hentry, hrest⟩
    · next hne =>
      split
      · next hle =>
        refine List.pairwise_cons.mpr ⟨fun entry hentry => ?_, h⟩
        rcases List.mem_cons.mp hentry with rfl | hentry
        · exact ⟨hle, Ne.symm hne⟩
        · have hnext := hfirst entry hentry
          refine ⟨orders_le.trans _ _ _ hle hnext.1, fun heq => hne ?_⟩
          obtain rfl : name = entry.1 := heq
          exact orders_le.antisymm hnext.1 hle
      · next hnot =>
        refine List.pairwise_cons.mpr ⟨fun entry hentry => ?_, ih hrest⟩
        rcases mem_insertInto hentry with rfl | hentry
        · exact ⟨by simpa [hnot] using orders_le.total first.1 name, hne⟩
        · exact hfirst entry hentry

theorem isOrdered_empty : IsOrdered ({} : NameMap α) :=
  ⟨.nil, by simp⟩

theorem IsOrdered.insert {m : NameMap α} (h : m.IsOrdered) (hline : '\n' ∉ name) :
    (m.insert name value).IsOrdered where
  sorted := pairwise_insertInto h.sorted
  oneLine := by
    intro entry hentry
    rcases mem_insertInto hentry with rfl | hentry
    · exact hline
    · exact h.oneLine entry hentry

theorem IsOrdered.nodup {m : NameMap α} (h : m.IsOrdered) : (m.entries.map Prod.fst).Nodup :=
  List.pairwise_map.mpr (h.sorted.imp fun hab => hab.2)

/-- A name has the value of its entry. -/
theorem IsOrdered.get?_eq_some_iff {m : NameMap α} (h : m.IsOrdered) :
    m.get? name = some value ↔ (name, value) ∈ m.entries := by
  unfold get?
  constructor
  · intro hget
    obtain ⟨entry, hfind, rfl⟩ := Option.map_eq_some_iff.mp hget
    obtain rfl : entry.1 = name := by simpa using List.find?_some hfind
    exact List.mem_of_find?_eq_some hfind
  · intro hmem
    cases hfind : m.entries.find? fun entry => entry.1 == name with
    | none => exact absurd (List.find?_eq_none.mp hfind _ hmem) (by simp)
    | some entry =>
      have hname : entry.1 = name := by simpa using List.find?_some hfind
      have hsame := List.inj_on_of_nodup_map h.nodup (List.mem_of_find?_eq_some hfind) hmem hname
      rw [hsame, Option.map_some]

end NameMap

namespace Index

variable {index : Index}

theorem isOrdered_of_nameMap {α : Type} {read : Toml → Option α} {value : Toml} {map : NameMap α}
    (h : nameMap? read value = some map) : map.IsOrdered := by
  have hfold : ∀ (items : List (Text × α)) (m : NameMap α), m.IsOrdered →
      (items.foldl (fun m item => m.insert (recordName item.1) item.2) m).IsOrdered := by
    intro items
    induction items with
    | nil => exact fun _ hm => hm
    | cons item rest ih => exact fun m hm => ih _ (hm.insert (not_mem_recordName item.1))
  unfold nameMap? at h
  split at h
  · obtain ⟨items, -, hmap⟩ := Option.bind_eq_some_iff.mp h
    cases hmap
    exact hfold _ _ NameMap.isOrdered_empty
  · simp at h

/-- **The tags of an index that was read are in order, each on one line.** -/
theorem isOrdered_of_ofFile {file : Text} (h : ofFile? file = some index) :
    index.tags.IsOrdered := by
  obtain ⟨document, -, h⟩ := Option.bind_eq_some_iff.mp h
  simp only [ofToml?, Option.bind_eq_bind, Option.bind_eq_some_iff, Option.pure_def,
    Option.some.injEq] at h
  obtain ⟨_, _, _, _, _, _, _, _, tags, htags, rfl⟩ := h
  unfold Toml.memberOr? at htags
  split at htags
  · exact isOrdered_of_nameMap htags
  · cases htags
    exact NameMap.isOrdered_empty

/-! ## The ranking -/

/-- One tag ranks before another: it is used more, or as much and its name comes first. -/
def RanksBefore (a b : Text × Nat) : Prop :=
  b.2 < a.2 ∨ a.2 = b.2 ∧ NameMap.Precedes a b

theorem pairwise_ranked (h : index.tags.IsOrdered) (pattern : Text) :
    (index.ranked pattern).Pairwise RanksBefore := by
  have htrans : ∀ a b c : Text × Nat,
      (b.2 < a.2 || (a.2 == b.2 && Text.le a.1 b.1)) = true →
      (c.2 < b.2 || (b.2 == c.2 && Text.le b.1 c.1)) = true →
      (c.2 < a.2 || (a.2 == c.2 && Text.le a.1 c.1)) = true := by
    intro a b c
    simp only [Bool.or_eq_true, decide_eq_true_eq, Bool.and_eq_true, beq_iff_eq]
    rintro (hab | ⟨hab, hle⟩) (hbc | ⟨hbc, hle'⟩)
    · omega
    · omega
    · omega
    · exact Or.inr ⟨hab.trans hbc, orders_le.trans _ _ _ hle hle'⟩
  have htotal : ∀ a b : Text × Nat, ((b.2 < a.2 || (a.2 == b.2 && Text.le a.1 b.1))
      || (a.2 < b.2 || (b.2 == a.2 && Text.le b.1 a.1))) = true := by
    intro a b
    have hle := orders_le.total a.1 b.1
    simp only [Bool.or_eq_true, decide_eq_true_eq, Bool.and_eq_true, beq_iff_eq] at hle ⊢
    rcases Nat.lt_trichotomy a.2 b.2 with hlt | heq | hlt
    · exact Or.inr (Or.inl hlt)
    · exact hle.imp (fun h => Or.inr ⟨heq, h⟩) fun h => Or.inr ⟨heq.symm, h⟩
    · exact Or.inl (Or.inl hlt)
  have hnames : (index.ranked pattern).Pairwise fun a b => a.1 ≠ b.1 := by
    have hkept : ((index.ranked pattern).map Prod.fst).Nodup :=
      (((List.mergeSort_perm _ _).map Prod.fst).nodup_iff).mpr
        (h.nodup.sublist (List.filter_sublist.map Prod.fst))
    exact List.pairwise_map.mp hkept
  refine ((List.pairwise_mergeSort htrans htotal _).and hnames).imp ?_
  rintro a b ⟨hle, hne⟩
  simp only [Bool.or_eq_true, decide_eq_true_eq, Bool.and_eq_true, beq_iff_eq] at hle
  exact hle.imp_right fun ⟨hcount, hname⟩ => ⟨hcount, hname, hne⟩

theorem mem_ranked_iff (h : index.tags.IsOrdered) {pattern name : Text} {count : Nat} :
    (name, count) ∈ index.ranked pattern
      ↔ index.tags.get? name = some count ∧ 0 < count ∧ Glob pattern name := by
  rw [ranked, List.mem_mergeSort, List.mem_filter, h.get?_eq_some_iff]
  refine and_congr_right fun hmem => ?_
  simp only [Bool.and_eq_true, decide_eq_true_eq, matchesGlob_iff (h.oneLine _ hmem)]

/-- **A wildcard stands for the tags that match it, most used first.** For an index that was read
from a file there is one ranking of all tags that are used and match the pattern, by the number
of posts and then by name, each tag once; and what is answered is the part of it up to the
limit. -/
theorem wildcardTags_ranked {file : Text} {index : Index} (h : ofFile? file = some index)
    (pattern : Text) :
    ∃ ranking : List (Text × Nat),
      ranking.Pairwise RanksBefore
        ∧ (∀ name count, (name, count) ∈ ranking
            ↔ index.tags.get? name = some count ∧ 0 < count ∧ Glob pattern name)
        ∧ ∀ limit, index.records.wildcardTags pattern limit
            = (ranking.map Prod.fst).take (min limit ranking.length) := by
  have htags := isOrdered_of_ofFile h
  refine ⟨index.ranked pattern, pairwise_ranked htags pattern,
    fun name count => mem_ranked_iff htags, fun limit => ?_⟩
  show (index.tagsLike pattern).take limit = _
  rw [tagsLike, ← List.length_map (f := Prod.fst), ← List.take_eq_take_min]

/-- Two tags in equal use, one of them with a line break in its name. -/
def catFile : Text :=
  "[tags]\n\"Cat\\nEar\" = 3\ncat = 3\n".toList

/-- The tag with the line break ranks by the name that is stored, behind the shorter one. -/
theorem wildcardTags_ranked_cats :
    ∃ index, ofFile? catFile = some index ∧ ∃ ranking : List (Text × Nat),
      ranking.Pairwise RanksBefore
        ∧ ("cat".toList, 3) ∈ ranking ∧ ("cat_ear".toList, 3) ∈ ranking
        ∧ index.records.wildcardTags "c*t*".toList 1
          = (ranking.map Prod.fst).take (min 1 ranking.length) := by
  have hread : (ofFile? catFile).map (fun index => index.tags.entries)
      = some [("cat".toList, 3), ("cat_ear".toList, 3)] := by cbv
  obtain ⟨index, hindex, hentries⟩ := Option.map_eq_some_iff.mp hread
  have htags := isOrdered_of_ofFile hindex
  obtain ⟨ranking, hsorted, hmem, hanswer⟩ := wildcardTags_ranked hindex "c*t*".toList
  refine ⟨index, hindex, ranking, hsorted, (hmem _ _).mpr ⟨?_, by decide, ?_⟩,
    (hmem _ _).mpr ⟨?_, by decide, ?_⟩, hanswer 1⟩
  · exact htags.get?_eq_some_iff.mpr (by simp [hentries])
  · exact (matchesGlob_iff (by decide)).mp (by decide)
  · exact htags.get?_eq_some_iff.mpr (by simp [hentries])
  · exact (matchesGlob_iff (by decide)).mp (by decide)

end Index

end TagSearch
