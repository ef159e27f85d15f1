import TagSearch.Proofs.Casing
import TagSearch.Proofs.Chains
import TagSearch.Proofs.Pieces
import TagSearch.Proofs.Quoting

/-!
# Saving and loading aliases

A saved file holds the pairs of its table (`Toml.read?_write`, `readPairs?_toFile`). Loading does not
restore them as they are: it adds them one by one to an empty table, and every name is brought to its
stored form again. Stored names are words (`isWord_of_edits`), and to name a word is to compose it
(`tagName_of_isWord`), so what is at stake is whether stored names are composed. They need not be,
since they are composed before they are lowercased.

Main statements: `reload_iff_composed` and, for a name that is not composed, `reload_fails`.
-/

namespace TagSearch

open Text

namespace Toml

/-! ## A table of strings -/

/-- Strings in an unfinished table. -/
def stringEntries (pairs : List (Text × Text)) : Section :=
  pairs.map fun pair => (pair.1, .value (.str pair.2))

theorem sectionToToml_stringEntries (pairs : List (Text × Text)) :
    sectionToToml (stringEntries pairs) = pairs.map fun pair => (pair.1, .str pair.2) := by
  induction pairs with
  | nil => rfl
  | cons pair rest ih =>
    rw [stringEntries, List.map_cons, sectionToToml, ← stringEntries, ih]
    rfl

/-- A new key comes last. -/
theorem Section.adjust_new {key : Text} {f : Option Entry → Option Entry} : ∀ {s : Section},
    key ∉ s.map Prod.fst → s.adjust key f = (f none).map fun entry => s ++ [(key, entry)]
  | [], _ => by simp [adjust]
  | (k, entry) :: rest, h => by
    simp only [List.map_cons, List.mem_cons, not_or] at h
    rw [adjust, if_neg (Ne.symm h.1), adjust_new h.2, Option.map_map]
    rfl

theorem Section.set_new {key : Text} {s : Section} (h : key ∉ s.map Prod.fst) (v : Toml) :
    s.set [key] v = some (s ++ [(key, .value v)]) := by
  rw [set, List.reverse_singleton]
  exact adjust_new h

/-- The text in front of which no blank is skipped, no line break and no comment, and which opens no
table. -/
def StartsEntry (t : Text) : Prop :=
  ∃ c more, t = c :: more ∧ (isKeyChar c = true ∨ c = '"' ∨ c = '\'')

theorem startsEntry_quoteKey (key rest : Text) : StartsEntry (quoteKey key ++ rest) := by
  obtain ⟨c, more, hkey, hc⟩ := exists_quoteKey_eq key
  exact ⟨c, more ++ rest, by rw [hkey, List.cons_append], hc⟩

theorem startsEntry_quoteString (t rest : Text) : StartsEntry (quoteString t ++ rest) := by
  obtain ⟨c, more, hstring, hc⟩ := exists_quoteString_eq t
  exact ⟨c, more ++ rest, by rw [hstring, List.cons_append], Or.inr hc⟩

section StartsEntry

variable {t : Text} (h : StartsEntry t)

include h

theorem skipBlanks_startsEntry : skipBlanks t = t := by
  obtain ⟨c, more, rfl, hc⟩ := h
  refine List.dropWhile_cons_of_neg ?_
  rintro hblank
  simp only [Bool.or_eq_true, beq_iff_eq] at hblank
  rcases hblank with rfl | rfl <;> exact absurd hc (by decide)

theorem skipLines_startsEntry : skipLines false t = t := by
  obtain ⟨c, more, rfl, hc⟩ := h
  have hplain : c ≠ '\n' ∧ c ≠ '\r' ∧ c ≠ ' ' ∧ c ≠ '\t' ∧ c ≠ '#' := by
    refine ⟨?_, ?_, ?_, ?_, ?_⟩ <;> rintro rfl <;> exact absurd hc (by decide)
  rw [skipLines.eq_def]
  split <;> grind

theorem ne_of_startsEntry (more : Text) : t ≠ '[' :: more := by
  rintro rfl
  obtain ⟨c, more, heq, hc⟩ := h
  rw [← (List.cons.inj heq).1] at hc
  exact absurd hc (by decide)

end StartsEntry

/-- A key is read, and with it the blanks behind it. -/
theorem takeKey?_quoteKey (bound : Nat) (key : Text) {rest : Text}
    (hrest : ∀ c ∈ rest.head?, isKeyChar c = false) (hdot : ∀ more, skipBlanks rest ≠ '.' :: more) :
    takeKey? (bound + 1) (quoteKey key ++ rest) = some ([key], skipBlanks rest) := by
  rw [takeKey?, skipBlanks_startsEntry (startsEntry_quoteKey key rest),
    takeKeyPart?_quoteKey key hrest]
  simp only [Option.bind_eq_bind, Option.bind_some]
  rfl

/-- The document while the table of a header is filled. -/
def openDraft (name : Text) (pairs : List (Text × Text)) : Draft :=
  ⟨[(name, .table .headed (stringEntries pairs))], [name]⟩

/-- A header opens its table. -/
theorem takeStatement?_header (name rest : Text) :
    takeStatement? {} ('[' :: (quoteKey name ++ ']' :: rest)) = some (openDraft name [], rest) := by
  have hstart := startsEntry_quoteKey name (']' :: rest)
  rw [takeStatement?.eq_def]
  split
  · next more heq => exact absurd (List.cons.inj heq).2 (ne_of_startsEntry hstart more)
  · next more _ heq =>
    obtain rfl := (List.cons.inj heq).2
    rw [takeHeader?, takeKey?_quoteKey _ name (by simp [isKeyChar]) (by simp [skipBlanks])]
    rfl
  · next hnot => exact (hnot _ rfl).elim

/-- The line of a key sets it in the table that is open. -/
theorem takeStatement?_entryLine (name : Text) {pairs : List (Text × Text)} {key : Text}
    (hnew : key ∉ pairs.map Prod.fst) (value rest : Text) :
    takeStatement? (openDraft name pairs) (entryLine (key, .str value) ++ rest)
      = some (openDraft name (pairs ++ [(key, value)]), '\n' :: rest) := by
  have hline : entryLine (key, .str value) ++ rest
      = quoteKey key ++ ' ' :: '=' :: ' ' :: (quoteString value ++ '\n' :: rest) := by
    simp [entryLine, inlineText]
  have hstart := startsEntry_quoteKey key (' ' :: '=' :: ' ' :: (quoteString value ++ '\n' :: rest))
  have hvalue : skipBlanks (' ' :: (quoteString value ++ '\n' :: rest))
      = quoteString value ++ '\n' :: rest :=
    skipBlanks_startsEntry (startsEntry_quoteString value ('\n' :: rest))
  have hset : (stringEntries pairs).set [key] (.str value)
      = some (stringEntries (pairs ++ [(key, value)])) := by
    rw [Section.set_new (by simpa [stringEntries] using hnew), stringEntries, stringEntries,
      List.map_append]
    rfl
  rw [hline, takeStatement?.eq_def]
  split
  · next more heq => exact absurd heq (ne_of_startsEntry hstart _)
  · next more _ heq => exact absurd heq (ne_of_startsEntry hstart _)
  · rw [takeKey?_quoteKey _ key (by simp [isKeyChar]) (by simp [skipBlanks])]
    have hequals : skipBlanks (skipBlanks (' ' :: '=' :: ' ' :: (quoteString value ++ '\n' :: rest)))
        = '=' :: ' ' :: (quoteString value ++ '\n' :: rest) := by
      simp [skipBlanks]
    have hread : ∀ bound, takeValue? (bound + 1) (quoteString value ++ '\n' :: rest)
        = some (.str value, '\n' :: rest) := fun bound => takeValue?_quoteString bound (by simp)
    simp only [Option.bind_eq_bind, Option.bind_some, hequals, hvalue, hread]
    simp [openDraft, Section.within, Section.adjust, hset]

/-- A statement and the line break behind it are read before what follows. -/
theorem takeStatements?_line {bound : Nat} {draft next : Draft} {t rest : Text}
    (hstart : skipLines false t = t) (hne : t ≠ [])
    (h : takeStatement? draft t = some (next, '\n' :: rest)) :
    takeStatements? (bound + 1) draft t = takeStatements? bound next rest := by
  rw [takeStatements?, hstart]
  split
  · exact absurd rfl hne
  · rw [h]
    rfl

/-- **The lines of a table are read in order.** -/
theorem takeStatements?_entryLines (name : Text) :
    ∀ {pairs more : List (Text × Text)} {bound : Nat},
      ((pairs ++ more).map Prod.fst).Nodup → more.length < bound →
      takeStatements? bound (openDraft name pairs)
          (more.flatMap fun pair => entryLine (pair.1, .str pair.2))
        = some (openDraft name (pairs ++ more))
  | pairs, [], bound + 1, _, _ => by simp [takeStatements?, skipLines]
  | pairs, (key, value) :: more, bound + 1, hkeys, hbound => by
    have hnew : key ∉ pairs.map Prod.fst := by
      rw [List.map_append, List.nodup_append] at hkeys
      exact fun hmem => hkeys.2.2 key hmem key (by simp) rfl
    have hstart : StartsEntry (entryLine (key, .str value)
        ++ more.flatMap fun pair => entryLine (pair.1, .str pair.2)) := by
      rw [entryLine, List.append_assoc, List.append_assoc, List.append_assoc]
      exact startsEntry_quoteKey key _
    rw [List.flatMap_cons, takeStatements?_line (skipLines_startsEntry hstart)
      (by obtain ⟨c, rest, h, -⟩ := hstart; simp [h]) (takeStatement?_entryLine name hnew value _),
      takeStatements?_entryLines name (by simpa using hkeys) (Nat.lt_of_succ_lt_succ hbound)]
    simp

theorem length_le_flatMap_entryLine (pairs : List (Text × Text)) :
    pairs.length ≤ (pairs.flatMap fun pair => entryLine (pair.1, .str pair.2)).length := by
  induction pairs with
  | nil => exact Nat.le_refl _
  | cons pair rest ih =>
    rw [List.flatMap_cons, List.length_append, List.length_cons, entryLine, List.length_append]
    simp only [List.length_cons, List.length_nil]
    omega

/-- **A table of strings is read back from a document,** if no key is in it twice. -/
theorem read?_write {name : Text} {pairs : List (Text × Text)} (h : (pairs.map Prod.fst).Nodup) :
    read? (write [(name, .table (pairs.map fun pair => (pair.1, .str pair.2)))])
      = some [(name, .table (pairs.map fun pair => (pair.1, .str pair.2)))] := by
  have hlines : valueLines (pairs.map fun pair => (pair.1, .str pair.2))
      = pairs.flatMap fun pair => entryLine (pair.1, .str pair.2) := by
    simp only [valueLines, List.filter_map, List.flatMap_map]
    congr 1
    exact List.filter_eq_self.mpr (by simp [isTable])
  have hwrite : write [(name, .table (pairs.map fun pair => (pair.1, .str pair.2)))]
      = '[' :: (quoteKey name ++ ']' :: '\n'
        :: pairs.flatMap fun pair => entryLine (pair.1, .str pair.2)) := by
    simp [write, valueLines, isTable, headedTable, ← hlines]
  have hread : ∀ bound, pairs.length < bound →
      takeStatements? bound (openDraft name [])
          (pairs.flatMap fun pair => entryLine (pair.1, .str pair.2))
        = some (openDraft name pairs) :=
    fun bound hbound => takeStatements?_entryLines name (by simpa using h) hbound
  rw [hwrite, read?]
  · rw [takeStatements?_line (by simp [skipLines]) (by simp) (takeStatement?_header name _), hread]
    · simp [openDraft, sectionToToml, Entry.toToml, sectionToToml_stringEntries]
    · have hle := length_le_flatMap_entryLine pairs
      simp only [List.length_cons, List.length_append]
      omega
  · simp

end Toml

/-! ## Stored names -/

namespace Text

open Canonical

/-- Lowercase and words are kept by composition: no capital and no white space is a part of what is
none, or is made of such parts. -/
theorem tables_keep_words : tablesKeep (fun n => n != 0x130
    && !(mask (capitals ++ spaces)).testBit n) = true := by
  decide +kernel

/-- No capital and no white space is a syllable or a part of one. -/
theorem hangul_words : (capitals ++ spaces).all (fun n => (n < 0x1100 || 0x11c2 < n)
    && (n < 0xac00 || 0xd7a3 < n)) = true := by
  decide +kernel

/-- A character that a tag name is stored with. -/
def IsWordChar (n : Nat) : Prop :=
  n ≠ 0x130 ∧ n ∉ capitals ∧ n ∉ spaces

theorem isWordChar_iff {n : Nat} :
    (n != 0x130 && !(mask (capitals ++ spaces)).testBit n) = true ↔ IsWordChar n := by
  have hbit : (mask (capitals ++ spaces)).testBit n = false ↔ n ∉ capitals ++ spaces := by
    rw [← testBit_mask, Bool.not_eq_true]
  rw [Bool.and_eq_true, bne_iff_ne, Bool.not_eq_true', hbit, List.mem_append, not_or, IsWordChar]

theorem kept_isWordChar : Kept IsWordChar := by
  have hhangul : ∀ n, (0x1100 ≤ n ∧ n ≤ 0x11c2) ∨ (0xac00 ≤ n ∧ n ≤ 0xd7a3) → IsWordChar n := by
    intro n hn
    have hnot : n ∉ capitals ++ spaces := by
      intro hmem
      have hapart := List.all_eq_true.mp hangul_words n hmem
      simp only [Bool.and_eq_true, Bool.or_eq_true, decide_eq_true_eq] at hapart
      omega
    rw [List.mem_append, not_or] at hnot
    exact ⟨by omega, hnot⟩
  have hkept := kept_of_tablesKeep tables_keep_words
    (fun n hlow hhigh => isWordChar_iff.mpr (hhangul n (Or.inl ⟨hlow, hhigh⟩)))
    fun n hlow hhigh => isWordChar_iff.mpr (hhangul n (Or.inr ⟨hlow, hhigh⟩))
  exact ⟨fun hsplit hn m hm => isWordChar_iff.mp (hkept.split hsplit (isWordChar_iff.mpr hn) m hm),
    fun hjoin ha hb => isWordChar_iff.mp (hkept.join hjoin (isWordChar_iff.mpr ha)
      (isWordChar_iff.mpr hb))⟩

/-- A text of one word in lowercase. -/
def IsWord (t : Text) : Prop :=
  ∀ c ∈ t, IsWordChar c.toNat

theorem IsWord.not_space {t : Text} (h : IsWord t) {c : Char} (hc : c ∈ t) : isSpace c = false := by
  rw [Bool.eq_false_iff, Ne, isSpace_iff]
  exact (h c hc).2.2

theorem IsWord.compose {t : Text} (h : IsWord t) : IsWord t.compose :=
  forall_mem_compose kept_isWordChar h

end Text

/-- **A tag name is a word.** -/
theorem isWord_tagName (t : Text) : IsWord (tagName t) := by
  intro c hc
  rcases mem_joinWith hc with rfl | ⟨piece, hpiece, hc⟩
  · exact isWordChar_iff.mp (by decide +kernel)
  · obtain ⟨hmem, hspace⟩ := mem_of_mem_piecesBy (List.mem_of_mem_filter hpiece) hc
    obtain ⟨hdotted, hcapital⟩ := settled_of_mem_lowercase hmem
    exact ⟨hdotted, hcapital, fun hmem => by simp [isSpace_iff.mpr hmem] at hspace⟩

/-- **To name a word is to compose it:** its letters are in lowercase, and no white space parts
it. -/
theorem tagName_of_isWord {t : Text} (h : IsWord t) : tagName t = t.compose := by
  have hword := h.compose
  have hlower : t.compose.lowercase = t.compose :=
    lowercase_of_settled fun c hc => ⟨(hword c hc).1, (hword c hc).2.1⟩
  rw [tagName, hlower, words, piecesBy_of_none fun c hc => hword.not_space hc]
  cases t.compose with
  | nil => rfl
  | cons c rest => simp [joinWith]

/-! ## Loading -/

namespace AliasTable

variable {table loaded : AliasTable}

/-- Every name of a pair has a property. -/
def NamesAre (P : Text → Prop) (pairs : List (Text × Text)) : Prop :=
  ∀ pair ∈ pairs, P pair.1 ∧ P pair.2

/-- What an accepted alias does to the pairs. -/
theorem pairs_of_add {name canonical : Text} (h : table.add name canonical = .ok loaded) :
    loaded.pairs = table.pairs ∨ loaded.pairs = table.pairs ++ [(tagName name, tagName canonical)] := by
  unfold add at h
  dsimp only at h
  split at h
  · simp at h
  split at h
  · simp at h
  split at h
  · split at h
    · cases h
      exact Or.inl rfl
    · simp at h
  · split at h
    · simp at h
    · cases h
      exact Or.inr rfl

theorem NamesAre.added {P : Text → Prop} {name canonical : Text} (h : NamesAre P table.pairs)
    (hname : P (tagName name)) (hcanonical : P (tagName canonical))
    (hadd : table.add name canonical = .ok loaded) : NamesAre P loaded.pairs := by
  rcases pairs_of_add hadd with hpairs | hpairs
  · rwa [hpairs]
  · rw [hpairs]
    intro pair hpair
    rcases List.mem_append.mp hpair with hpair | hpair
    · exact h pair hpair
    · rw [List.mem_singleton.mp hpair]
      exact ⟨hname, hcanonical⟩

theorem NamesAre.after (h : NamesAre IsWord table.pairs) (change : Edit) :
    NamesAre IsWord (table.after change).pairs := by
  unfold AliasTable.after
  split
  · next edited hedit =>
    cases change with
    | add name canonical => exact h.added (isWord_tagName name) (isWord_tagName canonical) hedit
    | remove name =>
      simp only [edit, remove] at hedit
      split at hedit
      · cases hedit
        exact fun pair hpair => h pair (List.mem_of_mem_filter hpair)
      · simp at hedit
  · exact h

/-- **The names of a table are words,** after any history of edits. -/
theorem isWord_of_edits (edits : List Edit) :
    NamesAre IsWord (edits.foldl AliasTable.after {}).pairs := by
  suffices h : ∀ table : AliasTable, NamesAre IsWord table.pairs →
      NamesAre IsWord (edits.foldl AliasTable.after table).pairs
    from h {} (by simp [NamesAre])
  induction edits with
  | nil => exact fun _ h => h
  | cons change rest ih => exact fun table h => ih _ (h.after change)

theorem standsFor_iff_mem (h : (table.pairs.map Prod.fst).Nodup) {name canonical : Text} :
    table.StandsFor name canonical ↔ (name, canonical) ∈ table.pairs := by
  refine ⟨mem_of_standsFor, fun hmem => ?_⟩
  cases hnext : table.next? name with
  | none => exact absurd (List.mem_map_of_mem (f := Prod.fst) hmem) (not_mem_keys_of_none hnext)
  | some other =>
    have hother := mem_of_standsFor hnext
    have hsame := List.inj_on_of_nodup_map h hmem hother rfl
    rw [Prod.mk.injEq] at hsame
    rw [StandsFor, hnext, hsame.2]

/-- A chain through some of the pairs is a chain through all. -/
theorem transGen_of_subset (h : (table.pairs.map Prod.fst).Nodup)
    (hsubset : ∀ pair ∈ loaded.pairs, pair ∈ table.pairs) {name canonical : Text}
    (hchain : Relation.TransGen loaded.StandsFor name canonical) :
    Relation.TransGen table.StandsFor name canonical :=
  Relation.TransGen.mono
    (fun _ _ hstep => (standsFor_iff_mem h).mpr (hsubset _ (mem_of_standsFor hstep))) _ _ hchain

theorem add_of_new {name canonical : Text} (hname : tagName name = name)
    (hcanonical : tagName canonical = canonical) (hnames : IsName name ∧ IsName canonical)
    (hnew : table.next? name = none) (hcircle : table.wouldCircle name canonical = false) :
    table.add name canonical
      = .ok ⟨table.pairs ++ [(name, canonical)], table.index.add canonical name⟩ := by
  simp [add, hname, hcanonical, isValidName_iff.mpr hnames.1, isValidName_iff.mpr hnames.2, hnew,
    hcircle]

/-- A pair of a forest can be added to any other part of it. -/
theorem IsForest.add_rest (h : table.IsForest) (hloaded : loaded.IsForest)
    {name canonical : Text} {rest : List (Text × Text)}
    (hperm : (loaded.pairs ++ (name, canonical) :: rest).Perm table.pairs) :
    loaded.next? name = none ∧ loaded.wouldCircle name canonical = false := by
  have hkeys : ((loaded.pairs ++ (name, canonical) :: rest).map Prod.fst).Nodup :=
    (hperm.map Prod.fst).nodup_iff.mpr h.keys
  have hstep : table.StandsFor name canonical :=
    (standsFor_iff_mem h.keys).mpr (hperm.mem_iff.mp (by simp))
  constructor
  · cases hnext : loaded.next? name with
    | none => rfl
    | some other =>
      have hmem := List.mem_map_of_mem (f := Prod.fst) (mem_of_standsFor hnext)
      rw [List.map_append, List.nodup_append] at hkeys
      exact absurd rfl (hkeys.2.2 name hmem name (by simp))
  · rw [Bool.eq_false_iff, Ne, hloaded.wouldCircle_iff]
    -- a circle in the part would be one in the whole
    rintro (rfl | hchain)
    · exact h.acyclic canonical (Relation.TransGen.single hstep)
    · refine h.acyclic name (Relation.TransGen.head hstep (transGen_of_subset h.keys ?_ hchain))
      exact fun pair hmem => hperm.mem_iff.mp (List.mem_append_left _ hmem)

/-- **Part of a forest grows to all of it, in any order,** if no name changes on the way. -/
theorem IsForest.addAll (h : table.IsForest)
    (hnames : NamesAre (fun t => tagName t = t) table.pairs) (hloaded : loaded.IsForest)
    {rest : List (Text × Text)} (hperm : (loaded.pairs ++ rest).Perm table.pairs) :
    ∃ grown, loaded.addAll rest = .ok grown ∧ grown.pairs = loaded.pairs ++ rest := by
  induction rest generalizing loaded with
  | nil => exact ⟨loaded, rfl, by simp⟩
  | cons pair rest ih =>
    obtain ⟨name, canonical⟩ := pair
    have hpair : (name, canonical) ∈ table.pairs := hperm.mem_iff.mp (by simp)
    obtain ⟨hnew, hcircle⟩ := h.add_rest hloaded hperm
    have hadd := add_of_new (hnames _ hpair).1 (hnames _ hpair).2 (h.named _ hpair) hnew hcircle
    have hnext := hloaded.added (h.named _ hpair).1 (h.named _ hpair).2 hnew hcircle
    obtain ⟨grown, hgrown, hpairs⟩ := ih hnext (by simpa using hperm)
    refine ⟨grown, ?_, by simpa using hpairs⟩
    rw [AliasTable.addAll, List.foldlM_cons, hadd]
    exact hgrown

/-! ## The same pairs -/

theorem list_perm (table : AliasTable) : table.list.Perm table.pairs :=
  List.mergeSort_perm ..

theorem list_sorted (table : AliasTable) :
    table.list.Pairwise fun a b => Text.le a.1 b.1 = true :=
  List.pairwise_mergeSort (fun a b c => orders_le.trans a.1 b.1 c.1)
    (fun a b => orders_le.total a.1 b.1) table.pairs

/-- **The list of aliases does not show the order in which they came.** -/
theorem list_eq_iff (h : (table.pairs.map Prod.fst).Nodup) :
    loaded.list = table.list ↔ loaded.pairs.Perm table.pairs := by
  constructor
  · intro hlist
    exact (list_perm loaded).symm.trans (hlist ▸ list_perm table)
  · intro hperm
    have hlists := (list_perm loaded).trans (hperm.trans (list_perm table).symm)
    refine hlists.eq_of_pairwise (fun a b ha hb hab hba => ?_) (list_sorted loaded)
      (list_sorted table)
    have ha : a ∈ table.pairs := (list_perm table).mem_iff.mp (hlists.mem_iff.mp ha)
    have hb : b ∈ table.pairs := (list_perm table).mem_iff.mp hb
    exact List.inj_on_of_nodup_map h ha hb (orders_le.antisymm hab hba)

theorem follow_congr (h : ∀ name, loaded.next? name = table.next? name) (steps : Nat) (name : Text) :
    loaded.follow steps name = table.follow steps name := by
  induction steps generalizing name with
  | zero => rfl
  | succ steps ih =>
    rw [follow, follow, h]
    split
    · exact ih _
    · rfl

/-- Tables with the same pairs resolve every name alike. -/
theorem canonicalize_of_perm (h : (table.pairs.map Prod.fst).Nodup)
    (hperm : loaded.pairs.Perm table.pairs) (name : Text) :
    loaded.canonicalize name = table.canonicalize name := by
  have hloaded : (loaded.pairs.map Prod.fst).Nodup := (hperm.map Prod.fst).nodup_iff.mpr h
  have hnext : ∀ name, loaded.next? name = table.next? name := by
    intro name
    refine Option.ext fun canonical => ?_
    exact (standsFor_iff_mem hloaded).trans (hperm.mem_iff.trans (standsFor_iff_mem h).symm)
  rw [canonicalize, canonicalize, hperm.length_eq]
  exact follow_congr hnext _ name

/-! ## Saving and loading -/

/-- **A saved file holds the pairs of its table.** -/
theorem readPairs?_toFile (h : (table.pairs.map Prod.fst).Nodup) :
    readPairs? table.toFile = some table.list := by
  have hkeys : (table.list.map Prod.fst).Nodup :=
    ((list_perm table).map Prod.fst).nodup_iff.mpr h
  have hpairs : (table.list.map fun pair => (pair.1, Toml.str pair.2)).mapM readPair?
      = some table.list := by
    generalize table.list = pairs
    induction pairs with
    | nil => rfl
    | cons pair rest ih =>
      rw [List.map_cons, List.mapM_cons, ih]
      rfl
  have hsorted : (table.list.mergeSort fun a b => Text.le a.1 b.1) = table.list :=
    List.mergeSort_of_pairwise (list_sorted table)
  rw [readPairs?, toFile, Toml.read?_write hkeys]
  simp [Toml.lookup?, hpairs, hsorted]

/-- A name in canonical composition. -/
def IsComposed (name : Text) : Prop :=
  name.compose = name

/-- Adding words leaves composed names. -/
theorem NamesAre.addAll {pairs : List (Text × Text)} (h : NamesAre IsComposed table.pairs)
    (hwords : NamesAre IsWord pairs) (hadd : table.addAll pairs = .ok loaded) :
    NamesAre IsComposed loaded.pairs := by
  have hcomposed : ∀ {t : Text}, IsWord t → IsComposed (tagName t) := by
    intro t ht
    rw [IsComposed, tagName_of_isWord ht, compose_compose]
  induction pairs generalizing table with
  | nil =>
    cases hadd
    exact h
  | cons pair rest ih =>
    rw [NamesAre, List.forall_mem_cons] at hwords
    rw [AliasTable.addAll, List.foldlM_cons] at hadd
    obtain ⟨next, hnext, hadd⟩ := exists_ok_of_bind hadd
    exact ih (h.added (hcomposed hwords.1.1) (hcomposed hwords.1.2) hnext) hwords.2 hadd

/-- **Pairs are added with the same result exactly if their names are composed,** in whatever order
they come. -/
theorem IsForest.addAll_iff (h : table.IsForest) (hwords : NamesAre IsWord table.pairs)
    {order : List (Text × Text)} (horder : order.Perm table.pairs) :
    (∃ loaded, ({} : AliasTable).addAll order = .ok loaded ∧ loaded.list = table.list)
      ↔ NamesAre IsComposed table.pairs := by
  constructor
  · rintro ⟨loaded, hloaded, hlist⟩
    have hperm := (list_eq_iff h.keys).mp hlist
    have hcomposed : NamesAre IsComposed loaded.pairs :=
      NamesAre.addAll (by simp [NamesAre]) (fun pair hpair => hwords pair (horder.mem_iff.mp hpair))
        hloaded
    exact fun pair hpair => hcomposed pair (hperm.mem_iff.mpr hpair)
  · intro hcomposed
    have hnames : NamesAre (fun t => tagName t = t) table.pairs := fun pair hpair =>
      ⟨(tagName_of_isWord (hwords pair hpair).1).trans (hcomposed pair hpair).1,
        (tagName_of_isWord (hwords pair hpair).2).trans (hcomposed pair hpair).2⟩
    obtain ⟨loaded, hloaded, hpairs⟩ := h.addAll hnames isForest_empty horder
    exact ⟨loaded, hloaded, (list_eq_iff h.keys).mpr (hpairs ▸ horder)⟩

/-- **A saved table is loaded again exactly if its names are composed.** The file holds the pairs of
the table, after any history of edits. Adding them to an empty table, in whatever order, succeeds
with the same pairs exactly if every name is its own canonical composition; a table that has the
same pairs resolves every name to the same tag. -/
theorem reload_iff_composed (edits : List Edit) :
    let table := edits.foldl AliasTable.after {}
    readPairs? table.toFile = some table.list
      ∧ ((∃ loaded, ofFile table.toFile = .ok loaded ∧ loaded.list = table.list)
          ↔ NamesAre IsComposed table.pairs)
      ∧ (∀ order : List (Text × Text), order.Perm table.list →
          ((∃ loaded, ({} : AliasTable).addAll order = .ok loaded ∧ loaded.list = table.list)
            ↔ NamesAre IsComposed table.pairs))
      ∧ ∀ loaded : AliasTable, loaded.list = table.list →
          ∀ name, loaded.canonicalize name = table.canonicalize name := by
  intro table
  have hforest : table.IsForest := isForest_of_edits edits
  have hwords : NamesAre IsWord table.pairs := isWord_of_edits edits
  have hread := readPairs?_toFile hforest.keys
  refine ⟨hread, ?_, fun order horder => ?_, fun loaded hlist name => ?_⟩
  · rw [← hforest.addAll_iff hwords (list_perm table)]
    have hfile : ∀ loaded, ofFile table.toFile = .ok loaded
        ↔ ({} : AliasTable).addAll table.list = .ok loaded := by
      intro loaded
      rw [ofFile, hread]
      dsimp only
      split <;> simp_all
    simp only [hfile]
  · exact hforest.addAll_iff hwords (horder.trans (list_perm table))
  · exact canonicalize_of_perm hforest.keys ((list_eq_iff hforest.keys).mp hlist) name

/-- A name whose composition changes in lowercase: `J` with a caron has no composed form, whereas
`j` with a caron has one. -/
def caronEdits : List Edit :=
  [.add ['J', '\u030c'] "cat".toList]

/-- The two forms of that name, for different tags. -/
def clashingEdits : List Edit :=
  caronEdits ++ [.add ['\u01f0'] "dog".toList]

/-- **A table that was saved need not be loaded again as it was.** A name that is not composed comes
back as another name, or clashes with that name if both are aliases. -/
theorem reload_fails :
    let table := caronEdits.foldl AliasTable.after {}
    let clashing := clashingEdits.foldl AliasTable.after {}
    (∃ loaded, ofFile table.toFile = .ok loaded ∧ loaded.list ≠ table.list
        ∧ loaded.canonicalize ['j', '\u030c'] ≠ table.canonicalize ['j', '\u030c'])
      ∧ ofFile clashing.toFile = .error (.refused (.taken ['\u01f0'] "cat".toList)) := by
  intro table clashing
  have hlist : clashing.list = [(['j', '\u030c'], "cat".toList), (['\u01f0'], "dog".toList)] := by
    have hpairs : clashing.pairs = [(['j', '\u030c'], "cat".toList), (['\u01f0'], "dog".toList)] := by
      decide +kernel
    rw [list, hpairs]
    exact List.mergeSort_of_pairwise (by decide +kernel)
  have hread : readPairs? clashing.toFile = some clashing.list :=
    readPairs?_toFile (by decide +kernel)
  refine ⟨⟨⟨[(['\u01f0'], "cat".toList)], ⟨[("cat".toList, [['\u01f0']])]⟩⟩, ?_, ?_, ?_⟩, ?_⟩
  · decide +kernel
  · decide +kernel
  · decide +kernel
  · rw [ofFile, hread, hlist]
    decide +kernel

/-- The chain of aliases is loaded again, in either order of its pairs. -/
theorem reload_iff_composed_cats :
    let table := catEdits.foldl AliasTable.after {}
    (∃ loaded, ofFile table.toFile = .ok loaded ∧ loaded.list = table.list)
      ∧ table.list.reverse.Perm table.list
      ∧ ∃ loaded, ({} : AliasTable).addAll table.list.reverse = .ok loaded
        ∧ loaded.list = table.list
        ∧ ∀ name, loaded.canonicalize name = table.canonicalize name := by
  intro table
  obtain ⟨_, hfile, horder, hcanonical⟩ := reload_iff_composed catEdits
  have hcomposed : NamesAre IsComposed table.pairs := by
    have hall : table.pairs.all (fun pair => pair.1.compose == pair.1 && pair.2.compose == pair.2)
        = true := by decide +kernel
    intro pair hpair
    simpa [IsComposed] using List.all_eq_true.mp hall pair hpair
  have hreversed : table.list.reverse.Perm table.list := List.reverse_perm _
  obtain ⟨loaded, hloaded, hlist⟩ := (horder _ hreversed).mpr hcomposed
  exact ⟨hfile.mpr hcomposed, hreversed, loaded, hloaded, hlist, hcanonical loaded hlist⟩

end AliasTable

end TagSearch
