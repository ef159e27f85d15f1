import TagSearch.Proofs.Locality

/-!
# Closing groups without going back

A `(` that cannot be closed is a plain run, and whether it can be closed is only known at the end of
the text. Read as a grammar this asks for backtracking: try the group, and if the text ends first,
go back and read the `(` as a run. `LevelEnds` is that reading, one rule for each alternative.

The lexer never goes back: it counts. `takeGroup?_iff_groupEnds` says that the two find the same
end. They agree because a nested group without an end leaves no end to the group around it: the
second reading starts where the first one did, and fails as the first one did.

So inside a group there is no such `(` at all, at no depth (`body_ne_opening_of_mem_leavesOf`).
-/

namespace TagSearch

open Text Lexer

/-- Where a token starts: at a character that is no blank and does not end the level. -/
def AtToken (spaced : Bool) (t : Text) : Prop :=
  ∃ c rest, t = c :: rest ∧ isBlank c = false ∧ ¬(c == ')' && spaced) = true

/-- The reading of one level of a group by descent with backtracking. `LevelEnds spaced t result`
says what comes of reading on from `t`: the text behind the `)` that ends the level, or `none` if
the text ends first. `spaced` says whether a blank stands right before `t`. -/
inductive LevelEnds : Bool → Text → Option Text → Prop where
  | ended (spaced : Bool) : LevelEnds spaced [] none
  | blank {spaced : Bool} {c : Char} {t : Text} {result : Option Text} (hc : isBlank c = true)
      (rest : LevelEnds true t result) : LevelEnds spaced (c :: t) result
  | closing (after : Text) : LevelEnds true (')' :: after) (some after)
  | metatag {spaced : Bool} {t : Text} {m : MetatagParts} {result : Option Text}
      (start : AtToken spaced t) (hm : takeMetatag? (takeModifier t).2 = some m)
      (rest : LevelEnds false m.rest result) : LevelEnds spaced t result
  | group {spaced : Bool} {t after : Text} {result : Option Text} (start : AtToken spaced t)
      (hopen : opensGroup (takeModifier t).2 = true)
      (inner : LevelEnds false ((takeModifier t).2.drop 1) (some after))
      (rest : LevelEnds false after result) : LevelEnds spaced t result
  /-- A group that cannot be closed is read again, as a run. -/
  | unclosed {spaced : Bool} {t : Text} {result : Option Text} (start : AtToken spaced t)
      (hopen : opensGroup (takeModifier t).2 = true)
      (inner : LevelEnds false ((takeModifier t).2.drop 1) none)
      (rest : LevelEnds false (afterRun (takeModifier t).2) result) : LevelEnds spaced t result
  | run {spaced : Bool} {t : Text} {result : Option Text} (start : AtToken spaced t)
      (hm : takeMetatag? (takeModifier t).2 = none) (hopen : opensGroup (takeModifier t).2 = false)
      (rest : LevelEnds false (afterRun (takeModifier t).2) result) : LevelEnds spaced t result

/-- The reading of the group whose `(` starts a text: what stands behind its `)`, if it has one. -/
def GroupEnds (t : Text) (result : Option Text) : Prop :=
  LevelEnds false (t.drop 1) result

/-! ## What counting finds -/

/-- What counting finds behind a level, blanks in front of its next token included. -/
def levelEnd (spaced : Bool) (t : Text) : Option Text :=
  (closeGroup? 0 (spaced || t.head?.any isBlank) (t.dropWhile isBlank)).map Prod.snd

theorem map_snd_ahead (read : Text) (found : Option (Text × Text)) :
    (ahead read found).map Prod.snd = found.map Prod.snd := by
  cases found <;> rfl

theorem levelEnd_blank {c : Char} (hc : isBlank c = true) (spaced : Bool) (t : Text) :
    levelEnd spaced (c :: t) = levelEnd true t := by
  simp [levelEnd, hc]

theorem levelEnd_onward (t : Text) : levelEnd false t = (onward 0 t).map Prod.snd := by
  rw [onward, map_snd_ahead]
  rfl

theorem levelEnd_atToken {c : Char} (hc : isBlank c = false) (spaced : Bool) (t : Text) :
    levelEnd spaced (c :: t) = (closeGroup? 0 spaced (c :: t)).map Prod.snd := by
  simp [levelEnd, hc]

theorem takeGroup?_map_snd {t : Text} (h : opensGroup t = true) :
    (takeGroup? t).map Prod.snd = levelEnd false (t.drop 1) := by
  rw [takeGroup?_opening h, levelEnd_onward]

/-- Behind a token, counting goes on as from the start of a level. -/
theorem levelEnd_token {spaced : Bool} {t : Text} (start : AtToken spaced t)
    (hopen : opensGroup (takeModifier t).2 = true → takeGroup? (takeModifier t).2 ≠ none) :
    levelEnd spaced t = levelEnd false (readBody (takeModifier t).2).rest := by
  obtain ⟨c, rest, rfl, hc, hclose⟩ := start
  rw [levelEnd_atToken hc, closeGroup?_token hclose hopen 0 0, map_snd_ahead, levelEnd_onward]
  rfl

theorem levelEnd_unclosed {spaced : Bool} {t : Text} (start : AtToken spaced t)
    (hopen : opensGroup (takeModifier t).2 = true) (hg : takeGroup? (takeModifier t).2 = none) :
    levelEnd spaced t = none := by
  obtain ⟨c, rest, rfl, hc, hclose⟩ := start
  rw [levelEnd_atToken hc, closeGroup?_unclosed hclose hopen hg]
  rfl

theorem AtToken.startsSolid {spaced : Bool} {t : Text} (start : AtToken spaced t) :
    StartsSolid t := by
  obtain ⟨c, rest, rfl, hc, -⟩ := start
  simpa [StartsSolid] using hc

theorem AtToken.ne_nil {spaced : Bool} {t : Text} (start : AtToken spaced t) : t ≠ [] := by
  obtain ⟨c, rest, rfl, -, -⟩ := start
  simp

/-- A run leaves what follows it, from whichever of its characters it is read on. -/
theorem AtToken.rest_run {spaced : Bool} {t : Text} (start : AtToken spaced t)
    (hm : takeMetatag? (takeModifier t).2 = none) (hg : takeGroup? (takeModifier t).2 = none) :
    (readBody (takeModifier t).2).rest = afterRun (takeModifier t).2 := by
  have hsolid := takeModifier_startsSolid start.startsSolid
  obtain ⟨c, body, hbody⟩ := List.exists_cons_of_ne_nil (takeModifier_ne_nil start.ne_nil)
  rw [readBody_of_run hm hg]
  rw [hbody] at hsolid ⊢
  rw [afterRun_cons (hsolid c rfl)]
  rfl

theorem afterRun_of_opens {t : Text} (h : opensGroup t = true) : afterRun t = t.drop 1 := by
  unfold opensGroup at h
  split at h
  · rw [afterRun_cons (by decide)]
    exact List.dropWhile_cons_of_neg (by simp [h])
  · simp at h

theorem AtToken.length_drop_lt {spaced : Bool} {t : Text} (start : AtToken spaced t) :
    ((takeModifier t).2.drop 1).length < t.length := by
  have hpos := List.length_pos_iff.mpr (takeModifier_ne_nil start.ne_nil)
  have hle := congrArg List.length (takeModifier_eq t)
  rw [List.length_append] at hle
  rw [List.length_drop]
  omega

/-! ## The two readings agree -/

/-- **What backtracking finds, counting finds.** -/
theorem LevelEnds.eq_levelEnd {spaced : Bool} {t : Text} {result : Option Text}
    (h : LevelEnds spaced t result) : levelEnd spaced t = result := by
  induction h with
  | ended spaced => simp [levelEnd, closeGroup?_nil]
  | blank hc rest ih => rw [levelEnd_blank hc, ih]
  | closing after => rw [levelEnd_atToken (by decide), closeGroup?_closing]; rfl
  | @metatag spaced t m result start hm rest ih =>
    have hopen : ¬opensGroup (takeModifier t).2 = true := by
      intro ho
      simp [takeMetatag?_of_opens ho] at hm
    rw [levelEnd_token start (fun ho => absurd ho hopen), readBody_of_metatag hm, ih]
  | @group spaced t after result start hopen inner rest ihInner ih =>
    rw [← takeGroup?_map_snd hopen] at ihInner
    obtain ⟨⟨inside, after⟩, hg, rfl⟩ := Option.map_eq_some_iff.mp ihInner
    rw [levelEnd_token start (by simp [hg]), readBody_of_group hg, ih]
  | @unclosed spaced t result start hopen inner rest ihInner ih =>
    -- the run is the `(` alone, so reading starts again where the group has failed to end
    rw [afterRun_of_opens hopen, ihInner] at ih
    rw [← takeGroup?_map_snd hopen, Option.map_eq_none_iff] at ihInner
    rw [levelEnd_unclosed start hopen ihInner, ih]
  | @run spaced t result start hm hopen rest ih =>
    rw [levelEnd_token start (by simp [hopen]),
      start.rest_run hm (takeGroup?_of_not_opens hopen), ih]

/-- One token of the descent, given what comes of the text behind it and of the text inside it. -/
theorem levelEnds_token {spaced : Bool} {t : Text} (start : AtToken spaced t)
    (rest : LevelEnds false (readBody (takeModifier t).2).rest
      (levelEnd false (readBody (takeModifier t).2).rest))
    (inner : LevelEnds false ((takeModifier t).2.drop 1)
      (levelEnd false ((takeModifier t).2.drop 1))) :
    LevelEnds spaced t (levelEnd spaced t) := by
  cases hm : takeMetatag? (takeModifier t).2 with
  | some m =>
    have hopen : ¬opensGroup (takeModifier t).2 = true := by
      intro ho
      simp [takeMetatag?_of_opens ho] at hm
    rw [levelEnd_token start (fun ho => absurd ho hopen)]
    rw [readBody_of_metatag hm] at rest ⊢
    exact LevelEnds.metatag start hm rest
  | none =>
    by_cases hopen : opensGroup (takeModifier t).2 = true
    · rw [← takeGroup?_map_snd hopen] at inner
      cases hg : takeGroup? (takeModifier t).2 with
      | none =>
        rw [hg, Option.map_none] at inner
        rw [levelEnd_unclosed start hopen hg]
        exact LevelEnds.unclosed start hopen inner ((afterRun_of_opens hopen).symm ▸ inner)
      | some pair =>
        rw [hg, Option.map_some] at inner
        rw [levelEnd_token start (by simp [hg])]
        rw [readBody_of_group hg] at rest ⊢
        exact LevelEnds.group start hopen inner rest
    · rw [Bool.not_eq_true] at hopen
      rw [levelEnd_token start (by simp [hopen])]
      rw [start.rest_run hm (takeGroup?_of_not_opens hopen)] at rest ⊢
      exact LevelEnds.run start hm hopen rest

/-- **Backtracking comes to an end**, with what counting finds. -/
theorem levelEnds_levelEnd (spaced : Bool) (t : Text) : LevelEnds spaced t (levelEnd spaced t) := by
  match t with
  | [] =>
    have hnone : levelEnd spaced [] = none := by simp [levelEnd, closeGroup?_nil]
    rw [hnone]
    exact LevelEnds.ended spaced
  | c :: t =>
    by_cases hc : isBlank c = true
    · rw [levelEnd_blank hc]
      exact LevelEnds.blank hc (levelEnds_levelEnd true t)
    · rw [Bool.not_eq_true] at hc
      by_cases hclose : (c == ')' && spaced) = true
      · simp only [Bool.and_eq_true, beq_iff_eq] at hclose
        obtain ⟨rfl, rfl⟩ := hclose
        rw [levelEnd_atToken hc, closeGroup?_closing]
        exact LevelEnds.closing t
      · have start : AtToken spaced (c :: t) := ⟨c, t, rfl, hc, hclose⟩
        have hrest := length_readBody_lt start.ne_nil
        have hdrop := start.length_drop_lt
        exact levelEnds_token start (levelEnds_levelEnd false _) (levelEnds_levelEnd false _)
termination_by t.length
decreasing_by
  · simp
  all_goals assumption

theorem levelEnds_iff {spaced : Bool} {t : Text} {result : Option Text} :
    LevelEnds spaced t result ↔ levelEnd spaced t = result :=
  ⟨LevelEnds.eq_levelEnd, fun h => h ▸ levelEnds_levelEnd spaced t⟩

/-- Backtracking and counting find the same end of a group. -/
theorem groupEnds_iff {t : Text} (h : opensGroup t = true) {result : Option Text} :
    GroupEnds t result ↔ (takeGroup? t).map Prod.snd = result := by
  rw [GroupEnds, levelEnds_iff, takeGroup?_map_snd h]

/-! ## Inside a group -/

/-- A parenthesis that opens a group is read as a plain run just if the group cannot be closed. -/
theorem readToken_opening_iff {t : Text} (h : opensGroup (takeModifier t).2 = true)
    (offset : Nat) :
    (readToken offset t).1.body = .tag ['('] ↔ takeGroup? (takeModifier t).2 = none := by
  constructor
  · intro hbody
    cases hg : takeGroup? (takeModifier t).2 with
    | none => rfl
    | some pair => simp [readToken, readBody_of_group hg] at hbody
  · intro hg
    simp [readToken, readBody_of_unclosed h hg]

theorem exists_read_of_mem {offset : Nat} {t : Text} {token : Token}
    (h : token ∈ tokensFrom offset t) : token.text ≠ [] ∧ ∃ rest, token.Reads rest :=
  (exists_reads_of_mem_tokensFrom h).symm

theorem Tree.mem_leavesOf {levels : Nat} {leaf : Token} : ∀ {trees : List Tree},
    leaf ∈ Tree.leavesOf levels trees ↔ ∃ tree ∈ trees, leaf ∈ tree.leaves levels
  | [] => by simp [Tree.leavesOf]
  | tree :: rest => by
    rw [Tree.leavesOf, List.mem_append, Tree.mem_leavesOf]
    simp

/-- A level without a lone `(` holds none further down either. -/
theorem body_ne_opening_of_mem_leavesOf {t : Text}
    (h : ∀ token ∈ tokenize t, token.body ≠ .tag ['(']) {levels : Nat} {leaf : Token}
    (hleaf : leaf ∈ Tree.leavesOf levels (Tree.ofText t)) : leaf.body ≠ .tag ['('] := by
  obtain ⟨tree, htree, hleaf⟩ := Tree.mem_leavesOf.mp hleaf
  rw [Tree.ofText_eq] at htree
  obtain ⟨token, htoken, rfl⟩ := List.mem_map.mp htree
  unfold Tree.ofToken at hleaf
  split at hleaf
  · next source hbody =>
    cases levels with
    | zero => simp [Tree.leaves] at hleaf
    | succ levels =>
      have hlt := length_group_lt htoken hbody
      obtain ⟨hne, rest, hread⟩ := exists_read_of_mem htoken
      rw [Tree.leaves] at hleaf
      exact body_ne_opening_of_mem_leavesOf
        (fun inner hinner => ((hread.settled hne hbody 0).stands hinner).body_ne_opening) hleaf
  · rw [Tree.leaves, List.mem_singleton] at hleaf
    exact hleaf ▸ h token htoken
termination_by t.length

/-- **Counting finds the end that backtracking finds**, at every `(` before a blank; and a `(` that
the text does not close is never met inside a group, at any depth. The last part says what such a
`(` is read as, and that nothing else before a blank is. -/
theorem takeGroup?_iff_groupEnds (t : Text) :
    (opensGroup t = true → ∀ result, GroupEnds t result ↔ (takeGroup? t).map Prod.snd = result) ∧
    (∀ token children, Tree.group token children ∈ Tree.ofText t →
      ∀ levels, ∀ leaf ∈ Tree.leavesOf levels children, leaf.body ≠ .tag ['(']) ∧
    (opensGroup (takeModifier t).2 = true → ∀ offset,
      (readToken offset t).1.body = .tag ['('] ↔ takeGroup? (takeModifier t).2 = none) := by
  refine ⟨fun h result => groupEnds_iff h, ?_, fun h offset => readToken_opening_iff h offset⟩
  intro token children hgroup levels leaf hleaf
  rw [Tree.ofText_eq] at hgroup
  obtain ⟨token', htoken, heq⟩ := List.mem_map.mp hgroup
  unfold Tree.ofToken at heq
  split at heq
  · next source hbody =>
    cases heq
    obtain ⟨hne, rest, hread⟩ := exists_read_of_mem htoken
    exact body_ne_opening_of_mem_leavesOf
      (fun inner hinner => ((hread.settled hne hbody 0).stands hinner).body_ne_opening) hleaf
  · cases heq

/-- A closed group is stepped over, and the group around it stays open: backtracking says so rule by
rule, and so does counting. -/
theorem takeGroup?_iff_groupEnds_outer_open :
    opensGroup "( ( a )".toList = true ∧ GroupEnds "( ( a )".toList none
      ∧ takeGroup? "( ( a )".toList = none := by
  have inner : LevelEnds false " a )".toList (some []) :=
    .blank rfl (.run ⟨'a', " )".toList, rfl, rfl, by decide⟩ rfl rfl (.blank rfl (.closing [])))
  have outer : GroupEnds "( ( a )".toList none :=
    .blank rfl (.group ⟨'(', " a )".toList, rfl, rfl, by decide⟩ rfl inner (.ended false))
  have hsame := ((takeGroup?_iff_groupEnds "( ( a )".toList).1 rfl none).mp outer
  exact ⟨rfl, outer, Option.map_eq_none_iff.mp hsame⟩

end TagSearch
