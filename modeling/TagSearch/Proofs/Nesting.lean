import TagSearch.Proofs.Reading

/-!
# Counting parentheses and nesting groups

The search for a group's end carries a number, the groups still open, and never goes back.
`closeGroup?_add` says that this number stands for a stack of searches: to close `depth + 1` groups
more is to close the inner ones first and to go on, behind their last `)`, with `depth` to close.

From that, one level is read token by token: `closeGroup?_token` steps over a whole token, groups
included, exactly as `readToken` reads it, and `closeGroup?_unclosed` says that a group which cannot
be closed leaves the group around it open as well.
-/

namespace TagSearch

open Text

namespace Lexer

/-! ## The loop, one turn at a time -/

theorem closeGroup?_nil (depth : Nat) (spaced : Bool) : closeGroup? depth spaced [] = none := by
  rw [closeGroup?]

/-- The search for the end of `depth` groups goes on behind a `)`. -/
def onward (depth : Nat) (after : Text) : Option (Text × Text) :=
  ahead (after.takeWhile isBlank)
    (closeGroup? depth (after.head?.any isBlank) (after.dropWhile isBlank))

theorem closeGroup?_closing_succ (depth : Nat) (t : Text) :
    closeGroup? (depth + 1) true (')' :: t) = ahead [')'] (onward depth t) := by
  rw [closeGroup?, if_pos (by decide), onward, ahead_ahead]
  rfl

/-- Where no group ends, the loop takes a step and goes on. -/
theorem closeGroup?_stepping {c : Char} {spaced : Bool} (h : ¬(c == ')' && spaced) = true)
    (depth : Nat) (t : Text) :
    closeGroup? depth spaced (c :: t)
      = ahead (stepInside (c :: t)).text
          (onward (depth + (stepInside (c :: t)).opened) (stepInside (c :: t)).rest) := by
  rw [closeGroup?.eq_def, onward, ahead_ahead]
  dsimp only
  rw [if_neg h]
  rfl

/-! ## A number for a stack -/

/-- What is found behind a group that has been closed. -/
def beyond (depth : Nat) (found : Option (Text × Text)) : Option (Text × Text) :=
  found.bind fun (inside, after) => ahead (inside ++ [')']) (onward depth after)

theorem beyond_ahead (depth : Nat) (read : Text) (found : Option (Text × Text)) :
    beyond depth (ahead read found) = ahead read (beyond depth found) := by
  cases found with
  | none => rfl
  | some pair =>
    simp only [ahead, beyond, Option.map_some, Option.bind_some, Option.map_map,
      Function.comp_def, List.append_assoc]

/-- **Closing more groups is closing the inner ones and going on behind them.** -/
theorem closeGroup?_add (inner depth : Nat) (spaced : Bool) (t : Text) :
    closeGroup? (inner + (depth + 1)) spaced t = beyond depth (closeGroup? inner spaced t) := by
  fun_induction closeGroup? inner spaced t with
  | case1 inner spaced => rw [closeGroup?_nil]; rfl
  | case2 spaced c rest hc =>
    simp only [Bool.and_eq_true, beq_iff_eq] at hc
    obtain ⟨rfl, rfl⟩ := hc
    rw [Nat.zero_add, closeGroup?_closing_succ]
    rfl
  | case3 spaced c rest hc inner ih =>
    simp only [Bool.and_eq_true, beq_iff_eq] at hc
    obtain ⟨rfl, rfl⟩ := hc
    rw [Nat.succ_add, closeGroup?_closing_succ, onward, ih, ahead_ahead]
    exact (beyond_ahead depth _ _).symm
  | case4 inner spaced c rest hc ih =>
    rw [closeGroup?_stepping hc, onward, Nat.add_right_comm, ih, ahead_ahead]
    exact (beyond_ahead depth _ _).symm

/-! ## Whole tokens -/

theorem takeGroup?_opening {t : Text} (h : opensGroup t = true) :
    takeGroup? t = onward 0 (t.drop 1) := by
  have hblank : (t.drop 1).head?.any isBlank = true := by
    unfold opensGroup at h
    split at h
    · simpa using h
    · simp at h
  rw [takeGroup?, if_pos h, onward, hblank]
  rfl

/-- A parenthesis that opens a group is one step. -/
theorem stepInside_of_opens {t : Text} (h : opensGroup (takeModifier t).2 = true) :
    stepInside t = ⟨Modifier.text (takeModifier t).1 ++ ['('], (takeModifier t).2.drop 1, 1⟩ := by
  unfold stepInside
  simp only [h, if_true]

theorem takeMetatag?_of_opens {t : Text} (h : opensGroup t = true) : takeMetatag? t = none := by
  rw [opensGroup_eq h]
  exact takeMetatag?_opening _

theorem readBody_of_group {t inside after : Text} (h : takeGroup? t = some (inside, after)) :
    readBody t = ⟨.group (trimBlanks inside), '(' :: (inside ++ [')']), after⟩ := by
  have hm : takeMetatag? t = none := by
    rw [takeGroup?_eq h]
    exact takeMetatag?_opening _
  simp only [readBody, hm, h]

/-- **A group that cannot be closed leaves the group around it open.** -/
theorem closeGroup?_unclosed {c : Char} {t : Text} {spaced : Bool}
    (hc : ¬(c == ')' && spaced) = true) (hopen : opensGroup (takeModifier (c :: t)).2 = true)
    (hg : takeGroup? (takeModifier (c :: t)).2 = none) (depth : Nat) :
    closeGroup? depth spaced (c :: t) = none := by
  have hnone : closeGroup? 0 ((((takeModifier (c :: t)).2.drop 1)).head?.any isBlank)
      (((takeModifier (c :: t)).2.drop 1).dropWhile isBlank) = none := by
    rw [takeGroup?_opening hopen] at hg
    exact Option.map_eq_none_iff.mp hg
  rw [closeGroup?_stepping hc, stepInside_of_opens hopen, onward]
  dsimp only
  rw [← Nat.zero_add (depth + 1), closeGroup?_add, hnone]
  rfl

/-- **Inside a group, a token is stepped over as it would be read**, its own groups included. -/
theorem closeGroup?_token {c : Char} {t : Text} {spaced : Bool}
    (hc : ¬(c == ')' && spaced) = true)
    (hopen : opensGroup (takeModifier (c :: t)).2 = true
      → takeGroup? (takeModifier (c :: t)).2 ≠ none)
    (depth offset : Nat) :
    closeGroup? depth spaced (c :: t)
      = ahead (readToken offset (c :: t)).1.text (onward depth (readToken offset (c :: t)).2) := by
  rw [closeGroup?_stepping hc]
  by_cases ho : opensGroup (takeModifier (c :: t)).2 = true
  · -- the inner group is found first, and the search goes on behind it
    obtain ⟨⟨inside, after⟩, hg⟩ := Option.ne_none_iff_exists'.mp (hopen ho)
    have hread : readToken offset (c :: t) = (⟨(takeModifier (c :: t)).1,
        .group (trimBlanks inside), Modifier.text (takeModifier (c :: t)).1
          ++ '(' :: (inside ++ [')']), offset⟩, after) := by
      simp only [readToken, readBody_of_group hg]
    rw [hread, stepInside_of_opens ho, onward]
    dsimp only
    rw [← Nat.zero_add (depth + 1), closeGroup?_add, ← beyond_ahead, ← onward,
      ← takeGroup?_opening ho, hg]
    simp only [beyond, Option.bind_some, ahead_ahead, List.append_assoc, List.cons_append,
      List.nil_append]
  · rw [stepInside_eq_readToken (by simpa using ho) offset]
    rfl

end Lexer

end TagSearch
