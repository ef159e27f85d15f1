import TagSearch.Token.Basic

/-!
# Lexing

`tokenize` cuts one level of a search into tokens. Reading a token never fails: what is neither a
metatag nor a closed group is a plain run.

* A modifier counts only if a character that is not a blank follows it.
* `(` opens a group only before a blank, and `)` closes one only after a blank.
* A group is closed by counting open parentheses over the tokens inside it, so a quoted value may
  hold parentheses. If the text ends first, the `(` is read as a plain run.

## Termination

Every reader returns what it has read and what is left, and the two make up its input
(`readBody_eq`, `closeGroup?_eq`). The loops end because the rest gets shorter.
-/

namespace TagSearch

open Text

namespace Lexer

/-! ## Pieces -/

/-- Takes a modifier off the front, if a token body follows it. -/
def takeModifier : Text → Option Modifier × Text
  | m :: c :: rest =>
    match Modifier.ofChar? m with
    | some modifier => if isBlank c then (none, m :: c :: rest) else (some modifier, c :: rest)
    | none => (none, m :: c :: rest)
  | t => (none, t)

/-- Whether a group opens here. -/
def opensGroup : Text → Bool
  | '(' :: c :: _ => isBlank c
  | _ => false

/-- The characters up to the next blank. -/
def run (t : Text) : Text :=
  t.takeWhile (!isBlank ·)

/-- What follows the characters up to the next blank. -/
def afterRun (t : Text) : Text :=
  t.dropWhile (!isBlank ·)

/-- The parts of a metatag, and what follows it. -/
structure MetatagParts where
  name : Text
  value : Text
  quoted : Bool
  rest : Text

/-- Reads a value in double quotes. -/
def takeQuoted? : Text → Option (Text × Text)
  | '"' :: inner => cut? '"' inner
  | _ => none

/-- Reads a metatag: name characters, a colon, and a value that is quoted or runs to the next
blank. A quote that is never closed is part of such a run. -/
def takeMetatag? (t : Text) : Option MetatagParts :=
  match t.dropWhile isNameChar with
  | ':' :: after =>
    let name := t.takeWhile isNameChar
    match takeQuoted? after with
    | some (value, rest) => some ⟨name, value, true, rest⟩
    | none => some ⟨name, run after, false, afterRun after⟩
  | _ => none

/-- The metatag as written. -/
def MetatagParts.text (m : MetatagParts) : Text :=
  metatagText m.name m.value m.quoted

/-! ## The end of a group -/

/-- One step inside a group: the text read, what follows, and the number of groups it opens. -/
structure Step where
  text : Text
  rest : Text
  opened : Nat

/-- Reads a token inside a group, or the `(` that starts one. The first character is always
read. -/
def stepInside (t : Text) : Step :=
  let (modifier, body) := takeModifier t
  if opensGroup body then ⟨Modifier.text modifier ++ ['('], body.drop 1, 1⟩
  else match takeMetatag? body with
    | some m => ⟨Modifier.text modifier ++ m.text, m.rest, 0⟩
    | none => ⟨t.take 1 ++ run (t.drop 1), afterRun (t.drop 1), 0⟩

theorem takeModifier_eq (t : Text) :
    Modifier.text (takeModifier t).1 ++ (takeModifier t).2 = t := by
  unfold takeModifier
  split
  · next m c rest =>
    split
    · next modifier h =>
      split
      · rfl
      · unfold Modifier.ofChar? at h
        split at h <;> simp_all [Modifier.text, Modifier.toChar]
        all_goals (subst h; rfl)
    · rfl
  · rfl

theorem run_append_afterRun (t : Text) : run t ++ afterRun t = t :=
  List.takeWhile_append_dropWhile

theorem takeMetatag?_eq {t : Text} {m : MetatagParts} (h : takeMetatag? t = some m) :
    t = m.text ++ m.rest := by
  have hsplit : t.takeWhile isNameChar ++ t.dropWhile isNameChar = t :=
    List.takeWhile_append_dropWhile
  unfold takeMetatag? at h
  split at h
  · next after hd =>
    rw [hd] at hsplit
    dsimp only at h
    split at h
    · next value rest hq =>
      cases h
      unfold takeQuoted? at hq
      split at hq
      · have := cut?_eq hq
        simp_all [MetatagParts.text, metatagText]
      · simp at hq
    · cases h
      simp only [MetatagParts.text, metatagText, Bool.false_eq_true, if_false, List.append_assoc,
        List.cons_append]
      rw [run_append_afterRun, hsplit]
  · simp at h

theorem takeMetatag?_text_ne_nil {t : Text} {m : MetatagParts} (_ : takeMetatag? t = some m) :
    m.text ≠ [] := by
  unfold MetatagParts.text metatagText
  split <;> simp

theorem opensGroup_eq {t : Text} (h : opensGroup t = true) : t = '(' :: t.drop 1 := by
  unfold opensGroup at h
  split at h
  · rfl
  · simp at h

/-- What a step reads and what it leaves make up its input. -/
theorem stepInside_eq (t : Text) : (stepInside t).text ++ (stepInside t).rest = t := by
  have hm := takeModifier_eq t
  unfold stepInside
  dsimp only
  split
  · next hg =>
    rw [List.append_assoc, List.singleton_append, ← opensGroup_eq hg, hm]
  · split
    · next m hq =>
      rw [List.append_assoc, ← takeMetatag?_eq hq, hm]
    · rw [List.append_assoc, run_append_afterRun, List.take_append_drop]

theorem stepInside_ne_nil {t : Text} (h : t ≠ []) : (stepInside t).text ≠ [] := by
  unfold stepInside
  dsimp only
  split
  · simp
  · split
    · next m hq => simp [takeMetatag?_text_ne_nil hq]
    · cases t with
      | nil => exact absurd rfl h
      | cons c rest => simp

/-- A step leaves less than it was given. -/
theorem length_stepInside_lt {t : Text} (h : t ≠ []) : (stepInside t).rest.length < t.length := by
  have h1 := congrArg List.length (stepInside_eq t)
  have h2 := List.length_pos_iff.mpr (stepInside_ne_nil h)
  rw [List.length_append] at h1
  omega

theorem length_dropWhile_le (p : Char → Bool) (t : Text) :
    (t.dropWhile p).length ≤ t.length :=
  List.Sublist.length_le (List.dropWhile_sublist p)

/-- Reads on to the `)` that closes the group at hand, from a token position inside `depth` further
groups; `spaced` says whether a blank precedes that position. The result is the text before that
`)` and the text after it. -/
def closeGroup? (depth : Nat) (spaced : Bool) (t : Text) : Option (Text × Text) :=
  match t with
  | [] => none
  | c :: rest =>
    if c == ')' && spaced then
      match depth with
      | 0 => some ([], rest)
      | depth + 1 =>
        (closeGroup? depth (rest.head?.any isBlank) (rest.dropWhile isBlank)).map
          fun (inside, after) => (c :: rest.takeWhile isBlank ++ inside, after)
    else
      (closeGroup? (depth + (stepInside (c :: rest)).opened)
        ((stepInside (c :: rest)).rest.head?.any isBlank)
        ((stepInside (c :: rest)).rest.dropWhile isBlank)).map
        fun (inside, after) =>
          ((stepInside (c :: rest)).text ++ (stepInside (c :: rest)).rest.takeWhile isBlank
            ++ inside, after)
termination_by t.length
decreasing_by
  · have := length_dropWhile_le isBlank rest
    simp only [List.length_cons]
    omega
  · have h1 := length_dropWhile_le isBlank (stepInside (c :: rest)).rest
    have h2 := length_stepInside_lt (t := c :: rest) (by simp)
    omega

/-- The text before the closing `)`, that `)` and the text after it make up the input. -/
theorem closeGroup?_eq {depth : Nat} {spaced : Bool} {t inside after : Text}
    (h : closeGroup? depth spaced t = some (inside, after)) : t = inside ++ ')' :: after := by
  fun_induction closeGroup? depth spaced t generalizing inside with
  | case1 => simp at h
  | case2 spaced c rest hc =>
    simp only [Bool.and_eq_true, beq_iff_eq] at hc
    simp only [Option.some.injEq, Prod.mk.injEq] at h
    obtain ⟨rfl, rfl⟩ := h
    simp [hc.1]
  | case3 spaced c rest hc depth ih =>
    obtain ⟨⟨i, a⟩, hi, he⟩ := Option.map_eq_some_iff.mp h
    simp only [Prod.mk.injEq] at he
    obtain ⟨rfl, rfl⟩ := he
    have hb : rest.takeWhile isBlank ++ rest.dropWhile isBlank = rest :=
      List.takeWhile_append_dropWhile
    rw [List.cons_append, List.cons_append, List.append_assoc, ← ih hi, hb]
  | case4 depth spaced c rest hc ih =>
    obtain ⟨⟨i, a⟩, hi, he⟩ := Option.map_eq_some_iff.mp h
    simp only [Prod.mk.injEq] at he
    obtain ⟨rfl, rfl⟩ := he
    rw [List.append_assoc, ← ih hi, List.append_assoc, List.takeWhile_append_dropWhile]
    exact (stepInside_eq (c :: rest)).symm

/-- Reads a group from its `(` to its `)`: the text between them and the text after. -/
def takeGroup? (t : Text) : Option (Text × Text) :=
  if opensGroup t then
    (closeGroup? 0 true ((t.drop 1).dropWhile isBlank)).map
      fun (inside, after) => ((t.drop 1).takeWhile isBlank ++ inside, after)
  else none

theorem takeGroup?_eq {t inside after : Text} (h : takeGroup? t = some (inside, after)) :
    t = '(' :: (inside ++ ')' :: after) := by
  unfold takeGroup? at h
  split at h
  · next hg =>
    obtain ⟨⟨i, a⟩, hi, he⟩ := Option.map_eq_some_iff.mp h
    simp only [Prod.mk.injEq] at he
    obtain ⟨rfl, rfl⟩ := he
    have hb : (t.drop 1).takeWhile isBlank ++ (t.drop 1).dropWhile isBlank = t.drop 1 :=
      List.takeWhile_append_dropWhile
    rw [List.append_assoc, ← closeGroup?_eq hi, hb]
    exact opensGroup_eq hg
  · simp at h

/-! ## One token -/

/-- A token body, the text it was read from, and what follows. -/
structure ReadBody where
  body : Body
  text : Text
  rest : Text

/-- Reads a token body. A metatag comes first, then a closed group, then a plain run; the first
character is always read. -/
def readBody (t : Text) : ReadBody :=
  match takeMetatag? t with
  | some m => ⟨.metatag m.name m.value m.quoted, m.text, m.rest⟩
  | none =>
    match takeGroup? t with
    | some (inside, after) => ⟨.group (trimBlanks inside), '(' :: (inside ++ [')']), after⟩
    | none =>
      let text := t.take 1 ++ run (t.drop 1)
      ⟨.tag text, text, afterRun (t.drop 1)⟩

/-- What is read and what is left make up the input. -/
theorem readBody_eq (t : Text) : (readBody t).text ++ (readBody t).rest = t := by
  unfold readBody
  split
  · next m h => exact (takeMetatag?_eq h).symm
  · split
    · next inside after h => simpa using (takeGroup?_eq h).symm
    · simp only [List.append_assoc, run_append_afterRun, List.take_append_drop]

theorem readBody_text_ne_nil {t : Text} (h : t ≠ []) : (readBody t).text ≠ [] := by
  unfold readBody
  split
  · next m hm => exact takeMetatag?_text_ne_nil hm
  · split
    · simp
    · cases t with
      | nil => exact absurd rfl h
      | cons c rest => simp

theorem takeModifier_ne_nil {t : Text} (h : t ≠ []) : (takeModifier t).2 ≠ [] := by
  unfold takeModifier
  split
  · split
    · split <;> simp
    · simp
  · exact h

/-- Reading a token leaves less than there was. -/
theorem length_readBody_lt {t : Text} (h : t ≠ []) :
    (readBody (takeModifier t).2).rest.length < t.length := by
  have h1 := congrArg List.length (readBody_eq (takeModifier t).2)
  have h2 := List.length_pos_iff.mpr (readBody_text_ne_nil (takeModifier_ne_nil h))
  have h3 := congrArg List.length (takeModifier_eq t)
  rw [List.length_append] at h1 h3
  omega

end Lexer

open Lexer

/-- The token that starts at a text, and what follows it. -/
def readToken (offset : Nat) (t : Text) : Token × Text :=
  let (modifier, rest) := takeModifier t
  let read := readBody rest
  (⟨modifier, read.body, Modifier.text modifier ++ read.text, offset⟩, read.rest)

/-- The tokens of a text that starts `offset` bytes into the search. -/
def tokensFrom (offset : Nat) (t : Text) : List Token :=
  match _h : t.dropWhile isBlank with
  | [] => []
  | c :: rest =>
    let start := offset + Text.byteLength (t.takeWhile isBlank)
    let read := readToken start (c :: rest)
    read.1 :: tokensFrom read.1.stop read.2
termination_by t.length
decreasing_by
  have h1 := length_dropWhile_le isBlank t
  have h2 := length_readBody_lt (t := c :: rest) (by simp)
  rw [_h] at h1
  exact Nat.lt_of_lt_of_le h2 h1

/-- The tokens of one level of a search, in order. -/
def tokenize (t : Text) : List Token :=
  tokensFrom 0 t

end TagSearch
