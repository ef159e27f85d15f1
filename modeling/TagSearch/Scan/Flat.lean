import TagSearch.Search

/-!
# Flat scanning

The flat scan cuts a search into pieces without regard to groups: a quoted metatag stays whole,
and everything else is cut at white space. A piece is kept where it first appears.
-/

namespace TagSearch.Scan

open Text

/-- Parts a leading modifier from what follows it. -/
def takeSign : Text → Text × Text
  | '-' :: rest => (['-'], rest)
  | '~' :: rest => (['~'], rest)
  | t => ([], t)

/-- Reads word characters, a colon and a value in double quotes that holds no line feed. -/
def takeNamedQuote? (t : Text) : Option (Text × Text) :=
  match t.dropWhile isWordChar with
  | ':' :: '"' :: quoted =>
    match cut? '"' quoted with
    | some (value, rest) =>
      if value.contains '\n' then none
      else some (t.takeWhile isWordChar ++ ':' :: '"' :: (value ++ ['"']), rest)
    | none => none
  | _ => none

/-- Reads a quoted metatag: an optional modifier, a name and a quoted value. -/
def takeQuotedMetatag? (t : Text) : Option (Text × Text) :=
  (takeNamedQuote? (takeSign t).2).map fun (piece, rest) => ((takeSign t).1 ++ piece, rest)

theorem takeSign_eq (t : Text) : (takeSign t).1 ++ (takeSign t).2 = t := by
  unfold takeSign
  split <;> rfl

theorem takeNamedQuote?_eq {t piece rest : Text} (h : takeNamedQuote? t = some (piece, rest)) :
    t = piece ++ rest ∧ piece ≠ [] := by
  have hsplit : t.takeWhile isWordChar ++ t.dropWhile isWordChar = t :=
    List.takeWhile_append_dropWhile
  unfold takeNamedQuote? at h
  split at h
  · next quoted hd =>
    split at h
    · next value after hv =>
      split at h
      · simp at h
      · cases h
        rw [hd, cut?_eq hv] at hsplit
        exact ⟨by simpa using hsplit.symm, by simp⟩
    · simp at h
  · simp at h

/-- A quoted metatag and what follows it make up the input. -/
theorem takeQuotedMetatag?_eq {t piece rest : Text}
    (h : takeQuotedMetatag? t = some (piece, rest)) : t = piece ++ rest ∧ piece ≠ [] := by
  obtain ⟨⟨p, r⟩, hp, he⟩ := Option.map_eq_some_iff.mp h
  cases he
  obtain ⟨hbody, hne⟩ := takeNamedQuote?_eq hp
  refine ⟨?_, by simp [hne]⟩
  rw [List.append_assoc, ← hbody, takeSign_eq]

/-- The first quoted metatag of a text: what precedes it, the metatag, and what follows. -/
def findQuotedMetatag? : Text → Option (Text × Text × Text)
  | [] => none
  | c :: after =>
    match takeQuotedMetatag? (c :: after) with
    | some (piece, rest) => some ([], piece, rest)
    | none => (findQuotedMetatag? after).map fun (gap, piece, rest) => (c :: gap, piece, rest)

/-- What precedes the first quoted metatag, the metatag and what follows make up the text. -/
theorem findQuotedMetatag?_eq {t gap piece rest : Text}
    (h : findQuotedMetatag? t = some (gap, piece, rest)) :
    t = gap ++ piece ++ rest ∧ piece ≠ [] := by
  induction t generalizing gap with
  | nil => simp [findQuotedMetatag?] at h
  | cons c after ih =>
    unfold findQuotedMetatag? at h
    split at h
    · next p r hp =>
      cases h
      exact takeQuotedMetatag?_eq hp
    · obtain ⟨⟨g, p, r⟩, hg, he⟩ := Option.map_eq_some_iff.mp h
      cases he
      obtain ⟨heq, hne⟩ := ih hg
      exact ⟨by rw [heq]; rfl, hne⟩

theorem length_findQuotedMetatag?_lt {t gap piece rest : Text}
    (h : findQuotedMetatag? t = some (gap, piece, rest)) : rest.length < t.length := by
  obtain ⟨heq, hne⟩ := findQuotedMetatag?_eq h
  have := List.length_pos_iff.mpr hne
  rw [heq, List.length_append, List.length_append]
  omega

/-- The pieces of a text, repeats included. -/
def pieces (t : Text) : List Text :=
  match _h : findQuotedMetatag? t with
  | none => t.words
  | some (gap, piece, rest) => words gap ++ piece :: pieces rest
termination_by t.length
decreasing_by exact length_findQuotedMetatag?_lt _h

/-- The pieces of a search, each where it first appears. Parentheses are ordinary characters. -/
def flat (search : Text) : List Text :=
  (pieces (cleanSearch search)).eraseDups

/-- The canonical form of a search whose groups are disregarded: tag names in their canonical
spelling, sorted, each once. -/
def normalize (canonical : Text → Text) (search : Text) : Text :=
  unwords (Text.sort ((flat search).map fun piece => canonical (tagName piece))).eraseDups

end TagSearch.Scan
