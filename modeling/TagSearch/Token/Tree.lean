import TagSearch.Token.Lexer

/-!
# Token trees

`Tree.ofText` lexes a search to the bottom: every group token comes with the trees of its own
text. All passes that look inside groups are functions on these trees.

## Termination

A group's text is shorter than the search that holds the group (`length_group_lt`).
-/

namespace TagSearch

open Text Lexer

theorem length_trimBy_le (p : Char → Bool) (t : Text) : (t.trimBy p).length ≤ t.length := by
  have h1 := length_dropWhile_le p t
  have h2 := length_dropWhile_le p (t.dropWhile p).reverse
  rw [List.length_reverse] at h2
  unfold Text.trimBy
  rw [List.length_reverse]
  omega

/-- A group body holds less text than it was read from. -/
theorem length_readBody_group {t source : Text} (h : (readBody t).body = .group source) :
    source.length < t.length := by
  unfold readBody at h
  split at h
  · simp at h
  · split at h
    · next inside after hg =>
      simp only [Body.group.injEq] at h
      have h1 := length_trimBy_le isBlank inside
      have h2 := congrArg List.length (takeGroup?_eq hg)
      simp only [List.length_cons, List.length_append] at h2
      subst h
      unfold trimBlanks
      omega
    · simp at h

/-- A group token of a search holds less text than the search. -/
theorem length_group_lt {offset : Nat} {t source : Text} {token : Token}
    (h : token ∈ tokensFrom offset t) (hb : token.body = .group source) :
    source.length < t.length := by
  fun_induction tokensFrom offset t with
  | case1 => simp at h
  | case2 offset t c rest hd start read ih =>
    have hle := length_dropWhile_le isBlank t
    rw [hd] at hle
    have hm := congrArg List.length (takeModifier_eq (c :: rest))
    rw [List.length_append] at hm
    rcases List.mem_cons.mp h with rfl | htail
    · have := length_readBody_group (t := (takeModifier (c :: rest)).2) hb
      omega
    · have := ih htail
      have hlt := length_readBody_lt (t := c :: rest) (by simp)
      exact Nat.lt_of_lt_of_le (Nat.lt_trans this hlt) hle

/-- A token with everything inside it. -/
inductive Tree where
  /-- A tag or a metatag. -/
  | leaf (token : Token)
  /-- A group token and the trees of its text. -/
  | group (token : Token) (children : List Tree)

namespace Tree

/-- The token at the root. -/
def token : Tree → Token
  | leaf token => token
  | group token _ => token

/-- The trees of a search. -/
def ofText (t : Text) : List Tree :=
  (tokenize t).attach.map fun ⟨token, _h⟩ =>
    match _hb : token.body with
    | .group source => group token (ofText source)
    | _ => leaf token
termination_by t.length
decreasing_by exact length_group_lt _h _hb

mutual

/-- The tokens of a tree that are not groups, in document order, down to `levels` groups deep. -/
def leaves (levels : Nat) : Tree → List Token
  | leaf token => [token]
  | group _ children =>
    match levels with
    | 0 => []
    | inner + 1 => leavesOf inner children

/-- The tokens of some trees that are not groups, down to `levels` groups deep. -/
def leavesOf (levels : Nat) : List Tree → List Token
  | [] => []
  | tree :: rest => tree.leaves levels ++ leavesOf levels rest

end

end Tree

end TagSearch
