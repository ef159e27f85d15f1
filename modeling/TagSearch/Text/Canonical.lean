import TagSearch.Text.Basic
import TagSearch.Text.Canonical.Table

/-!
# Canonical composition

`Text.compose` brings a text to Normalization Form C: every character is decomposed, marks are
put in canonical order, and what can be composed is composed again. Equal-looking searches
therefore compare equal.

A text without a character from U+0300 on has nothing to decompose, reorder or compose, and is
returned as it stands.
-/

namespace TagSearch.Text

namespace Canonical

/-! ## Hangul syllables -/

/-- A syllable's leading consonant, vowel and, if there is one, trailing consonant. -/
def syllable? (n : Nat) : Option (List Nat) :=
  if 0xac00 ≤ n && n ≤ 0xd7a3 then
    let s := n - 0xac00
    let lv := [0x1100 + s / 588, 0x1161 + s % 588 / 28]
    some (if s % 28 == 0 then lv else lv ++ [0x11a7 + s % 28])
  else none

/-- Joins a leading consonant and a vowel, or a syllable without and a trailing consonant. -/
def joinSyllable? (a b : Nat) : Option Nat :=
  if 0x1100 ≤ a && a ≤ 0x1112 && 0x1161 ≤ b && b ≤ 0x1175 then
    some (0xac00 + ((a - 0x1100) * 21 + (b - 0x1161)) * 28)
  else if 0xac00 ≤ a && a ≤ 0xd7a3 && (a - 0xac00) % 28 == 0 && 0x11a8 ≤ b && b ≤ 0x11c2 then
    some (a + (b - 0x11a7))
  else none

/-! ## Look-ups -/

/-- The canonical combining class; 0 for a starter. -/
def classOf (n : Nat) : Nat :=
  if n < 0x300 then 0
  else match classIntervals.find? fun (lo, hi, _) => lo ≤ n && n ≤ hi with
    | some (_, _, k) => k
    | none => 0

/-- All two-part decompositions. -/
def pairs : List (Nat × Nat × Nat) :=
  pairsLow ++ pairsLatin ++ pairsHigh

/-- The one character that `n` stands for. -/
def single? (n : Nat) : Option Nat :=
  match singles.find? fun (c, _) => c == n with
  | some (_, a) => some a
  | none => ideographs.findSome? fun (first, targets) =>
      if first ≤ n then targets[n - first]? else none

/-- One step of decomposition. -/
def split? (n : Nat) : Option (List Nat) :=
  if n < 0xc0 then none
  else match syllable? n with
    | some parts => some parts
    | none =>
      match pairs.find? fun (c, _, _) => c == n with
      | some (_, a, b) => some [a, b]
      | none => (single? n).map fun a => [a]

/-- Decomposition, `depth` steps deep in the first part. -/
def decompose : (depth : Nat) → Nat → List Nat
  | 0, n => [n]
  | depth + 1, n =>
    match split? n with
    | some (a :: rest) => decompose depth a ++ rest
    | _ => [n]

/-- Mappings nest no deeper than this. -/
def maxNesting : Nat := 4

/-- The character whose decomposition is `a` followed by `b`. -/
def join? (a b : Nat) : Option Nat :=
  match joinSyllable? a b with
  | some s => some s
  | none =>
    (pairs.find? fun (c, x, y) => x == a && y == b && !neverComposed.contains c).map (·.1)

/-! ## Ordering -/

/-- Places a mark before a run of marks in canonical order; equal classes keep their order. -/
def insertMark (n : Nat) : List Nat → List Nat
  | [] => [n]
  | m :: rest =>
    if classOf m != 0 && classOf m < classOf n then m :: insertMark n rest else n :: m :: rest

/-- Sorts every run of marks by combining class, keeping equal classes in order. -/
def reorder : List Nat → List Nat
  | [] => []
  | n :: rest => if classOf n == 0 then n :: reorder rest else insertMark n (reorder rest)

/-! ## Composition -/

/-- Composes what follows a starter. `marks` are those passed over since, the last of class
`last`; a character is blocked from the starter by a mark of its own class or a higher one. -/
def composeFrom (starter : Nat) (marks : List Nat) (last : Nat) : List Nat → List Nat
  | [] => starter :: marks
  | n :: rest =>
    let k := classOf n
    match if marks.isEmpty || last < k then join? starter n else none with
    | some s => composeFrom s marks last rest
    | none =>
      if k == 0 then starter :: (marks ++ composeFrom n [] 0 rest)
      else composeFrom starter (marks ++ [n]) k rest

/-- Composes a decomposed and ordered sequence. Marks before the first starter stay. -/
def recompose : List Nat → List Nat
  | [] => []
  | n :: rest => if classOf n == 0 then composeFrom n [] 0 rest else n :: recompose rest

end Canonical

open Canonical in
/-- The text in Normalization Form C. -/
def compose (t : Text) : Text :=
  if t.all (·.toNat < 0x300) then t
  else (recompose (reorder (t.flatMap fun c => decompose maxNesting c.toNat))).map Char.ofNat

end TagSearch.Text
