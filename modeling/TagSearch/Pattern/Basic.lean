import TagSearch.Text.Case
import TagSearch.Text.Word

/-!
# Patterns

Regular expressions over characters, with anchors for the two ends of the text, in any case.
Matching goes by derivatives: `p.after first c` matches what may follow `c` where `p` matches. The
flag `first` tells whether the position is the start of the text, which only the anchors see.
-/

namespace TagSearch

open Text

/-- A set of characters. -/
inductive CharSet where
  /-- Every character but the line feed. -/
  | any
  /-- The decimal digits of all scripts. -/
  | digits
  /-- The word characters of all scripts. -/
  | words
  /-- The characters in some intervals, or in none of them, up to case. -/
  | intervals (negated : Bool) (bounds : List (Char × Char))
  deriving DecidableEq, Repr

/-- Whether a character is in the set. -/
def CharSet.contains : CharSet → Char → Bool
  | any, c => c != '\n'
  | digits, c => isDecimal c
  | words, c => isWordChar c
  | intervals negated bounds, c =>
    negated != (caseVariants c).any fun v => bounds.any fun (low, high) => low ≤ v && v ≤ high

/-- A regular expression. -/
inductive Pattern where
  /-- Matches nowhere. -/
  | never
  /-- Matches the empty text. -/
  | nothing
  /-- Matches at the start of the text. -/
  | start
  /-- Matches at the end of the text. -/
  | stop
  /-- Matches one character. -/
  | one (set : CharSet)
  | seq (p q : Pattern)
  | alt (p q : Pattern)
  | star (p : Pattern)
  deriving DecidableEq, Repr

namespace Pattern

/-- One after the other, simplified. -/
def andThen : Pattern → Pattern → Pattern
  | never, _ => never
  | nothing, q => q
  | p, q => seq p q

/-- One or the other, simplified. -/
def orElse (p q : Pattern) : Pattern :=
  if p = never then q else if q = never then p else if p = q then p else alt p q

/-- Whether the empty text matches at a position. -/
def nullable (first last : Bool) : Pattern → Bool
  | never => false
  | nothing => true
  | start => first
  | stop => last
  | one _ => false
  | seq p q => p.nullable first last && q.nullable first last
  | alt p q => p.nullable first last || q.nullable first last
  | star _ => true

/-- What is left to match after a character. -/
def after (first : Bool) (c : Char) : Pattern → Pattern
  | never => never
  | nothing => never
  | start => never
  | stop => never
  | one set => if set.contains c then nothing else never
  | seq p q =>
    let rest := (p.after first c).andThen q
    if p.nullable first false then rest.orElse (q.after first c) else rest
  | alt p q => (p.after first c).orElse (q.after first c)
  | star p => (p.after first c).andThen (star p)

/-- Whether some initial part of the text matches. -/
def matchesStart (first : Bool) (p : Pattern) : Text → Bool
  | [] => p.nullable first true
  | c :: rest => p.nullable first false || matchesStart false (p.after first c) rest

/-- Whether some part of the text matches, where `first` tells whether its start is that of the
whole text. -/
def occursFrom (first : Bool) (p : Pattern) : Text → Bool
  | [] => p.matchesStart first []
  | c :: rest => p.matchesStart first (c :: rest) || occursFrom false p rest

/-- Whether some part of the text matches. -/
def occursIn (p : Pattern) (t : Text) : Bool :=
  p.occursFrom true t

/-- One character, up to case. -/
def literal (c : Char) : Pattern :=
  one (.intervals false [(c, c)])

/-- At most once. -/
def optional (p : Pattern) : Pattern :=
  alt nothing p

/-- At least once. -/
def plus (p : Pattern) : Pattern :=
  seq p (star p)

/-- Exactly `n` times. -/
def times (p : Pattern) : Nat → Pattern
  | 0 => nothing
  | n + 1 => seq p (times p n)

/-- At most `n` times. -/
def upTo (p : Pattern) : Nat → Pattern
  | 0 => nothing
  | n + 1 => optional (seq p (upTo p n))

/-- At least `least` times, and at most `most` times if there is a bound. -/
def between (p : Pattern) (least : Nat) : Option Nat → Pattern
  | none => seq (p.times least) (star p)
  | some most => seq (p.times least) (p.upTo (most - least))

end Pattern

end TagSearch
