import TagSearch.Number.Integer
import TagSearch.Pattern.Basic

/-!
# Reading patterns

The written form of a pattern:

| written         | meaning                                              |
|-----------------|------------------------------------------------------|
| `c`             | the character, up to case                            |
| `.`             | any character but the line feed                      |
| `\d` `\w` `\c`  | a digit, a word character, the punctuation mark `c`  |
| `[a-z]` `[^ab]` | a character in the set, or not in it                 |
| `^` `$`         | the start, the end of the text                       |
| `p*` `p+` `p?`  | any number of times, at least once, at most once     |
| `p{n}`          | `n` times                                            |
| `p{n,}` `p{n,m}`| at least `n` times, and at most `m` times            |
| `pq` `p\|q`     | one after the other, one or the other                |
| `(p)`           | grouping                                             |

The reader takes one character at a time. It keeps, for each open parenthesis, the alternatives
and the sequence read so far.
-/

namespace TagSearch.Pattern

open Number

/-- What was read since a parenthesis was opened. -/
structure Frame where
  /-- The alternatives that are complete. -/
  before : Option Pattern := none
  /-- The sequence being read, last item first. -/
  items : List Pattern := []

namespace Frame

/-- The sequence being read, as one pattern. -/
def sequence (f : Frame) : Pattern :=
  match f.items with
  | [] => nothing
  | last :: earlier => earlier.foldl (fun rest item => seq item rest) last

/-- All that was read, as one pattern. -/
def close (f : Frame) : Pattern :=
  match f.before with
  | some p => alt p f.sequence
  | none => f.sequence

/-- Adds an item to the sequence. -/
def add (f : Frame) (p : Pattern) : Frame :=
  { f with items := p :: f.items }

/-- Replaces the last item; there must be one. -/
def onLast? (f : Frame) (g : Pattern → Pattern) : Option Frame :=
  match f.items with
  | [] => none
  | last :: earlier => some { f with items := g last :: earlier }

end Frame

/-- What the next character belongs to. -/
inductive Mode where
  /-- An item of a sequence. After a repetition, `?` only asks for few repetitions. -/
  | item (repeated : Bool)
  /-- The character after a backslash. -/
  | escape
  /-- A number of repetitions, or two: `least` is the first once a comma followed it. -/
  | count (least : Option Nat) (digits : Text)
  /-- The first character of a set. -/
  | setStart
  /-- A set. `last` is a character that may turn out to start an interval, and `hyphen` tells that
  a hyphen followed it. -/
  | set (negated : Bool) (bounds : List (Char × Char)) (last : Option Char) (hyphen : Bool)

/-- The reader between two characters. -/
structure Reader where
  mode : Mode := .item false
  /-- What was read inside the innermost open parenthesis. -/
  frame : Frame := {}
  /-- The frames around it, innermost first. -/
  outer : List Frame := []

namespace Reader

/-- Adds an item. -/
def add (r : Reader) (p : Pattern) : Reader :=
  { r with mode := .item false, frame := r.frame.add p }

/-- Repeats the last item. -/
def repeated? (r : Reader) (g : Pattern → Pattern) : Option Reader :=
  (r.frame.onLast? g).map fun frame => { r with mode := .item true, frame }

/-- Closes a parenthesis. -/
def close? (r : Reader) : Option Reader :=
  match r.outer with
  | [] => none
  | f :: outer => some ⟨.item false, f.add r.frame.close, outer⟩

/-- Reads an item. -/
def item? (r : Reader) (afterRepeat : Bool) (c : Char) : Option Reader :=
  match c with
  | '\\' => some { r with mode := .escape }
  | '[' => some { r with mode := .setStart }
  | '(' => some ⟨.item false, {}, r.frame :: r.outer⟩
  | ')' => r.close?
  | '|' => some { r with mode := .item false, frame := ⟨some r.frame.close, []⟩ }
  | '*' => r.repeated? star
  | '+' => r.repeated? plus
  | '?' => if afterRepeat then some { r with mode := .item false } else r.repeated? optional
  | '\x7b' => some { r with mode := .count none [] }
  | '.' => some (r.add (one .any))
  | '^' => some (r.add start)
  | '$' => some (r.add stop)
  | c => some (r.add (literal c))

/-- Reads the character after a backslash. -/
def escape? (r : Reader) (c : Char) : Option Reader :=
  if c == 'd' then some (r.add (one .digits))
  else if c == 'w' then some (r.add (one .words))
  else if 0x21 ≤ c.toNat && c.toNat < 0x7f && !c.isAlphanum then some (r.add (literal c))
  else none

/-- Ends the numbers of repetitions. The second may be left out, and is not below the first. -/
def endCount? (r : Reader) (least : Option Nat) (digits : Text) : Option Reader :=
  match least, digits with
  | none, digits => (readNat? digits).bind fun n => r.repeated? fun p => p.times n
  | some n, [] => r.repeated? fun p => p.between n none
  | some n, digits => (readNat? digits).bind fun m =>
    if n ≤ m then r.repeated? fun p => p.between n (some m) else none

/-- Reads a character of the numbers of repetitions. -/
def count? (r : Reader) (least : Option Nat) (digits : Text) (c : Char) : Option Reader :=
  if c == '\x7d' then r.endCount? least digits
  else if isDigit c then some { r with mode := .count least (digits ++ [c]) }
  else if c == ',' && least.isNone then
    (readNat? digits).map fun n => { r with mode := .count (some n) [] }
  else none

/-- Reads a character of a set. -/
def set? (r : Reader) (negated : Bool) (bounds : List (Char × Char)) (last : Option Char)
    (hyphen : Bool) (c : Char) : Option Reader :=
  let single := last.toList.map fun l => (l, l)
  if c == ']' then
    let bounds := bounds ++ single ++ if hyphen then [('-', '-')] else []
    if bounds.isEmpty then none else some (r.add (one (.intervals negated bounds)))
  else if c == '\\' || c == '[' then none
  else match last, hyphen with
    | some low, true =>
      if low ≤ c then some { r with mode := .set negated (bounds ++ [(low, c)]) none false }
      else none
    | some _, false =>
      if c == '-' then some { r with mode := .set negated bounds last true }
      else some { r with mode := .set negated (bounds ++ single) (some c) false }
    | none, _ => some { r with mode := .set negated bounds (some c) false }

/-- Reads one character. -/
def step? (r : Reader) (c : Char) : Option Reader :=
  match r.mode with
  | .item afterRepeat => r.item? afterRepeat c
  | .escape => r.escape? c
  | .count least digits => r.count? least digits c
  | .setStart =>
    if c == '^' then some { r with mode := .set true [] none false }
    else r.set? false [] none false c
  | .set negated bounds last hyphen => r.set? negated bounds last hyphen c

/-- The pattern read, if nothing is left open. -/
def finish? (r : Reader) : Option Pattern :=
  match r.mode, r.outer with
  | .item _, [] => some r.frame.close
  | _, _ => none

end Reader

/-- Reads a pattern. -/
def read? (t : Text) : Option Pattern :=
  (t.foldlM Reader.step? {}).bind Reader.finish?

end TagSearch.Pattern
