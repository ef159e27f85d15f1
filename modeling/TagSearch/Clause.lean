import TagSearch.Text.Basic

/-!
# Modifiers and clauses

A token may carry a modifier: `-` excludes, `~` makes optional. The modifier selects the clause of
the search that the token belongs to.
-/

namespace TagSearch

/-- The sign in front of a tag, a metatag or a group. -/
inductive Modifier where
  /-- `-`: what follows must not match. -/
  | mustNot
  /-- `~`: what follows should match. -/
  | should
  deriving DecidableEq, Repr

namespace Modifier

/-- The sign as written. -/
def toChar : Modifier → Char
  | mustNot => '-'
  | should => '~'

/-- The modifier that a character stands for. -/
def ofChar? : Char → Option Modifier
  | '-' => some mustNot
  | '~' => some should
  | _ => none

@[simp] theorem ofChar?_toChar (m : Modifier) : ofChar? m.toChar = some m := by
  cases m <;> rfl

/-- An optional modifier as written: one character, or nothing. -/
def text : Option Modifier → Text
  | none => []
  | some m => [m.toChar]

end Modifier

/-- The three parts of a search. -/
inductive Clause where
  | must
  | mustNot
  | should
  deriving DecidableEq, Repr

namespace Clause

/-- The clauses in the order in which they are listed. -/
def all : List Clause := [must, mustNot, should]

/-- The clause that a token's modifier selects. -/
def ofModifier : Option Modifier → Clause
  | none => must
  | some .mustNot => mustNot
  | some .should => should

/-- The name under which a clause is written out. -/
def name : Clause → String
  | must => "must"
  | mustNot => "must_not"
  | should => "should"

/-- What a clause adds to the key of a field. -/
def suffix : Clause → String
  | must => ""
  | mustNot => "_must_not"
  | should => "_should"

/-- The key of a field under this clause, such as `width_must_not`. -/
def key (clause : Clause) (field : String) : String :=
  field ++ clause.suffix

end Clause

/-- Items sorted by clause, each clause in order of arrival. -/
structure Clauses (α : Type) where
  must : List α := []
  mustNot : List α := []
  should : List α := []
  deriving DecidableEq, Repr

namespace Clauses

variable {α : Type}

/-- The items of one clause. -/
def get (cs : Clauses α) : Clause → List α
  | .must => cs.must
  | .mustNot => cs.mustNot
  | .should => cs.should

/-- Replaces the items of one clause. -/
def set (cs : Clauses α) (clause : Clause) (items : List α) : Clauses α :=
  match clause with
  | .must => { cs with must := items }
  | .mustNot => { cs with mustNot := items }
  | .should => { cs with should := items }

/-- Adds an item at the end of a clause. -/
def push (cs : Clauses α) (clause : Clause) (item : α) : Clauses α :=
  cs.set clause (cs.get clause ++ [item])

/-- Adds an item at the end of a clause unless the clause has it. -/
def pushNew [BEq α] (cs : Clauses α) (clause : Clause) (item : α) : Clauses α :=
  if (cs.get clause).contains item then cs else cs.push clause item

/-- The number of items in all clauses. -/
def size (cs : Clauses α) : Nat :=
  cs.must.length + cs.mustNot.length + cs.should.length

/-- Whether no clause has an item. -/
def isEmpty (cs : Clauses α) : Bool :=
  cs.size == 0

/-- Every item with its clause. -/
def entries (cs : Clauses α) : List (Clause × α) :=
  Clause.all.flatMap fun clause => (cs.get clause).map fun item => (clause, item)

@[simp] theorem get_set_same (cs : Clauses α) (clause : Clause) (items : List α) :
    (cs.set clause items).get clause = items := by
  cases clause <;> rfl

theorem get_set_other (cs : Clauses α) {clause other : Clause} (items : List α)
    (h : other ≠ clause) : (cs.set clause items).get other = cs.get other := by
  cases clause <;> cases other <;> first | rfl | exact absurd rfl h

end Clauses

end TagSearch
