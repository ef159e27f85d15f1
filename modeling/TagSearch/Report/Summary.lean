import TagSearch.Report.Json

/-!
# Summaries for people

What the command line prints: a query line by line, scan results, aliases. Labels may be coloured by
terminal codes.
-/

namespace TagSearch.Report

open Number

/-- How a label is set apart on a terminal. -/
inductive Style where
  | green
  | red
  | yellow
  | cyan
  | bold
  | dimmed
  deriving DecidableEq, Repr

/-- The terminal code of a style. -/
def Style.code : Style → String
  | green => "32"
  | red => "31"
  | yellow => "33"
  | cyan => "36"
  | bold => "1"
  | dimmed => "2"

/-- A label in a style, if there are colours. -/
def styled (color : Bool) (style : Style) (t : Text) : Text :=
  if color then "\x1b[".toList ++ style.code.toList ++ 'm' :: t ++ "\x1b[0m".toList else t

/-- The label of a clause. -/
def clauseLabel (color : Bool) : Clause → Text
  | .must => styled color .green "must".toList
  | .mustNot => styled color .red "must not".toList
  | .should => styled color .yellow "should".toList

/-- The spaces in front of a line. -/
def indent (depth : Nat) : Text :=
  List.replicate (2 * depth) ' '

/-- The lines of the tags, a clause a line. -/
def tagLines (color : Bool) (depth : Nat) (tags : Clauses Text) : List Text :=
  Clause.all.filterMap fun clause =>
    match tags.get clause with
    | [] => none
    | items => some (indent depth ++ clauseLabel color clause ++ ": ".toList ++ Text.unwords items)

/-- The lines of the fields, a key a line. -/
def fieldLines (color : Bool) (depth : Nat) (fields : Fields) : List Text :=
  fields.sorted.map fun (key, value) =>
    indent depth ++ styled color .cyan key.toList ++ " = ".toList ++ value.toJson.compact

mutual

/-- The lines of a query at a depth. -/
def queryLines (color : Bool) (depth : Nat) : Query → List Text
  | ⟨tags, ⟨must, mustNot, should⟩, fields, _⟩ =>
    tagLines color depth tags ++ fieldLines color depth fields
      ++ groupLines color depth .must must ++ groupLines color depth .mustNot mustNot
      ++ groupLines color depth .should should

/-- The lines of a group of a clause. -/
def entryLines (color : Bool) (depth : Nat) (clause : Clause) : GroupEntry → List Text
  | .unparsed source =>
    [indent depth ++ clauseLabel color clause ++ " group: ( ".toList ++ source ++ " )".toList]
  | .parsed query =>
    (indent depth ++ clauseLabel color clause ++ " group:".toList)
      :: queryLines color (depth + 1) query
  | .exceeded max query =>
    (indent depth ++ clauseLabel color clause ++ " group (".toList
        ++ styled color .red (QueryError.countMessage max) ++ "):".toList)
      :: queryLines color (depth + 1) query

/-- The lines of the groups of a clause. -/
def groupLines (color : Bool) (depth : Nat) (clause : Clause) : List GroupEntry → List Text
  | [] => []
  | entry :: rest => entryLines color depth clause entry ++ groupLines color depth clause rest

end

/-- A query line by line, its tag count last. -/
def summary (color : Bool) (q : Query) : List Text :=
  queryLines color 0 q
    ++ [styled color .dimmed ("tag count: ".toList ++ natText q.tagCount)]

/-- Scan results apart by spaces; nested items are written as JSON. -/
def scanText (items : List Scan.Item) : Text :=
  Text.unwords (items.map fun
    | .tag text => text
    | .nested inner => (Scan.Item.nested inner).toJson.compact)

/-- An alias as a line of a list. -/
def aliasLine (color quiet : Bool) (name canonical : Text) : Text :=
  if quiet then name ++ ' ' :: canonical
  else "  ".toList ++ name ++ " → ".toList ++ styled color .bold canonical

end TagSearch.Report
