import TagSearch.Toml.Basic

/-!
# TOML documents under construction

The tables of a document are filled as its lines are read. How a table came about decides whether
it may be opened again: a table that a header names is named once, a table that only lies on the way
to another may be named later, and a value in one piece is never added to.
-/

namespace TagSearch.Toml

/-- How a table came about. -/
inductive Origin where
  /-- It lies on the way to a table with a header. -/
  | implied
  /-- It has a header. -/
  | headed
  /-- It lies on the way of a dotted key. -/
  | dotted
  deriving DecidableEq, Repr

/-- What a key of an unfinished document holds. -/
inductive Entry where
  | value (v : Toml)
  | table (origin : Origin) (entries : List (Text × Entry))
  /-- The tables of an array of tables, last first. -/
  | tables (items : List (List (Text × Entry)))

/-- The keys of an unfinished table. -/
abbrev Section := List (Text × Entry)

namespace Section

/-- Changes what a key holds, which may be nothing yet. -/
def adjust (key : Text) (f : Option Entry → Option Entry) : Section → Option Section
  | [] => (f none).map fun entry => [(key, entry)]
  | (k, entry) :: rest =>
    if k = key then (f (some entry)).map fun entry => (k, entry) :: rest
    else (adjust key f rest).map fun rest => (k, entry) :: rest

/-- Changes the table that headers lead to; tables on the way are added. -/
def within (f : Section → Option Section) : List Text → Section → Option Section
  | [], s => f s
  | key :: path, s =>
    s.adjust key fun
      | none => (within f path []).map (Entry.table .implied)
      | some (.table origin entries) => (within f path entries).map (Entry.table origin)
      | some (.tables (last :: earlier)) =>
        (within f path last).map fun last => .tables (last :: earlier)
      | some _ => none

/-- Changes the table that a dotted key leads to; tables on the way are added. -/
def withinDotted (f : Section → Option Section) : List Text → Section → Option Section
  | [], s => f s
  | key :: path, s =>
    s.adjust key fun
      | none => (withinDotted f path []).map (Entry.table .dotted)
      | some (.table .headed _) => none
      | some (.table origin entries) => (withinDotted f path entries).map (Entry.table origin)
      | some _ => none

/-- Opens the table of a header. -/
def openTable (path : List Text) (s : Section) : Option Section :=
  match path.reverse with
  | [] => none
  | last :: outer =>
    s.within (fun table => table.adjust last fun
      | none => some (.table .headed [])
      | some (.table .implied entries) => some (.table .headed entries)
      | some _ => none) outer.reverse

/-- Opens a new table of an array of tables. -/
def openItem (path : List Text) (s : Section) : Option Section :=
  match path.reverse with
  | [] => none
  | last :: outer =>
    s.within (fun table => table.adjust last fun
      | none => some (.tables [[]])
      | some (.tables items) => some (.tables ([] :: items))
      | some _ => none) outer.reverse

/-- Sets a dotted key, which must be new. -/
def set (path : List Text) (v : Toml) (s : Section) : Option Section :=
  match path.reverse with
  | [] => none
  | last :: outer =>
    s.withinDotted (fun table => table.adjust last fun
      | none => some (.value v)
      | some _ => none) outer.reverse

end Section

mutual

/-- A finished entry. -/
def Entry.toToml : Entry → Toml
  | .value v => v
  | .table _ entries => .table (sectionToToml entries)
  | .tables items => .array (itemsToToml items).reverse

/-- A finished table. -/
def sectionToToml : List (Text × Entry) → List (Text × Toml)
  | [] => []
  | (key, entry) :: rest => (key, entry.toToml) :: sectionToToml rest

/-- The finished tables of an array. -/
def itemsToToml : List (List (Text × Entry)) → List Toml
  | [] => []
  | item :: rest => .table (sectionToToml item) :: itemsToToml rest

end

end TagSearch.Toml
