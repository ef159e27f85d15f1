import TagSearch.Text.Basic

/-!
# TOML

The values of configuration files. A document is a table.
-/

namespace TagSearch

/-- A TOML value. -/
inductive Toml where
  | str (text : Text)
  | int (n : Int)
  | float (x : Float)
  | bool (b : Bool)
  /-- A date or a time, in its usual written form. -/
  | moment (text : Text)
  | array (items : List Toml)
  | table (entries : List (Text × Toml))

namespace Toml

/-- The value of a key in a list of entries. -/
def lookup? (key : Text) : List (Text × Toml) → Option Toml
  | [] => none
  | (k, v) :: rest => if k = key then some v else lookup? key rest

/-- The member of a record: by its name in a table, by its place in an array. -/
def member? (value : Toml) (place : Nat) (name : String) : Option Toml :=
  match value with
  | table entries => lookup? name.toList entries
  | array items => items[place]?
  | _ => none

/-- Reads a member that may be left out. -/
def memberOr? {α : Type} (value : Toml) (place : Nat) (name : String) (read : Toml → Option α)
    (default : α) : Option α :=
  match value.member? place name with
  | some v => read v
  | none => some default

/-- Whether a value can hold the members of a record. -/
def isRecord : Toml → Bool
  | table _ => true
  | array _ => true
  | _ => false

end Toml

end TagSearch
