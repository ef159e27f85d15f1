import TagSearch.Number.Decimal
import TagSearch.Text.Case
import TagSearch.Toml.Basic

/-!
# Lenient values

Configuration values are taken generously: a number may be written as a string, a flag as a number
or a word, a name as a number.
-/

namespace TagSearch.Config

open Text Number

/-- The largest unsigned 64-bit integer. -/
def maxNat64 : Nat := 18446744073709551615

/-- The words for a flag that is set. -/
def yesWords : List Text := ["true", "on", "yes"].map String.toList

/-- The words for a flag that is not set. -/
def noWords : List Text := ["false", "off", "no"].map String.toList

/-- Reads an unsigned 64-bit integer, with an optional plus sign. -/
def readNat64? (t : Text) : Option Nat :=
  let digits := match t with
    | '+' :: rest => rest
    | _ => t
  (readNat? digits).filter (· ≤ maxNat64)

/-- The whole number nearest to a float, a half rounded up, cut to 64 bits. -/
def roundToNat (x : Float) : Nat :=
  x.round.toUInt64.toNat

/-- Takes a value for a number. -/
def nat? : Toml → Option Nat
  | .int n => if 0 ≤ n && n ≤ (maxNat64 : Int) then some n.toNat else none
  | .float x => some (roundToNat x)
  | .bool b => some (if b then 1 else 0)
  | .str t | .moment t =>
    let word := t.lowercase
    if yesWords.contains word then some 1
    else if noWords.contains word then some 0
    else readNat64? t
  | _ => none

/-- Takes a value for a flag. -/
def bool? : Toml → Option Bool
  | .bool b => some b
  | .int n => some (n != 0)
  | .float x => some (x != 0.0)
  | .str t | .moment t =>
    let word := t.lowercase
    if word == ['1'] || yesWords.contains word then some true
    else if word == ['0'] || noWords.contains word then some false
    else none
  | _ => none

/-- Floats in names are written in full, whole numbers without a point. -/
def nameLayout : Layout := ⟨-400, 400, false⟩

/-- A float as a name. -/
def floatName (x : Float) : Text :=
  if x.isNaN then "NaN".toList
  else if x.isFinite then nameLayout.write x
  else if x < 0.0 then "-inf".toList
  else "inf".toList

/-- Takes a value for a text. -/
def text? : Toml → Option Text
  | .str t | .moment t => some t
  | .bool b => some (if b then "true".toList else "false".toList)
  | .int n => some (intText n)
  | .float x => some (floatName x)
  | _ => none

/-- Takes a value for a list of texts. -/
def texts? : Toml → Option (List Text)
  | .array items => items.mapM text?
  | _ => none

end TagSearch.Config
