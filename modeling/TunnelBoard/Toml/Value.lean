import TunnelBoard.Text.Basic
/-
  Values of a TOML document, and how typed data is taken out of them.

  A table is a list of entries without repeated keys.  Floats and dates are kept as they are
  written, since nothing in this library computes with them.

  Data with named parts is taken from a table by name; parts that are not there have defaults, and
  keys that name no part are passed over.  An array gives the parts in order, and a date gives none
  of them.
-/

namespace TunnelBoard

inductive Toml where
  | string (text : Text)
  | integer (value : Int)
  | float (written : Text)
  | boolean (value : Bool)
  /-- A date, a time of day, or both. -/
  | moment (written : Text)
  | array (items : List Toml)
  | table (entries : List (Text × Toml))
  deriving Repr

namespace Toml

instance : Inhabited Toml := ⟨table []⟩

/-- The largest integer a document can hold. -/
def largest : Nat := Nat.pow 2 63 - 1

/-! ## Taking data out -/

def text? : Toml → Option Text
  | string t => some t
  | _ => none

def bool? : Toml → Option Bool
  | boolean b => some b
  | _ => none

/-- A number from zero up to a bound. -/
def nat? (bound : Nat) : Toml → Option Nat
  | integer n => if 0 ≤ n ∧ n ≤ bound then some n.toNat else none
  | _ => none

/-- All items, each taken out the same way. -/
def list? {α : Type} (item : Toml → Option α) : Toml → Option (List α)
  | array items => items.mapM item
  | _ => none

/-- Whether there is nothing in the value. -/
def isHollow : Toml → Bool
  | array items => items.isEmpty
  | table entries => entries.isEmpty
  | _ => false

/-- One of several names: the name itself, or a table with the name for its only key and nothing
    behind it. -/
def oneOf? {α : Type} (names : List (Text × α)) : Toml → Option α
  | string t => names.lookup t
  | table [(key, v)] => if v.isHollow then names.lookup key else none
  | _ => none

/-- The named parts of a value, each if it is there. -/
def parts? (names : List String) : Toml → Option (List (Option Toml))
  | table entries => some (names.map fun name => entries.lookup name.toList)
  | array items => some ((List.range names.length).map (items[·]?))
  | moment _ => some (names.map fun _ => none)
  | _ => none

/-- A part taken out, or its default if it is not there. -/
def partOr {α : Type} (default : α) (take : Toml → Option α) : Option Toml → Option α
  | none => some default
  | some v => take v

end Toml
end TunnelBoard
