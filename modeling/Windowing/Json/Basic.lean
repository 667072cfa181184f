import Windowing.Number.Binary64

/-!
# JSON values

JSON documents as values, and the reading of single values and of records. Integers and other
numbers are apart: a number with a fraction or an exponent is never an integer, whatever its value.
A record is read from an object by the names of its fields, and from an array by their order.
-/

namespace Windowing

/-- A JSON document. -/
inductive Json where
  | null
  | bool (value : Bool)
  | int (value : Int)
  | real (value : Binary64)
  | str (value : String)
  | arr (items : List Json)
  | obj (fields : List (String × Json))
  deriving Inhabited, Repr

namespace Json

/-! ## Single values -/

/-- An integer from `0` to `limit`. -/
def natUpTo? (limit : Nat) : Json → Option Nat
  | int value => if 0 ≤ value ∧ value.toNat ≤ limit then some value.toNat else none
  | _ => none

/-- An offset, a time or a number of rows. -/
def offset? : Json → Option Nat := natUpTo? Offset.limit

/-- A height. -/
def height? (json : Json) : Option UInt32 := (json.natUpTo? 4294967295).map UInt32.ofNat

/-- A signed integer of 64 bits. -/
def signed? : Json → Option Int
  | int value =>
    if -0x8000000000000000 ≤ value ∧ value < 0x8000000000000000 then some value else none
  | _ => none

/-- A text. -/
def text? : Json → Option String
  | str value => some value
  | _ => none

/-- A value that may be missing, written as `null`. -/
def nullable? {α : Type} (read : Json → Option α) : Json → Option (Option α)
  | null => some none
  | json => (read json).map some

/-- The name of a constant: a text, or an object with that one key and the
value `null`. -/
def label? : Json → Option String
  | str value => some value
  | obj [(key, null)] => some key
  | _ => none

/-- A value that may be missing, written as `null`. -/
def ofOption {α : Type} (write : α → Json) : Option α → Json
  | none => null
  | some value => write value

/-! ## Records -/

/-- The fields that a record of type `α` is made of, in order: the name of each, the reader of its
value and, for a field that may be left out, the value that stands for it then. -/
inductive Fields : Type → Type 1 where
  | make {α : Type} (value : α) : Fields α
  | field {α β : Type} (rest : Fields (β → α)) (name : String) (read : Json → Option β)
      (fallback : Option β := none) : Fields α

/-- Reads a value, or takes the fallback when there is none. -/
def found? {α : Type} (read : Json → Option α) (fallback : Option α) : Option Json → Option α
  | none => fallback
  | some json => read json

namespace Fields

/-- The names of the fields. -/
def names : {α : Type} → Fields α → List String
  | _, make _ => []
  | _, field rest name _ _ => rest.names ++ [name]

/-- Reads each field from the entry of its name, whatever the order of the entries. -/
def byName? (entries : List (String × Json)) : {α : Type} → Fields α → Option α
  | _, make value => some value
  | _, field rest name read fallback => do
    let build ← rest.byName? entries
    let value ← found? read fallback (entries.lookup name)
    return build value

/-- Reads the fields one after the other from the first items, and gives the items that are left.
No name is looked at. -/
def inOrder? (items : List Json) : {α : Type} → Fields α → Option (α × List Json)
  | _, make value => some (value, items)
  | _, field rest _ read fallback => do
    let (build, items) ← rest.inOrder? items
    let value ← found? read fallback items.head?
    return (build value, items.tail)

/-- Reads a record from an object by name, or from an array in order. An array may stop early, but
no item may be left over. -/
def read? {α : Type} (fields : Fields α) : Json → Option α
  | obj entries => fields.byName? entries
  | arr items =>
    match fields.inOrder? items with
    | some (value, []) => some value
    | _ => none
  | _ => none

end Fields

end Json

end Windowing
