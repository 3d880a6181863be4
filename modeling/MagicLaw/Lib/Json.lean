import Mathlib.Algebra.Group.Int.Defs
import Mathlib.Algebra.Group.Nat.Defs

/-!
# Values of JSON

A parsed value, and the few ways to look into one.  A number is an integer or
the text of one that is not.  A look at what is not there, or at a value of
another kind, yields `none`.
-/

namespace Lib

inductive Json where
  | null
  | bool (b : Bool)
  | int (n : Int)
  | float (text : String)
  | str (s : String)
  | arr (elements : List Json)
  | obj (fields : List (String × Json))

namespace Json

/-- The field of an object. -/
def get? : Json → String → Option Json
  | .obj fields, key => fields.lookup key
  | _, _ => none

def asStr? : Json → Option String
  | .str s => some s
  | _ => none

def asBool? : Json → Option Bool
  | .bool b => some b
  | _ => none

/-- An integer that fits into 64 bits with a sign. -/
def asI64? : Json → Option Int
  | .int n => if -2 ^ 63 ≤ n ∧ n < 2 ^ 63 then some n else none
  | _ => none

/-- An integer that fits into 64 bits without a sign. -/
def asU64? : Json → Option Nat
  | .int n => if 0 ≤ n ∧ n < 2 ^ 64 then some n.toNat else none
  | _ => none

/-- The text in a field of an object. -/
def str? (value : Json) (key : String) : Option String := (value.get? key).bind asStr?

/-! ## Records

A record is read from an object, by the names of its fields, or from a list of
its fields, where those at the end may be missing. -/

/-- A record with `n` fields can be read from the value. -/
def isRecord : Json → Nat → Bool
  | .obj _, _ => true
  | .arr elements, n => elements.length ≤ n
  | _, _ => false

/-- The field with this number and this name. -/
def field? : Json → Nat → String → Option Json
  | .obj fields, _, name => fields.lookup name
  | .arr elements, i, _ => elements[i]?
  | _, _, _ => none

/-- A text, which is empty when the field is missing. -/
def textField (value : Json) (i : Nat) (name : String) : Option String :=
  match value.field? i name with
  | none => some ""
  | some field => field.asStr?

end Json

end Lib
