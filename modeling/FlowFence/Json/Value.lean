/-!
# JSON values

The value type shared by all documents: statements and batches that are written, listings that are
read. Integers of 64 bits are kept exactly, any other number as the literal it was written as.
-/

namespace FlowFence

/-- A JSON value. The members of an object keep their order. -/
inductive Json where
  | null
  | boolean (value : Bool)
  | integer (value : Int)
  | decimal (literal : String)
  | text (value : String)
  | list (items : List Json)
  | object (members : List (String × Json))
deriving Inhabited

namespace Json

def natural (n : Nat) : Json :=
  .integer n

def bytes (values : List UInt8) : Json :=
  .list (values.map fun b => natural b.toNat)

def keyed (key : String) (value : Json) : Json :=
  .object [(key, value)]

/-- The last member of a name, if the value is an object that has one. -/
def member? (key : String) : Json → Option Json
  | .object members => (members.reverse.find? fun m => m.1 == key).map (·.2)
  | _ => none

def asText? : Json → Option String
  | .text value => some value
  | _ => none

def asNatural? (limit : Nat) : Json → Option Nat
  | .integer (.ofNat n) => if n ≤ limit then some n else none
  | _ => none

end Json

end FlowFence
