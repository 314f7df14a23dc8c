/-! Structured values as they travel between programs, and the class of types
that are written as such values. A record is written as an object and read from
an object, whatever further fields it has, or from the list of its fields. An
enumeration is written by name. -/

namespace RosGraph

namespace Wire

inductive Value
  | null
  | bool (b : Bool)
  | integer (n : Int)
  /-- A number that is no integer: a mantissa and the decimal places to its right. -/
  | decimal (mantissa : Int) (places : Nat)
  | text (s : String)
  | list (items : List Value)
  | object (fields : List (String × Value))
deriving Inhabited

namespace Value

/-- The fields of a record, in the order of their names. -/
def fields? (names : List String) : Value → Option (List Value)
  | list items => if items.length = names.length then some items else none
  | object fields => names.mapM fun name => List.lookup name fields
  | _ => none

/-- The name of a case that carries nothing: itself, or with a null as its content. -/
def caseName? : Value → Option String
  | text name => some name
  | object [(name, null)] => some name
  | _ => none

end Value

end Wire

/-- Types with a written form. -/
class Wire (α : Type) where
  encode : α → Wire.Value
  decode? : Wire.Value → Option α

namespace Wire

instance : Wire Bool where
  encode := .bool
  decode?
    | .bool b => some b
    | _ => none

instance : Wire String where
  encode := .text
  decode?
    | .text s => some s
    | _ => none

instance : Wire UInt8 where
  encode n := .integer n.toNat
  decode?
    | .integer (.ofNat n) => if n < UInt8.size then some (.ofNat n) else none
    | _ => none

instance : Wire UInt64 where
  encode n := .integer n.toNat
  decode?
    | .integer (.ofNat n) => if n < UInt64.size then some (.ofNat n) else none
    | _ => none

instance {α : Type} [Wire α] : Wire (List α) where
  encode l := .list (l.map encode)
  decode?
    | .list items => items.mapM decode?
    | _ => none

/-- The case of an enumeration that goes by a name. -/
def decodeCase? {α : Type} (cases : List α) (name : α → String) (v : Value) : Option α := do
  let given ← v.caseName?
  cases.find? (name · = given)

end Wire

end RosGraph
