import RosGraph.TypeHash

/-! The bytes that an endpoint carries for its users: entries of a key, `=`, a
value and `;`. A type hash travels under a key of its own; entries of other keys
and segments that are no entries are passed over. -/

namespace RosGraph.UserData

def key : List UInt8 := "typehash".toUTF8.data.toList

def equals : UInt8 := 61

def semicolon : UInt8 := 59

/-- The two sides of the first `=`. -/
def keyValue? (segment : List UInt8) : Option (List UInt8 × List UInt8) :=
  match segment.dropWhile (· ≠ equals) with
  | [] => none
  | _ :: value => some (segment.takeWhile (· ≠ equals), value)

/-- The value of the first entry with a key. -/
def value? (key data : List UInt8) : Option (List UInt8) :=
  (((data.splitOn semicolon).filterMap keyValue?).find? (·.1 = key)).map (·.2)

/-- The hash in the data, unset if there is no entry for it. -/
def typeHash (data : List UInt8) : Except TypeHash.Fault TypeHash :=
  match value? key data with
  | none => .ok .unset
  | some value =>
    match String.fromUTF8? ⟨value.toArray⟩ with
    | none => .error .notUtf8
    | some text => TypeHash.parse text

/-- The entry for a hash; an unset one has none. -/
def ofTypeHash (h : TypeHash) : String := if h.isUnset then "" else s!"typehash={h};"

end RosGraph.UserData
