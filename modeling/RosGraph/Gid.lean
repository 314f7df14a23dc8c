import RosGraph.Error
import RosGraph.Text.Hex

/-! Global identifiers of participants, readers and writers: 24 bytes, ordered
byte by byte from the left. -/

namespace RosGraph

open Std

structure Gid where
  bytes : List UInt8
  length_bytes : bytes.length = 24
deriving DecidableEq, Repr

namespace Gid

instance : Ord Gid := ⟨compareOn bytes⟩

instance : TransOrd Gid := inferInstanceAs (TransCmp (compareOn bytes))

instance : LawfulEqOrd Gid where
  eq_of_compare {a b} h := by
    cases a
    cases b
    simpa using LawfulEqOrd.eq_of_compare (α := List UInt8) h

/-- The leading bytes given, and zeros after them. -/
def ofLeading (bytes : List UInt8) : Gid :=
  ⟨bytes.take 24 ++ List.replicate (24 - bytes.length) 0, by grind⟩

def zero : Gid := ofLeading []

instance : Inhabited Gid := ⟨zero⟩

def ofBytes (bytes : List UInt8) : Except Error Gid :=
  if h : bytes.length = 24 then .ok ⟨bytes, h⟩
  else .error (.invalidArgument "gid must be 24 bytes long")

def sort (gids : List Gid) : List Gid := gids.mergeSort fun a b => (compare a b).isLE

def dotted (bytes : List UInt8) : List Char := ['.'].intercalate (bytes.map Text.Hex.short)

/-- Each byte in hexadecimal without a leading zero, joined by dots. -/
def text (g : Gid) : String := String.ofList (dotted g.bytes)

instance : ToString Gid := ⟨text⟩

/-- The dotted text, marked as an identifier. -/
def tagged (g : Gid) : String := s!"Gid({g})"

end Gid

end RosGraph
