import RosGraph.Error
import RosGraph.Text.Hex

/-! Hashes of interface types: a version and 32 bytes, written with the version
in front. Only texts of version 1 are read. -/

namespace RosGraph

structure TypeHash where
  version : UInt8
  value : List UInt8
  length_value : value.length = 32
deriving DecidableEq, Repr

namespace TypeHash

/-- Version 0 stands for no hash. -/
def unset : TypeHash := ⟨0, List.replicate 32 0, rfl⟩

instance : Inhabited TypeHash := ⟨unset⟩

def isUnset (h : TypeHash) : Bool := h.version = 0

/-- At least two decimal digits. -/
def versionDigits (version : UInt8) : List Char :=
  let digits := Nat.toDigits 10 version.toNat
  if digits.length < 2 then '0' :: digits else digits

def chars (h : TypeHash) : List Char :=
  "RIHS".toList ++ versionDigits h.version ++ '_' :: Text.Hex.encode h.value

def text (h : TypeHash) : String := String.ofList h.chars

instance : ToString TypeHash := ⟨text⟩

/-- Why a text is not a hash. -/
inductive Fault
  | missingMarker (text : String)
  /-- The length is in bytes. -/
  | wrongLength (size : Nat)
  | nonHexDigit (text : String)
  | notUtf8
deriving DecidableEq, Repr

def Fault.message : Fault → String
  | missingMarker text => s!"missing RIHS01_ prefix: {text}"
  | wrongLength size => s!"expected 64 hex digits, got {size}"
  | nonHexDigit text => s!"non-hex digits in {text}"
  | notUtf8 => "typehash value is not utf-8"

def Fault.toError (fault : Fault) : Error := .invalidTypeHash fault.message

/-- What every text of version 1 starts with. -/
def marker : List Char := "RIHS01_".toList

/-- The marker and 64 hexadecimal digits of either case. -/
def parse (text : String) : Except Fault TypeHash :=
  if marker.isPrefixOf text.toList then
    let digits := text.toList.drop marker.length
    let size := (String.ofList digits).utf8ByteSize
    if size ≠ 64 then .error (.wrongLength size)
    else match Text.Hex.decode? digits with
      | none => .error (.nonHexDigit text)
      | some value =>
        if h : value.length = 32 then .ok ⟨1, value, h⟩ else .error (.nonHexDigit text)
  else .error (.missingMarker text)

end TypeHash

end RosGraph
