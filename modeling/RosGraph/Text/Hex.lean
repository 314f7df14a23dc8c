/-! Hexadecimal text of bytes. Digits are written in lower case and read in
either case. A byte has a two-digit form, for runs of bytes without a separator,
and a short form without a leading zero. -/

namespace RosGraph.Text.Hex

/-- The digit of a number below sixteen. -/
def digit (n : Nat) : Char := n.digitChar

def value? (c : Char) : Option Nat :=
  if '0' ≤ c ∧ c ≤ '9' then some (c.toNat - '0'.toNat)
  else if 'a' ≤ c ∧ c ≤ 'f' then some (c.toNat - 'a'.toNat + 10)
  else if 'A' ≤ c ∧ c ≤ 'F' then some (c.toNat - 'A'.toNat + 10)
  else none

def pair (b : UInt8) : List Char := [digit (b.toNat / 16), digit (b.toNat % 16)]

def short (b : UInt8) : List Char := if b < 16 then [digit b.toNat] else pair b

def encode (bytes : List UInt8) : List Char := bytes.flatMap pair

/-- Two digits a byte; refuses a text of odd length. -/
def decode? : List Char → Option (List UInt8)
  | [] => some []
  | hi :: lo :: rest => do
    let hi ← value? hi
    let lo ← value? lo
    let bytes ← decode? rest
    some (UInt8.ofNat (16 * hi + lo) :: bytes)
  | [_] => none

def text (bytes : List UInt8) : String := String.ofList (encode bytes)

end RosGraph.Text.Hex
