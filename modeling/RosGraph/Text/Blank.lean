/-! The Unicode property White_Space, and the first token that it delimits. -/

namespace RosGraph.Text.Blank

/-- The ranges of code points with the property. -/
def ranges : List (Nat × Nat) :=
  [(0x9, 0xd), (0x20, 0x20), (0x85, 0x85), (0xa0, 0xa0), (0x1680, 0x1680), (0x2000, 0x200a),
    (0x2028, 0x2029), (0x202f, 0x202f), (0x205f, 0x205f), (0x3000, 0x3000)]

def isBlank (c : Char) : Bool := ranges.any fun r => r.1 ≤ c.toNat ∧ c.toNat ≤ r.2

/-- The first longest run of characters that are not blank; empty if there is none. -/
def firstToken (text : List Char) : List Char :=
  (text.dropWhile isBlank).takeWhile (!isBlank ·)

example : (ranges.map fun r => r.2 - r.1 + 1).sum = 25 := by decide

end RosGraph.Text.Blank
