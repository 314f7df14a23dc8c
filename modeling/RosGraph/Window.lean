/-! Windows in which notices of changes are held back. Windows nest; what is held
back is delivered once, when the outermost one closes. -/

namespace RosGraph

structure Window where
  /-- How many windows are open. -/
  depth : Nat := 0
  /-- A notice is held back. -/
  pending : Bool := false
deriving DecidableEq, Repr, Inhabited

namespace Window

def opened (w : Window) : Window := { w with depth := w.depth + 1 }

/-- A notice comes. The flag says whether it is delivered now. -/
def notice (w : Window) : Bool × Window :=
  if 0 < w.depth then (false, { w with pending := true }) else (true, w)

/-- The innermost window closes. The flag says whether a notice is delivered now. -/
def closed (w : Window) : Bool × Window :=
  if w.depth = 1 ∧ w.pending then (true, { depth := 0, pending := false })
  else (false, { w with depth := w.depth - 1 })

end Window

end RosGraph
