/-! A node is identified by its name and its namespace; nodes are ordered by
namespace first. -/

namespace RosGraph

open Std

structure NodeName where
  ns : String
  name : String
deriving DecidableEq, Repr, Inhabited

namespace NodeName

instance : Ord NodeName := ⟨compareLex (compareOn ns) (compareOn name)⟩

instance : TransOrd NodeName :=
  inferInstanceAs (TransCmp (compareLex (compareOn ns) (compareOn name)))

instance : LawfulEqOrd NodeName where
  eq_of_compare {a b} h := by
    have ⟨hns, hname⟩ := compareLex_eq_eq.1 h
    cases a
    cases b
    rw [mk.injEq]
    exact ⟨LawfulEqOrd.eq_of_compare hns, LawfulEqOrd.eq_of_compare hname⟩

end NodeName

end RosGraph
