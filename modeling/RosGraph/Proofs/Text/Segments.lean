import Mathlib.Data.List.Basic

/-! Lists cut at every mark. A list is a run of segments without the mark, each closed by one, and
a rest behind the last mark; there is one such cut, and splitting at the mark finds it. -/

namespace RosGraph.Text

variable {α : Type} {a : α} {l s tail tail' : List α} {closed closed' : List (List α)}

/-- The list is these segments, each closed by the mark, and a rest without it. -/
structure Cut (a : α) (l : List α) (closed : List (List α)) (tail : List α) : Prop where
  eq : l = closed.flatMap (· ++ [a]) ++ tail
  closed : ∀ s ∈ closed, a ∉ s
  tail : a ∉ tail

theorem splitOn_closed_append [DecidableEq α] (h : ∀ s ∈ closed, a ∉ s) (rest : List α) :
    (closed.flatMap (· ++ [a]) ++ rest).splitOn a = closed ++ rest.splitOn a := by
  induction closed with
  | nil => rfl
  | cons s closed ih =>
    obtain ⟨hs, hclosed⟩ := List.forall_mem_cons.1 h
    rw [List.flatMap_cons, List.append_assoc, List.append_assoc, List.singleton_append,
      List.splitOn_append_cons_self_of_not_mem hs, ih hclosed, List.cons_append]

theorem Cut.splitOn [DecidableEq α] (h : Cut a l closed tail) : l.splitOn a = closed ++ [tail] := by
  rw [h.eq, splitOn_closed_append h.closed, List.splitOn_eq_singleton h.tail]

theorem exists_cut (a : α) (l : List α) : ∃ closed tail, Cut a l closed tail := by
  classical
  induction l with
  | nil => exact ⟨[], [], rfl, List.forall_mem_nil _, List.not_mem_nil⟩
  | cons b l ih =>
    obtain ⟨closed, tail, rfl, hclosed, htail⟩ := ih
    -- The new element closes an empty segment, or it goes in front of the first segment that there is.
    by_cases hb : b = a
    · subst hb
      exact ⟨[] :: closed, tail, rfl, List.forall_mem_cons.2 ⟨List.not_mem_nil, hclosed⟩, htail⟩
    · have hcons {s : List α} (hs : a ∉ s) : a ∉ b :: s :=
        List.not_mem_cons_of_ne_of_not_mem (Ne.symm hb) hs
      cases closed with
      | nil => exact ⟨[], b :: tail, rfl, hclosed, hcons htail⟩
      | cons s closed =>
        obtain ⟨hs, hrest⟩ := List.forall_mem_cons.1 hclosed
        exact ⟨(b :: s) :: closed, tail, rfl, List.forall_mem_cons.2 ⟨hcons hs, hrest⟩, htail⟩

section Unique
variable [DecidableEq α]

theorem Cut.unique (h : Cut a l closed tail) (h' : Cut a l closed' tail') :
    closed = closed' ∧ tail = tail' := by
  have hsame : closed ++ [tail] = closed' ++ [tail'] := h.splitOn.symm.trans h'.splitOn
  obtain ⟨hclosed, htail⟩ := List.append_inj' hsame rfl
  exact ⟨hclosed, List.singleton_injective htail⟩

theorem not_mem_of_mem_splitOn (h : s ∈ l.splitOn a) : a ∉ s := by
  obtain ⟨closed, tail, hcut⟩ := exists_cut a l
  rw [hcut.splitOn, List.mem_append, List.mem_singleton] at h
  obtain h | rfl := h
  · exact hcut.closed s h
  · exact hcut.tail

end Unique

end RosGraph.Text
