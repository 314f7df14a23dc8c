import RosGraph.SortedMap.Lemmas
import Mathlib.Algebra.GroupWithZero.Nat

/-! The values of a sorted map. A lookup that falls back on an empty value cannot tell a
missing key from one that holds an empty value; in a pruned map no key does, so there the
total lookups determine the map. A sum over the values differs between two maps by what
stands at the one key where they differ. -/

namespace RosGraph.SortedMap

open Std

section Definitions
variable {κ β γ : Type} [Ord κ]

/-- The value at a key; an empty one where there is none. -/
def valueAt [EmptyCollection β] (m : SortedMap κ β) (k : κ) : β := (m.get? k).getD ∅

/-- No key holds an empty value. -/
def Pruned [EmptyCollection β] (m : SortedMap κ β) : Prop := ∀ v ∈ m.values, v ≠ ∅

/-- The same keys, with related values. -/
def Rel (R : β → γ → Prop) (m : SortedMap κ β) (n : SortedMap κ γ) : Prop :=
  ∀ k, Option.Rel R (m.get? k) (n.get? k)

end Definitions

variable {κ β γ : Type} [Ord κ] [TransOrd κ] [LawfulEqOrd κ]

omit [TransOrd κ] in
theorem mem_values_iff {m : SortedMap κ β} {v : β} : v ∈ m.values ↔ ∃ k, m.get? k = some v := by
  simp only [values, List.mem_map]
  constructor
  · rintro ⟨⟨k, w⟩, he, rfl⟩
    exact ⟨k, mem_entries_iff.1 he⟩
  · rintro ⟨k, hk⟩
    exact ⟨(k, v), mem_entries_iff.2 hk, rfl⟩

/-- What holds of the values holds after a change that puts in a value of the kind. -/
theorem forall_values_alter {m : SortedMap κ β} {k : κ} {f : Option β → Option β} {P : β → Prop}
    (h : ∀ v ∈ m.values, P v) (hf : ∀ v, f (m.get? k) = some v → P v) :
    ∀ v ∈ (m.alter k f).values, P v := by
  intro v hv
  obtain ⟨j, hj⟩ := mem_values_iff.1 hv
  by_cases hjk : j = k
  · subst hjk
    rw [get?_alter_self] at hj
    exact hf v hj
  · rw [get?_alter_of_ne _ hjk] at hj
    exact h v (mem_values_iff.2 ⟨j, hj⟩)

theorem eq_empty_iff {m : SortedMap κ β} : m = ∅ ↔ ∀ k, m.get? k = none :=
  ⟨fun h k => by rw [h, get?_empty], fun h => ext_get? fun k => by rw [h k, get?_empty]⟩

theorem alter_ne_empty {m : SortedMap κ β} {k : κ} {f : Option β → Option β} {v : β}
    (h : f (m.get? k) = some v) : m.alter k f ≠ ∅ := by
  intro heq
  have hnone := eq_empty_iff.1 heq k
  rw [get?_alter_self, h] at hnone
  contradiction

/-- A map that differs from another at one key only is that one with a change there. -/
theorem eq_alter_of_get?_eq {m m' : SortedMap κ β} {k : κ} (h : ∀ j, j ≠ k → m'.get? j = m.get? j) :
    m' = m.alter k fun _ => m'.get? k := by
  refine ext_get? fun j => ?_
  by_cases hj : j = k
  · subst hj
    rw [get?_alter_self]
  · rw [get?_alter_of_ne _ hj, h j hj]

omit [TransOrd κ] [LawfulEqOrd κ] in
theorem isEmpty_iff {m : SortedMap κ β} : m.isEmpty ↔ m = ∅ := by
  cases m with
  | mk entries sorted =>
    rw [isEmpty, List.isEmpty_iff]
    constructor
    · rintro rfl
      rfl
    · intro h
      exact congrArg SortedMap.entries h

section Empty
variable [EmptyCollection β] [EmptyCollection γ] {m : SortedMap κ β} {n : SortedMap κ γ} {k : κ}

omit [TransOrd κ] [LawfulEqOrd κ] in
theorem valueAt_of_get? {v : β} (h : m.get? k = some v) : m.valueAt k = v := by
  rw [valueAt, h, Option.getD_some]

omit [TransOrd κ] [LawfulEqOrd κ] in
theorem valueAt_of_none (h : m.get? k = none) : m.valueAt k = ∅ := by
  rw [valueAt, h, Option.getD_none]

omit [TransOrd κ] [LawfulEqOrd κ] in
theorem valueAt_congr {m' : SortedMap κ β} (h : m'.get? k = m.get? k) : m'.valueAt k = m.valueAt k := by
  rw [valueAt, h, valueAt]

theorem valueAt_alter_self (m : SortedMap κ β) (k : κ) (f : Option β → Option β) :
    (m.alter k f).valueAt k = (f (m.get? k)).getD ∅ := by
  rw [valueAt, get?_alter_self]

theorem valueAt_alter_of_ne (m : SortedMap κ β) {j k : κ} (h : j ≠ k) (f : Option β → Option β) :
    (m.alter k f).valueAt j = m.valueAt j := valueAt_congr (get?_alter_of_ne _ h f)

omit [TransOrd κ] in
/-- What holds of the values and of the empty one holds at every key. -/
theorem forall_valueAt {P : β → Prop} (h : ∀ v ∈ m.values, P v) (hempty : P ∅) (k : κ) :
    P (m.valueAt k) := by
  rw [valueAt]
  cases hk : m.get? k with
  | none => exact hempty
  | some v => exact h v (mem_values_iff.2 ⟨k, hk⟩)

omit [TransOrd κ] [LawfulEqOrd κ] in
theorem pruned_empty : (∅ : SortedMap κ β).Pruned := fun _ hv => absurd hv List.not_mem_nil

theorem Pruned.alter (h : m.Pruned) {f : Option β → Option β} (hf : f (m.get? k) ≠ some ∅) :
    (m.alter k f).Pruned :=
  forall_values_alter h fun _ hv heq => hf (heq ▸ hv)

omit [TransOrd κ] in
theorem Pruned.get?_eq_none_iff (h : m.Pruned) : m.get? k = none ↔ m.valueAt k = ∅ := by
  rw [valueAt]
  cases hk : m.get? k with
  | none => simp
  | some v => simpa using h v (mem_values_iff.2 ⟨k, hk⟩)

theorem Pruned.eq_empty_iff (h : m.Pruned) : m = ∅ ↔ ∀ k, m.valueAt k = ∅ := by
  rw [SortedMap.eq_empty_iff]
  exact forall_congr' fun k => h.get?_eq_none_iff

omit [TransOrd κ] in
/-- Pruned maps whose values are related at every key have the same keys. -/
theorem Pruned.rel (hm : m.Pruned) (hn : n.Pruned) {R : β → γ → Prop}
    (hR : ∀ v w, R v w → (v = ∅ ↔ w = ∅)) (h : ∀ k, R (m.valueAt k) (n.valueAt k)) : m.Rel R n := by
  intro k
  have hnone : m.get? k = none ↔ n.get? k = none := by
    rw [hm.get?_eq_none_iff, hn.get?_eq_none_iff]
    exact hR _ _ (h k)
  have hk := h k
  rw [valueAt, valueAt] at hk
  cases hv : m.get? k <;> cases hw : n.get? k <;> simp only [hv, hw, reduceCtorEq, iff_false, false_iff,
    not_true_eq_false] at hnone hk ⊢
  · exact .none
  · exact .some hk

end Empty

/-- Related maps are empty together. -/
theorem Rel.eq_empty_iff {m : SortedMap κ β} {n : SortedMap κ γ} {R : β → γ → Prop} (h : m.Rel R n) :
    m = ∅ ↔ n = ∅ := by
  rw [SortedMap.eq_empty_iff, SortedMap.eq_empty_iff]
  refine forall_congr' fun k => ?_
  have hk := h k
  generalize m.get? k = v at hk ⊢
  generalize n.get? k = w at hk ⊢
  cases hk <;> simp

section Sum
variable (w : β → Nat)

omit [Ord κ] [TransOrd κ] [LawfulEqOrd κ] in
theorem sum_optEntry (k : κ) (v : Option β) : ((optEntry k v).map (w ·.2)).sum = v.elim 0 w := by
  cases v <;> simp [optEntry]

omit [LawfulEqOrd κ] in
/-- The new sum and what was replaced make the old sum and what replaces it. -/
theorem sum_alterEntries (k : κ) (f : Option β → Option β) {l : List (κ × β)}
    (h : l.Pairwise fun a b => compare a.1 b.1 = .lt) :
    ((alterEntries k f l).map (w ·.2)).sum + (lookup k l).elim 0 w =
      (l.map (w ·.2)).sum + (f (lookup k l)).elim 0 w := by
  induction l with
  | nil =>
    rw [alterEntries, sum_optEntry]
    exact Nat.add_comm ..
  | cons e rest ih =>
    obtain ⟨k', v⟩ := e
    obtain ⟨hhead, hrest⟩ := List.pairwise_cons.1 h
    rw [alterEntries]
    split
    · next hk =>
      have hnone : lookup k ((k', v) :: rest) = none := lookup_eq_none_of_lt fun e he =>
        (List.mem_cons.1 he).elim (fun he => he ▸ hk) fun he => TransCmp.lt_trans hk (hhead e he)
      rw [hnone, List.map_append, List.sum_append, sum_optEntry, Option.elim_none]
      omega
    · next hk =>
      rw [lookup, hk, List.map_append, List.sum_append, sum_optEntry]
      simp only [List.map_cons, List.sum_cons, Option.elim_some]
      omega
    · next hk =>
      rw [lookup, hk]
      have hsum := ih hrest
      simp only [List.map_cons, List.sum_cons]
      omega

/-- Two maps that differ at one key only: the sums, each with what the other one has there. -/
theorem sum_values_of_get?_eq [EmptyCollection β] (hw : w ∅ = 0) {m m' : SortedMap κ β} {k : κ}
    (h : ∀ j, j ≠ k → m'.get? j = m.get? j) :
    (m'.values.map w).sum + w (m.valueAt k) = (m.values.map w).sum + w (m'.valueAt k) := by
  have helim (o : Option β) : w (o.getD ∅) = o.elim 0 w := by
    cases o
    · exact hw
    · rfl
  have hentries : m'.entries = alterEntries k (fun _ => m'.get? k) m.entries :=
    congrArg entries (eq_alter_of_get?_eq h)
  have hsum := sum_alterEntries w k (fun _ => m'.get? k) m.sorted
  rw [valueAt, valueAt, helim, helim, values, values, List.map_map, List.map_map,
    hentries]
  exact hsum

end Sum

end RosGraph.SortedMap
