import RosGraph.Graph.Query
import RosGraph.SortedMap.Values
import Mathlib.Data.List.Basic
import Mathlib.Tactic.SplitIfs

/-! What is shown of a list of topics. A type is shown on a topic exactly if some entry of the
list has the two after demangling, however many names become one; nothing is shown on a topic
without a name. -/

namespace RosGraph

open Std

namespace SortedSet

variable {κ : Type} [Ord κ] [TransOrd κ] [LawfulEqOrd κ]

theorem mem_add {s : SortedSet κ} {j k : κ} : j ∈ (s.add k).toList ↔ j = k ∨ j ∈ s.toList := by
  rw [toList, toList, SortedMap.mem_keys_iff, SortedMap.mem_keys_iff, add]
  by_cases hjk : j = k
  · subst hjk
    simp
  · rw [SortedMap.get?_insert_of_ne s hjk, or_iff_right hjk]

theorem mem_foldl_add {s : SortedSet κ} {j : κ} {l : List κ} :
    j ∈ (l.foldl add s).toList ↔ j ∈ l ∨ j ∈ s.toList := by
  induction l generalizing s with
  | nil => simp
  | cons k l ih => rw [List.foldl_cons, ih, mem_add, List.mem_cons, or_left_comm, or_assoc]

theorem foldl_add_ne_empty {s : SortedSet κ} {l : List κ} (h : l ≠ []) : l.foldl add s ≠ ∅ := by
  obtain ⟨k, hk⟩ := List.exists_mem_of_ne_nil l h
  intro hempty
  have hmem : k ∈ (l.foldl add s).toList := mem_foldl_add.2 (.inl hk)
  rw [hempty] at hmem
  exact List.not_mem_nil hmem

end SortedSet

namespace NamesAndTypes

/-- The type is shown on the topic. -/
def Shows (shown : NamesAndTypes) (topic type : String) : Prop :=
  ∃ types, shown.get? topic = some types ∧ type ∈ types.toList

/-- Every topic that is shown has a name, and some type. -/
structure Complete (shown : NamesAndTypes) : Prop where
  named : shown.get? "" = none
  typed : SortedMap.Pruned shown

variable {shown : NamesAndTypes} {topic type name : String} {d : Demangling}

theorem not_shows_empty : ¬ Shows ∅ topic type := by
  rintro ⟨types, hget, -⟩
  rw [SortedMap.get?_empty] at hget
  contradiction

theorem shows_iff_getD : shown.Shows topic type ↔ type ∈ ((shown.get? topic).getD ∅).toList := by
  rw [Shows]
  cases shown.get? topic with
  | none => simp [SortedSet.toList, SortedMap.keys, EmptyCollection.emptyCollection, SortedMap.empty]
  | some types => simp

instance (shown : NamesAndTypes) (topic type : String) : Decidable (shown.Shows topic type) :=
  decidable_of_iff _ shows_iff_getD.symm

theorem shows_addTypes {types : List String} : (shown.addTypes name types).Shows topic type ↔
    (topic ≠ "" ∧ name = topic ∧ type ∈ types) ∨ shown.Shows topic type := by
  rw [addTypes]
  split_ifs with hname
  · subst hname
    rw [or_iff_right]
    rintro ⟨hne, rfl, -⟩
    exact hne rfl
  · rw [shows_iff_getD, shows_iff_getD]
    by_cases htopic : topic = name
    · subst htopic
      rw [SortedMap.get?_alter_self, Option.getD_some, SortedSet.mem_foldl_add]
      simp [hname]
    · rw [SortedMap.get?_alter_of_ne _ htopic, or_iff_right]
      rintro ⟨-, rfl, -⟩
      exact htopic rfl

theorem shows_foldl_addTypes {topics : List (String × List String)} :
    (topics.foldl (fun shown e => shown.addTypes (d.topic e.1) (e.2.map d.type)) shown).Shows
        topic type ↔
      (topic ≠ "" ∧ ∃ e ∈ topics, d.topic e.1 = topic ∧ ∃ t ∈ e.2, d.type t = type) ∨
        shown.Shows topic type := by
  induction topics generalizing shown with
  | nil => simp
  | cons e rest ih =>
    rw [List.foldl_cons, ih, shows_addTypes, List.exists_mem_cons_iff, List.mem_map, and_or_left,
      or_left_comm, or_assoc]

theorem shows_collect_iff {topics : List (String × List String)} :
    (collect d topics).Shows topic type ↔
      topic ≠ "" ∧ ∃ e ∈ topics, d.topic e.1 = topic ∧ ∃ t ∈ e.2, d.type t = type := by
  rw [collect, shows_foldl_addTypes, or_iff_left not_shows_empty]

theorem complete_empty : Complete ∅ := ⟨SortedMap.get?_empty "", SortedMap.pruned_empty⟩

theorem Complete.addTypes (h : shown.Complete) {types : List String} (htypes : types ≠ []) :
    (shown.addTypes name types).Complete := by
  rw [NamesAndTypes.addTypes]
  split_ifs with hname
  · exact h
  · constructor
    · rw [SortedMap.get?_alter_of_ne _ (Ne.symm hname), h.named]
    · exact h.typed.alter fun heq => SortedSet.foldl_add_ne_empty htypes (Option.some.inj heq)

/-- Topics that have types are shown with types. -/
theorem complete_collect {topics : List (String × List String)} (h : ∀ e ∈ topics, e.2 ≠ []) :
    (collect d topics).Complete := by
  have hfold (shown : NamesAndTypes) (hshown : shown.Complete) :
      (topics.foldl (fun shown e => shown.addTypes (d.topic e.1) (e.2.map d.type)) shown).Complete := by
    induction topics generalizing shown with
    | nil => exact hshown
    | cons e rest ih =>
      obtain ⟨he, hrest⟩ := List.forall_mem_cons.1 h
      exact ih hrest _ (hshown.addTypes fun hnil => he (List.map_eq_nil_iff.1 hnil))
  exact hfold ∅ complete_empty

end NamesAndTypes

theorem Graph.complete_shownAs (records : List EndpointRecord) (d : Demangling) :
    (Graph.shownAs records d).Complete := by
  refine NamesAndTypes.complete_collect fun e he => ?_
  obtain ⟨r, -, rfl⟩ := List.mem_map.1 he
  exact List.cons_ne_nil _ _

theorem Graph.shows_shownAs_iff {records : List EndpointRecord} {d : Demangling} {topic type : String} :
    (Graph.shownAs records d).Shows topic type ↔
      topic ≠ "" ∧ ∃ r ∈ records, d.topic r.topic = topic ∧ d.type r.type = type := by
  rw [shownAs, NamesAndTypes.shows_collect_iff]
  simp

end RosGraph
