import RosGraph.Proofs.Ledger.Accounts
import RosGraph.Proofs.Shown

/-! What a ledger shows of topics, in all and for one node. The one answer comes from the total and
the other one from what the node has recorded. Both are answers about the bag of uses, so that what
is shown in all is what is shown for some node, under any demangling. -/

namespace RosGraph

open NamesAndTypes

theorem Occurrences.shows_collect_iff {o : Occurrences} {d : Demangling} {topic type : String} :
    (collect d o.entries).Shows topic type ↔
      topic ≠ "" ∧ ∃ name t, t ∈ o.valueAt name ∧ d.topic name = topic ∧ d.type t = type := by
  rw [NamesAndTypes.shows_collect_iff]
  refine and_congr_right fun _ => ⟨?_, ?_⟩
  · rintro ⟨⟨name, types⟩, he, hname, t, ht, htype⟩
    exact ⟨name, t, SortedMap.valueAt_of_get? (SortedMap.mem_entries_iff.1 he) ▸ ht, hname, htype⟩
  · rintro ⟨name, t, ht, hname, htype⟩
    cases hget : o.get? name with
    | none =>
      rw [SortedMap.valueAt_of_none hget] at ht
      exact absurd ht List.not_mem_nil
    | some types =>
      rw [SortedMap.valueAt_of_get? hget] at ht
      exact ⟨(name, types), SortedMap.mem_entries_iff.2 hget, hname, t, ht, htype⟩

theorem Occurrences.complete_collect {o : Occurrences} (h : SortedMap.Pruned o) (d : Demangling) :
    (collect d o.entries).Complete :=
  NamesAndTypes.complete_collect fun _ he => h _ (List.mem_map_of_mem he)

namespace TopicLedger

variable {l : TopicLedger} {b : Multiset TopicUse} {participant : Gid} {node : NodeName}
  {d : Demangling} {topic type : String}

/-- The ledger has an entry for the node. -/
def Recorded (l : TopicLedger) (participant : Gid) (node : NodeName) : Prop :=
  node ∈ (l.byNode.valueAt participant).keys

instance (l : TopicLedger) (participant : Gid) (node : NodeName) :
    Decidable (l.Recorded participant node) := inferInstanceAs (Decidable (_ ∈ _))

theorem topicsOf_of_not_recorded (h : ¬ l.Recorded participant node) :
    l.topicsOf participant node = ∅ := by
  rw [Recorded, SortedMap.mem_keys_iff, Option.not_isSome_iff_eq_none] at h
  exact SortedMap.valueAt_of_none h

theorem namesAndTypesOf_eq_collect (l : TopicLedger) (participant : Gid) (node : NodeName)
    (d : Demangling) :
    l.namesAndTypesOf participant node d = .collect d (l.topicsOf participant node).entries := by
  rw [namesAndTypesOf, topicsOf]
  cases hnodes : l.byNode.get? participant with
  | none => rw [SortedMap.valueAt_of_none hnodes]; rfl
  | some nodes =>
    rw [SortedMap.valueAt_of_get? hnodes, Option.bind_some]
    cases hnode : nodes.get? node with
    | none => rw [SortedMap.valueAt_of_none hnode]; rfl
    | some topics => rw [SortedMap.valueAt_of_get? hnode]

namespace Accounts

theorem mem_topicsOf_iff (h : Accounts l b) :
    type ∈ (l.topicsOf participant node).valueAt topic ↔
      ∃ u ∈ b, u.participant = participant ∧ u.node = node ∧ u.topic = topic ∧ u.type = type := by
  constructor
  · intro hmem
    exact ⟨⟨participant, node, topic, type⟩, h.mem_bag_iff.2 hmem, rfl, rfl, rfl, rfl⟩
  · rintro ⟨u, hu, rfl, rfl, rfl, rfl⟩
    exact h.mem_bag_iff.1 hu

/-- All uses are shown. -/
theorem shows_namesAndTypes_iff (h : Accounts l b) : (l.namesAndTypes d).Shows topic type ↔
    topic ≠ "" ∧ ∃ u ∈ b, d.topic u.topic = topic ∧ d.type u.type = type := by
  rw [namesAndTypes, Occurrences.shows_collect_iff]
  simp only [h.mem_total_iff]
  refine and_congr_right fun _ => ⟨?_, ?_⟩
  · rintro ⟨-, -, ⟨u, hu, rfl, rfl⟩, hshown⟩
    exact ⟨u, hu, hshown⟩
  · rintro ⟨u, hu, hshown⟩
    exact ⟨u.topic, u.type, ⟨u, hu, rfl, rfl⟩, hshown⟩

/-- The uses of a node are shown for it. -/
theorem shows_namesAndTypesOf_iff (h : Accounts l b) :
    (l.namesAndTypesOf participant node d).Shows topic type ↔
      topic ≠ "" ∧ ∃ u ∈ b, u.participant = participant ∧ u.node = node ∧
        d.topic u.topic = topic ∧ d.type u.type = type := by
  rw [namesAndTypesOf_eq_collect, Occurrences.shows_collect_iff]
  simp only [h.mem_topicsOf_iff]
  refine and_congr_right fun _ => ⟨?_, ?_⟩
  · rintro ⟨-, -, ⟨u, hu, hparticipant, hnode, rfl, rfl⟩, hshown⟩
    exact ⟨u, hu, hparticipant, hnode, hshown⟩
  · rintro ⟨u, hu, hparticipant, hnode, hshown⟩
    exact ⟨u.topic, u.type, ⟨u, hu, hparticipant, hnode, rfl, rfl⟩, hshown⟩

/-- There is an entry for a node exactly if there is a use by it. -/
theorem recorded_iff (h : Accounts l b) : l.Recorded participant node ↔
    ∃ u ∈ b, u.participant = participant ∧ u.node = node := by
  constructor
  · intro hrecorded
    obtain ⟨topics, htopics⟩ := Option.isSome_iff_exists.1 (SortedMap.mem_keys_iff.1 hrecorded)
    have hne : topics ≠ ∅ :=
      (h.pruned.nodesOf participant).pruned topics (SortedMap.mem_values_iff.2 ⟨node, htopics⟩)
    have htopicsOf : l.topicsOf participant node = topics := SortedMap.valueAt_of_get? htopics
    rw [← htopicsOf, ne_eq, (h.pruned.topicsOf participant node).eq_empty_iff, not_forall] at hne
    obtain ⟨topic, htypes⟩ := hne
    obtain ⟨type, hmem⟩ := List.exists_mem_of_ne_nil _ htypes
    obtain ⟨u, hu, hparticipant, hnode, -, -⟩ := h.mem_topicsOf_iff.1 hmem
    exact ⟨u, hu, hparticipant, hnode⟩
  · rintro ⟨u, hu, rfl, rfl⟩
    by_contra hnot
    have hmem := h.mem_bag_iff.1 hu
    rw [typesOf, topicsOf_of_not_recorded hnot] at hmem
    exact List.not_mem_nil hmem

end Accounts

/-- What is shown in all is what is shown for some node that is recorded. A node is recorded as long
as it has a use that was not withdrawn; for any other one nothing is shown. No topic is shown without
a name or without a type. -/
theorem run_namesAndTypes_eq_union (ops : List Op) (d : Demangling) :
    let l := run ops
    (∀ topic type, (l.namesAndTypes d).Shows topic type ↔ ∃ participant node,
      l.Recorded participant node ∧ (l.namesAndTypesOf participant node d).Shows topic type) ∧
    (l.namesAndTypes d).Complete ∧
    ∀ participant node,
      (l.namesAndTypesOf participant node d).Complete ∧
      (l.Recorded participant node ↔
        ∃ u ∈ bag ops, u.participant = participant ∧ u.node = node) ∧
      (¬ l.Recorded participant node → l.namesAndTypesOf participant node d = ∅) := by
  intro l
  have h : Accounts l (bag ops) := accounts_run ops
  refine ⟨fun topic type => ?_, Occurrences.complete_collect h.pruned.total d,
    fun participant node => ⟨?_, h.recorded_iff, fun hnot => ?_⟩⟩
  · rw [h.shows_namesAndTypes_iff]
    simp only [h.recorded_iff, h.shows_namesAndTypesOf_iff]
    constructor
    · rintro ⟨hne, u, hu, hshown⟩
      exact ⟨u.participant, u.node, ⟨u, hu, rfl, rfl⟩, hne, u, hu, rfl, rfl, hshown⟩
    · rintro ⟨-, -, -, hne, u, hu, -, -, hshown⟩
      exact ⟨hne, u, hu, hshown⟩
  · rw [namesAndTypesOf_eq_collect]
    exact Occurrences.complete_collect (h.pruned.topicsOf participant node) d
  · rw [namesAndTypesOf_eq_collect, topicsOf_of_not_recorded hnot]
    rfl

/-- Two nodes use topics that become one for their reader, and one that is not shown. A third node
has withdrawn its only use. -/
theorem run_namesAndTypes_eq_union_merged :
    let talker : TopicUse := ⟨.zero, ⟨"/", "talker"⟩, "rt/chatter", "String"⟩
    let relay : TopicUse := ⟨.ofLeading [1], ⟨"/", "relay"⟩, "rq/chatter", "Header"⟩
    let ops : List Op := [.record talker, .record relay, .record { relay with topic := "log" },
      .record { talker with participant := .ofLeading [2] }, .record talker, .remove talker,
      .remove { talker with participant := .ofLeading [2] }]
    let d : Demangling := ⟨fun name => if name = "log" then "" else
      if name = "rq/chatter" then "rt/chatter" else name, id⟩
    let l := run ops
    (l.namesAndTypes d).Shows "rt/chatter" "String" ∧ (l.namesAndTypes d).Shows "rt/chatter" "Header" ∧
      ¬ l.Recorded (.ofLeading [2]) talker.node ∧
      l.namesAndTypesOf (.ofLeading [2]) talker.node d = ∅ := by
  intro talker relay ops d l
  obtain ⟨hall, -, hnode⟩ := run_namesAndTypes_eq_union ops d
  have htalker : l.Recorded talker.participant talker.node :=
    (hnode _ _).2.1.2 ⟨talker, by decide, rfl, rfl⟩
  have hrelay : l.Recorded relay.participant relay.node :=
    (hnode _ _).2.1.2 ⟨relay, by decide, rfl, rfl⟩
  have hstranger : ¬ l.Recorded (.ofLeading [2]) talker.node := by decide
  refine ⟨?_, ?_, hstranger, (hnode _ _).2.2 hstranger⟩
  · exact (hall _ _).2 ⟨_, _, htalker, by decide +kernel⟩
  · exact (hall _ _).2 ⟨_, _, hrelay, by decide +kernel⟩

end TopicLedger

end RosGraph
