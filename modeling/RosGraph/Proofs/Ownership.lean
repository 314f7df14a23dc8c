import RosGraph.Proofs.Endpoints
import RosGraph.Proofs.Hosting
import RosGraph.Proofs.Shown
import RosGraph.SortedMap.Values
import Mathlib.Data.List.Nodup

/-! Nodes and their endpoints, asked for from either side. A question about a node goes from
the node to the endpoints that it lists, and to their records. A question about a topic goes
from a record to its participant, and to the first node there that lists the endpoint. Where
names and lists are unambiguous, the two find the same pairs of a node and a record. -/

namespace RosGraph.Graph

/-- The topics of the known endpoints of a kind. -/
def topics (g : Graph) (kind : EndpointKind) : List String := (g.endpoints kind).values.map (·.topic)

/-- A name stands for one node, and an endpoint of the kind belongs to one. -/
structure Unambiguous (g : Graph) (kind : EndpointKind) : Prop where
  names : g.nodeNames.Nodup
  /-- No node has the name that stands in for one. -/
  known : unknownNode ∉ g.nodeNames
  /-- No two nodes list the same endpoint. -/
  owner : ∀ m ∈ g.nodes, ∀ n ∈ g.nodes, ∀ gid ∈ m.endpoints kind, gid ∈ n.endpoints kind → m = n
  /-- The record of a listed endpoint names the participant of the node. -/
  participant : ∀ e ∈ g.participants.entries, ∀ n ∈ e.2, ∀ gid ∈ n.endpoints kind,
    ∀ r ∈ (g.endpoints kind).get? gid, r.participant = e.1

instance (g : Graph) (kind : EndpointKind) : Decidable (g.Unambiguous kind) :=
  decidable_of_iff (g.nodeNames.Nodup ∧ unknownNode ∉ g.nodeNames ∧ _ ∧ _)
    ⟨fun ⟨names, known, owner, participant⟩ => ⟨names, known, owner, participant⟩,
      fun ⟨names, known, owner, participant⟩ => ⟨names, known, owner, participant⟩⟩

variable {g : Graph} {kind : EndpointKind} {n : HostedNode} {gid : Gid} {r : EndpointRecord}
  {topic type : String} {d : Demangling}

theorem mem_nodes_iff : n ∈ g.nodes ↔ ∃ e ∈ g.participants.entries, n ∈ e.2 := by
  rw [nodes, SortedMap.values, ← List.flatMap_def, List.mem_flatMap]

theorem mem_nodes_of_nodesOf {participant : Gid} (h : n ∈ g.nodesOf participant) : n ∈ g.nodes :=
  mem_nodes_iff.2 ⟨(participant, _), SortedMap.mem_entries_iff.2 (get?_of_mem_nodesOf h), h⟩

theorem mem_recordsOf_iff :
    r ∈ g.recordsOf kind n ↔ ∃ gid ∈ n.endpoints kind, (g.endpoints kind).get? gid = some r :=
  List.mem_filterMap

theorem mem_topics_iff :
    topic ∈ g.topics kind ↔ ∃ gid r, (g.endpoints kind).get? gid = some r ∧ r.topic = topic := by
  rw [topics, List.mem_map]
  constructor
  · rintro ⟨r, hr, htopic⟩
    obtain ⟨gid, hget⟩ := SortedMap.mem_values_iff.1 hr
    exact ⟨gid, r, hget, htopic⟩
  · rintro ⟨gid, r, hget, htopic⟩
    exact ⟨r, SortedMap.mem_values_iff.2 ⟨gid, hget⟩, htopic⟩

/-- A name and a type are told of a topic exactly if some known endpoint there has that owner and
that type. -/
theorem exists_endpointsInfo_iff {id : NodeName} :
    (∃ info ∈ g.endpointsInfo kind topic d.type,
        info.nodeName = id.name ∧ info.nodeNs = id.ns ∧ info.type = type) ↔
      ∃ gid r, (g.endpoints kind).get? gid = some r ∧ r.topic = topic ∧
        g.ownerName r.participant kind gid = id ∧ d.type r.type = type := by
  constructor
  · rintro ⟨info, hinfo, hname, hns, htype⟩
    obtain ⟨⟨gid, r⟩, hmem, rfl⟩ := List.mem_map.1 hinfo
    obtain ⟨hget, htopic⟩ := mem_onTopic_iff.1 hmem
    exact ⟨gid, r, hget, htopic, congrArg₂ NodeName.mk hns hname, htype⟩
  · rintro ⟨gid, r, hget, htopic, rfl, htype⟩
    exact ⟨_, List.mem_map_of_mem (mem_onTopic_iff.2 ⟨hget, htopic⟩), rfl, rfl, htype⟩

/-- The name that is told of an owner stands in for one, if no node of the participant lists the
endpoint, or is that of a node that does. -/
theorem ownerName_cases (g : Graph) (participant : Gid) (kind : EndpointKind) (gid : Gid) :
    (g.ownerName participant kind gid = unknownNode ∧
      ∀ n ∈ g.nodesOf participant, gid ∉ n.endpoints kind) ∨
    ∃ n ∈ g.nodesOf participant, gid ∈ n.endpoints kind ∧
      g.ownerName participant kind gid = n.id := by
  rw [ownerName]
  cases howner : g.owner? participant kind gid with
  | none =>
    have hnone := List.find?_eq_none.1 howner
    exact .inl ⟨rfl, fun n hn hlists => hnone n hn (decide_eq_true hlists)⟩
  | some n =>
    have hlists := List.find?_some howner
    exact .inr ⟨n, List.mem_of_find?_eq_some howner, of_decide_eq_true hlists, rfl⟩

namespace Unambiguous

variable (h : g.Unambiguous kind)
include h

theorem eq_of_id {m : HostedNode} (hm : m ∈ g.nodes) (hn : n ∈ g.nodes) (hid : m.id = n.id) : m = n :=
  List.inj_on_of_nodup_map h.names hm hn hid

theorem node?_id (hn : n ∈ g.nodes) : g.node? n.id = some n := by
  rw [node?]
  cases hfind : g.nodes.find? (·.id = n.id) with
  | none => exact absurd (decide_eq_true rfl) (List.find?_eq_none.1 hfind n hn)
  | some m =>
    have hid := List.find?_some hfind
    rw [h.eq_of_id (List.mem_of_find?_eq_some hfind) hn (of_decide_eq_true hid)]

/-- The owner that is told of a known endpoint is the node that lists it. -/
theorem ownerName_eq_iff (hn : n ∈ g.nodes) (hr : (g.endpoints kind).get? gid = some r) :
    g.ownerName r.participant kind gid = n.id ↔ gid ∈ n.endpoints kind := by
  obtain ⟨e, he, hmem⟩ := mem_nodes_iff.1 hn
  constructor
  -- The node that the name was taken from is the one of that name.
  · intro hname
    obtain ⟨hunknown, -⟩ | ⟨m, hm, hlists, hid⟩ := g.ownerName_cases r.participant kind gid
    · exact absurd (hunknown ▸ hname ▸ List.mem_map_of_mem hn) h.known
    · rwa [← h.eq_of_id (mem_nodes_of_nodesOf hm) hn (hid.symm.trans hname)]
  -- The record leads to the participant of the node, where no other node lists the endpoint.
  · intro hlists
    have hparticipant : r.participant = e.1 := h.participant e he n hmem gid hlists r hr
    have hnodes : g.nodesOf r.participant = e.2 := by
      rw [hparticipant]
      exact nodesOf_of_get? (SortedMap.mem_entries_iff.1 he)
    obtain ⟨-, hnone⟩ | ⟨m, hm, hm', hid⟩ := g.ownerName_cases r.participant kind gid
    · exact absurd hlists (hnone n (hnodes ▸ hmem))
    · rw [hid, h.owner m (mem_nodes_of_nodesOf hm) n hn gid hm' hlists]

end Unambiguous

/-- The two questions tell the same story: a type is shown for a node on a topic exactly if a known
topic is shown as that one and the node is told there with the type. -/
theorem Unambiguous.namesAndTypesOf_iff (h : g.Unambiguous kind) {id : NodeName}
    (hid : id ∈ g.nodeNames) (d : Demangling) :
    ∃ shown, g.namesAndTypesOf kind id d = .ok shown ∧ ∀ topic ≠ "", ∀ type,
      shown.Shows topic type ↔ ∃ t ∈ g.topics kind, d.topic t = topic ∧
        ∃ info ∈ g.endpointsInfo kind t d.type,
          info.nodeName = id.name ∧ info.nodeNs = id.ns ∧ info.type = type := by
  obtain ⟨n, hn, rfl⟩ := List.mem_map.1 hid
  refine ⟨shownAs (g.recordsOf kind n) d, by rw [namesAndTypesOf, h.node?_id hn], ?_⟩
  intro topic hne type
  rw [shows_shownAs_iff, and_iff_right hne]
  simp only [mem_recordsOf_iff, exists_endpointsInfo_iff]
  constructor
  · rintro ⟨r, ⟨gid, hlists, hget⟩, htopic, htype⟩
    exact ⟨r.topic, mem_topics_iff.2 ⟨gid, r, hget, rfl⟩, htopic, gid, r, hget, rfl,
      (h.ownerName_eq_iff hn hget).2 hlists, htype⟩
  · rintro ⟨-, -, htopic, gid, r, hget, rfl, howner, htype⟩
    exact ⟨r, ⟨gid, (h.ownerName_eq_iff hn hget).1 howner, hget⟩, htopic, htype⟩

/-- Two topics become one for their reader. The talker lists a writer that is not known, and
no node lists the last writer. -/
theorem namesAndTypesOf_talker :
    let gid (b : UInt8) := Gid.ofLeading [b]
    let talker : NodeName := ⟨"/", "talker"⟩
    let g : Graph := {
      writers := .ofList [(gid 1, ⟨"rt/chatter", "Text", gid 10, {}⟩),
        (gid 2, ⟨"rq/chatter", "Time", gid 10, {}⟩), (gid 3, ⟨"rt/chatter", "Pose", gid 11, {}⟩)]
      participants := .ofList [(gid 10, [{ id := talker, writers := [gid 1, gid 2, gid 9] }]),
        (gid 11, [{ id := ⟨"/", "listener"⟩ }])] }
    let d : Demangling := ⟨fun name => if name = "rq/chatter" then "rt/chatter" else name, id⟩
    g.Unambiguous .writer ∧ talker ∈ g.nodeNames ∧
      ∃ shown, g.namesAndTypesOf .writer talker d = .ok shown ∧
        shown.Shows "rt/chatter" "Time" ∧ ¬ shown.Shows "rt/chatter" "Pose" := by
  intro gid talker g d
  have hunambiguous : g.Unambiguous .writer := by decide +kernel
  have htalker : talker ∈ g.nodeNames := by decide +kernel
  obtain ⟨shown, hshown, hiff⟩ := hunambiguous.namesAndTypesOf_iff htalker d
  refine ⟨hunambiguous, htalker, shown, hshown, ?_, ?_⟩
  · rw [hiff _ (by decide)]
    decide +kernel
  · rw [hiff _ (by decide)]
    decide +kernel

end RosGraph.Graph
