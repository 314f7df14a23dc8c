import RosGraph.Proofs.Ownership

/-! What the graph shows of topics, in all and for one node. All endpoints are shown in the one case,
and the known endpoints that the node lists in the other one; of several nodes with a name it is the
first one, in the order of participants and then of their lists. So a node shows nothing that the
graph does not show. -/

namespace RosGraph.Graph

variable {g : Graph} {kind : EndpointKind} {id : NodeName} {n : HostedNode} {gid : Gid}
  {r : EndpointRecord} {topic type : String} {d : Demangling}

/-- The first node of a name: in the first participant that hosts one, and first in its list. -/
def FirstOf (g : Graph) (id : NodeName) (n : HostedNode) : Prop :=
  n.id = id ∧ ∃ gid before after, g.nodesOf gid = before ++ n :: after ∧ (∀ m ∈ before, m.id ≠ id) ∧
    ∀ other, compare other gid = .lt → ∀ m ∈ g.nodesOf other, m.id ≠ id

theorem mem_nodes_iff_nodesOf : n ∈ g.nodes ↔ ∃ gid, n ∈ g.nodesOf gid := by
  constructor
  · intro hn
    obtain ⟨e, he, hmem⟩ := mem_nodes_iff.1 hn
    exact ⟨e.1, (nodesOf_of_get? (SortedMap.mem_entries_iff.1 he)).symm ▸ hmem⟩
  · rintro ⟨gid, hn⟩
    exact mem_nodes_of_nodesOf hn

theorem node?_eq_none_iff : g.node? id = none ↔ ∀ gid, ∀ n ∈ g.nodesOf gid, n.id ≠ id := by
  rw [node?, List.find?_eq_none]
  simp only [decide_eq_true_eq, mem_nodes_iff_nodesOf, forall_exists_index]
  exact forall_comm

theorem node?_eq_some_iff : g.node? id = some n ↔ g.FirstOf id n := by
  -- The search goes through the node lists one after the other, of which those in front of the one
  -- that has the node are those of smaller identifiers.
  rw [node?, nodes, List.find?_flatten_eq_some_iff, FirstOf, decide_eq_true_eq]
  refine and_congr_right fun _ => ?_
  simp only [Bool.not_eq_true', decide_eq_false_iff_not]
  constructor
  · rintro ⟨earlier, before, after, later, hvalues, hearlier, hbefore⟩
    obtain ⟨front, back, hentries, rfl, hback⟩ := List.map_eq_append_iff.1 hvalues
    obtain ⟨⟨gid, nodes⟩, rest, rfl, rfl, -⟩ := List.map_eq_cons_iff.1 hback
    refine ⟨gid, before, after, nodesOf_of_get? (SortedMap.mem_entries_iff.1 ?_), hbefore, ?_⟩
    · rw [hentries]
      exact List.mem_append_right _ List.mem_cons_self
    · intro other hlt m hm
      have hmem := (SortedMap.mem_before_iff hentries).2 ⟨get?_of_mem_nodesOf hm, hlt⟩
      exact hearlier _ (List.mem_map_of_mem hmem) m hm
  · rintro ⟨gid, before, after, hnodes, hbefore, hearlier⟩
    have hget : g.participants.get? gid = some (before ++ n :: after) :=
      hnodes ▸ get?_of_mem_nodesOf (hnodes ▸ List.mem_append_right before List.mem_cons_self)
    obtain ⟨front, rest, hentries⟩ := List.append_of_mem (SortedMap.mem_entries_iff.2 hget)
    refine ⟨front.map (·.2), before, after, rest.map (·.2), ?_, ?_, hbefore⟩
    · rw [SortedMap.values, hentries, List.map_append, List.map_cons]
    · intro earlier hmem m hm
      obtain ⟨⟨other, nodes⟩, he, rfl⟩ := List.mem_map.1 hmem
      obtain ⟨hother, hlt⟩ := (SortedMap.mem_before_iff hentries).1 he
      exact hearlier other hlt m ((nodesOf_of_get? hother).symm ▸ hm)

theorem mem_values_endpoints_iff :
    r ∈ g.readers.values ++ g.writers.values ↔ ∃ kind gid, (g.endpoints kind).get? gid = some r := by
  rw [List.mem_append, SortedMap.mem_values_iff, SortedMap.mem_values_iff]
  constructor
  · rintro (⟨gid, hget⟩ | ⟨gid, hget⟩)
    · exact ⟨.reader, gid, hget⟩
    · exact ⟨.writer, gid, hget⟩
  · rintro ⟨kind, gid, hget⟩
    cases kind with
    | reader => exact .inl ⟨gid, hget⟩
    | writer => exact .inr ⟨gid, hget⟩

theorem shows_namesAndTypes_iff : (g.namesAndTypes d).Shows topic type ↔ topic ≠ "" ∧
    ∃ kind gid r, (g.endpoints kind).get? gid = some r ∧ d.topic r.topic = topic ∧
      d.type r.type = type := by
  rw [namesAndTypes, shows_shownAs_iff]
  simp only [mem_values_endpoints_iff]
  refine and_congr_right fun _ => ⟨?_, ?_⟩
  · rintro ⟨r, ⟨kind, gid, hget⟩, hshown⟩
    exact ⟨kind, gid, r, hget, hshown⟩
  · rintro ⟨kind, gid, r, hget, hshown⟩
    exact ⟨r, ⟨kind, gid, hget⟩, hshown⟩

theorem shows_recordsOf_iff : (shownAs (g.recordsOf kind n) d).Shows topic type ↔ topic ≠ "" ∧
    ∃ gid ∈ n.endpoints kind, ∃ r, (g.endpoints kind).get? gid = some r ∧ d.topic r.topic = topic ∧
      d.type r.type = type := by
  rw [shows_shownAs_iff]
  simp only [mem_recordsOf_iff]
  refine and_congr_right fun _ => ⟨?_, ?_⟩
  · rintro ⟨r, ⟨gid, hlists, hget⟩, hshown⟩
    exact ⟨gid, hlists, r, hget, hshown⟩
  · rintro ⟨gid, hlists, r, hget, hshown⟩
    exact ⟨r, ⟨gid, hlists, hget⟩, hshown⟩

/-- The graph shows exactly its endpoints. A question about a node fails exactly if no participant
hosts it; otherwise the answer shows exactly the known endpoints that the first node of the name
lists, and nothing that the graph does not show. No topic is shown without a name or without a type. -/
theorem namesAndTypes_exact (g : Graph) (d : Demangling) :
    (∀ topic type, (g.namesAndTypes d).Shows topic type ↔ topic ≠ "" ∧ ∃ kind gid r,
      (g.endpoints kind).get? gid = some r ∧ d.topic r.topic = topic ∧ d.type r.type = type) ∧
    (g.namesAndTypes d).Complete ∧
    ∀ kind id,
      (g.namesAndTypesOf kind id d = .error (.unknownNode id.name id.ns) ↔
        ∀ gid, ∀ n ∈ g.nodesOf gid, n.id ≠ id) ∧
      ((∃ gid, ∃ n ∈ g.nodesOf gid, n.id = id) →
        ∃ n shown, g.FirstOf id n ∧ g.namesAndTypesOf kind id d = .ok shown ∧ shown.Complete ∧
          (∀ topic type, shown.Shows topic type ↔ topic ≠ "" ∧ ∃ gid ∈ n.endpoints kind, ∃ r,
            (g.endpoints kind).get? gid = some r ∧ d.topic r.topic = topic ∧ d.type r.type = type) ∧
          ∀ topic type, shown.Shows topic type → (g.namesAndTypes d).Shows topic type) := by
  refine ⟨fun _ _ => shows_namesAndTypes_iff, complete_shownAs _ d, fun kind id => ?_⟩
  rw [namesAndTypesOf]
  cases hnode : g.node? id with
  | none =>
    have hnot := node?_eq_none_iff.1 hnode
    refine ⟨iff_of_true rfl hnot, ?_⟩
    rintro ⟨gid, n, hn, hid⟩
    exact absurd hid (hnot gid n hn)
  | some n =>
    have hfirst := node?_eq_some_iff.1 hnode
    refine ⟨iff_of_false (by simp) fun hnot => ?_, fun _ => ?_⟩
    · rw [node?_eq_none_iff.2 hnot] at hnode
      contradiction
    · refine ⟨n, _, hfirst, rfl, complete_shownAs _ d, fun _ _ => shows_recordsOf_iff, ?_⟩
      intro topic type hshows
      obtain ⟨hne, gid, -, r, hget, hshown⟩ := shows_recordsOf_iff.1 hshows
      exact shows_namesAndTypes_iff.2 ⟨hne, kind, gid, r, hget, hshown⟩

/-- Two participants host a talker, and it is the one of the first participant that is asked. It
lists a writer twice and another one that is not known; two of the topics become one for their reader,
and a third one is not shown. -/
theorem namesAndTypes_exact_twice_hosted :
    let gid (b : UInt8) := Gid.ofLeading [b]
    let talker : NodeName := ⟨"/", "talker"⟩
    let g : Graph := {
      writers := .ofList [(gid 1, ⟨"rt/chatter", "Text", gid 10, {}⟩),
        (gid 2, ⟨"rq/chatter", "Time", gid 10, {}⟩), (gid 3, ⟨"rt/pose", "Pose", gid 11, {}⟩)]
      readers := .ofList [(gid 2, ⟨"clock", "Clock", gid 10, {}⟩)]
      participants := .ofList [(gid 11, [{ id := talker, writers := [gid 3] }]),
        (gid 10, [{ id := ⟨"/", "listener"⟩ }, { id := talker, writers := [gid 2, gid 9, gid 2] }])] }
    let d : Demangling := ⟨fun name => if name = "clock" then "" else
      if name = "rq/chatter" then "rt/chatter" else name, fun type => type⟩
    (∃ p, ∃ n ∈ g.nodesOf p, n.id = talker) ∧
      (∃ shown, g.namesAndTypesOf .writer talker d = .ok shown ∧ shown.Shows "rt/chatter" "Time" ∧
        ¬ shown.Shows "rt/chatter" "Text" ∧ (g.namesAndTypes d).Shows "rt/chatter" "Time") ∧
      (∀ type, ¬ (g.namesAndTypes d).Shows "" type) ∧
      g.namesAndTypesOf .reader ⟨"/", "camera"⟩ d = .error (.unknownNode "camera" "/") := by
  intro gid talker g d
  obtain ⟨hall, -, hnode⟩ := namesAndTypes_exact g d
  have hhosted : ∃ p, ∃ n ∈ g.nodesOf p, n.id = talker := ⟨gid 10, by decide +kernel⟩
  obtain ⟨n, shown, hfirst, hok, -, hiff, hsub⟩ := (hnode .writer talker).2 hhosted
  have hn : some n = g.node? talker := (node?_eq_some_iff.2 hfirst).symm
  have hwriters : n.endpoints .writer = [gid 2, gid 9, gid 2] := by
    have hlist : (g.node? talker).map (·.endpoints .writer) = some [gid 2, gid 9, gid 2] := by
      decide +kernel
    rw [← hn] at hlist
    exact Option.some.inj hlist
  have htime : shown.Shows "rt/chatter" "Time" := by
    rw [hiff, hwriters]
    exact ⟨by decide, gid 2, by decide +kernel, _, rfl, by decide +kernel, rfl⟩
  refine ⟨hhosted, ⟨shown, hok, htime, ?_, hsub _ _ htime⟩, ?_, ?_⟩
  · rw [hiff, hwriters]
    decide +kernel
  · intro type hshows
    exact ((hall "" type).1 hshows).1 rfl
  · rw [(hnode .reader ⟨"/", "camera"⟩).1, ← node?_eq_none_iff]
    decide +kernel

end RosGraph.Graph
