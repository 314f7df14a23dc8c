import RosGraph.Proofs.Ownership
import RosGraph.Proofs.Rollback
import Mathlib.Data.List.Induction

/-! The endpoints that a graph has after a run are those that the answers of the run make live: the
last addition or removal of one that took effect was an addition, whose record it has. So what is
told of a topic can be read off the answers, except for the owners, which are looked up in the
node lists of the time. Writers and readers are counted apart. -/

namespace RosGraph

/-- The kind of the endpoint at a key. -/
def Key.kind? : Key → Option EndpointKind
  | endpoint kind _ => some kind
  | participant _ => none

/-- A mutation with what its caller is told. -/
abbrev Deed := Mutation × Except Violation Answer

/-- The deed adds or removes the endpoint, and its caller is told so. -/
def Deed.Affects (kind : EndpointKind) (gid : Gid) (d : Deed) : Prop :=
  d.1.key = .endpoint kind gid ∧ d.2 = .ok (.flag true)

/-- The last deed that affects the endpoint adds it, with that record. -/
def Live (deeds : List Deed) (kind : EndpointKind) (gid : Gid) (r : EndpointRecord) : Prop :=
  ∃ before after, deeds = before ++ (.addEndpoint kind gid r, .ok (.flag true)) :: after ∧
    ∀ d ∈ after, ¬ Deed.Affects kind gid d

/-- The node that is told of as the owner. -/
def EndpointInfo.node (info : EndpointInfo) : NodeName := ⟨info.nodeNs, info.nodeName⟩

section Live
variable {deeds : List Deed} {kind : EndpointKind} {gid : Gid} {r : EndpointRecord}

theorem not_live_nil : ¬ Live [] kind gid r := by
  rintro ⟨before, after, hsplit, -⟩
  simp at hsplit

theorem live_append_one_iff {d : Deed} : Live (deeds ++ [d]) kind gid r ↔
    d = (.addEndpoint kind gid r, .ok (.flag true)) ∨ ¬ Deed.Affects kind gid d ∧ Live deeds kind gid r := by
  constructor
  · rintro ⟨before, after, hsplit, hafter⟩
    rcases List.eq_nil_or_concat after with rfl | ⟨rest, last, rfl⟩
    · exact .inl (List.append_inj_right' hsplit rfl |> List.singleton_inj.1)
    · rw [List.concat_eq_append] at hsplit hafter
      rw [← List.cons_append, ← List.append_assoc] at hsplit
      obtain ⟨hdeeds, hlast⟩ := List.append_inj' hsplit rfl
      obtain rfl := List.singleton_inj.1 hlast
      obtain ⟨hrest, hd⟩ := List.forall_mem_append.1 hafter
      exact .inr ⟨hd d (List.mem_singleton_self d), before, rest, hdeeds, hrest⟩
  · rintro (rfl | ⟨hd, before, after, rfl, hafter⟩)
    · exact ⟨deeds, [], rfl, fun _ h => absurd h List.not_mem_nil⟩
    · refine ⟨before, after ++ [d], by simp, List.forall_mem_append.2 ⟨hafter, ?_⟩⟩
      simpa using hd

end Live

namespace Mutation

open RosGraph.Graph

variable {g h : Graph} {kind : EndpointKind} {gid : Gid} {r : EndpointRecord}

theorem outcome_addEndpoint (g : Graph) (kind : EndpointKind) (gid : Gid) (r : EndpointRecord) :
    (addEndpoint kind gid r).outcome g = .ok (.flag ((g.endpoints kind).get? gid).isNone) :=
  congrArg (fun b => Except.ok (Answer.flag b)) (answer_addEndpoint g kind gid r)

theorem outcome_removeEndpoint (g : Graph) (kind : EndpointKind) (gid : Gid) :
    (removeEndpoint kind gid).outcome g = .ok (.flag ((g.endpoints kind).get? gid).isSome) :=
  congrArg (fun b => Except.ok (Answer.flag b)) (answer_removeEndpoint g kind gid)

/-- The record of an endpoint after a mutation: the one that the mutation added, or the one from
before if the endpoint is not affected. -/
theorem get?_after_iff (m : Mutation) (g : Graph) :
    ((m.after g).endpoints kind).get? gid = some r ↔
      (m, m.outcome g) = (.addEndpoint kind gid r, .ok (.flag true)) ∨
      ¬ Deed.Affects kind gid (m, m.outcome g) ∧ (g.endpoints kind).get? gid = some r := by
  by_cases hkey : m.key = .endpoint kind gid
  · cases m with
    | addEndpoint k e r' =>
      obtain ⟨rfl, rfl⟩ := Key.endpoint.inj hkey
      change ((g.addEndpoint k e r').graph.endpoints k).get? e = some r ↔ _
      rw [get?_addEndpoint_self, outcome_addEndpoint]
      cases hknown : (g.endpoints k).get? e <;> simp [Deed.Affects, key]
    | removeEndpoint k e =>
      obtain ⟨rfl, rfl⟩ := Key.endpoint.inj hkey
      change ((g.removeEndpoint k e).graph.endpoints k).get? e = some r ↔ _
      rw [get?_removeEndpoint_self, outcome_removeEndpoint]
      cases hknown : (g.endpoints k).get? e <;> simp [Deed.Affects, key]
    | _ => contradiction
  · have hsame : ((m.after g).endpoints kind).get? gid = (g.endpoints kind).get? gid :=
      agree_after_of_ne (Ne.symm hkey) g
    have hadd : (m, m.outcome g) ≠ (.addEndpoint kind gid r, .ok (.flag true)) :=
      fun heq => hkey (congrArg (fun d : Deed => d.1.key) heq)
    have haffects : ¬ Deed.Affects kind gid (m, m.outcome g) := fun haffects => hkey haffects.1
    simp only [hsame, hadd, haffects, not_false_eq_true, true_and, false_or]

end Mutation

namespace Graph

variable {g h : Graph} {kind other : EndpointKind} {gid : Gid} {r : EndpointRecord} {topic : String}
  {showType : String → String} {info : EndpointInfo}

theorem performAll_append_one (g : Graph) (ms : List Mutation) (m : Mutation) :
    g.performAll (ms ++ [m]) = ((g.performAll ms).1 ++ [(m, m.outcome (g.performAll ms).2)],
      m.after (g.performAll ms).2) := by
  induction ms generalizing g with
  | nil => rfl
  | cons m' rest ih => rw [List.cons_append, performAll, ih, performAll, List.cons_append]

/-- After a run a graph has the endpoints that the answers of the run make live. -/
theorem live_performAll_iff (ms : List Mutation) : Live (empty.performAll ms).1 kind gid r ↔
    ((empty.performAll ms).2.endpoints kind).get? gid = some r := by
  induction ms using List.reverseRecOn with
  | nil =>
    refine iff_of_false not_live_nil fun hget => ?_
    cases kind <;> contradiction
  | append_singleton ms m ih =>
    rw [performAll_append_one, live_append_one_iff, ih, Mutation.get?_after_iff]

theorem exists_live_performAll_iff (ms : List Mutation) :
    (∃ r, Live (empty.performAll ms).1 kind gid r) ↔
      (((empty.performAll ms).2.endpoints kind).get? gid).isSome := by
  simp only [live_performAll_iff, Option.isSome_iff_exists]

/-- The first node in the list of a participant that lists the endpoint. -/
def FirstOwner (g : Graph) (participant : Gid) (kind : EndpointKind) (gid : Gid) (n : HostedNode) : Prop :=
  gid ∈ n.endpoints kind ∧ ∃ before after, g.nodesOf participant = before ++ n :: after ∧
    ∀ m ∈ before, gid ∉ m.endpoints kind

theorem owner?_eq_some_iff {participant : Gid} {n : HostedNode} :
    g.owner? participant kind gid = some n ↔ g.FirstOwner participant kind gid n := by
  rw [owner?, ← nodesOf, List.find?_eq_some_iff_append, FirstOwner, decide_eq_true_eq]
  simp only [Bool.not_eq_true', decide_eq_false_iff_not]

theorem owner?_eq_none_iff {participant : Gid} : g.owner? participant kind gid = none ↔
    ∀ n ∈ g.nodesOf participant, gid ∉ n.endpoints kind := by
  rw [owner?, ← nodesOf, List.find?_eq_none]
  simp only [decide_eq_true_eq]

theorem ownerName_of_firstOwner {participant : Gid} {n : HostedNode}
    (hn : g.FirstOwner participant kind gid n) : g.ownerName participant kind gid = n.id := by
  rw [ownerName, owner?_eq_some_iff.2 hn, Option.map_some, Option.getD_some]

theorem ownerName_eq_unknownNode_iff {participant : Gid} :
    g.ownerName participant kind gid = unknownNode ↔
      (∀ n ∈ g.nodesOf participant, gid ∉ n.endpoints kind) ∨
      ∃ n, g.FirstOwner participant kind gid n ∧ n.id = unknownNode := by
  rw [ownerName, ← owner?_eq_none_iff]
  simp only [← owner?_eq_some_iff]
  cases g.owner? participant kind gid <;> simp

/-- What there is to tell of an endpoint of a record. The unknown name is told exactly if no node of
the participant lists the endpoint, or if the first one that does is called that. -/
structure Tells (g : Graph) (kind : EndpointKind) (r : EndpointRecord) (showType : String → String)
    (info : EndpointInfo) : Prop where
  role : info.kind = kind
  type : info.type = showType r.type
  qos : info.qos = r.qos
  owned : ∀ n, g.FirstOwner r.participant kind info.gid n → info.node = n.id
  unowned : info.node = unknownNode ↔
    (∀ n ∈ g.nodesOf r.participant, info.gid ∉ n.endpoints kind) ∨
    ∃ n, g.FirstOwner r.participant kind info.gid n ∧ n.id = unknownNode

theorem Tells.node (h : g.Tells kind r showType info) :
    info.node = g.ownerName r.participant kind info.gid := by
  cases howner : g.owner? r.participant kind info.gid with
  | none =>
    have hnone := owner?_eq_none_iff.1 howner
    rw [h.unowned.2 (.inl hnone), ownerName_eq_unknownNode_iff.2 (.inl hnone)]
  | some n =>
    have hfirst := owner?_eq_some_iff.1 howner
    rw [h.owned n hfirst, ownerName_of_firstOwner hfirst]

theorem mem_endpointsInfo_iff : info ∈ g.endpointsInfo kind topic showType ↔
    ∃ r, (g.endpoints kind).get? info.gid = some r ∧ r.topic = topic ∧ g.Tells kind r showType info := by
  rw [endpointsInfo, List.mem_map]
  constructor
  · rintro ⟨⟨gid, r⟩, hmem, rfl⟩
    obtain ⟨hget, htopic⟩ := mem_onTopic_iff.1 hmem
    exact ⟨r, hget, htopic, rfl, rfl, rfl, fun n => ownerName_of_firstOwner, ownerName_eq_unknownNode_iff⟩
  · rintro ⟨r, hget, htopic, htells⟩
    refine ⟨(info.gid, r), mem_onTopic_iff.2 ⟨hget, htopic⟩, ?_⟩
    have hnode := htells.node
    obtain ⟨rfl, htype, hqos, -, -⟩ := htells
    dsimp only
    rw [← hnode, ← htype, ← hqos]
    rfl

theorem pairwise_endpointsInfo (g : Graph) (kind : EndpointKind) (topic : String)
    (showType : String → String) :
    (g.endpointsInfo kind topic showType).Pairwise fun a b => compare a.gid b.gid = .lt :=
  List.pairwise_map.2 ((g.endpoints kind).sorted.filter _)

theorem length_endpointsInfo (g : Graph) (kind : EndpointKind) (topic : String)
    (showType : String → String) :
    (g.endpointsInfo kind topic showType).length = g.endpointCount kind topic := List.length_map ..

/-- The graphs agree on everything but the endpoints of a kind. -/
def AgreeBut (other : EndpointKind) (g h : Graph) : Prop := ∀ k : Key, k.kind? ≠ some other → g.Agree h k

theorem AgreeBut.endpointsInfo_eq (hgh : AgreeBut other g h) (hkind : kind ≠ other) (topic : String)
    (showType : String → String) :
    g.endpointsInfo kind topic showType = h.endpointsInfo kind topic showType := by
  have hends : g.endpoints kind = h.endpoints kind := SortedMap.ext_get? fun gid =>
    hgh (.endpoint kind gid) fun heq => hkind (Option.some.inj heq)
  have hnodes (gid : Gid) : g.nodesOf gid = h.nodesOf gid :=
    congrArg (·.getD []) (hgh (.participant gid) nofun)
  exact endpointsInfo_eq_of_nodesOf hnodes hends topic showType

/-- Nothing else is told of what is done with the endpoints of a kind. -/
theorem AgreeBut.performAll_filter (ms : List Mutation) (hgh : AgreeBut other g h) :
    (h.performAll (ms.filter (·.key.kind? ≠ some other))).1 =
        (g.performAll ms).1.filter (·.1.key.kind? ≠ some other) ∧
      AgreeBut other (g.performAll ms).2 (h.performAll (ms.filter (·.key.kind? ≠ some other))).2 := by
  induction ms generalizing g h with
  | nil => exact ⟨rfl, hgh⟩
  | cons m rest ih =>
    by_cases hm : m.key.kind? = some other
    · have hafter : AgreeBut other (m.after g) h := fun k hk =>
        (Mutation.agree_after_of_ne (fun heq => hk (by rw [heq, hm])) g).trans (hgh k hk)
      obtain ⟨hdeeds, hend⟩ := ih hafter
      rw [List.filter_cons_of_neg (by simpa using hm), performAll]
      dsimp only
      rw [List.filter_cons_of_neg (by simpa using hm)]
      exact ⟨hdeeds, hend⟩
    · obtain ⟨houtcome, hown⟩ := Mutation.local_at_key (hgh m.key hm)
      have hafter : AgreeBut other (m.after g) (m.after h) := fun k hk => by
        by_cases hkey : k = m.key
        · exact hkey ▸ hown
        · exact ((Mutation.agree_after_of_ne hkey g).trans (hgh k hk)).trans
            (Mutation.agree_after_of_ne hkey h).symm
      obtain ⟨hdeeds, hend⟩ := ih hafter
      rw [List.filter_cons_of_pos (by simpa using hm), performAll, performAll]
      dsimp only
      rw [List.filter_cons_of_pos (by simpa using hm), hdeeds, houtcome]
      exact ⟨rfl, hend⟩

/-- Endpoints are added once and removed once they are there. On a topic those are told of, each once
and in the order of their identifiers, that the answers make live, with the record of the addition
that made them so. What is done with endpoints of the other kind changes no other answer, and nothing
that is told of the endpoints of this one. -/
theorem census_of_run (ms : List Mutation) (kind : EndpointKind) :
    let deeds := (empty.performAll ms).1
    let g := (empty.performAll ms).2
    (∀ gid r, ∃ added, (Mutation.addEndpoint kind gid r).outcome g = .ok (.flag added) ∧
      (added = true ↔ ¬ ∃ r', Live deeds kind gid r')) ∧
    (∀ gid, ∃ removed, (Mutation.removeEndpoint kind gid).outcome g = .ok (.flag removed) ∧
      (removed = true ↔ ∃ r, Live deeds kind gid r)) ∧
    (∀ topic showType,
      (∀ info, info ∈ g.endpointsInfo kind topic showType ↔
        ∃ r, Live deeds kind info.gid r ∧ r.topic = topic ∧ g.Tells kind r showType info) ∧
      ((g.endpointsInfo kind topic showType).Pairwise fun a b => compare a.gid b.gid = .lt) ∧
      (g.endpointsInfo kind topic showType).length = g.endpointCount kind topic) ∧
    ∀ other ≠ kind,
      let kept := empty.performAll (ms.filter (·.key.kind? ≠ some other))
      kept.1 = deeds.filter (·.1.key.kind? ≠ some other) ∧
        ∀ topic showType, kept.2.endpointsInfo kind topic showType = g.endpointsInfo kind topic showType := by
  intro deeds g
  refine ⟨fun gid r => ?_, fun gid => ?_, fun topic showType => ⟨fun info => ?_, ?_, ?_⟩, fun other hother => ?_⟩
  · refine ⟨_, Mutation.outcome_addEndpoint g kind gid r, ?_⟩
    rw [exists_live_performAll_iff, Option.not_isSome_iff_eq_none, Option.isNone_iff_eq_none]
  · exact ⟨_, Mutation.outcome_removeEndpoint g kind gid, (exists_live_performAll_iff ms).symm⟩
  · simp only [deeds, live_performAll_iff]
    exact mem_endpointsInfo_iff
  · exact pairwise_endpointsInfo g kind topic showType
  · exact length_endpointsInfo g kind topic showType
  · have hself : AgreeBut other empty empty := fun k _ => by cases k <;> rfl
    obtain ⟨hdeeds, hend⟩ := hself.performAll_filter ms
    exact ⟨hdeeds, fun topic showType => (hend.endpointsInfo_eq (Ne.symm hother) topic showType).symm⟩

/-- A second addition of a writer is refused. A reader with the identifier of the writer comes and goes,
and the nodes of the writer are announced after it; the other writer is of no node. -/
theorem census_of_run_shared_identifier :
    let gid (b : UInt8) := Gid.ofLeading [b]
    let record (type : String) : EndpointRecord := ⟨"rt/chatter", type, gid 10, {}⟩
    let ms : List Mutation := [.addEndpoint .writer (gid 2) (record "Text"),
      .addEndpoint .writer (gid 2) (record "Pose"), .addEndpoint .reader (gid 2) (record "Pose"),
      .announce ⟨gid 10, [{ id := ⟨"/", "talker"⟩, writers := [gid 7, gid 2], readers := [gid 1] }]⟩,
      .removeEndpoint .reader (gid 2), .addEndpoint .writer (gid 1) (record "Pose")]
    let g := (empty.performAll ms).2
    let kept := empty.performAll (ms.filter (·.key.kind? ≠ some .reader))
    EndpointKind.reader ≠ .writer ∧ Live (empty.performAll ms).1 .writer (gid 2) (record "Text") ∧
      (Mutation.addEndpoint .writer (gid 2) (record "Pose")).outcome g = .ok (.flag false) ∧
      (g.endpointsInfo .writer "rt/chatter" id).map (fun i => (i.gid, i.type, i.nodeName)) =
        [(gid 1, "Pose", "_NODE_NAME_UNKNOWN_"), (gid 2, "Text", "talker")] ∧
      kept.2.endpointsInfo .writer "rt/chatter" id = g.endpointsInfo .writer "rt/chatter" id := by
  intro gid record ms g kept
  obtain ⟨hadd, -, -, hother⟩ := census_of_run ms .writer
  have hlive : Live (empty.performAll ms).1 .writer (gid 2) (record "Text") :=
    (live_performAll_iff ms).2 (by decide +kernel)
  have hne : EndpointKind.reader ≠ .writer := by decide
  refine ⟨hne, hlive, ?_, by decide +kernel, (hother .reader hne).2 _ _⟩
  obtain ⟨added, houtcome, hadded⟩ := hadd (gid 2) (record "Pose")
  rw [houtcome, Bool.eq_false_iff.2 fun htrue => hadded.1 htrue ⟨_, hlive⟩]

/-- The unknown name does not tell that a writer is of no node: nothing keeps a node from being called
that, and here such a node lists the first writer. The second one is of no node. -/
theorem census_of_run_node_called_unknown :
    let gid (b : UInt8) := Gid.ofLeading [b]
    let record : EndpointRecord := ⟨"rt/chatter", "Text", gid 10, {}⟩
    let node : HostedNode := { id := ⟨"_NODE_NAMESPACE_UNKNOWN_", "_NODE_NAME_UNKNOWN_"⟩, writers := [gid 2] }
    let ms : List Mutation := [.addEndpoint .writer (gid 2) record, .addEndpoint .writer (gid 3) record,
      .announce ⟨gid 10, [node]⟩]
    let deeds := (empty.performAll ms).1
    let g := (empty.performAll ms).2
    Live deeds .writer (gid 2) record ∧ g.FirstOwner (gid 10) .writer (gid 2) node ∧
      (g.endpointsInfo .writer "rt/chatter" id).map (fun i => (i.gid, i.node)) =
        [(gid 2, unknownNode), (gid 3, unknownNode)] ∧
      ¬ ∀ info ∈ g.endpointsInfo .writer "rt/chatter" id,
        (info.node = unknownNode ↔ ¬ ∃ n, g.FirstOwner (gid 10) .writer info.gid n) := by
  intro gid record node ms deeds g
  have hfirst : g.FirstOwner (gid 10) .writer (gid 2) node :=
    owner?_eq_some_iff.1 (by decide +kernel)
  have hinfos : (g.endpointsInfo .writer "rt/chatter" id).map (fun i => (i.gid, i.node)) =
      [(gid 2, unknownNode), (gid 3, unknownNode)] := by decide +kernel
  refine ⟨(live_performAll_iff ms).2 (by decide +kernel), hfirst, hinfos, fun hall => ?_⟩
  obtain ⟨info, hinfo, heq⟩ := List.mem_map.1 (hinfos ▸ List.mem_cons_self)
  obtain ⟨hgid, hnode⟩ := Prod.mk.inj heq
  exact (hall info hinfo).1 hnode ⟨node, hgid ▸ hfirst⟩

end Graph

end RosGraph
