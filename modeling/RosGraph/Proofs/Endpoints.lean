import RosGraph.Graph.Query
import RosGraph.SortedMap.Lemmas
import Mathlib.Tactic.SplitIfs

/-! The endpoints of a graph under its mutations. An endpoint is added or removed under its
own kind and identifier, and no other mutation touches the endpoints. -/

namespace RosGraph.Graph

variable {g : Graph} {kind : EndpointKind} {gid : Gid} {r : EndpointRecord} {topic : String}

@[simp] theorem endpoints_setEndpoints_self (g : Graph) (kind : EndpointKind)
    (m : SortedMap Gid EndpointRecord) : (g.setEndpoints kind m).endpoints kind = m := by
  cases kind <;> rfl

theorem endpoints_setEndpoints_of_ne (g : Graph) {kind other : EndpointKind} (h : other ≠ kind)
    (m : SortedMap Gid EndpointRecord) : (g.setEndpoints kind m).endpoints other = g.endpoints other := by
  cases kind <;> cases other <;> first | rfl | exact absurd rfl h

theorem mem_onTopic_iff : (gid, r) ∈ g.onTopic kind topic ↔
    (g.endpoints kind).get? gid = some r ∧ r.topic = topic := by
  rw [onTopic, List.mem_filter, SortedMap.mem_entries_iff, decide_eq_true_eq]

/-- The first record of an endpoint stays. -/
@[simp] theorem get?_addEndpoint_self (g : Graph) (kind : EndpointKind) (gid : Gid) (r : EndpointRecord) :
    ((g.addEndpoint kind gid r).graph.endpoints kind).get? gid =
      some (((g.endpoints kind).get? gid).getD r) := by
  rw [addEndpoint]
  cases hknown : (g.endpoints kind).get? gid with
  | none => simp [SortedMap.contains, hknown]
  | some old => simp [SortedMap.contains, hknown]

theorem get?_addEndpoint_of_ne (g : Graph) {kind other : EndpointKind} {gid gid' : Gid}
    (h : ¬ (other = kind ∧ gid' = gid)) (r : EndpointRecord) :
    ((g.addEndpoint kind gid r).graph.endpoints other).get? gid' = (g.endpoints other).get? gid' := by
  rw [addEndpoint]
  split_ifs
  · rfl
  · by_cases hkind : other = kind
    · subst hkind
      rw [endpoints_setEndpoints_self]
      exact SortedMap.get?_insert_of_ne _ (fun hgid => h ⟨rfl, hgid⟩) r
    · rw [endpoints_setEndpoints_of_ne g hkind]

@[simp] theorem get?_removeEndpoint_self (g : Graph) (kind : EndpointKind) (gid : Gid) :
    ((g.removeEndpoint kind gid).graph.endpoints kind).get? gid = none := by
  rw [removeEndpoint]
  cases hknown : (g.endpoints kind).get? gid with
  | none => simp [SortedMap.contains, hknown]
  | some old => simp [SortedMap.contains, hknown]

theorem get?_removeEndpoint_of_ne (g : Graph) {kind other : EndpointKind} {gid gid' : Gid}
    (h : ¬ (other = kind ∧ gid' = gid)) :
    ((g.removeEndpoint kind gid).graph.endpoints other).get? gid' = (g.endpoints other).get? gid' := by
  rw [removeEndpoint]
  split_ifs
  · by_cases hkind : other = kind
    · subst hkind
      rw [endpoints_setEndpoints_self]
      exact SortedMap.get?_erase_of_ne _ fun hgid => h ⟨rfl, hgid⟩
    · rw [endpoints_setEndpoints_of_ne g hkind]
  · rfl

/-- An endpoint is added if there was no record of it. -/
theorem answer_addEndpoint (g : Graph) (kind : EndpointKind) (gid : Gid) (r : EndpointRecord) :
    (g.addEndpoint kind gid r).answer = ((g.endpoints kind).get? gid).isNone := by
  rw [addEndpoint]
  split_ifs with hknown
  · simpa [SortedMap.contains, Option.isSome_iff_ne_none] using hknown
  · simpa [SortedMap.contains] using hknown

/-- An endpoint is removed if there was a record of it. -/
theorem answer_removeEndpoint (g : Graph) (kind : EndpointKind) (gid : Gid) :
    (g.removeEndpoint kind gid).answer = ((g.endpoints kind).get? gid).isSome := by
  rw [removeEndpoint]
  split_ifs with hknown
  · exact hknown.symm
  · simpa [SortedMap.contains] using hknown

@[simp] theorem endpoints_setNodes (g : Graph) (gid : Gid) (nodes : List HostedNode)
    (kind : EndpointKind) : (g.setNodes gid nodes).endpoints kind = g.endpoints kind := by
  cases kind <;> rfl

theorem endpoints_addParticipant (g : Graph) (gid : Gid) (kind : EndpointKind) :
    (g.addParticipant gid).graph.endpoints kind = g.endpoints kind := by
  rw [addParticipant]
  split_ifs
  · rfl
  · exact endpoints_setNodes g gid [] kind

theorem endpoints_removeParticipant (g : Graph) (gid : Gid) (kind : EndpointKind) :
    (g.removeParticipant gid).graph.endpoints kind = g.endpoints kind := by
  rw [removeParticipant]
  split_ifs
  · cases kind <;> rfl
  · rfl

theorem endpoints_announce (g : Graph) (a : Announcement) (kind : EndpointKind) :
    (g.announce a).graph.endpoints kind = g.endpoints kind := by
  rw [announce]
  dsimp only
  split_ifs
  · cases kind <;> rfl
  · exact endpoints_setNodes g a.participant a.nodes kind

/-- Participants and nodes come and go without their endpoints. -/
theorem endpoints_apply {m : Mutation} {e : Effect Answer} (h : m.apply g = .ok e) :
    (∃ kind gid r, m = .addEndpoint kind gid r ∧ e.graph = (g.addEndpoint kind gid r).graph) ∨
    (∃ kind gid, m = .removeEndpoint kind gid ∧ e.graph = (g.removeEndpoint kind gid).graph) ∨
    ∀ kind, e.graph.endpoints kind = g.endpoints kind := by
  cases m with
  | addEndpoint kind gid r =>
    obtain rfl := Except.ok.inj h
    exact .inl ⟨kind, gid, r, rfl, rfl⟩
  | removeEndpoint kind gid =>
    obtain rfl := Except.ok.inj h
    exact .inr (.inl ⟨kind, gid, rfl, rfl⟩)
  | addParticipant gid =>
    obtain rfl := Except.ok.inj h
    exact .inr (.inr (endpoints_addParticipant g gid))
  | removeParticipant gid =>
    obtain rfl := Except.ok.inj h
    exact .inr (.inr (endpoints_removeParticipant g gid))
  | announce a =>
    obtain rfl := Except.ok.inj h
    exact .inr (.inr (endpoints_announce g a))
  | changeNode gid node change =>
    rw [Mutation.apply_changeNode] at h
    split at h
    · contradiction
    · split at h
      · contradiction
      · obtain rfl := Except.ok.inj h
        exact .inr (.inr (endpoints_setNodes g gid _))

section OnTopic
variable {other : EndpointKind} {gid' : Gid} {r' : EndpointRecord}

/-- What is on a topic after an endpoint was added was there before, or is that endpoint. -/
theorem mem_onTopic_addEndpoint
    (h : (gid', r') ∈ (g.addEndpoint kind gid r).graph.onTopic other topic) :
    (gid', r') ∈ g.onTopic other topic ∨ other = kind ∧ r' = r := by
  rw [mem_onTopic_iff] at h ⊢
  obtain ⟨hget, htopic⟩ := h
  by_cases hsame : other = kind ∧ gid' = gid
  · obtain ⟨rfl, rfl⟩ := hsame
    rw [get?_addEndpoint_self] at hget
    cases hknown : (g.endpoints other).get? gid' with
    | none =>
      rw [hknown] at hget
      exact .inr ⟨rfl, (Option.some.inj hget).symm⟩
    | some old =>
      rw [hknown] at hget
      exact .inl ⟨hget, htopic⟩
  · rw [get?_addEndpoint_of_ne g hsame] at hget
    exact .inl ⟨hget, htopic⟩

theorem mem_onTopic_removeEndpoint
    (h : (gid', r') ∈ (g.removeEndpoint kind gid).graph.onTopic other topic) :
    (gid', r') ∈ g.onTopic other topic := by
  rw [mem_onTopic_iff] at h ⊢
  obtain ⟨hget, htopic⟩ := h
  by_cases hsame : other = kind ∧ gid' = gid
  · obtain ⟨rfl, rfl⟩ := hsame
    rw [get?_removeEndpoint_self] at hget
    contradiction
  · rw [get?_removeEndpoint_of_ne g hsame] at hget
    exact ⟨hget, htopic⟩

end OnTopic

end RosGraph.Graph
