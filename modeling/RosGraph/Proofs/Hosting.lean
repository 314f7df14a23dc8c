import RosGraph.Graph.Query
import RosGraph.SortedMap.Lemmas
import Mathlib.Tactic.SplitIfs

/-! The node list of each participant, where one that is not known and one without
nodes count alike. Queries about nodes depend on these lists only: two graphs with
the same ones name the same nodes in the same order, and with the same endpoints
they also agree on who owns what. -/

namespace RosGraph.Graph

/-- The nodes of a participant; none if it is not known. -/
def nodesOf (g : Graph) (gid : Gid) : List HostedNode := (g.participants.get? gid).getD []

variable {g h : Graph}

theorem nodesOf_of_get? {gid : Gid} {nodes : List HostedNode}
    (hreg : g.participants.get? gid = some nodes) : g.nodesOf gid = nodes := by
  rw [nodesOf, hreg, Option.getD_some]

theorem get?_of_mem_nodesOf {gid : Gid} {n : HostedNode} (hn : n ∈ g.nodesOf gid) :
    g.participants.get? gid = some (g.nodesOf gid) := by
  rw [nodesOf] at hn ⊢
  cases hget : g.participants.get? gid with
  | none => simp [hget] at hn
  | some nodes => rfl

@[simp] theorem setNodes_setNodes (g : Graph) (gid : Gid) (nodes nodes' : List HostedNode) :
    (g.setNodes gid nodes).setNodes gid nodes' = g.setNodes gid nodes' := by
  simp [setNodes]

theorem setNodes_of_get? {g : Graph} {gid : Gid} {nodes : List HostedNode}
    (h : g.participants.get? gid = some nodes) : g.setNodes gid nodes = g := by
  simp [setNodes, SortedMap.insert_of_get? h]

@[simp] theorem get?_setNodes_self (g : Graph) (gid : Gid) (nodes : List HostedNode) :
    (g.setNodes gid nodes).participants.get? gid = some nodes := by
  simp [setNodes]

theorem get?_setNodes_of_ne (g : Graph) {gid other : Gid} (h : other ≠ gid) (nodes : List HostedNode) :
    (g.setNodes gid nodes).participants.get? other = g.participants.get? other :=
  SortedMap.get?_insert_of_ne _ h nodes

@[simp] theorem nodesOf_setNodes_self (g : Graph) (gid : Gid) (nodes : List HostedNode) :
    (g.setNodes gid nodes).nodesOf gid = nodes := by
  simp [nodesOf, setNodes]

theorem nodesOf_setNodes_of_ne (g : Graph) {gid other : Gid} (hne : other ≠ gid)
    (nodes : List HostedNode) : (g.setNodes gid nodes).nodesOf other = g.nodesOf other := by
  simp [nodesOf, setNodes, SortedMap.get?_insert_of_ne _ hne]

/-- A known participant keeps its nodes, and a new one has none. -/
@[simp] theorem get?_addParticipant_self (g : Graph) (gid : Gid) :
    (g.addParticipant gid).graph.participants.get? gid =
      some ((g.participants.get? gid).getD []) := by
  rw [addParticipant]
  cases hknown : g.participants.get? gid with
  | none => simp [SortedMap.contains, hknown]
  | some nodes => simp [SortedMap.contains, hknown]

theorem get?_addParticipant_of_ne (g : Graph) {gid other : Gid} (h : other ≠ gid) :
    (g.addParticipant gid).graph.participants.get? other = g.participants.get? other := by
  rw [addParticipant]
  split_ifs
  · rfl
  · exact get?_setNodes_of_ne g h []

@[simp] theorem get?_removeParticipant_self (g : Graph) (gid : Gid) :
    (g.removeParticipant gid).graph.participants.get? gid = none := by
  rw [removeParticipant]
  cases hknown : g.participants.get? gid with
  | none => simp [SortedMap.contains, hknown]
  | some nodes => simp [SortedMap.contains, hknown]

theorem get?_removeParticipant_of_ne (g : Graph) {gid other : Gid} (h : other ≠ gid) :
    (g.removeParticipant gid).graph.participants.get? other = g.participants.get? other := by
  rw [removeParticipant]
  split_ifs
  · exact SortedMap.get?_erase_of_ne _ h
  · rfl

/-- A participant is removed if it was known. -/
theorem answer_removeParticipant (g : Graph) (gid : Gid) :
    (g.removeParticipant gid).answer = (g.participants.get? gid).isSome := by
  rw [removeParticipant]
  split_ifs with hknown
  · exact hknown.symm
  · simpa [SortedMap.contains] using hknown

/-- A participant that announces no nodes is forgotten. -/
theorem get?_announce_self (g : Graph) (a : Announcement) :
    (g.announce a).graph.participants.get? a.participant =
      if a.nodes = [] then none else some a.nodes := by
  rw [announce]
  dsimp only
  split_ifs <;> simp

theorem get?_announce_of_ne (g : Graph) {a : Announcement} {other : Gid} (h : other ≠ a.participant) :
    (g.announce a).graph.participants.get? other = g.participants.get? other := by
  rw [announce]
  dsimp only
  split_ifs
  · exact SortedMap.get?_erase_of_ne _ h
  · exact get?_setNodes_of_ne g h a.nodes

theorem participants_setEndpoints (g : Graph) (kind : EndpointKind) (m : SortedMap Gid EndpointRecord) :
    (g.setEndpoints kind m).participants = g.participants := by
  cases kind <;> rfl

theorem participants_addEndpoint (g : Graph) (kind : EndpointKind) (endpoint : Gid) (r : EndpointRecord) :
    (g.addEndpoint kind endpoint r).graph.participants = g.participants := by
  rw [addEndpoint]
  split_ifs
  · rfl
  · exact participants_setEndpoints g kind _

theorem participants_removeEndpoint (g : Graph) (kind : EndpointKind) (endpoint : Gid) :
    (g.removeEndpoint kind endpoint).graph.participants = g.participants := by
  rw [removeEndpoint]
  split_ifs
  · exact participants_setEndpoints g kind _
  · rfl

/-- An announcement sets the node list of its participant. -/
theorem nodesOf_announce (g : Graph) (a : Announcement) (gid : Gid) :
    (g.announce a).graph.nodesOf gid = if gid = a.participant then a.nodes else g.nodesOf gid := by
  by_cases hgid : gid = a.participant
  · subst hgid
    rw [nodesOf, get?_announce_self, if_pos rfl]
    split_ifs with hempty
    · simp [hempty]
    · rfl
  · rw [nodesOf, get?_announce_of_ne g hgid, if_neg hgid, nodesOf]

/-- A participant is added without nodes. -/
theorem nodesOf_addParticipant (g : Graph) (p gid : Gid) :
    (g.addParticipant p).graph.nodesOf gid = g.nodesOf gid := by
  by_cases hgid : gid = p
  · subst hgid
    simp [nodesOf]
  · rw [nodesOf, get?_addParticipant_of_ne g hgid, nodesOf]

theorem nodesOf_addEndpoint (g : Graph) (kind : EndpointKind) (endpoint : Gid) (r : EndpointRecord)
    (gid : Gid) : (g.addEndpoint kind endpoint r).graph.nodesOf gid = g.nodesOf gid := by
  rw [nodesOf, participants_addEndpoint, nodesOf]

theorem nodesOf_removeEndpoint (g : Graph) (kind : EndpointKind) (endpoint gid : Gid) :
    (g.removeEndpoint kind endpoint).graph.nodesOf gid = g.nodesOf gid := by
  rw [nodesOf, participants_removeEndpoint, nodesOf]

/-- The participants that host a node. -/
def populated (g : Graph) : List (Gid × List HostedNode) := g.participants.entries.filter (·.2 ≠ [])

theorem mem_populated {gid : Gid} {nodes : List HostedNode} :
    (gid, nodes) ∈ g.populated ↔ g.nodesOf gid = nodes ∧ nodes ≠ [] := by
  rw [populated, List.mem_filter, SortedMap.mem_entries_iff, nodesOf]
  cases g.participants.get? gid with
  | none => simp only [Option.getD_none, reduceCtorEq, false_and, false_iff]; exact fun h => h.2 h.1.symm
  | some known => simp

theorem nodes_eq_populated (g : Graph) : g.nodes = (g.populated.map (·.2)).flatten := by
  rw [nodes, SortedMap.values, populated]
  induction g.participants.entries with
  | nil => rfl
  | cons e rest ih => by_cases he : e.2 = [] <;> simp [he, ih]

theorem endpointCount_eq_of_endpoints {kind : EndpointKind}
    (hends : g.endpoints kind = h.endpoints kind) (topic : String) :
    g.endpointCount kind topic = h.endpointCount kind topic := by
  rw [endpointCount, endpointCount, onTopic, onTopic, hends]

section Agree
variable (hnodes : ∀ gid, g.nodesOf gid = h.nodesOf gid)
include hnodes

theorem nodes_eq_of_nodesOf : g.nodes = h.nodes := by
  have hpopulated : g.populated = h.populated := by
    refine SortedMap.entries_eq_of_mem_iff (g.participants.sorted.filter _)
      (h.participants.sorted.filter _) fun (gid, nodes) => ?_
    rw [mem_populated, mem_populated, hnodes]
  rw [nodes_eq_populated, nodes_eq_populated, hpopulated]

theorem nodeCount_eq_of_nodesOf : g.nodeCount = h.nodeCount := by
  rw [nodeCount, nodeCount, nodes_eq_of_nodesOf hnodes]

theorem nodeNames_eq_of_nodesOf : g.nodeNames = h.nodeNames := by
  rw [nodeNames, nodeNames, nodes_eq_of_nodesOf hnodes]

theorem namesAndTypesOf_eq_of_nodesOf {kind : EndpointKind} (hends : g.endpoints kind = h.endpoints kind)
    (id : NodeName) (d : Demangling) : g.namesAndTypesOf kind id d = h.namesAndTypesOf kind id d := by
  have hnode : g.node? id = h.node? id := by rw [node?, node?, nodes_eq_of_nodesOf hnodes]
  have hrecords (n : HostedNode) : g.recordsOf kind n = h.recordsOf kind n := by
    rw [recordsOf, recordsOf, hends]
  simp only [namesAndTypesOf, hnode, hrecords]

theorem ownerName_eq_of_nodesOf (participant : Gid) (kind : EndpointKind) (gid : Gid) :
    g.ownerName participant kind gid = h.ownerName participant kind gid := by
  have hp := hnodes participant
  rw [nodesOf, nodesOf] at hp
  rw [ownerName, ownerName, owner?, owner?, hp]

theorem endpointsInfo_eq_of_nodesOf {kind : EndpointKind} (hends : g.endpoints kind = h.endpoints kind)
    (topic : String) (showType : String → String) :
    g.endpointsInfo kind topic showType = h.endpointsInfo kind topic showType := by
  simp only [endpointsInfo, onTopic, hends, ownerName_eq_of_nodesOf hnodes]

end Agree

end RosGraph.Graph
