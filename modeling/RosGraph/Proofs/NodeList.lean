import RosGraph.Lifecycle
import Mathlib.Tactic.SplitIfs

/-! Node lists under the changes of a call. A change of an endpoint needs its node
and keeps the names of all nodes, so that the changes of one call all go through
or the first of them is refused. -/

namespace RosGraph

namespace HostedNode

@[simp] theorem id_modifyEndpoints (n : HostedNode) (kind : EndpointKind) (f : List Gid → List Gid) :
    (n.modifyEndpoints kind f).id = n.id := by
  cases kind <;> rfl

end HostedNode

namespace NodeChange

theorem modifyFirst?_eq_none_iff {node : NodeName} {f : HostedNode → HostedNode}
    {nodes : List HostedNode} : modifyFirst? node f nodes = none ↔ ∀ n ∈ nodes, n.id ≠ node := by
  induction nodes with
  | nil => simp [modifyFirst?]
  | cons n rest ih =>
    rw [modifyFirst?]
    split_ifs with h
    · simp [h]
    · simp [ih, h]

/-- Names are kept by a modification that keeps the name of each node. -/
theorem ids_modifyFirst? {node : NodeName} {f : HostedNode → HostedNode} (hf : ∀ n, (f n).id = n.id)
    {nodes nodes' : List HostedNode} (h : modifyFirst? node f nodes = some nodes') :
    nodes'.map (·.id) = nodes.map (·.id) := by
  induction nodes generalizing nodes' with
  | nil => simp [modifyFirst?] at h
  | cons n rest ih =>
    rw [modifyFirst?] at h
    split_ifs at h with hn
    · obtain rfl := Option.some.inj h
      simp [hf]
    · obtain ⟨rest', hrest, rfl⟩ := Option.map_eq_some_iff.1 h
      simp [ih hrest]

/-- The first node of the name is modified, and no other node is. -/
theorem find?_modifyFirst? {node : NodeName} {f : HostedNode → HostedNode} (hf : ∀ n, (f n).id = n.id)
    {nodes nodes' : List HostedNode} (h : modifyFirst? node f nodes = some nodes') (id : NodeName) :
    nodes'.find? (·.id = id) =
      if id = node then (nodes.find? (·.id = node)).map f else nodes.find? (·.id = id) := by
  induction nodes generalizing nodes' with
  | nil => simp [modifyFirst?] at h
  | cons n rest ih =>
    rw [modifyFirst?] at h
    split_ifs at h with hn
    · obtain rfl := Option.some.inj h
      by_cases hid : id = node
      · subst hid
        simp [hf, hn]
      · have hother : ¬ n.id = id := fun heq => hid (heq.symm.trans hn)
        simp [hf, hid, hother]
    · obtain ⟨rest', hrest, rfl⟩ := Option.map_eq_some_iff.1 h
      have hfind := ih hrest
      by_cases hhead : n.id = id
      · have hid : ¬ id = node := fun heq => hn (hhead.trans heq)
        simp [hhead, hid]
      · simp [hhead, hn, hfind]

/-- The change is one of an endpoint, and so needs its node. -/
def NeedsNode : NodeChange → Prop
  | add | remove => False
  | associate .. | dissociate .. => True

theorem nodesAfter?_eq_none_iff {node : NodeName} {nodes : List HostedNode} {change : NodeChange} :
    change.nodesAfter? node nodes = none ↔ change.NeedsNode ∧ ∀ n ∈ nodes, n.id ≠ node := by
  cases change <;> simp [nodesAfter?, NeedsNode, modifyFirst?_eq_none_iff]

theorem NeedsNode.ids_nodesAfter? {node : NodeName} {nodes nodes' : List HostedNode} {change : NodeChange}
    (hc : change.NeedsNode) (h : change.nodesAfter? node nodes = some nodes') :
    nodes'.map (·.id) = nodes.map (·.id) := by
  cases change with
  | add => exact hc.elim
  | remove => exact hc.elim
  | associate kind gid => exact ids_modifyFirst? (fun n => n.id_modifyEndpoints kind _) h
  | dissociate kind gid => exact ids_modifyFirst? (fun n => n.id_modifyEndpoints kind _) h

/-- The node list after several changes, or nothing if one of them needs a node that
is not there. -/
def nodesAfterAll? (node : NodeName) : List NodeChange → List HostedNode → Option (List HostedNode)
  | [], nodes => some nodes
  | change :: rest, nodes => (change.nodesAfter? node nodes).bind (nodesAfterAll? node rest)

/-- Several changes of the endpoints of a node all go through if the node is there. -/
theorem nodesAfterAll?_ne_none {node : NodeName} {changes : List NodeChange}
    (hc : ∀ change ∈ changes, change.NeedsNode) {nodes : List HostedNode}
    (h : ∃ n ∈ nodes, n.id = node) : nodesAfterAll? node changes nodes ≠ none := by
  induction changes generalizing nodes with
  | nil => simp [nodesAfterAll?]
  | cons change rest ih =>
    cases hafter : change.nodesAfter? node nodes with
    | none =>
      obtain ⟨n, hn, hid⟩ := h
      exact absurd hid ((nodesAfter?_eq_none_iff.1 hafter).2 n hn)
    | some nodes' =>
      rw [nodesAfterAll?, hafter]
      refine ih (fun c hm => hc c (List.mem_cons_of_mem _ hm)) ?_
      have hids := (hc change List.mem_cons_self).ids_nodesAfter? hafter
      have hmem : node ∈ nodes'.map (·.id) := by rw [hids]; simpa using h
      simpa using hmem

end NodeChange

namespace Lifecycle

open NodeChange

/-- The changes of a call: one of the node as a whole, or some of its endpoints. -/
theorem Call.changes_cases (c : Call) :
    c.changes = [.add] ∨ c.changes = [.remove] ∨
      (c.changes ≠ [] ∧ ∀ change ∈ c.changes, change.NeedsNode) := by
  obtain ⟨kind, subject, node⟩ := c
  cases subject <;> cases kind <;> simp [Call.changes, Subject.endpoints, NeedsNode]

theorem Call.changes_ne_nil (c : Call) : c.changes ≠ [] := by
  rcases c.changes_cases with h | h | h <;> simp [h]

/-- All changes of a call that is not about a node as a whole need the node. -/
theorem Call.needsNode_of_ne_node {c : Call} (h : c.subject ≠ .node) :
    ∀ change ∈ c.changes, change.NeedsNode := by
  obtain ⟨kind, subject, node⟩ := c
  cases subject <;> cases kind <;> simp_all [Call.changes, Subject.endpoints, NeedsNode]

/-- A call that its node list does not allow is refused by its first change. -/
theorem Call.first_refused {c : Call} {nodes : List HostedNode}
    (h : nodesAfterAll? c.node c.changes nodes = none) :
    ∃ change rest, c.changes = change :: rest ∧ change.nodesAfter? c.node nodes = none := by
  rcases c.changes_cases with hc | hc | ⟨hne, hc⟩
  · simp [hc, nodesAfterAll?, nodesAfter?] at h
  · simp [hc, nodesAfterAll?, nodesAfter?] at h
  · obtain ⟨change, rest, heq⟩ := List.exists_cons_of_ne_nil hne
    have hneeds : change.NeedsNode := hc change (by simp [heq])
    refine ⟨change, rest, heq, nodesAfter?_eq_none_iff.2 ⟨hneeds, fun n hn hid => ?_⟩⟩
    exact nodesAfterAll?_ne_none hc ⟨n, hn, hid⟩ h

/-- A call is not allowed if it is about the endpoints of a node that is not there. -/
theorem Call.nodesAfterAll?_eq_none_iff {c : Call} {nodes : List HostedNode} :
    nodesAfterAll? c.node c.changes nodes = none ↔
      c.subject ≠ .node ∧ ∀ n ∈ nodes, n.id ≠ c.node := by
  constructor
  · intro h
    obtain ⟨change, rest, hc, hnone⟩ := Call.first_refused h
    obtain ⟨hneeds, habsent⟩ := nodesAfter?_eq_none_iff.1 hnone
    refine ⟨fun hsubject => ?_, habsent⟩
    obtain ⟨kind, subject, node⟩ := c
    subst hsubject
    cases kind <;> obtain ⟨rfl, -⟩ := List.cons.inj hc <;> exact hneeds
  · rintro ⟨hsubject, habsent⟩
    have hneeds := needsNode_of_ne_node hsubject
    obtain ⟨change, rest, hc⟩ := List.exists_cons_of_ne_nil c.changes_ne_nil
    rw [hc, nodesAfterAll?, nodesAfter?_eq_none_iff.2 ⟨hneeds change (by simp [hc]), habsent⟩]
    rfl

end Lifecycle

end RosGraph
