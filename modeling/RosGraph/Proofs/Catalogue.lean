import RosGraph.Proofs.NodeList
import Mathlib.Algebra.Order.Group.Multiset
import Mathlib.Data.List.Infix
import Mathlib.Logic.Function.Basic

/-! A catalogue says which nodes there are, in the order of their creation, and of each how
often it owns which readers and writers. It is what a node list is meant to tell. A call that
is announced does to the catalogue what its name says; what it does to the node list reads as
the same, as long as no node is created twice. -/

namespace RosGraph

open Lifecycle NodeChange

/-- Readers and writers, each as often as it is owned. -/
@[ext] structure Bags where
  readers : Multiset Gid := 0
  writers : Multiset Gid := 0

namespace Bags

/-- One copy more of each. -/
def gain (b more : Bags) : Bags := ⟨b.readers + more.readers, b.writers + more.writers⟩

/-- One copy less of each that is there. -/
def lose (b less : Bags) : Bags := ⟨b.readers - less.readers, b.writers - less.writers⟩

def single (gid : Gid) : EndpointKind → Bags
  | .writer => { writers := {gid} }
  | .reader => { readers := {gid} }

end Bags

/-- The endpoints of a subject. A client sends requests and takes in responses; a service
does the reverse. -/
def Lifecycle.Subject.bags : Subject → Bags
  | node => {}
  | subscription reader => { readers := {reader} }
  | publisher writer => { writers := {writer} }
  | client request response => { readers := {response}, writers := {request} }
  | service request response => { readers := {request}, writers := {response} }

def HostedNode.bags (n : HostedNode) : Bags := ⟨n.readers, n.writers⟩

structure Catalogue where
  /-- The names of the nodes, oldest first. -/
  order : List NodeName := []
  bags : NodeName → Option Bags := fun _ => none

namespace Catalogue

/-- Change what a node owns, if it is there. -/
def amend (c : Catalogue) (node : NodeName) (f : Bags → Bags) : Catalogue :=
  { c with bags := Function.update c.bags node ((c.bags node).map f) }

/-- What a call is for. -/
def step (c : Catalogue) (call : Call) : Catalogue :=
  match call.kind, call.subject with
  | .creation, .node => ⟨c.order ++ [call.node], Function.update c.bags call.node (some {})⟩
  | .destruction, .node => ⟨c.order.filter (· ≠ call.node), Function.update c.bags call.node none⟩
  | .creation, subject => c.amend call.node (·.gain subject.bags)
  | .destruction, subject => c.amend call.node (·.lose subject.bags)

def ofCalls (calls : List Call) : Catalogue := calls.foldl step {}

/-- What a node list tells. -/
def ofNodes (nodes : List HostedNode) : Catalogue where
  order := nodes.map (·.id)
  bags id := (nodes.find? (·.id = id)).map (·.bags)

theorem ofCalls_append_one (calls : List Call) (call : Call) :
    ofCalls (calls ++ [call]) = (ofCalls calls).step call := by
  rw [ofCalls, List.foldl_append]
  rfl

theorem bags_ofNodes_eq_none_iff {nodes : List HostedNode} {id : NodeName} :
    (ofNodes nodes).bags id = none ↔ ∀ n ∈ nodes, n.id ≠ id := by
  simp [ofNodes]

theorem amend_amend (c : Catalogue) (node : NodeName) (f g : Bags → Bags) :
    (c.amend node f).amend node g = c.amend node (g ∘ f) := by
  simp [amend, Option.map_map]

theorem amend_id (c : Catalogue) (node : NodeName) : c.amend node id = c := by
  simp [amend]

end Catalogue

namespace NodeChange

/-- What a change of an endpoint does to what its node owns. -/
def onBags : NodeChange → Bags → Bags
  | associate kind gid, b => b.gain (.single gid kind)
  | dissociate kind gid, b => b.lose (.single gid kind)
  | _, b => b

theorem bags_associate (n : HostedNode) (kind : EndpointKind) (gid : Gid) :
    (n.modifyEndpoints kind (· ++ [gid])).bags = n.bags.gain (.single gid kind) := by
  cases kind <;> ext1 <;>
    simp [HostedNode.modifyEndpoints, HostedNode.bags, Bags.gain, Bags.single, ← Multiset.coe_add]

theorem bags_dissociate (n : HostedNode) (kind : EndpointKind) (gid : Gid) :
    (n.modifyEndpoints kind (·.erase gid)).bags = n.bags.lose (.single gid kind) := by
  cases kind <;> ext1 <;> simp [HostedNode.modifyEndpoints, HostedNode.bags, Bags.lose, Bags.single]

end NodeChange

namespace Catalogue

variable {node : NodeName} {nodes nodes' : List HostedNode}

theorem ofNodes_modifyFirst? {f : HostedNode → HostedNode} {F : Bags → Bags}
    (hid : ∀ n, (f n).id = n.id) (hbags : ∀ n, (f n).bags = F n.bags)
    (h : modifyFirst? node f nodes = some nodes') :
    ofNodes nodes' = (ofNodes nodes).amend node F := by
  have horder := ids_modifyFirst? hid h
  have hfind := find?_modifyFirst? hid h
  rw [amend, ofNodes, ofNodes, horder]
  congr 1
  funext id
  rw [hfind]
  by_cases heq : id = node
  · subst heq
    simp [Option.map_map, Function.comp_def, hbags]
  · simp [heq]

theorem ofNodes_of_needsNode {change : NodeChange} (hc : change.NeedsNode)
    (h : change.nodesAfter? node nodes = some nodes') :
    ofNodes nodes' = (ofNodes nodes).amend node change.onBags := by
  cases change with
  | add => exact hc.elim
  | remove => exact hc.elim
  | associate kind gid =>
    exact ofNodes_modifyFirst? (fun n => n.id_modifyEndpoints kind _) (bags_associate · kind gid) h
  | dissociate kind gid =>
    exact ofNodes_modifyFirst? (fun n => n.id_modifyEndpoints kind _) (bags_dissociate · kind gid) h

/-- Changes of the endpoints of one node add up. -/
theorem ofNodes_of_all_needNode {changes : List NodeChange}
    (hc : ∀ change ∈ changes, change.NeedsNode)
    (h : nodesAfterAll? node changes nodes = some nodes') :
    ofNodes nodes' = (ofNodes nodes).amend node fun b => changes.foldl (fun b c => c.onBags b) b := by
  induction changes generalizing nodes with
  | nil =>
    obtain rfl := Option.some.inj h
    exact (amend_id _ _).symm
  | cons change rest ih =>
    obtain ⟨mid, hmid, hrest⟩ := Option.bind_eq_some_iff.1 h
    rw [ih (fun c hm => hc c (List.mem_cons_of_mem _ hm)) hrest,
      ofNodes_of_needsNode (hc change List.mem_cons_self) hmid, amend_amend]
    rfl

theorem ofNodes_append_one (h : ∀ n ∈ nodes, n.id ≠ node) :
    ofNodes (nodes ++ [{ id := node }]) =
      ⟨(ofNodes nodes).order ++ [node], Function.update (ofNodes nodes).bags node (some {})⟩ := by
  simp only [ofNodes, List.map_append, List.map_cons, List.map_nil]
  congr 1
  funext id
  rw [List.find?_append]
  by_cases heq : id = node
  · subst heq
    have hnone : nodes.find? (·.id = id) = none := by simpa using h
    simp [hnone, HostedNode.bags]
  · have hother : ¬ node = id := fun h => heq h.symm
    simp [heq, hother]

theorem ofNodes_filter (node : NodeName) (nodes : List HostedNode) :
    ofNodes (nodes.filter (·.id ≠ node)) =
      ⟨(ofNodes nodes).order.filter (· ≠ node), Function.update (ofNodes nodes).bags node none⟩ := by
  simp only [ofNodes, List.filter_map]
  congr 1
  funext id
  rw [List.find?_filter]
  by_cases heq : id = node
  · subst heq
    simp
  · have hsame (n : HostedNode) :
        (!decide (n.id = node) && decide (n.id = id)) = decide (n.id = id) := by
      by_cases h : n.id = id <;> simp [h, heq]
    simp [heq, hsame]

/-- What a call makes of a node list tells what the call is for. -/
theorem ofNodes_of_call {c : Call} (hnew : c.kind = .creation → c.subject = .node →
      ∀ n ∈ nodes, n.id ≠ c.node)
    (h : nodesAfterAll? c.node c.changes nodes = some nodes') :
    ofNodes nodes' = (ofNodes nodes).step c := by
  obtain ⟨kind, subject, node⟩ := c
  by_cases hsubject : subject = .node
  · subst hsubject
    cases kind with
    | creation =>
      have hafter : some (nodes ++ [{ id := node }]) = some nodes' := h
      obtain rfl := Option.some.inj hafter
      exact ofNodes_append_one (hnew rfl rfl)
    | destruction =>
      have hafter : some (nodes.filter (·.id ≠ node)) = some nodes' := h
      obtain rfl := Option.some.inj hafter
      exact ofNodes_filter node nodes
  · rw [ofNodes_of_all_needNode (Call.needsNode_of_ne_node hsubject) h]
    cases kind <;> cases subject <;> first
      | exact absurd rfl hsubject
      | simp [step, Call.changes, Subject.endpoints, Subject.bags, onBags, Bags.gain, Bags.lose, Bags.single]

/-- Names that occur once occur once after a call, if it does not create a node twice. -/
theorem nodup_of_call {c : Call} (hnew : c.kind = .creation → c.subject = .node →
      ∀ n ∈ nodes, n.id ≠ c.node)
    (h : nodesAfterAll? c.node c.changes nodes = some nodes') (hnodup : (nodes.map (·.id)).Nodup) :
    (nodes'.map (·.id)).Nodup := by
  have horder : nodes'.map (·.id) = ((ofNodes nodes).step c).order :=
    congrArg order (ofNodes_of_call hnew h)
  rw [horder, step]
  split
  · next hkind hsubject =>
    refine List.nodup_append.2 ⟨hnodup, List.nodup_singleton _, ?_⟩
    intro id hid other hother heq
    obtain rfl := List.mem_singleton.1 hother
    obtain ⟨n, hn, hnode⟩ := List.mem_map.1 hid
    exact hnew hkind hsubject n hn (hnode.trans heq)
  · exact hnodup.filter _
  · exact hnodup
  · exact hnodup

/-- A node is in the catalogue if it was created and not destroyed since. -/
theorem exists_creation_of_mem {calls : List Call} (h : node ∈ (ofCalls calls).order) :
    ∃ past rest, calls = past ++ ⟨.creation, .node, node⟩ :: rest ∧
      ⟨.destruction, .node, node⟩ ∉ rest := by
  induction calls using List.reverseRecOn with
  | nil => cases h
  | append_singleton calls call ih =>
    have hlater (hold : node ∈ (ofCalls calls).order) (hcall : ⟨.destruction, .node, node⟩ ≠ call) :
        ∃ past rest, calls ++ [call] = past ++ ⟨.creation, .node, node⟩ :: rest ∧
          ⟨.destruction, .node, node⟩ ∉ rest := by
      obtain ⟨past, rest, rfl, hrest⟩ := ih hold
      exact ⟨past, rest ++ [call], by simp, by simp [hrest, hcall]⟩
    obtain ⟨kind, subject, id⟩ := call
    rw [ofCalls_append_one] at h
    by_cases hsubject : subject = .node
    · subst hsubject
      cases kind with
      | creation =>
        rcases List.mem_append.1 h with hold | hnew
        · exact hlater hold (by simp)
        · obtain rfl := List.mem_singleton.1 hnew
          exact ⟨calls, [], rfl, List.not_mem_nil⟩
      | destruction =>
        obtain ⟨hold, hne⟩ := List.mem_filter.1 h
        exact hlater hold (by simpa using hne)
    · have hold : node ∈ (ofCalls calls).order := by
        cases kind <;> cases subject <;> first | exact h | exact absurd rfl hsubject
      exact hlater hold (by simp [Ne.symm hsubject])

end Catalogue

end RosGraph
