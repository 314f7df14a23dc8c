import RosGraph.Announcement
import RosGraph.Log
import RosGraph.SortedMap
import RosGraph.Violation

/-! The known graph: the writers and readers that discovery reported, and the
nodes that each participant announced. Nodes name their endpoints by identifier
only; an endpoint that a node names need not be known, nor the other way round.

A mutation is a value. Applying one gives its effect: the new graph, an answer,
the log records and whether there is a change to tell of. -/

namespace RosGraph

structure Graph where
  writers : SortedMap Gid EndpointRecord := ∅
  readers : SortedMap Gid EndpointRecord := ∅
  participants : SortedMap Gid (List HostedNode) := ∅
deriving DecidableEq, Inhabited

/-- What becomes of one node in the list of its participant. -/
inductive NodeChange
  | add
  | remove
  | associate (kind : EndpointKind) (endpoint : Gid)
  | dissociate (kind : EndpointKind) (endpoint : Gid)
deriving DecidableEq, Repr

inductive Mutation
  | addEndpoint (kind : EndpointKind) (gid : Gid) (record : EndpointRecord)
  | removeEndpoint (kind : EndpointKind) (gid : Gid)
  | addParticipant (gid : Gid)
  | removeParticipant (gid : Gid)
  | announce (message : Announcement)
  | changeNode (participant : Gid) (node : NodeName) (change : NodeChange)
deriving DecidableEq, Repr

inductive Answer
  | done
  | flag (b : Bool)
  | snapshot (message : Announcement)
deriving DecidableEq, Repr

/-- What a mutation leads to. -/
structure Effect (α : Type) where
  graph : Graph
  answer : α
  log : List Log.Record := []
  notifies : Bool := false

namespace NodeChange

/-- Modify the first node of a name, if there is one. -/
def modifyFirst? (node : NodeName) (f : HostedNode → HostedNode) :
    List HostedNode → Option (List HostedNode)
  | [] => none
  | n :: rest =>
    if n.id = node then some (f n :: rest) else (modifyFirst? node f rest).map (n :: ·)

/-- The node list after the change, or nothing if it needs a node that is not there. -/
def nodesAfter? (node : NodeName) (nodes : List HostedNode) : NodeChange → Option (List HostedNode)
  | add => some (nodes ++ [{ id := node }])
  | remove => some (nodes.filter (·.id ≠ node))
  | associate kind gid => modifyFirst? node (·.modifyEndpoints kind (· ++ [gid])) nodes
  | dissociate kind gid => modifyFirst? node (·.modifyEndpoints kind (·.erase gid)) nodes

/-- Listeners are told of every change but the removal of a node that is not there. -/
def notifies (node : NodeName) (nodes : List HostedNode) : NodeChange → Bool
  | remove => nodes.any (·.id = node)
  | _ => true

def log (participant : Gid) (node : NodeName) (nodes : List HostedNode) : NodeChange → Log.Record
  | add =>
    ⟨.debug, s!"[graph] add node ns='{node.ns}' name='{node.name}' to participant {participant}"⟩
  | remove =>
    if nodes.any (·.id = node) then
      ⟨.debug, s!"[graph] remove node ns='{node.ns}' name='{node.name}' from participant {participant}"⟩
    else
      ⟨.warn, s!"[graph] remove_node: node ns='{node.ns}' name='{node.name}' not found in participant {participant}"⟩
  | associate kind gid =>
    ⟨.debug, s!"[graph] associate {kind.text} {gid} with node ns='{node.ns}' name='{node.name}'"⟩
  | dissociate kind gid =>
    ⟨.debug, s!"[graph] dissociate {kind.text} {gid} from node ns='{node.ns}' name='{node.name}'"⟩

end NodeChange

namespace Graph

def empty : Graph := {}

def endpoints (g : Graph) : EndpointKind → SortedMap Gid EndpointRecord
  | .writer => g.writers
  | .reader => g.readers

def setEndpoints (g : Graph) (kind : EndpointKind) (m : SortedMap Gid EndpointRecord) : Graph :=
  match kind with
  | .writer => { g with writers := m }
  | .reader => { g with readers := m }

/-- The nodes of a participant, as it would announce them. -/
def participant? (g : Graph) (gid : Gid) : Option Announcement :=
  (g.participants.get? gid).map (⟨gid, ·⟩)

/-- Set the node list of a participant and keep it even if it is empty. -/
def setNodes (g : Graph) (gid : Gid) (nodes : List HostedNode) : Graph :=
  { g with participants := g.participants.insert gid nodes }

/-- The first record of an endpoint stays. -/
def addEndpoint (g : Graph) (kind : EndpointKind) (gid : Gid) (r : EndpointRecord) : Effect Bool :=
  if (g.endpoints kind).contains gid then { graph := g, answer := false }
  else {
    graph := g.setEndpoints kind ((g.endpoints kind).insert gid r)
    answer := true
    log := [⟨.debug, s!"[graph] add {kind.text} {gid} topic='{r.topic}' type='{r.type}' participant={r.participant}"⟩]
    notifies := true }

def removeEndpoint (g : Graph) (kind : EndpointKind) (gid : Gid) : Effect Bool :=
  if (g.endpoints kind).contains gid then {
    graph := g.setEndpoints kind ((g.endpoints kind).erase gid)
    answer := true
    log := [⟨.debug, s!"[graph] remove {kind.text} {gid}"⟩]
    notifies := true }
  else { graph := g, answer := false }

/-- A known participant keeps its nodes. -/
def addParticipant (g : Graph) (gid : Gid) : Effect Unit :=
  if g.participants.contains gid then { graph := g, answer := () }
  else {
    graph := g.setNodes gid []
    answer := ()
    log := [⟨.debug, s!"[graph] add participant {gid}"⟩]
    notifies := true }

def removeParticipant (g : Graph) (gid : Gid) : Effect Bool :=
  if g.participants.contains gid then {
    graph := { g with participants := g.participants.erase gid }
    answer := true
    log := [⟨.debug, s!"[graph] remove participant {gid}"⟩]
    notifies := true }
  else { graph := g, answer := false }

/-- An announcement replaces what was known of its participant; one without
nodes removes it. -/
def announce (g : Graph) (a : Announcement) : Effect Unit where
  graph :=
    if a.nodes = [] then { g with participants := g.participants.erase a.participant }
    else g.setNodes a.participant a.nodes
  answer := ()
  log := [⟨.debug, s!"[graph] participant {a.participant} announced {a.nodes.length} node(s)"⟩]
  notifies := true

/-- Change one node of a local participant; the answer is the new node list. -/
def changeNode (g : Graph) (gid : Gid) (node : NodeName) (change : NodeChange) :
    Except Violation (Effect Announcement) :=
  match g.participants.get? gid with
  | none => .error (.unknownParticipant gid)
  | some nodes => match change.nodesAfter? node nodes with
    | none => .error (.unknownNode node gid)
    | some nodes' => .ok {
        graph := g.setNodes gid nodes'
        answer := ⟨gid, nodes'⟩
        log := [change.log gid node nodes]
        notifies := change.notifies node nodes }

end Graph

namespace Effect

variable {α β : Type}

def map (f : α → β) (e : Effect α) : Effect β := ⟨e.graph, f e.answer, e.log, e.notifies⟩

end Effect

/-- Apply a mutation, unless it breaks the contract of the graph. -/
def Mutation.apply (g : Graph) : Mutation → Except Violation (Effect Answer)
  | addEndpoint kind gid r => .ok ((g.addEndpoint kind gid r).map .flag)
  | removeEndpoint kind gid => .ok ((g.removeEndpoint kind gid).map .flag)
  | addParticipant gid => .ok ((g.addParticipant gid).map fun _ => .done)
  | removeParticipant gid => .ok ((g.removeParticipant gid).map .flag)
  | announce a => .ok ((g.announce a).map fun _ => .done)
  | changeNode gid node change => (g.changeNode gid node change).map (·.map .snapshot)

theorem Mutation.apply_changeNode (g : Graph) (gid : Gid) (node : NodeName) (change : NodeChange) :
    (changeNode gid node change).apply g = match g.participants.get? gid with
      | none => .error (.unknownParticipant gid)
      | some nodes => match change.nodesAfter? node nodes with
        | none => .error (.unknownNode node gid)
        | some nodes' => .ok {
            graph := g.setNodes gid nodes'
            answer := .snapshot ⟨gid, nodes'⟩
            log := [change.log gid node nodes]
            notifies := change.notifies node nodes } := by
  rw [apply, Graph.changeNode]
  cases g.participants.get? gid with
  | none => rfl
  | some nodes =>
    dsimp only
    cases change.nodesAfter? node nodes <;> rfl

end RosGraph
