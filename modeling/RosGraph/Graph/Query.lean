import RosGraph.Graph.Basic
import RosGraph.Error
import RosGraph.Topics

/-! Questions about the graph. Participants and endpoints are visited in the
order of their identifiers, and the nodes of a participant in list order. -/

namespace RosGraph.Graph

variable (g : Graph)

/-- The endpoints on exactly this topic. -/
def onTopic (kind : EndpointKind) (topic : String) : List (Gid × EndpointRecord) :=
  (g.endpoints kind).entries.filter (·.2.topic = topic)

def endpointCount (kind : EndpointKind) (topic : String) : Nat := (g.onTopic kind topic).length

/-- Every hosted node. -/
def nodes : List HostedNode := g.participants.values.flatten

/-- The first hosted node of a name and namespace. -/
def node? (id : NodeName) : Option HostedNode := g.nodes.find? (·.id = id)

/-- The first node of the participant that lists the endpoint. -/
def owner? (participant : Gid) (kind : EndpointKind) (gid : Gid) : Option HostedNode :=
  ((g.participants.get? participant).getD []).find? fun n => gid ∈ n.endpoints kind

/-- What is told of the owner of an endpoint that no node lists. -/
def unknownNode : NodeName := ⟨"_NODE_NAMESPACE_UNKNOWN_", "_NODE_NAME_UNKNOWN_"⟩

def ownerName (participant : Gid) (kind : EndpointKind) (gid : Gid) : NodeName :=
  ((g.owner? participant kind gid).map (·.id)).getD unknownNode

def endpointsInfo (kind : EndpointKind) (topic : String) (showType : String → String) :
    List EndpointInfo :=
  (g.onTopic kind topic).map fun (gid, r) => {
    nodeName := (g.ownerName r.participant kind gid).name
    nodeNs := (g.ownerName r.participant kind gid).ns
    type := showType r.type
    kind
    gid
    qos := r.qos }

def shownAs (records : List EndpointRecord) (d : Demangling) : NamesAndTypes :=
  .collect d (records.map fun r => (r.topic, [r.type]))

def namesAndTypes (d : Demangling) : NamesAndTypes :=
  shownAs (g.readers.values ++ g.writers.values) d

/-- The known endpoints of a kind that a node lists. -/
def recordsOf (kind : EndpointKind) (n : HostedNode) : List EndpointRecord :=
  (n.endpoints kind).filterMap (g.endpoints kind).get?

def namesAndTypesOf (kind : EndpointKind) (id : NodeName) (d : Demangling) :
    Except Error NamesAndTypes :=
  match g.node? id with
  | none => .error (.unknownNode id.name id.ns)
  | some n => .ok (shownAs (g.recordsOf kind n) d)

def nodeCount : Nat := g.nodes.length

def nodeNames : List NodeName := g.nodes.map (·.id)

end RosGraph.Graph
