import RosGraph.Endpoint
import RosGraph.NodeName

/-! What a participant tells its peers: the nodes that it hosts, each with the
readers and writers that it owns. -/

namespace RosGraph

structure HostedNode where
  id : NodeName
  readers : List Gid := []
  writers : List Gid := []
deriving DecidableEq, Repr, Inhabited

namespace HostedNode

def endpoints (n : HostedNode) : EndpointKind → List Gid
  | .writer => n.writers
  | .reader => n.readers

def modifyEndpoints (n : HostedNode) (kind : EndpointKind) (f : List Gid → List Gid) : HostedNode :=
  match kind with
  | .writer => { n with writers := f n.writers }
  | .reader => { n with readers := f n.readers }

end HostedNode

structure Announcement where
  participant : Gid
  nodes : List HostedNode
deriving DecidableEq, Repr, Inhabited

/-- The first node of a name and namespace. -/
def Announcement.node? (a : Announcement) (id : NodeName) : Option HostedNode :=
  a.nodes.find? (·.id = id)

end RosGraph
