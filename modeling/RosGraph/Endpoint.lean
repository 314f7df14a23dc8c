import RosGraph.Gid
import RosGraph.Qos.Profile

/-! Readers and writers: the record that discovery makes of one, and the answer
to a question about one, which names the node that owns it. -/

namespace RosGraph

inductive EndpointKind
  | writer
  | reader
deriving DecidableEq, Repr

namespace EndpointKind

def text : EndpointKind → String
  | writer => "writer"
  | reader => "reader"

/-- What an endpoint of the kind does on its topic. -/
def role : EndpointKind → String
  | writer => "publisher"
  | reader => "subscription"

end EndpointKind

structure EndpointRecord where
  topic : String
  type : String
  participant : Gid
  qos : Qos.Profile
deriving DecidableEq, Repr

structure EndpointInfo where
  nodeName : String
  nodeNs : String
  type : String
  kind : EndpointKind
  gid : Gid
  qos : Qos.Profile
deriving DecidableEq, Repr

end RosGraph
