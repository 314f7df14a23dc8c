import RosGraph.Gid
import RosGraph.NodeName

/-! Breaches of the contract of the graph: a local participant or node is named
in a call before it was added. -/

namespace RosGraph

inductive Violation
  | unknownParticipant (participant : Gid)
  | unknownNode (node : NodeName) (participant : Gid)
deriving DecidableEq, Repr

def Violation.message : Violation → String
  | unknownParticipant participant =>
    s!"participant {participant} was never added to the graph"
  | unknownNode node participant =>
    s!"node '{node.name}' in namespace '{node.ns}' was never added to participant {participant}"

end RosGraph
