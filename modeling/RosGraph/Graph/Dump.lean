import RosGraph.Graph.Basic

/-! The graph as a text to read. -/

namespace RosGraph.Graph

def endpointLine (e : Gid × EndpointRecord) : String :=
  s!"    gid: '{e.1}', topic name: '{e.2.topic}', topic_type: '{e.2.type}'\n"

def gidLine (gid : Gid) : String := s!"        {gid}\n"

def nodeLines (n : HostedNode) : List String :=
  [s!"      namespace: '{n.id.ns}' name: '{n.id.name}'\n",
    "      associated data readers gids:\n"] ++ n.readers.map gidLine ++
  ["      associated data writers gids:\n"] ++ n.writers.map gidLine

def participantLines (e : Gid × List HostedNode) : List String :=
  [s!"    gid: '{e.1}'\n", "    nodes:\n"] ++ e.2.flatMap nodeLines

def rule : String := "---------------------------------\n"

def dump (g : Graph) : String :=
  String.join ([rule, "Graph cache:\n", "  Discovered data writers:\n"] ++
    g.writers.entries.map endpointLine ++ ["  Discovered data readers:\n"] ++
    g.readers.entries.map endpointLine ++ ["  Discovered participants:\n"] ++
    g.participants.entries.flatMap participantLines ++ [rule])

end RosGraph.Graph
