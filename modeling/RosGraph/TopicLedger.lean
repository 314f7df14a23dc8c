import RosGraph.Gid
import RosGraph.Log
import RosGraph.NodeName
import RosGraph.Topics

/-! A ledger of the topics that nodes use. Every recorded use of a type on a
topic is one occurrence, kept once under its node and once in the total, so a
use recorded twice is withdrawn by two removals. Containers that become empty
are dropped at every level. -/

namespace RosGraph

/-- Topics with their types, one for each occurrence and in order of recording. -/
abbrev Occurrences := SortedMap String (List String)

namespace Occurrences

def add (o : Occurrences) (topic type : String) : Occurrences :=
  o.alter topic fun types => some (types.getD [] ++ [type])

/-- Without the first occurrence of the type on the topic, if there is one. -/
def remove? (o : Occurrences) (topic type : String) : Option Occurrences :=
  let types := (o.get? topic).getD []
  if type ∈ types then
    let rest := types.erase type
    some (o.alter topic fun _ => if rest = [] then none else some rest)
  else none

def line (indent : String) (e : String × List String) : String :=
  indent ++ e.1 ++ ": " ++ ",".intercalate e.2 ++ "\n"

end Occurrences

/-- One use of a type on a topic, by a node of a participant. -/
structure TopicUse where
  participant : Gid
  node : NodeName
  topic : String
  type : String
deriving DecidableEq, Repr

structure TopicLedger where
  total : Occurrences := ∅
  byNode : SortedMap Gid (SortedMap NodeName Occurrences) := ∅
deriving DecidableEq, Inhabited

namespace TopicLedger

def empty : TopicLedger := {}

def record (l : TopicLedger) (u : TopicUse) : TopicLedger where
  total := Occurrences.add l.total u.topic u.type
  byNode := l.byNode.alter u.participant fun nodes =>
    some ((nodes.getD ∅).alter u.node fun topics =>
      some (Occurrences.add (topics.getD ∅) u.topic u.type))

def recordLog (u : TopicUse) : List Log.Record :=
  [⟨.debug, s!"[topic_cache] add topic '{u.topic}' type '{u.type}' for node ns='{u.node.ns}' name='{u.node.name}' of participant {u.participant}"⟩]

/-- How a removal ended. -/
inductive Removal
  | unknownParticipant
  | unknownUse
  | removed
  /-- Removed from its node, though the total did not know of it. -/
  | removedUncounted
deriving DecidableEq, Repr

namespace Removal

def succeeded : Removal → Bool
  | removed | removedUncounted => true
  | unknownParticipant | unknownUse => false

def log (u : TopicUse) : Removal → List Log.Record
  | unknownParticipant =>
    [⟨.warn, s!"[topic_cache] unexpected removal on topic '{u.topic}' with type '{u.type}': unknown participant {u.participant}"⟩]
  | unknownUse =>
    [⟨.warn, s!"[topic_cache] unexpected removal on topic '{u.topic}' with type '{u.type}' for node ns='{u.node.ns}' name='{u.node.name}' of participant {u.participant}"⟩]
  | removed => [done]
  | removedUncounted =>
    [⟨.error, s!"[topic_cache] topic '{u.topic}' type '{u.type}' missing from the global map"⟩, done]
where
  done : Log.Record :=
    ⟨.debug, s!"[topic_cache] removed topic '{u.topic}' type '{u.type}' for participant {u.participant}"⟩

end Removal

/-- The value at a key, which goes with its key if it is empty. -/
def putNonEmpty {κ β γ : Type} [Ord κ] [Std.TransOrd κ] [Std.LawfulEqOrd κ] [Ord γ]
    (m : SortedMap κ (SortedMap γ β)) (k : κ) (v : SortedMap γ β) : SortedMap κ (SortedMap γ β) :=
  m.alter k fun _ => if v.isEmpty then none else some v

/-- Withdraw one use. A use that was not recorded changes nothing. -/
def remove (l : TopicLedger) (u : TopicUse) : Removal × TopicLedger :=
  match l.byNode.get? u.participant with
  | none => (.unknownParticipant, l)
  | some nodes =>
    match (nodes.get? u.node).bind (Occurrences.remove? · u.topic u.type) with
    | none => (.unknownUse, l)
    | some topics =>
      let byNode := putNonEmpty l.byNode u.participant (putNonEmpty nodes u.node topics)
      match Occurrences.remove? l.total u.topic u.type with
      | none => (.removedUncounted, { l with byNode })
      | some total => (.removed, { total, byNode })

/-- The occurrences on the mangled form of a topic. -/
def count (l : TopicLedger) (mangle : String → String) (topic : String) : Except Error Nat :=
  if mangle topic = "" then .error (.invalidArgument "topic name mangles to an empty string")
  else .ok ((l.total.get? (mangle topic)).getD []).length

def namesAndTypes (l : TopicLedger) (d : Demangling) : NamesAndTypes :=
  .collect d l.total.entries

/-- The topics of a node; none for a node that is not recorded. -/
def namesAndTypesOf (l : TopicLedger) (participant : Gid) (node : NodeName) (d : Demangling) :
    NamesAndTypes :=
  match (l.byNode.get? participant).bind (·.get? node) with
  | none => ∅
  | some topics => .collect d topics.entries

def nodeLines (e : NodeName × Occurrences) : List String :=
  ["    Node:\n", s!"      ns='{e.1.ns}'\n", s!"      name='{e.1.name}'\n", "      Topics:\n"] ++
    e.2.entries.map (Occurrences.line "        ")

def participantLines (e : Gid × SortedMap NodeName Occurrences) : List String :=
  s!"  gid: {e.1}\n" :: e.2.entries.flatMap nodeLines

def dump (l : TopicLedger) : String :=
  String.join (["Participant Info:\n"] ++ l.byNode.entries.flatMap participantLines ++
    ["Cumulative TopicToTypes:\n"] ++ l.total.entries.map (Occurrences.line "  "))

end TopicLedger

end RosGraph
