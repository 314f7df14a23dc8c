import RosGraph.Announcement
import RosGraph.Wire.Value

/-! The written form of announcements, profiles and what they consist of. -/

namespace RosGraph

open Wire

instance : Wire Gid where
  encode g := .object [("data", encode g.bytes)]
  decode? v := do
    let [data] ← v.fields? ["data"] | none
    let bytes ← decode? data
    if h : bytes.length = 24 then some ⟨bytes, h⟩ else none

instance : Wire Period where
  encode p := .object [("sec", encode p.sec), ("nsec", encode p.nsec)]
  decode? v := do
    let [sec, nsec] ← v.fields? ["sec", "nsec"] | none
    some ⟨← decode? sec, ← decode? nsec⟩

namespace Qos

def History.caseName : History → String
  | systemDefault => "SystemDefault"
  | keepLast => "KeepLast"
  | keepAll => "KeepAll"
  | unknown => "Unknown"

def Reliability.caseName : Reliability → String
  | systemDefault => "SystemDefault"
  | reliable => "Reliable"
  | bestEffort => "BestEffort"
  | bestAvailable => "BestAvailable"
  | unknown => "Unknown"

def Durability.caseName : Durability → String
  | systemDefault => "SystemDefault"
  | transientLocal => "TransientLocal"
  | volatile => "Volatile"
  | bestAvailable => "BestAvailable"
  | unknown => "Unknown"

def Liveliness.caseName : Liveliness → String
  | systemDefault => "SystemDefault"
  | automatic => "Automatic"
  | manualByTopic => "ManualByTopic"
  | bestAvailable => "BestAvailable"
  | unknown => "Unknown"

instance : Wire History where
  encode p := .text p.caseName
  decode? := decodeCase? [.systemDefault, .keepLast, .keepAll, .unknown] History.caseName

instance : Wire Reliability where
  encode p := .text p.caseName
  decode? := decodeCase? [.systemDefault, .reliable, .bestEffort, .bestAvailable, .unknown]
    Reliability.caseName

instance : Wire Durability where
  encode p := .text p.caseName
  decode? := decodeCase? [.systemDefault, .transientLocal, .volatile, .bestAvailable, .unknown]
    Durability.caseName

instance : Wire Liveliness where
  encode p := .text p.caseName
  decode? := decodeCase? [.systemDefault, .automatic, .manualByTopic, .bestAvailable, .unknown]
    Liveliness.caseName

def Profile.fieldNames : List String :=
  ["history", "depth", "reliability", "durability", "deadline", "lifespan", "liveliness",
    "liveliness_lease_duration", "avoid_ros_namespace_conventions"]

instance : Wire Profile where
  encode p := .object (Profile.fieldNames.zip
    [encode p.history, encode p.depth, encode p.reliability, encode p.durability,
      encode p.deadline, encode p.lifespan, encode p.liveliness, encode p.lease,
      encode p.avoidsNamespaceConventions])
  decode? v := do
    let [history, depth, reliability, durability, deadline, lifespan, liveliness, lease, avoids] ←
      v.fields? Profile.fieldNames | none
    some {
      history := ← decode? history
      depth := ← decode? depth
      reliability := ← decode? reliability
      durability := ← decode? durability
      deadline := ← decode? deadline
      lifespan := ← decode? lifespan
      liveliness := ← decode? liveliness
      lease := ← decode? lease
      avoidsNamespaceConventions := ← decode? avoids }

end Qos

instance : Wire HostedNode where
  encode n := .object [("node_name", encode n.id.name), ("node_namespace", encode n.id.ns),
    ("reader_gids", encode n.readers), ("writer_gids", encode n.writers)]
  decode? v := do
    let [name, ns, readers, writers] ←
      v.fields? ["node_name", "node_namespace", "reader_gids", "writer_gids"] | none
    some {
      id := { name := ← decode? name, ns := ← decode? ns }
      readers := ← decode? readers
      writers := ← decode? writers }

instance : Wire Announcement where
  encode a := .object [("gid", encode a.participant), ("nodes", encode a.nodes)]
  decode? v := do
    let [participant, nodes] ← v.fields? ["gid", "nodes"] | none
    some ⟨← decode? participant, ← decode? nodes⟩

end RosGraph
