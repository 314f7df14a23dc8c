import RosGraph.Error
import RosGraph.Graph.Cache

/-! The life of local nodes and their endpoints. A context is the part of one
local participant; each of its calls changes the shared graph and announces the
new node list to the peers. If the announcement fails, the node list goes back
to what it was before the call, so that the graph never shows an entity that
peers were not told of. Listeners are told after that. A call that crashes ends
where it is: nothing more is done and nothing is undone, but listeners are still
told. -/

namespace RosGraph

namespace Lifecycle

/-- What a call creates or destroys. A client writes requests and reads responses;
a service reads requests and writes responses. -/
inductive Subject
  | node
  | subscription (reader : Gid)
  | publisher (writer : Gid)
  | client (request response : Gid)
  | service (request response : Gid)
deriving DecidableEq, Repr

inductive Kind
  | creation
  | destruction
deriving DecidableEq, Repr

structure Call where
  kind : Kind
  subject : Subject
  node : NodeName
deriving DecidableEq, Repr

namespace Subject

def text : Subject → String
  | node => "node"
  | subscription _ => "subscription"
  | publisher _ => "publisher"
  | client .. => "client"
  | service .. => "service"

/-- The endpoints of a subject, in the order in which they come and go. -/
def endpoints : Subject → List (EndpointKind × Gid)
  | node => []
  | subscription reader => [(.reader, reader)]
  | publisher writer => [(.writer, writer)]
  | client request response => [(.writer, request), (.reader, response)]
  | service request response => [(.reader, request), (.writer, response)]

end Subject

def Kind.text : Kind → String
  | creation => "creation"
  | destruction => "destruction"

namespace Call

def purpose (c : Call) : String := s!"{c.subject.text} {c.kind.text}"

/-- What becomes of the node that the call is about. -/
def changes (c : Call) : List NodeChange :=
  match c.subject, c.kind with
  | .node, .creation => [.add]
  | .node, .destruction => [.remove]
  | subject, .creation => subject.endpoints.map fun (kind, gid) => .associate kind gid
  | subject, .destruction => subject.endpoints.map fun (kind, gid) => .dissociate kind gid

end Call

/-- Why a call ends before it is done. -/
inductive Crash
  /-- The call, or one that its publisher makes, breaks the contract of the graph. -/
  | violation (v : Violation)
  /-- The publisher breaks down, for a reason of its own. -/
  | publisher (reason : String)
deriving DecidableEq, Repr

def Crash.message : Crash → String
  | violation v => v.message
  | publisher reason => reason

/-- How an announcement fares with a publisher. -/
inductive Delivery
  | sent
  | failed (e : Error)
  | crashed (c : Crash)
deriving DecidableEq, Repr

/-- A failure, whatever its cause, counts as a failed publication. -/
def Delivery.asPublication : Delivery → Delivery
  | failed e => failed e.asPublishFailure
  | d => d

inductive Outcome
  | announced
  /-- Not announced, and undone. -/
  | refused (e : Error)
  | crashed (c : Crash)
deriving DecidableEq, Repr

end Lifecycle

/-- A publisher takes an announcement to the peers. It may act on the state
before it says how that went. -/
abbrev Publisher (σ : Type) := Announcement → σ → Lifecycle.Delivery × σ

/-- A local participant and the cache that it shares. -/
structure LocalParticipant (σ : Type) where
  gid : Gid
  site : Site σ

namespace LocalParticipant

variable {σ : Type} (p : LocalParticipant σ)

def join (s : σ) : σ := (p.site.perform (.addParticipant p.gid) s).2

/-- Take in what a peer announces; the echo of an own announcement is ignored. -/
def receive (a : Announcement) (s : σ) : σ :=
  if a.participant = p.gid then
    p.site.report [⟨.trace, "[context] ignoring own participant entities"⟩] s
  else (p.site.perform (.announce a) s).2

def own? (s : σ) : Option Announcement := (p.site.graph s).participant? p.gid

def ownNodes (s : σ) : List HostedNode := ((p.own? s).map (·.nodes)).getD []

end LocalParticipant

/-- A local participant with a way to announce its nodes. -/
structure Context (σ : Type) extends LocalParticipant σ where
  /-- The publisher that is attached at the time. -/
  publisher : σ → Option (Publisher σ)

namespace Context

open Lifecycle

variable {σ : Type} (c : Context σ)

/-- Announce through the publisher that is attached. -/
def publish (a : Announcement) (s : σ) : Delivery × σ :=
  match c.publisher s with
  | none => (.failed .publisherUnavailable, s)
  | some send => let r := send a s; (r.1.asPublication, r.2)

/-- Announce the node list that a call has led to, and go back to the previous
one if that fails. -/
def commit (purpose : String) (previous : List HostedNode) (a : Announcement) (s : σ) :
    Outcome × σ :=
  match c.publish a s with
  | (.sent, s) =>
    (.announced,
      c.site.report [⟨.debug, s!"[context] {purpose} announced for participant {c.gid}"⟩] s)
  | (.failed e, s) =>
    let s := c.site.report
      [⟨.error, s!"[context] {purpose} not announced, rolling back: {e.message}"⟩] s
    (.refused e, c.site.restoreNodes c.gid previous s)
  | (.crashed why, s) => (.crashed why, s)

def run (call : Call) : σ → Outcome × σ :=
  c.site.deferring fun s =>
    let previous := c.ownNodes s
    match c.site.changeNodeAll c.gid call.node call.changes ⟨c.gid, previous⟩ s with
    | (.error v, s) => (.crashed (.violation v), s)
    | (.ok a, s) => c.commit call.purpose previous a s

end Context

end RosGraph
