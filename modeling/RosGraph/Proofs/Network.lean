import RosGraph.Proofs.Commit
import Mathlib.Data.Fin.Basic
import Mathlib.Data.List.FinRange
import Mathlib.Logic.Function.Basic

/-! A network of contexts, each with a cache of its own. A publisher that works hands
an announcement to one channel for each member, its own included. Channels lose
nothing and keep the order. A step is a call of a member with whatever comes of its
publication, the delivery of the head of a channel, or something that a member
discovers by itself. -/

namespace RosGraph

open Lifecycle

/-- Participants with identifiers of their own. -/
structure Roster (n : ℕ) where
  gid : Fin n → Gid
  distinct : Function.Injective gid

structure Network (n : ℕ) where
  caches : Fin n → Cache := fun _ => {}
  /-- Announcements on their way from a sender to a receiver, oldest first. -/
  channel : Fin n → Fin n → List Announcement := fun _ _ => []

namespace Network

variable {n : ℕ}

/-- The cache of a member. -/
def site (i : Fin n) : Site (Network n) where
  cache s := s.caches i
  setCache c s := { s with caches := Function.update s.caches i c }
  report _ s := s
  changed s := s

def graph (s : Network n) (i : Fin n) : Graph := (s.caches i).graph

/-- What a member knows of the nodes of a participant. -/
def nodesOf (s : Network n) (i : Fin n) (gid : Gid) : List HostedNode := (s.graph i).nodesOf gid

/-- An announcement goes to all members. -/
def send (i : Fin n) (a : Announcement) (s : Network n) : Network n :=
  { s with channel := Function.update s.channel i fun j => s.channel i j ++ [a] }

@[simp] theorem channel_send_self (i j : Fin n) (a : Announcement) (s : Network n) :
    (s.send i a).channel i j = s.channel i j ++ [a] := by
  simp [send]

theorem channel_send_of_ne {i k : Fin n} (h : k ≠ i) (j : Fin n) (a : Announcement) (s : Network n) :
    (s.send i a).channel k j = s.channel k j := by
  simp [send, h]

/-- How the publisher of a member is at the time of a call. -/
inductive Link
  | detached
  /-- It fails before it sends. -/
  | broken (e : Error)
  | working

def Link.publisher (i : Fin n) : Link → Option (Publisher (Network n))
  | detached => none
  | broken e => some fun _ s => (.failed e, s)
  | working => some fun a s => (.sent, s.send i a)

/-- What a member learns without being told by another one. -/
inductive Discovery
  | addEndpoint (kind : EndpointKind) (gid : Gid) (record : EndpointRecord)
  | removeEndpoint (kind : EndpointKind) (gid : Gid)
  | addParticipant (gid : Gid)

def Discovery.mutation : Discovery → Mutation
  | addEndpoint kind gid r => .addEndpoint kind gid r
  | removeEndpoint kind gid => .removeEndpoint kind gid
  | addParticipant gid => .addParticipant gid

inductive Action (n : ℕ)
  | call (i : Fin n) (c : Call) (link : Link)
  /-- The head of the channel from `i` to `j` arrives. -/
  | deliver (i j : Fin n)
  | discover (j : Fin n) (d : Discovery)

end Network

namespace Roster

open Network

variable {n : ℕ} (r : Roster n)

def member (i : Fin n) : LocalParticipant (Network n) := ⟨r.gid i, site i⟩

def context (i : Fin n) (link : Link) : Context (Network n) :=
  { r.member i with publisher := fun _ => link.publisher i }

def step (s : Network n) : Action n → Network n
  | .call i c link => ((r.context i link).run c s).2
  | .deliver i j => match s.channel i j with
    | [] => s
    | a :: rest => (r.member j).receive a
        { s with channel := Function.update s.channel i (Function.update (s.channel i) j rest) }
  | .discover j d => ((site j).perform d.mutation s).2

/-- Every member has joined the cache that it uses, and nothing has happened since. -/
def start : Network n := (List.finRange n).foldl (fun s i => (r.member i).join s) {}

def run (actions : List (Action n)) : Network n := actions.foldl r.step r.start

/-- All that is on its way from `i` to `j` arrives, in order. -/
def drain (i j : Fin n) (s : Network n) : Network n :=
  (s.channel i j).foldl (fun t a => (r.member j).receive a t) s

end Roster

namespace Network

variable {n : ℕ} {r : Roster n}

instance (i : Fin n) : (site i).Quiet where
  cache_setCache c s := by simp [site]
  cache_report _ _ := rfl
  cache_changed _ := rfl

/-- A member does not touch the caches of others, and no channel unless it publishes. -/
theorem hidden_other {i j : Fin n} (h : j ≠ i) : (site i).Hidden fun s : Network n => s.caches j where
  setCache c s := by simp [site, h]
  report _ _ := rfl
  changed _ := rfl

theorem hidden_channel (i : Fin n) : (site i).Hidden fun s : Network n => s.channel where
  setCache _ _ := rfl
  report _ _ := rfl
  changed _ := rfl

instance (i : Fin n) (link : Link) : (r.context i link).site.Quiet := inferInstanceAs (site i).Quiet

theorem undisturbed (i : Fin n) (link : Link) : (r.context i link).Undisturbed := by
  intro s send hsend a t
  cases link with
  | detached => cases hsend
  | broken e => obtain rfl := Option.some.inj hsend; rfl
  | working => obtain rfl := Option.some.inj hsend; rfl

/-- Nothing is sent and no node list is another one. -/
structure Same (s s' : Network n) : Prop where
  channel : s'.channel = s.channel
  nodesOf (j : Fin n) (gid : Gid) : s'.nodesOf j gid = s.nodesOf j gid

/-- Only the cache of `i` is another one, and its graph has the same node lists. -/
theorem Same.of_graph {i : Fin n} {s s' : Network n} (hchannel : s'.channel = s.channel)
    (hother : ∀ j, j ≠ i → s'.caches j = s.caches j)
    (hnodes : ∀ gid, (s'.graph i).nodesOf gid = (s.graph i).nodesOf gid) : Same s s' where
  channel := hchannel
  nodesOf j gid := by
    by_cases hj : j = i
    · subst hj; exact hnodes gid
    · rw [Network.nodesOf, graph, hother j hj]; rfl

theorem same_perform (j : Fin n) (s : Network n) {m : Mutation} {e : Effect Answer}
    (hm : m.apply (s.graph j) = .ok e) (hnodes : ∀ gid, e.graph.nodesOf gid = (s.graph j).nodesOf gid) :
    Same s ((site j).perform m s).2 := by
  have hgraph : (site j).graph ((site j).perform m s).2 = e.graph := Site.graph_perform hm
  refine .of_graph (i := j) ((hidden_channel j).perform m s)
    (fun k hk => (hidden_other hk).perform m s) ?_
  intro gid
  rw [← hnodes gid, ← hgraph]
  rfl

theorem same_discover (j : Fin n) (d : Discovery) (s : Network n) :
    Same s (r.step s (.discover j d)) := by
  cases d with
  | addEndpoint kind gid record =>
    exact same_perform j s rfl fun g => Graph.nodesOf_addEndpoint _ kind gid record g
  | removeEndpoint kind gid =>
    exact same_perform j s rfl fun g => Graph.nodesOf_removeEndpoint _ kind gid g
  | addParticipant gid => exact same_perform j s rfl fun g => Graph.nodesOf_addParticipant _ gid g

theorem same_join (i : Fin n) (s : Network n) : Same s ((r.member i).join s) :=
  same_discover (r := r) i (.addParticipant (r.gid i)) s

/-- A member has announced `nodes` to all and lists them itself. -/
structure Announced (r : Roster n) (i : Fin n) (nodes : List HostedNode) (s s' : Network n) : Prop where
  channel : s'.channel = (s.send i ⟨r.gid i, nodes⟩).channel
  own : s'.nodesOf i (r.gid i) = nodes
  other (j : Fin n) (gid : Gid) (h : ¬ (j = i ∧ gid = r.gid i)) : s'.nodesOf j gid = s.nodesOf j gid

section Call
variable {i : Fin n} {link : Link} {c : Call} {s : Network n} {nodes nodes' : List HostedNode}

theorem caches_run (ha : (r.context i link).Allows c s nodes nodes') {j : Fin n} (hj : j ≠ i) :
    ((r.context i link).run c s).2.caches j = s.caches j := by
  have hview : (r.context i link).site.Hidden fun s : Network n => s.caches j := hidden_other hj
  rw [Context.view_run hview ha]
  have hpublish (a : Announcement) (t : Network n) :
      ((r.context i link).publish a t).2.caches j = t.caches j := by cases link <;> rfl
  rw [hpublish]
  exact Context.view_prepared hview c s

theorem announced_run (ha : (r.context i .working).Allows c s nodes nodes') :
    Announced r i nodes' s ((r.context i .working).run c s).2 := by
  have hgraph : ((r.context i .working).run c s).2.graph i = (s.graph i).setNodes (r.gid i) nodes' :=
    (Context.graph_run_of_sent (undisturbed i .working) ha rfl).2
  refine ⟨?_, ?_, fun j gid h => ?_⟩
  · have hview : (r.context i .working).site.Hidden fun s : Network n => s.channel := hidden_channel i
    rw [Context.view_run hview ha]
    have hprepared := Context.view_prepared hview c s
    change (send i ⟨r.gid i, nodes'⟩ ((r.context i .working).prepared c s)).channel = _
    rw [send, send, hprepared]
  · rw [nodesOf, hgraph, Graph.nodesOf_setNodes_self]
  · by_cases hj : j = i
    · subst hj
      rw [nodesOf, hgraph, Graph.nodesOf_setNodes_of_ne _ fun hgid => h ⟨rfl, hgid⟩]
      rfl
    · rw [nodesOf, graph, caches_run ha hj]
      rfl

/-- A publication that fails shows nowhere. -/
theorem same_run_of_failed (ha : (r.context i link).Allows c s nodes nodes') {e : Error}
    (hp : ∀ a t, (r.context i link).publish a t = (.failed e, t)) :
    Same s ((r.context i link).run c s).2 := by
  have hgraph : ((r.context i link).run c s).2.graph i = s.graph i :=
    (Context.graph_run_of_failed (undisturbed i link) ha (by rw [hp])).2
  refine .of_graph ?_ (fun j hj => caches_run ha hj) (fun gid => by rw [hgraph])
  have hview : (r.context i link).site.Hidden fun s : Network n => s.channel := hidden_channel i
  rw [Context.view_run hview ha, hp]
  exact Context.view_prepared hview c s

/-- A call that crashes shows nowhere. -/
theorem same_run_of_not_allowed (h : ∀ nodes nodes', ¬ (r.context i link).Allows c s nodes nodes') :
    Same s ((r.context i link).run c s).2 := by
  have hgraph : ((r.context i link).run c s).2.graph i = s.graph i := Context.graph_run_of_not_allowed h
  refine .of_graph ?_ (fun j hj => ?_) (fun gid => by rw [hgraph])
  · exact Context.view_run_of_not_allowed (hidden_channel i) h
  · exact Context.view_run_of_not_allowed (hidden_other hj) h

/-- What a call can do: announce a new node list to all, or nothing. -/
theorem call_cases (r : Roster n) (i : Fin n) (c : Call) (link : Link) (s : Network n) :
    Same s (r.step s (.call i c link)) ∨
      ∃ nodes, Announced r i nodes s (r.step s (.call i c link)) := by
  by_cases hallowed : ∃ nodes nodes', (r.context i link).Allows c s nodes nodes'
  · obtain ⟨nodes, nodes', ha⟩ := hallowed
    cases link with
    | detached => exact .inl (same_run_of_failed ha (e := .publisherUnavailable) fun _ _ => rfl)
    | broken e => exact .inl (same_run_of_failed ha (e := e.asPublishFailure) fun _ _ => rfl)
    | working => exact .inr ⟨nodes', announced_run ha⟩
  · exact .inl (same_run_of_not_allowed fun nodes nodes' ha => hallowed ⟨nodes, nodes', ha⟩)

end Call

section Receive
variable (j : Fin n) (a : Announcement) (s : Network n)

/-- The echo of an own announcement is ignored. -/
theorem receive_own (h : a.participant = r.gid j) : (r.member j).receive a s = s := by
  simp [LocalParticipant.receive, Roster.member, h, site]

theorem channel_receive : ((r.member j).receive a s).channel = s.channel := by
  rw [LocalParticipant.receive]
  split_ifs
  · rfl
  · exact (hidden_channel j).perform (.announce a) s

theorem nodesOf_receive (h : a.participant ≠ r.gid j) (k : Fin n) (gid : Gid) :
    ((r.member j).receive a s).nodesOf k gid =
      if k = j ∧ gid = a.participant then a.nodes else s.nodesOf k gid := by
  have hreceive : (r.member j).receive a s = ((site j).perform (.announce a) s).2 := if_neg h
  rw [hreceive, nodesOf, nodesOf]
  by_cases hk : k = j
  · subst hk
    have hgraph : (site k).graph ((site k).perform (.announce a) s).2 = ((s.graph k).announce a).graph :=
      Site.graph_perform (e := ((s.graph k).announce a).map fun _ => .done) rfl
    change ((site k).graph _).nodesOf gid = _
    rw [hgraph, Graph.nodesOf_announce]
    simp
  · rw [graph, (hidden_other hk).perform]
    simp [hk, graph]

end Receive

end Network

end RosGraph
