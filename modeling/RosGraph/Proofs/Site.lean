import RosGraph.Proofs.Hosting
import RosGraph.Proofs.NodeList

/-! What the calls on a shared graph do to the cache, and what they leave alone.
The laws say that a site owns its cache: what is put there is found there. While a
window is open no listener runs, so that the cache after a call is determined. -/

namespace RosGraph

variable {σ α β : Type}

namespace NodeChange

/-- Listeners are told of one of several changes at least. -/
def notifiesAny (node : NodeName) : List NodeChange → List HostedNode → Bool
  | [], _ => false
  | change :: rest, nodes =>
    change.notifies node nodes ||
      ((change.nodesAfter? node nodes).map (notifiesAny node rest)).getD false

end NodeChange

namespace Cache

/-- A notice is held back, if there is one. -/
def hold (c : Cache) (notice : Bool) : Cache :=
  { c with window := { c.window with pending := c.window.pending || notice } }

@[simp] theorem graph_hold (c : Cache) (b : Bool) : (c.hold b).graph = c.graph := rfl

@[simp] theorem depth_hold (c : Cache) (b : Bool) : (c.hold b).window.depth = c.window.depth := rfl

@[simp] theorem hold_false (c : Cache) : c.hold false = c := by simp [hold]

end Cache

namespace Site

/-- What is put into the cache is found there, and log records go elsewhere. -/
class Lawful (site : Site σ) : Prop where
  cache_setCache (c : Cache) (s : σ) : site.cache (site.setCache c s) = c
  cache_report (log : List Log.Record) (s : σ) : site.cache (site.report log s) = site.cache s

/-- The listener leaves the cache alone. -/
class Quiet (site : Site σ) : Prop extends site.Lawful where
  cache_changed (s : σ) : site.cache (site.changed s) = site.cache s

/-- Nothing that happens at the site shows in the view. -/
structure Hidden (site : Site σ) (view : σ → β) : Prop where
  setCache (c : Cache) (s : σ) : view (site.setCache c s) = view s
  report (log : List Log.Record) (s : σ) : view (site.report log s) = view s
  changed (s : σ) : view (site.changed s) = view s

variable (site : Site σ)

/-- A window opens. -/
def opened (s : σ) : σ := site.setWindow (site.cache s).window.opened s

/-- The innermost window closes. -/
def closed (s : σ) : σ :=
  let closing := (site.cache s).window.closed
  if closing.1 then site.changed (site.setWindow closing.2 s) else site.setWindow closing.2 s

theorem deferring_eq (body : σ → α × σ) (s : σ) :
    site.deferring body s = ((body (site.opened s)).1, site.closed (body (site.opened s)).2) := rfl

section Lawful
variable {site} [site.Lawful]

@[simp] theorem cache_setCache (c : Cache) (s : σ) : site.cache (site.setCache c s) = c :=
  Lawful.cache_setCache c s

@[simp] theorem cache_report (log : List Log.Record) (s : σ) :
    site.cache (site.report log s) = site.cache s :=
  Lawful.cache_report log s

@[simp] theorem cache_setGraph (g : Graph) (s : σ) :
    site.cache (site.setGraph g s) = { site.cache s with graph := g } := by
  simp [setGraph]

@[simp] theorem cache_setWindow (w : Window) (s : σ) :
    site.cache (site.setWindow w s) = { site.cache s with window := w } := by
  simp [setWindow]

@[simp] theorem cache_opened (s : σ) :
    site.cache (site.opened s) = { site.cache s with window := (site.cache s).window.opened } := by
  simp [opened]

/-- In an open window a notice is held back and nothing else happens. -/
theorem cache_notify_of_open {s : σ} (h : 0 < (site.cache s).window.depth) :
    site.cache (site.notify s) = (site.cache s).hold true := by
  simp [notify, Window.notice, h, Cache.hold]

theorem cache_realize_of_open (e : Effect α) {s : σ} (h : 0 < (site.cache s).window.depth) :
    site.cache (site.realize e s) = ({ site.cache s with graph := e.graph } : Cache).hold e.notifies := by
  rw [realize]
  split_ifs with hn
  · rw [cache_notify_of_open (by simpa using h), hn]; simp
  · simp [hn]

theorem depth_attempt_of_open (e : Except Violation (Effect α)) {s : σ}
    (h : 0 < (site.cache s).window.depth) :
    (site.cache (site.attempt e s).2).window.depth = (site.cache s).window.depth := by
  cases e with
  | error v => rfl
  | ok e => rw [attempt, cache_realize_of_open e h, Cache.depth_hold]

theorem cache_restoreNodes_of_open (gid : Gid) (nodes : List HostedNode) {s : σ}
    (h : 0 < (site.cache s).window.depth) :
    site.cache (site.restoreNodes gid nodes s) =
      ({ site.cache s with graph := (site.graph s).setNodes gid nodes } : Cache).hold true := by
  rw [restoreNodes, cache_notify_of_open (by simpa using h), cache_setGraph]

end Lawful

section Change
variable {site} {gid : Gid} {node : NodeName} {nodes nodes' : List HostedNode} {s : σ}

theorem changeNode_of_none {change : NodeChange}
    (hreg : (site.graph s).participants.get? gid = some nodes)
    (h : change.nodesAfter? node nodes = none) :
    site.changeNode gid node change s = (.error (.unknownNode node gid), s) := by
  simp [changeNode, Graph.changeNode, hreg, h, attempt]

theorem changeNode_of_some [site.Lawful] {change : NodeChange} (hopen : 0 < (site.cache s).window.depth)
    (hreg : (site.graph s).participants.get? gid = some nodes)
    (h : change.nodesAfter? node nodes = some nodes') :
    ∃ t, site.changeNode gid node change s = (.ok ⟨gid, nodes'⟩, t) ∧
      site.cache t = ({ site.cache s with graph := (site.graph s).setNodes gid nodes' } : Cache).hold
        (change.notifies node nodes) := by
  let effect : Effect Announcement := {
    graph := (site.graph s).setNodes gid nodes'
    answer := ⟨gid, nodes'⟩
    log := [change.log gid node nodes]
    notifies := change.notifies node nodes }
  refine ⟨site.realize effect s, ?_, cache_realize_of_open effect hopen⟩
  simp [changeNode, Graph.changeNode, hreg, h, attempt, effect]

/-- Changes that the node list allows set it to what they make of it. -/
theorem changeNodeAll_of_some [site.Lawful] {changes : List NodeChange}
    (hopen : 0 < (site.cache s).window.depth)
    (hreg : (site.graph s).participants.get? gid = some nodes)
    (h : NodeChange.nodesAfterAll? node changes nodes = some nodes') :
    ∃ t, site.changeNodeAll gid node changes ⟨gid, nodes⟩ s = (.ok ⟨gid, nodes'⟩, t) ∧
      site.cache t = ({ site.cache s with graph := (site.graph s).setNodes gid nodes' } : Cache).hold
        (NodeChange.notifiesAny node changes nodes) := by
  induction changes generalizing nodes s with
  | nil =>
    obtain rfl := Option.some.inj h
    refine ⟨s, rfl, ?_⟩
    rw [Graph.setNodes_of_get? hreg]
    simp [NodeChange.notifiesAny, graph]
  | cons change rest ih =>
    obtain ⟨mid, hmid, hrest⟩ := Option.bind_eq_some_iff.1 h
    obtain ⟨t, ht, hcache⟩ := changeNode_of_some hopen hreg hmid
    have hgraph : site.graph t = (site.graph s).setNodes gid mid := by rw [graph, hcache]; rfl
    obtain ⟨u, hu, hcache'⟩ := ih (s := t) (by rw [hcache]; exact hopen) (by simp [hgraph]) hrest
    refine ⟨u, by rw [changeNodeAll, ht]; exact hu, ?_⟩
    rw [hcache', hgraph, hcache]
    simp [Cache.hold, NodeChange.notifiesAny, hmid, Bool.or_assoc]

end Change

section Quiet
variable {site} [site.Quiet]

@[simp] theorem cache_changed (s : σ) : site.cache (site.changed s) = site.cache s :=
  Quiet.cache_changed s

theorem graph_notify (s : σ) : site.graph (site.notify s) = site.graph s := by
  rw [graph, notify]
  split_ifs <;> simp [graph]

theorem graph_realize (e : Effect α) (s : σ) : site.graph (site.realize e s) = e.graph := by
  rw [realize]
  split_ifs
  · rw [graph_notify]; simp [graph]
  · simp [graph]

/-- A mutation that keeps the contract brings about the graph of its effect. -/
theorem graph_perform {m : Mutation} {s : σ} {e : Effect Answer} (h : m.apply (site.graph s) = .ok e) :
    site.graph (site.perform m s).2 = e.graph := by
  rw [perform, h]
  exact graph_realize e s

@[simp] theorem cache_closed (s : σ) :
    site.cache (site.closed s) = { site.cache s with window := (site.cache s).window.closed.2 } := by
  rw [closed]
  split_ifs <;> simp

end Quiet

namespace Hidden
variable {site} {view : σ → β} (h : site.Hidden view)
include h

theorem setGraph (g : Graph) (s : σ) : view (site.setGraph g s) = view s := h.setCache _ s

theorem setWindow (w : Window) (s : σ) : view (site.setWindow w s) = view s := h.setCache _ s

theorem opened (s : σ) : view (site.opened s) = view s := h.setWindow _ s

theorem closed (s : σ) : view (site.closed s) = view s := by
  rw [Site.closed]
  split_ifs
  · rw [h.changed, h.setWindow]
  · exact h.setWindow _ s

theorem notify (s : σ) : view (site.notify s) = view s := by
  rw [Site.notify]
  split_ifs
  · rw [h.changed, h.setWindow]
  · exact h.setWindow _ s

theorem realize (e : Effect α) (s : σ) : view (site.realize e s) = view s := by
  rw [Site.realize]
  split_ifs
  · rw [h.notify, h.report, h.setGraph]
  · rw [h.report, h.setGraph]

theorem attempt (e : Except Violation (Effect α)) (s : σ) : view (site.attempt e s).2 = view s := by
  cases e with
  | error v => rfl
  | ok e => exact h.realize e s

theorem perform (m : Mutation) (s : σ) : view (site.perform m s).2 = view s := h.attempt _ s

theorem restoreNodes (gid : Gid) (nodes : List HostedNode) (s : σ) :
    view (site.restoreNodes gid nodes s) = view s := by
  rw [Site.restoreNodes, h.notify, h.setGraph]

theorem changeNodeAll (gid : Gid) (node : NodeName) (changes : List NodeChange) (last : Announcement)
    (s : σ) : view (site.changeNodeAll gid node changes last s).2 = view s := by
  induction changes generalizing last s with
  | nil => rfl
  | cons change rest ih =>
    have hchange : view (site.changeNode gid node change s).2 = view s := h.attempt _ s
    rw [Site.changeNodeAll]
    split
    · next heq => rw [← hchange, heq]
    · next heq => rw [ih, ← hchange, heq]

end Hidden

end Site

end RosGraph
