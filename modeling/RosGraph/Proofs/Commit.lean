import RosGraph.Proofs.Site

/-! A call of a context from its start to its end. A call that the node list does not
allow stops before anything has changed. Any other one reaches a state in which the
new list stands and is announced; from there it goes on to the outcome that the
publisher gives it. The publisher may be anything that leaves this cache alone. -/

namespace RosGraph.Context

open Lifecycle NodeChange

variable {σ β : Type} (c : Context σ)

/-- The publisher does not touch the cache that the context announces. -/
def Undisturbed : Prop :=
  ∀ s send, c.publisher s = some send → ∀ a t, c.site.cache (send a t).2 = c.site.cache t

/-- The participant is there with its nodes, and the call makes `nodes'` of them. -/
structure Allows (call : Call) (s : σ) (nodes nodes' : List HostedNode) : Prop where
  registered : (c.site.graph s).participants.get? c.gid = some nodes
  after : nodesAfterAll? call.node call.changes nodes = some nodes'

/-- The state in which the outcome of a call is announced. -/
def prepared (call : Call) (s : σ) : σ :=
  (c.site.changeNodeAll c.gid call.node call.changes ⟨c.gid, c.ownNodes s⟩ (c.site.opened s)).2

variable {c} {call : Call} {s : σ} {nodes nodes' : List HostedNode}

theorem view_prepared {view : σ → β} (h : c.site.Hidden view) (call : Call) (s : σ) :
    view (c.prepared call s) = view s := by
  rw [prepared, h.changeNodeAll, h.opened]

theorem ownNodes_of_registered (h : (c.site.graph s).participants.get? c.gid = some nodes) :
    c.ownNodes s = nodes := by
  simp [LocalParticipant.ownNodes, LocalParticipant.own?, Graph.participant?, h]

theorem graph_opened [c.site.Lawful] (s : σ) : c.site.graph (c.site.opened s) = c.site.graph s := by
  simp [Site.graph]

/-- Whether the call is allowed is decided by the node list. -/
theorem allows_or_not (call : Call) (s : σ) :
    (∃ nodes nodes', c.Allows call s nodes nodes') ∨
      (c.site.graph s).participants.get? c.gid = none ∨
      ∃ nodes, (c.site.graph s).participants.get? c.gid = some nodes ∧
        nodesAfterAll? call.node call.changes nodes = none := by
  cases hreg : (c.site.graph s).participants.get? c.gid with
  | none => exact .inr (.inl rfl)
  | some nodes =>
    cases hafter : nodesAfterAll? call.node call.changes nodes with
    | none => exact .inr (.inr ⟨nodes, rfl, hafter⟩)
    | some nodes' => exact .inl ⟨nodes, nodes', hreg, hafter⟩

/-- A call that its first change stops opens a window and closes it again. -/
theorem run_of_stopped {v : Violation}
    (h : c.site.changeNodeAll c.gid call.node call.changes ⟨c.gid, c.ownNodes (c.site.opened s)⟩
      (c.site.opened s) = (.error v, c.site.opened s)) :
    c.run call s = (.crashed (.violation v), c.site.closed (c.site.opened s)) := by
  rw [run, Site.deferring_eq]
  simp only [h]

section Lawful
variable [c.site.Lawful]

/-- No call of a participant that is not known gets anywhere. -/
theorem run_of_unregistered (call : Call)
    (hreg : (c.site.graph s).participants.get? c.gid = none) :
    c.run call s = (.crashed (.violation (.unknownParticipant c.gid)),
      c.site.closed (c.site.opened s)) := by
  obtain ⟨change, rest, hc⟩ := List.exists_cons_of_ne_nil call.changes_ne_nil
  refine run_of_stopped ?_
  simp [hc, Site.changeNodeAll, Site.changeNode, Graph.changeNode, graph_opened, hreg, Site.attempt]

/-- Nor does one that needs a node that is not there. -/
theorem run_of_no_node (hreg : (c.site.graph s).participants.get? c.gid = some nodes)
    (hafter : nodesAfterAll? call.node call.changes nodes = none) :
    c.run call s = (.crashed (.violation (.unknownNode call.node c.gid)),
      c.site.closed (c.site.opened s)) := by
  obtain ⟨change, rest, hc, hnone⟩ := Call.first_refused hafter
  refine run_of_stopped ?_
  rw [hc, Site.changeNodeAll, Site.changeNode_of_none (by rw [graph_opened]; exact hreg) hnone]

/-- A call that is not allowed opens a window and closes it again. -/
theorem run_of_not_allowed (h : ∀ nodes nodes', ¬ c.Allows call s nodes nodes') :
    ∃ v, c.run call s = (.crashed (.violation v), c.site.closed (c.site.opened s)) := by
  rcases allows_or_not (c := c) call s with ⟨nodes, nodes', ha⟩ | hreg | ⟨nodes, hreg, hafter⟩
  · exact absurd ha (h nodes nodes')
  · exact ⟨_, run_of_unregistered call hreg⟩
  · exact ⟨_, run_of_no_node hreg hafter⟩

/-- A call that gets to its end was allowed. -/
theorem allows_of_not_crashed (hdone : ∀ why, (c.run call s).1 ≠ .crashed why) :
    ∃ nodes nodes', c.Allows call s nodes nodes' := by
  by_cases hallowed : ∃ nodes nodes', c.Allows call s nodes nodes'
  · exact hallowed
  · have hnot : ∀ nodes nodes', ¬ c.Allows call s nodes nodes' :=
      fun nodes nodes' ha => hallowed ⟨nodes, nodes', ha⟩
    obtain ⟨v, hv⟩ := run_of_not_allowed hnot
    exact absurd (congrArg Prod.fst hv) (hdone (.violation v))

/-- The state before the announcement: the new list stands and a notice is held back. -/
theorem changeNodeAll_prepared (ha : c.Allows call s nodes nodes') :
    c.site.changeNodeAll c.gid call.node call.changes ⟨c.gid, nodes⟩ (c.site.opened s) =
        (.ok ⟨c.gid, nodes'⟩, c.prepared call s) ∧
      c.site.cache (c.prepared call s) =
        (⟨(c.site.graph s).setNodes c.gid nodes', (c.site.cache s).window.opened⟩ : Cache).hold
          (notifiesAny call.node call.changes nodes) := by
  have hopen : 0 < (c.site.cache (c.site.opened s)).window.depth := by simp [Window.opened]
  obtain ⟨t, ht, hcache⟩ := Site.changeNodeAll_of_some hopen
    (by rw [graph_opened]; exact ha.registered) ha.after
  have hprepared : c.prepared call s = t := by
    rw [prepared, ownNodes_of_registered ha.registered, ht]
  rw [hprepared]
  refine ⟨ht, ?_⟩
  rw [hcache, graph_opened, Site.cache_opened]

theorem graph_prepared (ha : c.Allows call s nodes nodes') :
    c.site.graph (c.prepared call s) = (c.site.graph s).setNodes c.gid nodes' := by
  rw [Site.graph, (changeNodeAll_prepared ha).2, Cache.graph_hold]

/-- In the state before the announcement a window is open. -/
theorem depth_prepared (ha : c.Allows call s nodes nodes') :
    0 < (c.site.cache (c.prepared call s)).window.depth := by
  rw [(changeNodeAll_prepared ha).2]
  simp [Window.opened]

/-- A call that is allowed commits the new list in that state. -/
theorem run_of_allowed (ha : c.Allows call s nodes nodes') :
    c.run call s =
      let r := c.commit call.purpose nodes ⟨c.gid, nodes'⟩ (c.prepared call s)
      (r.1, c.site.closed r.2) := by
  have hown : c.ownNodes (c.site.opened s) = nodes :=
    ownNodes_of_registered (by rw [graph_opened]; exact ha.registered)
  rw [run, Site.deferring_eq]
  simp only [hown, (changeNodeAll_prepared ha).1]

end Lawful

section Commit
variable (purpose : String) (previous : List HostedNode) {a : Announcement} {t u : σ}

theorem commit_of_sent (h : c.publish a t = (.sent, u)) :
    c.commit purpose previous a t = (.announced,
      c.site.report [⟨.debug, s!"[context] {purpose} announced for participant {c.gid}"⟩] u) := by
  simp [commit, h]

theorem commit_of_failed {e : Error} (h : c.publish a t = (.failed e, u)) :
    c.commit purpose previous a t = (.refused e, c.site.restoreNodes c.gid previous (c.site.report
      [⟨.error, s!"[context] {purpose} not announced, rolling back: {e.message}"⟩] u)) := by
  simp [commit, h]

theorem commit_of_crashed {why : Crash} (h : c.publish a t = (.crashed why, u)) :
    c.commit purpose previous a t = (.crashed why, u) := by
  simp [commit, h]

/-- The end of a call shows nowhere but in the cache. -/
theorem view_commit {view : σ → β} (h : c.site.Hidden view) :
    view (c.commit purpose previous a t).2 = view (c.publish a t).2 := by
  match hp : c.publish a t with
  | (.sent, u) => rw [commit_of_sent _ _ hp, h.report]
  | (.failed e, u) => rw [commit_of_failed _ _ hp, h.restoreNodes, h.report]
  | (.crashed why, u) => rw [commit_of_crashed _ _ hp]

/-- The publisher leaves the cache as it was when it was handed the announcement. -/
theorem Undisturbed.cache_publish (hu : c.Undisturbed) (a : Announcement) (t : σ) :
    c.site.cache (c.publish a t).2 = c.site.cache t := by
  rw [publish]
  split
  · rfl
  · next send hsend => exact hu t send hsend a t

end Commit

section Settled
variable [c.site.Lawful] (hu : c.Undisturbed) (ha : c.Allows call s nodes nodes')
include hu ha

/-- The cache at the end of a call that is announced, before its window closes. -/
theorem cache_commit_of_sent (hp : (c.publish ⟨c.gid, nodes'⟩ (c.prepared call s)).1 = .sent) :
    c.site.cache (c.commit call.purpose nodes ⟨c.gid, nodes'⟩ (c.prepared call s)).2 =
      (⟨(c.site.graph s).setNodes c.gid nodes', (c.site.cache s).window.opened⟩ : Cache).hold
        (notifiesAny call.node call.changes nodes) := by
  rw [commit_of_sent _ _ (Prod.ext hp rfl), Site.cache_report, hu.cache_publish]
  exact (changeNodeAll_prepared ha).2

/-- The cache at the end of a call that is undone, before its window closes: a notice is held
back, whatever the call was. -/
theorem cache_commit_of_failed {e : Error}
    (hp : (c.publish ⟨c.gid, nodes'⟩ (c.prepared call s)).1 = .failed e) :
    c.site.cache (c.commit call.purpose nodes ⟨c.gid, nodes'⟩ (c.prepared call s)).2 =
      (⟨c.site.graph s, (c.site.cache s).window.opened⟩ : Cache).hold true := by
  have hcache := hu.cache_publish ⟨c.gid, nodes'⟩ (c.prepared call s)
  rw [commit_of_failed _ _ (Prod.ext hp rfl), Site.cache_restoreNodes_of_open _ _
    (by rw [Site.cache_report, hcache]; exact depth_prepared ha), Site.cache_report, hcache]
  have hgraph : (c.site.graph (c.site.report
      [⟨.error, s!"[context] {call.purpose} not announced, rolling back: {e.message}"⟩]
        (c.publish ⟨c.gid, nodes'⟩ (c.prepared call s)).2)).setNodes c.gid nodes = c.site.graph s :=
    calc _ = (c.site.graph (c.prepared call s)).setNodes c.gid nodes := by
          rw [Site.graph, Site.cache_report, hcache, Site.graph]
      _ = (c.site.graph s).setNodes c.gid nodes := by
          rw [graph_prepared ha, Graph.setNodes_setNodes]
      _ = c.site.graph s := Graph.setNodes_of_get? ha.registered
  rw [hgraph, (changeNodeAll_prepared ha).2]
  simp [Cache.hold]

end Settled

/-- Of a call nothing shows outside the cache but what its publisher does. -/
theorem view_run [c.site.Lawful] {view : σ → β} (h : c.site.Hidden view)
    (ha : c.Allows call s nodes nodes') :
    view (c.run call s).2 = view (c.publish ⟨c.gid, nodes'⟩ (c.prepared call s)).2 := by
  rw [run_of_allowed ha]
  exact (h.closed _).trans (view_commit _ _ h)

theorem view_run_of_not_allowed [c.site.Lawful] {view : σ → β} (hv : c.site.Hidden view)
    (h : ∀ nodes nodes', ¬ c.Allows call s nodes nodes') : view (c.run call s).2 = view s := by
  obtain ⟨v, hrun⟩ := run_of_not_allowed h
  rw [hrun]
  exact (hv.closed _).trans (hv.opened s)

section Quiet
variable [c.site.Quiet]

theorem graph_closed (t : σ) : c.site.graph (c.site.closed t) = c.site.graph t := by
  simp [Site.graph]

theorem graph_run_of_not_allowed (h : ∀ nodes nodes', ¬ c.Allows call s nodes nodes') :
    c.site.graph (c.run call s).2 = c.site.graph s := by
  obtain ⟨v, hv⟩ := run_of_not_allowed h
  rw [hv, graph_closed, graph_opened]

/-- What is announced stands. -/
theorem graph_run_of_sent (hu : c.Undisturbed) (ha : c.Allows call s nodes nodes')
    (hp : (c.publish ⟨c.gid, nodes'⟩ (c.prepared call s)).1 = .sent) :
    (c.run call s).1 = .announced ∧
      c.site.graph (c.run call s).2 = (c.site.graph s).setNodes c.gid nodes' := by
  rw [run_of_allowed ha]
  refine ⟨by rw [commit_of_sent _ _ (Prod.ext hp rfl)], ?_⟩
  rw [graph_closed, Site.graph, cache_commit_of_sent hu ha hp, Cache.graph_hold]

/-- What is not announced is undone. -/
theorem graph_run_of_failed (hu : c.Undisturbed) (ha : c.Allows call s nodes nodes') {e : Error}
    (hp : (c.publish ⟨c.gid, nodes'⟩ (c.prepared call s)).1 = .failed e) :
    (c.run call s).1 = .refused e ∧ c.site.graph (c.run call s).2 = c.site.graph s := by
  rw [run_of_allowed ha]
  refine ⟨by rw [commit_of_failed _ _ (Prod.ext hp rfl)], ?_⟩
  rw [graph_closed, Site.graph, cache_commit_of_failed hu ha hp, Cache.graph_hold]

end Quiet

end RosGraph.Context
