import RosGraph.Proofs.Locality

/-! A publisher that works on the graph while it publishes. Its mutations are of endpoints and of
other participants, and the call that it serves changes the nodes of its own participant only. So
the two commute, and that is why going back to the old node list undoes the call and nothing else:
the mutations stand as if they had been made without the call, with the same answers. -/

namespace RosGraph

open Lifecycle NodeChange

variable {σ : Type}

namespace Mutation

open RosGraph.Graph

variable {m : Mutation} {gid : Gid}

theorem agree_setNodes (g : Graph) (nodes : List HostedNode) {k : Key} (hk : k ≠ .participant gid) :
    (g.setNodes gid nodes).Agree g k :=
  agree_of_ne_participant hk (endpoints_setNodes g gid nodes) fun _ hne => get?_setNodes_of_ne g hne nodes

/-- A mutation that is not of a participant answers the same whatever the nodes of that one are. -/
theorem outcome_setNodes (hm : m.key ≠ .participant gid) (g : Graph) (nodes : List HostedNode) :
    m.outcome (g.setNodes gid nodes) = m.outcome g :=
  (local_at_key (agree_setNodes g nodes hm)).1

/-- It leaves the nodes of that participant alone, and nothing else depends on them. -/
theorem after_setNodes (hm : m.key ≠ .participant gid) (g : Graph) (nodes : List HostedNode) :
    m.after (g.setNodes gid nodes) = (m.after g).setNodes gid nodes := by
  refine ext_agree fun k => ?_
  by_cases hgid : k = .participant gid
  · subst hgid
    have hkept := agree_after_of_ne (Ne.symm hm) (g.setNodes gid nodes)
    rw [Agree, get?_setNodes_self] at hkept ⊢
    exact hkept
  · have hset := agree_setNodes (m.after g) nodes hgid
    by_cases hk : k = m.key
    · subst hk
      exact (local_at_key (agree_setNodes g nodes hm)).2.trans hset.symm
    · have hg : (m.after (g.setNodes gid nodes)).Agree g k :=
        (agree_after_of_ne hk _).trans (agree_setNodes g nodes hgid)
      exact (hg.trans (agree_after_of_ne hk g).symm).trans hset.symm

end Mutation

namespace Graph

/-- Mutations in their order: what the caller of each is told, and the graph at the end. -/
def performAll : List Mutation → Graph → List (Mutation × Except Violation Answer) × Graph
  | [], g => ([], g)
  | m :: rest, g =>
    let r := performAll rest (m.after g)
    ((m, m.outcome g) :: r.1, r.2)

variable {gid : Gid} {ms : List Mutation}

/-- Mutations that are not of a participant are the same for any nodes of it. -/
theorem performAll_setNodes (h : ∀ m ∈ ms, m.key ≠ .participant gid) (g : Graph)
    (nodes : List HostedNode) : (g.setNodes gid nodes).performAll ms =
      ((g.performAll ms).1, (g.performAll ms).2.setNodes gid nodes) := by
  induction ms generalizing g with
  | nil => rfl
  | cons m rest ih =>
    obtain ⟨hm, hrest⟩ := List.forall_mem_cons.1 h
    rw [performAll, performAll, Mutation.after_setNodes hm, Mutation.outcome_setNodes hm, ih hrest]

theorem get?_performAll (h : ∀ m ∈ ms, m.key ≠ .participant gid) (g : Graph) :
    (g.performAll ms).2.participants.get? gid = g.participants.get? gid := by
  induction ms generalizing g with
  | nil => rfl
  | cons m rest ih =>
    obtain ⟨hm, hrest⟩ := List.forall_mem_cons.1 h
    have hkept : (m.after g).participants.get? gid = g.participants.get? gid :=
      Mutation.agree_after_of_ne (Ne.symm hm) g
    rw [performAll, ih hrest, hkept]

end Graph

namespace Site

/-- From one state to the other the mutations are performed in their order, each with what its
caller is told. Whatever else happens before, between and after them leaves the cache alone. -/
inductive Performs (site : Site σ) : List (Mutation × Except Violation Answer) → σ → σ → Prop
  | idle {s t : σ} (h : site.cache t = site.cache s) : Performs site [] s t
  | step {s t u : σ} {m : Mutation} {deeds : List (Mutation × Except Violation Answer)}
      (h : site.cache t = site.cache s) (hrest : Performs site deeds (site.perform m t).2 u) :
      Performs site ((m, (site.perform m t).1) :: deeds) s u

variable {site : Site σ} {s t : σ} {deeds : List (Mutation × Except Violation Answer)}

theorem performs_performAll (ms : List Mutation) (s : σ) :
    site.Performs (site.performAll ms s).1 s (site.performAll ms s).2 := by
  induction ms generalizing s with
  | nil => exact .idle rfl
  | cons m rest ih => exact .step rfl (ih _)

section Lawful
variable [site.Lawful]

/-- In an open window no listener comes in between. -/
theorem graph_perform_of_open (m : Mutation) (hopen : 0 < (site.cache s).window.depth) :
    site.graph (site.perform m s).2 = m.after (site.graph s) := by
  rw [Mutation.after, perform]
  cases m.apply (site.graph s) with
  | error v => rfl
  | ok e => rw [attempt, graph, cache_realize_of_open e hopen, Cache.graph_hold]

theorem Performs.of_open (h : site.Performs deeds s t) (hopen : 0 < (site.cache s).window.depth) :
    (site.graph s).performAll (deeds.map (·.1)) = (deeds, site.graph t) ∧
      0 < (site.cache t).window.depth := by
  induction h with
  | idle h =>
    rw [graph, graph, h]
    exact ⟨rfl, hopen⟩
  | @step s t u m deeds h _ ih =>
    have hgraph : site.graph t = site.graph s := congrArg Cache.graph h
    have hopen : 0 < (site.cache t).window.depth := by rwa [h]
    have hdepth := depth_attempt_of_open (m.apply (site.graph t)) hopen
    obtain ⟨hall, hend⟩ := ih (by rw [perform, hdepth]; exact hopen)
    rw [graph_perform_of_open m hopen, hgraph] at hall
    refine ⟨?_, hend⟩
    rw [List.map_cons, Graph.performAll, hall, perform_outcome, hgraph]

end Lawful

end Site

namespace Context

variable (c : Context σ)

/-- What comes of the announcement of a call. -/
def published (call : Call) (s : σ) : Delivery × σ :=
  c.publish ⟨c.gid, c.ownNodes (c.prepared call s)⟩ (c.prepared call s)

variable {c} {call : Call} {s : σ} {nodes nodes' : List HostedNode} [c.site.Lawful]
  {deeds : List (Mutation × Except Violation Answer)}

theorem published_of_allowed (ha : c.Allows call s nodes nodes') :
    c.published call s = c.publish ⟨c.gid, nodes'⟩ (c.prepared call s) := by
  have hown : c.ownNodes (c.prepared call s) = nodes' :=
    ownNodes_of_registered (by rw [graph_prepared ha, Graph.get?_setNodes_self])
  rw [published, hown]

section Deeds
variable (ha : c.Allows call s nodes nodes')
  (hdeeds : c.site.Performs deeds (c.prepared call s) (c.published call s).2)
  (hothers : ∀ d ∈ deeds, d.1.key ≠ .participant c.gid)
include ha hdeeds hothers

/-- When it has been published, the new node list stands beside what the publisher did. -/
theorem graph_published : let alone := (c.site.graph s).performAll (deeds.map (·.1))
    alone.1 = deeds ∧ alone.2.participants.get? c.gid = some nodes ∧
      c.site.graph (c.published call s).2 = alone.2.setNodes c.gid nodes' ∧
      0 < (c.site.cache (c.published call s).2).window.depth := by
  intro alone
  have hkeys : ∀ m ∈ deeds.map (·.1), m.key ≠ .participant c.gid := List.forall_mem_map.2 hothers
  have hown := Graph.get?_performAll hkeys (c.site.graph s)
  obtain ⟨hall, hopen⟩ := hdeeds.of_open (depth_prepared ha)
  rw [graph_prepared ha, Graph.performAll_setNodes hkeys] at hall
  exact ⟨congrArg Prod.fst hall, hown.trans ha.registered, (congrArg Prod.snd hall).symm, hopen⟩

theorem graph_commit_of_deeds_sent (hp : (c.published call s).1 = .sent) :
    let r := c.commit call.purpose nodes ⟨c.gid, nodes'⟩ (c.prepared call s)
    r.1 = .announced ∧ c.site.graph r.2 =
      ((c.site.graph s).performAll (deeds.map (·.1))).2.setNodes c.gid nodes' := by
  obtain ⟨-, -, hgraph, -⟩ := graph_published ha hdeeds hothers
  rw [published_of_allowed ha] at hp hgraph
  rw [commit_of_sent _ _ (Prod.ext hp rfl)]
  refine ⟨rfl, ?_⟩
  rw [← hgraph, Site.graph, Site.cache_report, Site.graph]

/-- The old node list is put in the place of the new one, and that is where it was. -/
theorem graph_commit_of_deeds_failed {e : Error} (hp : (c.published call s).1 = .failed e) :
    let r := c.commit call.purpose nodes ⟨c.gid, nodes'⟩ (c.prepared call s)
    r.1 = .refused e ∧ c.site.graph r.2 = ((c.site.graph s).performAll (deeds.map (·.1))).2 := by
  obtain ⟨-, hown, hgraph, hopen⟩ := graph_published ha hdeeds hothers
  rw [published_of_allowed ha] at hp hgraph hopen
  rw [commit_of_failed _ _ (Prod.ext hp rfl)]
  refine ⟨rfl, ?_⟩
  dsimp only
  rw [Site.graph, Site.cache_restoreNodes_of_open _ _ (by rw [Site.cache_report]; exact hopen),
    Cache.graph_hold, Site.graph, Site.cache_report, ← Site.graph, hgraph, Graph.setNodes_setNodes,
    Graph.setNodes_of_get? hown]

end Deeds

/-- What a publisher does to endpoints and to other participants while it publishes is neither lost
nor changed by the call that it serves. It is what the same mutations alone would do to the graph
before the call, with the same answers. Beside it stands the node list that the call leads to, if
that was announced, and the one from before the call if it was not. Listeners are told after that,
so that it is what the call leaves unless they act on the graph themselves. -/
theorem run_keeps_deeds_of_publisher (hdone : ∀ why, (c.run call s).1 ≠ .crashed why)
    (hdeeds : c.site.Performs deeds (c.prepared call s) (c.published call s).2)
    (hothers : ∀ d ∈ deeds, d.1.key ≠ .participant c.gid) :
    let alone := (c.site.graph s).performAll (deeds.map (·.1))
    ∃ nodes nodes' final, c.Allows call s nodes nodes' ∧ (c.run call s).2 = c.site.closed final ∧
      alone.1 = deeds ∧ alone.2.participants.get? c.gid = some nodes ∧
      ((c.run call s).1 = .announced ↔ (c.published call s).1 = .sent) ∧
      ((c.run call s).1 = .announced → c.site.graph final = alone.2.setNodes c.gid nodes') ∧
      (∀ e, (c.run call s).1 = .refused e → c.site.graph final = alone.2) ∧
      ((∀ t, c.site.cache (c.site.changed t) = c.site.cache t) →
        c.site.graph (c.run call s).2 = c.site.graph final) := by
  intro alone
  obtain ⟨nodes, nodes', ha⟩ := allows_of_not_crashed hdone
  obtain ⟨hanswers, hown, -, -⟩ := graph_published ha hdeeds hothers
  have hrun := run_of_allowed ha
  have hquiet (h : ∀ t, c.site.cache (c.site.changed t) = c.site.cache t) (t : σ) :
      c.site.graph (c.site.closed t) = c.site.graph t :=
    have : c.site.Quiet := ⟨h⟩
    graph_closed t
  refine ⟨nodes, nodes', (c.commit call.purpose nodes ⟨c.gid, nodes'⟩ (c.prepared call s)).2, ha,
    by rw [hrun], hanswers, hown, ?_⟩
  cases hp : (c.published call s).1 with
  | sent =>
    obtain ⟨hout, hgraph⟩ := graph_commit_of_deeds_sent ha hdeeds hothers hp
    rw [hrun]
    exact ⟨iff_of_true hout rfl, fun _ => hgraph, by simp [hout], fun h => hquiet h _⟩
  | failed e =>
    obtain ⟨hout, hgraph⟩ := graph_commit_of_deeds_failed ha hdeeds hothers hp
    rw [hrun]
    exact ⟨iff_of_false (by simp [hout]) (by simp), by simp [hout], fun _ _ => hgraph,
      fun h => hquiet h _⟩
  | crashed why =>
    rw [published_of_allowed ha] at hp
    have hcrashed : (c.run call s).1 = .crashed why := by
      rw [hrun, commit_of_crashed _ _ (Prod.ext hp rfl)]
    exact absurd hcrashed (hdone why)

/-- A node gives up one of two readers of one identifier. Its publisher finds a writer, adds a node
to a second participant, hears of a third one, and then fails. -/
theorem run_keeps_deeds_of_publisher_refused :
    let gid (b : UInt8) := Gid.ofLeading [b]
    let talker : NodeName := ⟨"/", "talker"⟩
    let w : Watched := { cache := { graph := (Graph.empty.setNodes (gid 1)
      [{ id := talker, readers := [gid 4, gid 4] }]).setNodes (gid 2) [] } }
    let ms : List Mutation := [.addEndpoint .writer (gid 5) ⟨"rt/chatter", "String", gid 1, {}⟩,
      .changeNode (gid 2) ⟨"/", "listener"⟩ .add, .announce ⟨gid 3, [{ id := talker }]⟩]
    let c : Context Watched := {
      gid := gid 1
      site := Watched.site
      publisher := fun _ => some fun _ t =>
        (.failed (.transport "closed"), (Watched.site.performAll ms t).2) }
    let call : Call := ⟨.destruction, .subscription (gid 4), talker⟩
    let deeds := (Watched.site.performAll ms (c.prepared call w)).1
    let r := c.run call w
    (∀ why, r.1 ≠ .crashed why) ∧ c.site.Performs deeds (c.prepared call w) (c.published call w).2 ∧
      (∀ d ∈ deeds, d.1.key ≠ .participant c.gid) ∧ r.1 = .refused (.publishFailed "closed") ∧
      c.site.graph r.2 = ((c.site.graph w).performAll (deeds.map (·.1))).2 ∧
      (c.site.graph r.2).participants.keys = [gid 1, gid 2, gid 3] := by
  intro gid talker w ms c call deeds r
  have : c.site.Lawful := inferInstanceAs Watched.site.Lawful
  have hout : r.1 = .refused (.publishFailed "closed") := by decide +kernel
  have hdone : ∀ why, r.1 ≠ .crashed why := by simp [hout]
  have hdeeds : c.site.Performs deeds (c.prepared call w) (c.published call w).2 :=
    Site.performs_performAll ms _
  have hothers : ∀ d ∈ deeds, d.1.key ≠ .participant c.gid := by decide +kernel
  obtain ⟨-, -, final, -, -, -, -, -, -, hrefused, hquiet⟩ :=
    run_keeps_deeds_of_publisher hdone hdeeds hothers
  have hgraph := (hquiet fun _ => rfl).trans (hrefused _ hout)
  exact ⟨hdone, hdeeds, hothers, hout, hgraph, by decide +kernel⟩

end Context

end RosGraph
