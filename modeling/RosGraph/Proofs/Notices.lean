import RosGraph.Proofs.Watched

/-! What a listener sees of a cache. While a window is open no listener is told of anything,
so that a call of a context tells it at most once, when all is done: after the publication,
and of the graph that stands. A mutation outside of any call tells it at once, if it changes
anything. In both cases the window is closed afterwards and nothing is held back. -/

namespace RosGraph

open Lifecycle NodeChange

/-- The only change that listeners are not told of is the removal of a node that is not there. -/
theorem NodeChange.notifies_eq_false_iff {node : NodeName} {nodes : List HostedNode}
    {change : NodeChange} :
    change.notifies node nodes = false ↔ change = .remove ∧ ∀ n ∈ nodes, n.id ≠ node := by
  cases change <;> simp [notifies]

theorem NodeChange.nodesAfter?_of_silent {node : NodeName} {nodes : List HostedNode}
    {change : NodeChange} (h : change.notifies node nodes = false) :
    change.nodesAfter? node nodes = some nodes := by
  obtain ⟨rfl, habsent⟩ := notifies_eq_false_iff.1 h
  simpa [nodesAfter?] using habsent

/-- A mutation that says nothing to listeners has changed nothing. -/
theorem Mutation.graph_eq_of_silent {m : Mutation} {g : Graph} {e : Effect Answer}
    (h : m.apply g = .ok e) (hsilent : e.notifies = false) : e.graph = g := by
  cases m with
  | addEndpoint kind gid r =>
    obtain rfl := Except.ok.inj h
    simp only [Effect.map, Graph.addEndpoint] at hsilent ⊢
    split_ifs at hsilent ⊢
    rfl
  | removeEndpoint kind gid =>
    obtain rfl := Except.ok.inj h
    simp only [Effect.map, Graph.removeEndpoint] at hsilent ⊢
    split_ifs at hsilent ⊢
    rfl
  | addParticipant gid =>
    obtain rfl := Except.ok.inj h
    simp only [Effect.map, Graph.addParticipant] at hsilent ⊢
    split_ifs at hsilent ⊢
    rfl
  | removeParticipant gid =>
    obtain rfl := Except.ok.inj h
    simp only [Effect.map, Graph.removeParticipant] at hsilent ⊢
    split_ifs at hsilent ⊢
    rfl
  | announce a =>
    obtain rfl := Except.ok.inj h
    contradiction
  | changeNode gid node change =>
    rw [apply_changeNode] at h
    split at h
    · contradiction
    · next nodes hreg =>
      split at h
      · contradiction
      · next nodes' hafter =>
        obtain rfl := Except.ok.inj h
        rw [NodeChange.nodesAfter?_of_silent hsilent] at hafter
        obtain rfl := Option.some.inj hafter
        exact Graph.setNodes_of_get? hreg

/-- The one kind of call that listeners may not be told of. -/
theorem Lifecycle.Call.notifiesAny_eq_false_iff {c : Call} {nodes : List HostedNode} :
    notifiesAny c.node c.changes nodes = false ↔
      (c.kind = .destruction ∧ c.subject = .node) ∧ ∀ n ∈ nodes, n.id ≠ c.node := by
  obtain ⟨kind, subject, node⟩ := c
  cases subject <;> cases kind <;>
    simp [Call.changes, Subject.endpoints, notifiesAny, notifies, nodesAfter?]

/-- A call that listeners are not told of keeps the node list. -/
theorem Lifecycle.Call.nodesAfterAll?_of_silent {c : Call} {nodes : List HostedNode}
    (h : notifiesAny c.node c.changes nodes = false) :
    nodesAfterAll? c.node c.changes nodes = some nodes := by
  obtain ⟨⟨hkind, hsubject⟩, habsent⟩ := notifiesAny_eq_false_iff.1 h
  have hchanges : c.changes = [.remove] := by simp [Call.changes, hkind, hsubject]
  rw [hchanges, nodesAfterAll?, nodesAfter?_of_silent (notifies_eq_false_iff.2 ⟨rfl, habsent⟩)]
  rfl

namespace Site

variable {σ α β : Type}

/-- Nothing that happens at the site shows in the view, except that listeners are told. -/
structure NoticesOnly (site : Site σ) (view : σ → β) : Prop where
  setCache (c : Cache) (s : σ) : view (site.setCache c s) = view s
  report (log : List Log.Record) (s : σ) : view (site.report log s) = view s

variable {site : Site σ} {s : σ}

namespace NoticesOnly
variable {view : σ → β} (h : site.NoticesOnly view)
include h

theorem setGraph (g : Graph) (s : σ) : view (site.setGraph g s) = view s := h.setCache _ s

theorem opened (s : σ) : view (site.opened s) = view s := h.setCache _ s

theorem notify_of_open (hopen : 0 < (site.cache s).window.depth) :
    view (site.notify s) = view s := by
  have hheld : (site.cache s).window.notice.1 = false := by rw [Window.notice, if_pos hopen]
  simp only [Site.notify, hheld, Bool.false_eq_true, if_false]
  exact h.setCache _ s

variable [site.Lawful]

theorem attempt_of_open (e : Except Violation (Effect α)) (hopen : 0 < (site.cache s).window.depth) :
    view (site.attempt e s).2 = view s := by
  cases e with
  | error v => rfl
  | ok e =>
    have hview : view (site.report e.log (site.setGraph e.graph s)) = view s := by
      rw [h.report, h.setGraph]
    rw [attempt, realize]
    split_ifs
    · rw [h.notify_of_open (by simpa using hopen), hview]
    · exact hview

theorem restoreNodes_of_open (gid : Gid) (nodes : List HostedNode)
    (hopen : 0 < (site.cache s).window.depth) : view (site.restoreNodes gid nodes s) = view s := by
  rw [restoreNodes, h.notify_of_open (by simpa using hopen), h.setGraph]

theorem changeNodeAll_of_open (gid : Gid) (node : NodeName) (changes : List NodeChange)
    (last : Announcement) (hopen : 0 < (site.cache s).window.depth) :
    view (site.changeNodeAll gid node changes last s).2 = view s := by
  induction changes generalizing last s with
  | nil => rfl
  | cons change rest ih =>
    have hview : view (site.changeNode gid node change s).2 = view s := h.attempt_of_open _ hopen
    have hdepth : (site.cache (site.changeNode gid node change s).2).window.depth =
        (site.cache s).window.depth := depth_attempt_of_open _ hopen
    rw [changeNodeAll]
    split
    · next heq => rw [← hview, heq]
    · next a t heq =>
      rw [heq] at hview hdepth
      rw [ih _ (by rw [hdepth]; exact hopen), hview]

end NoticesOnly

end Site

namespace Context

variable {σ β : Type} {c : Context σ} [c.site.Lawful] {view : σ → β} {call : Call} {s : σ}
  {nodes nodes' : List HostedNode}

/-- Until the window of a call closes, nothing shows but what its publisher does. -/
theorem view_commit_of_open (h : c.site.NoticesOnly view) (hu : c.Undisturbed)
    (ha : c.Allows call s nodes nodes') (purpose : String) (previous : List HostedNode)
    (a : Announcement) :
    view (c.commit purpose previous a (c.prepared call s)).2 =
      view (c.publish a (c.prepared call s)).2 := by
  have hopen : 0 < (c.site.cache (c.publish a (c.prepared call s)).2).window.depth := by
    rw [hu.cache_publish]
    exact depth_prepared ha
  match hp : c.publish a (c.prepared call s) with
  | (.sent, u) => rw [commit_of_sent _ _ hp, h.report]
  | (.failed e, u) =>
    rw [hp] at hopen
    rw [commit_of_failed _ _ hp, h.restoreNodes_of_open _ _ (by simpa using hopen), h.report]
  | (.crashed why, u) => rw [commit_of_crashed _ _ hp]

theorem view_prepared_of_open (h : c.site.NoticesOnly view) (call : Call) (s : σ) :
    view (c.prepared call s) = view s := by
  rw [prepared, h.changeNodeAll_of_open _ _ _ _ (by simp [Window.opened]), h.opened]

end Context

namespace Watched

theorem noticesOnly_sightings : site.NoticesOnly sightings where
  setCache _ _ := rfl
  report _ _ := rfl

variable {gid : Gid} {answer : Option (Announcement → Watched → Delivery)} {call : Call} {g : Graph}
  {nodes nodes' : List HostedNode}

/-- A graph that nobody is using at the time. -/
def idle (g : Graph) : Watched := { cache := { graph := g } }

/-- The notice that was held back is given when the window closes, and is of the graph that
stands then. -/
theorem closed_of_hold {t : Watched} {b : Bool}
    (h : t.cache = (⟨g, ({} : Window).opened⟩ : Cache).hold b) :
    (site.closed t).cache = { graph := g } ∧
      (site.closed t).sightings = t.sightings ++ if b then [.changed g] else [] := by
  obtain ⟨cache, sightings, log⟩ := t
  obtain rfl := h
  cases b
  · exact ⟨rfl, (List.append_nil _).symm⟩
  · exact ⟨rfl, rfl⟩

/-- What is seen of a call is what its publisher shows, and then the notice that was held back. -/
theorem sightings_run (after : Graph) (ha : (context gid answer).Allows call (idle g) nodes nodes')
    {b : Bool}
    (hcache : ((context gid answer).commit call.purpose nodes ⟨gid, nodes'⟩
      ((context gid answer).prepared call (idle g))).2.cache =
        (⟨after, ({} : Window).opened⟩ : Cache).hold b) :
    let r := (context gid answer).run call (idle g)
    r.2.cache = { graph := after } ∧
      r.2.sightings = ((context gid answer).publish ⟨gid, nodes'⟩
        ((context gid answer).prepared call (idle g))).2.sightings ++
          if b then [.changed after] else [] := by
  have hview : (context gid answer).site.NoticesOnly sightings := noticesOnly_sightings
  intro r
  have hr : r = (_, site.closed _) := Context.run_of_allowed ha
  obtain ⟨hclosed, hnotice⟩ := closed_of_hold hcache
  rw [hr]
  refine ⟨hclosed, ?_⟩
  rw [← Context.view_commit_of_open hview (undisturbed gid answer) ha call.purpose nodes]
  exact hnotice

theorem sightings_prepared (gid : Gid) (answer : Option (Announcement → Watched → Delivery)) (call : Call)
    (g : Graph) : ((context gid answer).prepared call (idle g)).sightings = [] :=
  Context.view_prepared_of_open (c := context gid answer) noticesOnly_sightings call (idle g)

/-- What is seen of a call that is announced. -/
theorem sightings_run_sent {rule : Announcement → Watched → Delivery}
    (ha : (context gid (some rule)).Allows call (idle g) nodes nodes')
    (hd : rule ⟨gid, nodes'⟩ ((context gid (some rule)).prepared call (idle g)) = .sent) :
    let r := (context gid (some rule)).run call (idle g)
    r.2.cache = { graph := g.setNodes gid nodes' } ∧
      r.2.sightings = [.published ⟨gid, nodes'⟩ .sent] ++
        if notifiesAny call.node call.changes nodes then [.changed (g.setNodes gid nodes')] else [] := by
  have hp : ((context gid (some rule)).publish ⟨gid, nodes'⟩
      ((context gid (some rule)).prepared call (idle g))).1 = .sent := by
    rw [publish_attached, hd]
    rfl
  have hseen := sightings_run (g.setNodes gid nodes') ha
    (Context.cache_commit_of_sent (undisturbed gid (some rule)) ha hp)
  simpa only [publish_attached, sightings_prepared, hd, List.nil_append, if_true] using hseen

/-- What is seen of a call that its publisher fails. -/
theorem sightings_run_failed {rule : Announcement → Watched → Delivery} {cause : Error}
    (ha : (context gid (some rule)).Allows call (idle g) nodes nodes')
    (hd : rule ⟨gid, nodes'⟩ ((context gid (some rule)).prepared call (idle g)) = .failed cause) :
    let r := (context gid (some rule)).run call (idle g)
    r.2.cache = { graph := g } ∧
      r.2.sightings = [.published ⟨gid, nodes'⟩ (.failed cause)] ++ [.changed g] := by
  have hp : ((context gid (some rule)).publish ⟨gid, nodes'⟩
      ((context gid (some rule)).prepared call (idle g))).1 = .failed cause.asPublishFailure := by
    rw [publish_attached, hd]
    rfl
  have hseen := sightings_run g ha
    (Context.cache_commit_of_failed (undisturbed gid (some rule)) ha hp)
  simpa only [publish_attached, sightings_prepared, hd, List.nil_append, if_true] using hseen

/-- What is seen of a call for which there is no publisher. -/
theorem sightings_run_detached (ha : (context gid none).Allows call (idle g) nodes nodes') :
    let r := (context gid none).run call (idle g)
    r.2.cache = { graph := g } ∧ r.2.sightings = [.changed g] := by
  have hseen := sightings_run g ha
    (Context.cache_commit_of_failed (undisturbed gid none) ha (e := .publisherUnavailable) rfl)
  have hpublish (a : Announcement) (w : Watched) : ((context gid none).publish a w).2 = w := rfl
  simpa only [hpublish, sightings_prepared, List.nil_append, if_true] using hseen

/-- What is seen of a mutation outside of any call. -/
theorem sightings_perform (m : Mutation) (g : Graph) :
    let r := site.perform m (idle g)
    (r.2.sightings = [] ∨ r.2.sightings = [.changed r.2.cache.graph]) ∧
      (r.2.cache.graph ≠ g → r.2.sightings = [.changed r.2.cache.graph]) ∧
      r.2.cache.window = {} := by
  intro r
  cases h : m.apply g with
  | error v =>
    have hr : r = (.error v, idle g) := by
      change site.attempt (m.apply g) (idle g) = _
      rw [h]
      rfl
    rw [hr]
    exact ⟨.inl rfl, fun hne => absurd rfl hne, rfl⟩
  | ok e =>
    have hr : r = (.ok e.answer, site.realize e (idle g)) := by
      change site.attempt (m.apply g) (idle g) = _
      rw [h]
      rfl
    rw [hr]
    obtain ⟨graph, answer, log, notifies⟩ := e
    cases notifies with
    | true => exact ⟨.inr rfl, fun _ => rfl, rfl⟩
    | false => exact ⟨.inl rfl, fun hne => absurd (Mutation.graph_eq_of_silent h rfl) hne, rfl⟩

/-- What is seen of a call on a graph `g`: first what was published, then the notices. -/
structure Settles (g : Graph) (gid : Gid) (call : Call) (r : Outcome × Watched)
    (published notices : List Sighting) : Prop where
  seen : r.2.sightings = published ++ notices
  /-- A notice is of the graph that the call leaves behind. -/
  settled : notices = [] ∨ notices = [.changed r.2.cache.graph]
  announced (h : r.1 = .announced) :
    ∃ a, published = [.published a .sent] ∧ r.2.cache.graph.participant? gid = some a
  undone (e : Error) (h : r.1 = .refused e) : r.2.cache.graph = g
  told (h : (∃ e, r.1 = .refused e) ∨ r.2.cache.graph ≠ g) : notices ≠ []
  untold : notices = [] ↔ r.1 = .announced ∧ (call.kind = .destruction ∧ call.subject = .node) ∧
    ∀ n ∈ g.nodesOf gid, n.id ≠ call.node
  /-- No notice is held back. -/
  closed : r.2.cache.window = {}

theorem settles_of_refused {r : Outcome × Watched} {e : Error} {published : List Sighting}
    (hout : r.1 = .refused e) (hcache : r.2.cache = { graph := g })
    (hseen : r.2.sightings = published ++ [.changed g]) :
    Settles g gid call r published [.changed g] where
  seen := hseen
  settled := .inr (by rw [hcache])
  announced h := by rw [hout] at h; contradiction
  undone _ _ := by rw [hcache]
  told _ := List.cons_ne_nil _ _
  untold := by simp [hout]
  closed := by rw [hcache]

theorem settles_of_announced {r : Outcome × Watched} (hout : r.1 = .announced)
    (hreg : g.participants.get? gid = some nodes)
    (hafter : nodesAfterAll? call.node call.changes nodes = some nodes')
    (hcache : r.2.cache = { graph := g.setNodes gid nodes' }) {notices : List Sighting}
    (hnotices : notices =
      if notifiesAny call.node call.changes nodes then [.changed (g.setNodes gid nodes')] else [])
    (hseen : r.2.sightings = [.published ⟨gid, nodes'⟩ .sent] ++ notices) :
    Settles g gid call r [.published ⟨gid, nodes'⟩ .sent] notices := by
  have hsilent : notices = [] ↔ notifiesAny call.node call.changes nodes = false := by
    rw [hnotices]
    split_ifs with h <;> simp [h]
  refine ⟨hseen, ?_, fun _ => ⟨_, rfl, ?_⟩, fun e h => ?_, ?_, ?_, ?_⟩
  · rw [hnotices, hcache]
    split_ifs
    · exact .inr rfl
    · exact .inl rfl
  · rw [hcache]
    simp [Graph.participant?]
  · rw [hout] at h
    contradiction
  · rintro (⟨e, h⟩ | hchanged) hnone
    · rw [hout] at h
      contradiction
    · rw [Call.nodesAfterAll?_of_silent (hsilent.1 hnone)] at hafter
      obtain rfl := Option.some.inj hafter
      rw [hcache] at hchanged
      exact hchanged (Graph.setNodes_of_get? hreg)
  · rw [hsilent, Call.notifiesAny_eq_false_iff, Graph.nodesOf_of_get? hreg]
    simp [hout]
  · rw [hcache]

/-- Listeners see settled graphs only, and miss no change. Of a call that does not crash at most
one publication is seen and after it at most one notice, of the graph that the call leaves
behind: with what was announced, or as it was before if the call is refused. There is a notice
if the call is refused or has changed the graph; the one call without a notice is the announced
removal of a node that is not there. Of a mutation outside of any call at most one notice is
seen, of the new graph, and there is one if the graph has changed. -/
theorem listener_sees_settled (g : Graph) :
    (∀ (gid : Gid) (answer : Option (Announcement → Watched → Delivery)) (call : Call),
      let r := (context gid answer).run call (idle g)
      (∀ why, r.1 ≠ .crashed why) → ∃ published notices,
        Settles g gid call r published notices ∧
        (answer = none ∧ published = [] ∨ answer ≠ none ∧ ∃ a d, published = [.published a d])) ∧
    ∀ m : Mutation,
      let r := site.perform m (idle g)
      (r.2.sightings = [] ∨ r.2.sightings = [.changed r.2.cache.graph]) ∧
        (r.2.cache.graph ≠ g → r.2.sightings = [.changed r.2.cache.graph]) ∧
        r.2.cache.window = {} := by
  refine ⟨?_, fun m => sightings_perform m g⟩
  intro gid answer call r hdone
  by_cases hallowed : ∃ nodes nodes', (context gid answer).Allows call (idle g) nodes nodes'
  · obtain ⟨nodes, nodes', ha⟩ := hallowed
    cases answer with
    | none =>
      obtain ⟨hcache, hseen⟩ := sightings_run_detached ha
      exact ⟨[], _, settles_of_refused (run_detached ha).1 hcache hseen, .inl ⟨rfl, rfl⟩⟩
    | some rule =>
      have hattached : some rule ≠ none := Option.some_ne_none rule
      cases hd : rule ⟨gid, nodes'⟩ ((context gid (some rule)).prepared call (idle g)) with
      | sent =>
        obtain ⟨hcache, hseen⟩ := sightings_run_sent ha hd
        exact ⟨_, _, settles_of_announced (run_sent ha hd).1 ha.registered ha.after hcache rfl hseen,
          .inr ⟨hattached, _, _, rfl⟩⟩
      | failed cause =>
        obtain ⟨hcache, hseen⟩ := sightings_run_failed ha hd
        exact ⟨_, _, settles_of_refused (run_failed ha hd).1 hcache hseen,
          .inr ⟨hattached, _, _, rfl⟩⟩
      | crashed why => exact absurd (run_crashed ha hd) (hdone why)
  · have hnot : ∀ nodes nodes', ¬ (context gid answer).Allows call (idle g) nodes nodes' :=
      fun nodes nodes' ha => hallowed ⟨nodes, nodes', ha⟩
    obtain ⟨v, hv⟩ := Context.run_of_not_allowed hnot
    exact absurd (congrArg Prod.fst hv) (hdone (.violation v))

/-- A client that is announced: both endpoints come with one notice. -/
theorem listener_sees_settled_client :
    let g := Graph.empty.setNodes .zero [{ id := ⟨"/", "talker"⟩ }]
    let call : Call := ⟨.creation, .client (.ofLeading [1]) (.ofLeading [2]), ⟨"/", "talker"⟩⟩
    let r := (context .zero (some fun _ _ => .sent)).run call (idle g)
    (∀ why, r.1 ≠ .crashed why) ∧ r.2.cache.graph ≠ g ∧
      ∃ published, Settles g .zero call r published [.changed r.2.cache.graph] := by
  intro g call r
  have hout : r.1 = .announced := by decide
  have hdone : ∀ why, r.1 ≠ .crashed why := by simp [hout]
  have hchanged : r.2.cache.graph ≠ g := by decide
  obtain ⟨published, notices, hsettles, -⟩ := (listener_sees_settled g).1 .zero _ call hdone
  have hnotices : notices = [.changed r.2.cache.graph] :=
    hsettles.settled.resolve_left (hsettles.told (.inr hchanged))
  exact ⟨hdone, hchanged, published, hnotices ▸ hsettles⟩

end Watched

end RosGraph
