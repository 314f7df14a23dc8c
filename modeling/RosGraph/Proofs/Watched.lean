import RosGraph.Proofs.Balanced

/-! A cache in surroundings that are watched: what the publisher is handed and answers is
recorded, and so is each notice of a change with the graph that the listener could see.
The publisher may answer as it likes, but it does not touch the cache. -/

namespace RosGraph

open Lifecycle NodeChange

/-- What can be seen around a cache. -/
inductive Sighting
  | published (message : Announcement) (answer : Delivery)
  | changed (graph : Graph)

def Sighting.attempt? : Sighting → Option (Announcement × Delivery)
  | published a d => some (a, d)
  | changed _ => none

/-- A cache with all that was seen and logged around it. -/
structure Watched where
  cache : Cache := {}
  sightings : List Sighting := []
  log : List Log.Record := []

namespace Watched

def site : Site Watched where
  cache := cache
  setCache c w := { w with cache := c }
  report log w := { w with log := w.log ++ log }
  changed w := { w with sightings := w.sightings ++ [.changed w.cache.graph] }

/-- What was handed to publishers, with their answers. -/
def attempts (w : Watched) : List (Announcement × Delivery) := w.sightings.filterMap Sighting.attempt?

/-- A context whose publisher, if it has one, answers by a rule. -/
def context (gid : Gid) (answer : Option (Announcement → Watched → Delivery)) : Context Watched where
  gid := gid
  site := site
  publisher _ := answer.map fun rule a w =>
    (rule a w, { w with sightings := w.sightings ++ [.published a (rule a w)] })

instance : site.Quiet where
  cache_setCache _ _ := rfl
  cache_report _ _ := rfl
  cache_changed _ := rfl

instance : site.Part where
  setCache_setCache _ _ _ := rfl
  setCache_cache _ := rfl

theorem balanced_changed : site.Balanced site.changed := fun _ => Site.paired_of_window_eq rfl

instance (gid : Gid) (answer : Option (Announcement → Watched → Delivery)) :
    (context gid answer).site.Quiet := inferInstanceAs site.Quiet

theorem hidden_attempts (gid : Gid) (answer : Option (Announcement → Watched → Delivery)) :
    (context gid answer).site.Hidden attempts where
  setCache _ _ := rfl
  report _ _ := rfl
  changed w := by simp [attempts, context, site, Sighting.attempt?]

theorem undisturbed (gid : Gid) (answer : Option (Announcement → Watched → Delivery)) :
    (context gid answer).Undisturbed := by
  intro s send hsend a t
  obtain ⟨rule, -, rfl⟩ := Option.map_eq_some_iff.1 hsend
  rfl

variable {gid : Gid} {answer : Option (Announcement → Watched → Delivery)} {call : Call} {w : Watched}
  {nodes nodes' : List HostedNode}

@[simp] theorem gid_context : (context gid answer).gid = gid := rfl

theorem publish_attached (gid : Gid) (rule : Announcement → Watched → Delivery) (a : Announcement)
    (w : Watched) : (context gid (some rule)).publish a w = ((rule a w).asPublication,
      { w with sightings := w.sightings ++ [.published a (rule a w)] }) := rfl

/-- Without a publisher the call is refused, and nothing is handed over. -/
theorem run_detached (ha : (context gid none).Allows call w nodes nodes') :
    let r := (context gid none).run call w
    r.1 = .refused .publisherUnavailable ∧ r.2.cache.graph = w.cache.graph ∧
      r.2.attempts = w.attempts := by
  have hfail := Context.graph_run_of_failed (undisturbed gid none) ha (e := .publisherUnavailable) rfl
  refine ⟨hfail.1, hfail.2, ?_⟩
  rw [Context.view_run (hidden_attempts gid none) ha]
  exact Context.view_prepared (hidden_attempts gid none) call w

/-- An announcement that is handed over is the new node list, and its answer decides the call. -/
theorem attempts_run {rule : Announcement → Watched → Delivery}
    (ha : (context gid (some rule)).Allows call w nodes nodes') :
    ((context gid (some rule)).run call w).2.attempts = w.attempts ++
      [(⟨gid, nodes'⟩, rule ⟨gid, nodes'⟩ ((context gid (some rule)).prepared call w))] := by
  rw [Context.view_run (hidden_attempts gid (some rule)) ha]
  have hprepared := Context.view_prepared (hidden_attempts gid (some rule)) call w
  rw [← hprepared, publish_attached]
  simp [attempts, Sighting.attempt?]

theorem run_sent {rule : Announcement → Watched → Delivery}
    (ha : (context gid (some rule)).Allows call w nodes nodes')
    (hd : rule ⟨gid, nodes'⟩ ((context gid (some rule)).prepared call w) = .sent) :
    let r := (context gid (some rule)).run call w
    r.1 = .announced ∧ r.2.cache.graph = w.cache.graph.setNodes gid nodes' := by
  refine Context.graph_run_of_sent (undisturbed gid (some rule)) ha ?_
  rw [publish_attached, gid_context, hd]
  rfl

theorem run_failed {rule : Announcement → Watched → Delivery} {cause : Error}
    (ha : (context gid (some rule)).Allows call w nodes nodes')
    (hd : rule ⟨gid, nodes'⟩ ((context gid (some rule)).prepared call w) = .failed cause) :
    let r := (context gid (some rule)).run call w
    r.1 = .refused cause.asPublishFailure ∧ r.2.cache.graph = w.cache.graph := by
  refine Context.graph_run_of_failed (undisturbed gid (some rule)) ha ?_
  rw [publish_attached, gid_context, hd]
  rfl

theorem run_crashed {rule : Announcement → Watched → Delivery} {why : Crash}
    (ha : (context gid (some rule)).Allows call w nodes nodes')
    (hd : rule ⟨gid, nodes'⟩ ((context gid (some rule)).prepared call w) = .crashed why) :
    ((context gid (some rule)).run call w).1 = .crashed why := by
  have hp := publish_attached gid rule ⟨gid, nodes'⟩ ((context gid (some rule)).prepared call w)
  rw [hd] at hp
  rw [Context.run_of_allowed ha]
  exact congrArg Prod.fst (Context.commit_of_crashed _ _ hp)

end Watched

end RosGraph
