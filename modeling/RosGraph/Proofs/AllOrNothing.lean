import RosGraph.Proofs.Watched

/-! Calls of a context are all or nothing: what is announced stands, and what is not
announced is undone. -/

namespace RosGraph.Watched

open Lifecycle NodeChange

/-- What becomes of the reason that a publisher gives. -/
theorem asPublishFailure_spec (cause : Error) :
    (∀ reason, cause = .publishFailed reason → cause.asPublishFailure = cause) ∧
    ((∀ reason, cause ≠ .publishFailed reason) →
      cause.asPublishFailure = .publishFailed cause.message) := by
  cases cause <;> simp [Error.asPublishFailure]

/-- A call that does not crash either announces the node list that it leads to, and that
list stands, or it is refused and the graph is what it was. It touches nothing but the
nodes of its own participant. It is refused for want of a publisher exactly if there is
none, and else for the reason that its publisher gave for the one message it was handed. -/
theorem run_all_or_nothing (gid : Gid) (answer : Option (Announcement → Watched → Delivery))
    (call : Call) (w : Watched)
    (hdone : ∀ why, ((context gid answer).run call w).1 ≠ .crashed why) :
    let before := w.cache.graph
    let r := (context gid answer).run call w
    let after := r.2.cache.graph
    (r.1 = .announced → ∃ nodes a, before.participants.get? gid = some nodes ∧
      nodesAfterAll? call.node call.changes nodes = some a.nodes ∧
      r.2.attempts = w.attempts ++ [(a, .sent)] ∧ after.participant? gid = some a) ∧
    (∀ e, r.1 = .refused e → after = before) ∧
    (after.writers = before.writers ∧ after.readers = before.readers ∧
      ∀ other, other ≠ gid → after.participants.get? other = before.participants.get? other) ∧
    (r.1 = .refused .publisherUnavailable ↔ answer = none) ∧
    (∀ e, r.1 = .refused e → answer = none ∧ r.2.attempts = w.attempts ∨
      ∃ a cause, r.2.attempts = w.attempts ++ [(a, .failed cause)] ∧
        (∀ reason, cause = .publishFailed reason → e = cause) ∧
        ((∀ reason, cause ≠ .publishFailed reason) → e = .publishFailed cause.message)) := by
  by_cases hallowed : ∃ nodes nodes', (context gid answer).Allows call w nodes nodes'
  · obtain ⟨nodes, nodes', ha⟩ := hallowed
    cases answer with
    | none =>
      obtain ⟨hout, hgraph, hattempts⟩ := run_detached ha
      simp [hout, hgraph, hattempts]
    | some rule =>
      have hattempts := attempts_run ha
      cases hd : rule ⟨gid, nodes'⟩ ((context gid (some rule)).prepared call w) with
      | sent =>
        obtain ⟨hout, hgraph⟩ := run_sent ha hd
        rw [hd] at hattempts
        have hlisted : ((context gid (some rule)).run call w).2.cache.graph.participant? gid =
            some ⟨gid, nodes'⟩ := by simp [hgraph, Graph.participant?]
        refine ⟨fun _ => ⟨nodes, ⟨gid, nodes'⟩, ha.registered, ha.after, hattempts, hlisted⟩, ?_, ?_, ?_, ?_⟩
        · simp [hout]
        · rw [hgraph]
          exact ⟨rfl, rfl, fun other h => Graph.get?_setNodes_of_ne _ h nodes'⟩
        · simp [hout]
        · simp [hout]
      | failed cause =>
        obtain ⟨hout, hgraph⟩ := run_failed ha hd
        rw [hd] at hattempts
        have hcause : cause.asPublishFailure ≠ .publisherUnavailable := by
          cases cause <;> simp [Error.asPublishFailure]
        refine ⟨?_, fun _ _ => hgraph, ?_, ?_, fun e he => ?_⟩
        · simp [hout]
        · simp [hgraph]
        · simp [hout, hcause]
        · obtain rfl : cause.asPublishFailure = e := by simpa [hout] using he
          exact .inr ⟨_, cause, hattempts, asPublishFailure_spec cause⟩
      | crashed why => exact absurd (run_crashed ha hd) (hdone why)
  · have hnot : ∀ nodes nodes', ¬ (context gid answer).Allows call w nodes nodes' :=
      fun nodes nodes' ha => hallowed ⟨nodes, nodes', ha⟩
    obtain ⟨v, hv⟩ := Context.run_of_not_allowed hnot
    exact absurd (congrArg Prod.fst hv) (hdone (.violation v))

/-- Two nodes of one name, of which the first lists a reader twice. -/
def talkers : List HostedNode :=
  [{ id := ⟨"/", "talker"⟩, readers := [.ofLeading [1], .ofLeading [1]] },
    { id := ⟨"/", "talker"⟩ }]

theorem run_all_or_nothing_service :
    let w : Watched := { cache := { graph := Graph.empty.setNodes .zero talkers } }
    let call : Call := ⟨.creation, .service (.ofLeading [1]) (.ofLeading [2]), ⟨"/", "talker"⟩⟩
    let r := (context .zero (some fun _ _ => .failed (.transport "closed"))).run call w
    (∀ why, r.1 ≠ .crashed why) ∧ r.1 = .refused (.publishFailed "closed") ∧
      r.2.cache.graph = w.cache.graph := by
  intro w call r
  have hout : r.1 = .refused (.publishFailed "closed") := by decide
  have hdone : ∀ why, r.1 ≠ .crashed why := by simp [hout]
  exact ⟨hdone, hout, (run_all_or_nothing .zero _ call w hdone).2.1 _ hout⟩

end RosGraph.Watched
