import RosGraph.Proofs.Watched
import RosGraph.Simulation.Step

/-! Breaches of the contract leave no trace. A call that names a participant or a node that is not
there crashes in the state in which it was made: its first change is refused, and its window
closes as it was opened. A run without such calls is the same run, with the same replies,
publications and notices. -/

namespace RosGraph

open Lifecycle NodeChange

variable {σ : Type}

instance (change : NodeChange) : Decidable change.NeedsNode := match change with
  | .add | .remove => isFalse id
  | .associate .. | .dissociate .. => isTrue trivial

/-- What is wrong with naming a node of a participant, if something is. -/
def Graph.breach? (g : Graph) (participant : Gid) (node : NodeName) (needed : Prop)
    [Decidable needed] : Option Violation :=
  match g.participants.get? participant with
  | none => some (.unknownParticipant participant)
  | some nodes =>
    if needed ∧ ∀ n ∈ nodes, n.id ≠ node then some (.unknownNode node participant) else none

/-- Something that is done with a shared graph. -/
inductive Move (σ : Type)
  | mutation (m : Mutation)
  /-- A call of a local participant, with the publisher that it has attached at the time. -/
  | call (participant : Gid) (publisher : σ → Option (Publisher σ)) (c : Call)
  | question (q : Simulation.Query)
  /-- Anything else: listeners and publishers that come and go, messages of peers. -/
  | other (act : σ → σ)

namespace Move

/-- What comes back from a move. -/
inductive Reply
  | answer (a : Answer)
  | outcome (o : Outcome)
  | reply (r : Simulation.Reply)
  | done

/-- The breach of contract that a move commits itself, whatever its publisher does. -/
def breach? (g : Graph) : Move σ → Option Violation
  | mutation (.changeNode participant node change) => g.breach? participant node change.NeedsNode
  | mutation _ => none
  | call participant _ c => g.breach? participant c.node (c.subject ≠ .node)
  | question _ | other _ => none

def play (site : Site σ) : Move σ → σ → Reply × σ
  | mutation m, s => match site.perform m s with
    | (.ok a, t) => (.answer a, t)
    | (.error v, t) => (.outcome (.crashed (.violation v)), t)
  | call gid publisher c, s =>
    let r := Context.run { gid, site, publisher } c s
    (.outcome r.1, r.2)
  | question q, s => (.reply (q.ask (site.graph s)), s)
  | other act, s => (.done, act s)

/-- A move opens and closes windows in pairs. -/
def Balanced (site : Site σ) : Move σ → Prop
  | mutation _ | question _ => True
  | call _ publisher _ => site.BalancedPublisher publisher
  | other act => site.Balanced act

/-- The move is a call whose publisher crashes when it is handed a node list. -/
def PublisherCrashes (site : Site σ) (s : σ) (why : Crash) : Move σ → Prop
  | call gid publisher c =>
    let context : Context σ := { gid, site, publisher }
    ∃ nodes, (context.publish ⟨gid, nodes⟩ (context.prepared c s)).1 = .crashed why
  | _ => False

end Move

namespace Site

variable (site : Site σ)

/-- A move in a run, with its reply and the states around it. -/
structure Entry (σ : Type) where
  move : Move σ
  before : σ
  reply : Move.Reply
  after : σ

def Entry.breach? (e : Entry σ) : Option Violation := e.move.breach? (site.graph e.before)

def entry (move : Move σ) (s : σ) : Entry σ :=
  let r := move.play site s
  ⟨move, s, r.1, r.2⟩

def history : List (Move σ) → σ → List (Entry σ)
  | [], _ => []
  | move :: rest, s => site.entry move s :: history rest (site.entry move s).after

/-- The state at the end of a run. -/
def final : List (Move σ) → σ → σ
  | [], s => s
  | move :: rest, s => final rest (site.entry move s).after

/-- The moves of a run that keep the contract in the states that the run comes to. -/
def upheld : List (Move σ) → σ → List (Move σ)
  | [], _ => []
  | move :: rest, s =>
    let kept := upheld rest (site.entry move s).after
    if (move.breach? (site.graph s)).isNone then move :: kept else kept

end Site

section Breach
variable {g : Graph} {participant : Gid} {node : NodeName} {needed : Prop} [Decidable needed]
  {v : Violation}

theorem Graph.breach?_eq_none_iff : g.breach? participant node needed = none ↔
    ∃ nodes, g.participants.get? participant = some nodes ∧ (needed → ∃ n ∈ nodes, n.id = node) := by
  rw [breach?]
  cases g.participants.get? participant with
  | none => simp
  | some nodes => simp

theorem Graph.breach?_eq_some_iff : g.breach? participant node needed = some v ↔
    (g.participants.get? participant = none ∧ v = .unknownParticipant participant) ∨
    ∃ nodes, g.participants.get? participant = some nodes ∧ (needed ∧ ∀ n ∈ nodes, n.id ≠ node) ∧
      v = .unknownNode node participant := by
  rw [breach?]
  cases g.participants.get? participant with
  | none => simp [eq_comm]
  | some nodes => simp [eq_comm, and_assoc]

theorem Move.apply_of_breach {m : Mutation} (h : (mutation m : Move σ).breach? g = some v) :
    m.apply g = .error v := by
  cases m with
  | changeNode participant node change =>
    rw [Mutation.apply_changeNode]
    obtain ⟨hreg, rfl⟩ | ⟨nodes, hreg, hnode, rfl⟩ := Graph.breach?_eq_some_iff.1 h
    · rw [hreg]
    · rw [hreg]
      dsimp only
      rw [nodesAfter?_eq_none_iff.2 hnode]
  | _ => contradiction

theorem Move.apply_of_no_breach {m : Mutation} (h : (mutation m : Move σ).breach? g = none) :
    ∃ e, m.apply g = .ok e := by
  cases m with
  | changeNode participant node change =>
    obtain ⟨nodes, hreg, hnode⟩ := Graph.breach?_eq_none_iff.1 h
    rw [Mutation.apply_changeNode, hreg]
    dsimp only
    cases hafter : change.nodesAfter? node nodes with
    | none =>
      obtain ⟨hneeds, habsent⟩ := nodesAfter?_eq_none_iff.1 hafter
      obtain ⟨n, hn, hid⟩ := hnode hneeds
      exact absurd hid (habsent n hn)
    | some nodes' => exact ⟨_, rfl⟩
  | _ => exact ⟨_, rfl⟩

end Breach

namespace Context
variable {c : Context σ} {call : Call} {s : σ} {v : Violation}

theorem run_of_breach [c.site.Part] (htidy : c.site.Tidy s)
    (h : (c.site.graph s).breach? c.gid call.node (call.subject ≠ .node) = some v) :
    c.run call s = (.crashed (.violation v), s) := by
  obtain ⟨hreg, rfl⟩ | ⟨nodes, hreg, hnode, rfl⟩ := Graph.breach?_eq_some_iff.1 h
  · rw [run_of_unregistered call hreg, Site.closed_opened htidy]
  · rw [run_of_no_node hreg (Call.nodesAfterAll?_eq_none_iff.2 hnode), Site.closed_opened htidy]

theorem allows_of_no_breach
    (h : (c.site.graph s).breach? c.gid call.node (call.subject ≠ .node) = none) :
    ∃ nodes nodes', c.Allows call s nodes nodes' := by
  obtain ⟨nodes, hreg, hnode⟩ := Graph.breach?_eq_none_iff.1 h
  cases hafter : nodesAfterAll? call.node call.changes nodes with
  | none =>
    obtain ⟨hneeds, habsent⟩ := Call.nodesAfterAll?_eq_none_iff.1 hafter
    obtain ⟨n, hn, hid⟩ := hnode hneeds
    exact absurd hid (habsent n hn)
  | some nodes' => exact ⟨nodes, nodes', hreg, hafter⟩

theorem publish_of_crashed [c.site.Lawful] {nodes nodes' : List HostedNode} {why : Crash}
    (ha : c.Allows call s nodes nodes') (h : (c.run call s).1 = .crashed why) :
    (c.publish ⟨c.gid, nodes'⟩ (c.prepared call s)).1 = .crashed why := by
  rw [run_of_allowed ha] at h
  match hp : c.publish ⟨c.gid, nodes'⟩ (c.prepared call s) with
  | (.sent, t) =>
    rw [commit_of_sent _ _ hp] at h
    contradiction
  | (.failed e, t) =>
    rw [commit_of_failed _ _ hp] at h
    contradiction
  | (.crashed why', t) =>
    rw [commit_of_crashed _ _ hp] at h
    exact congrArg Delivery.crashed (Outcome.crashed.inj h)

end Context

namespace Move
variable {site : Site σ} {move : Move σ} {s : σ} {v : Violation} {why : Crash}

/-- A breach ends the move where it began. -/
theorem play_of_breach [site.Part] (htidy : site.Tidy s)
    (h : move.breach? (site.graph s) = some v) :
    move.play site s = (.outcome (.crashed (.violation v)), s) := by
  cases move with
  | mutation m => rw [play, Site.perform, apply_of_breach h, Site.attempt]
  | call gid publisher c =>
    rw [play, Context.run_of_breach (c := { gid, site, publisher }) htidy h]
  | question | other => contradiction

/-- Nothing else crashes but a publisher. -/
theorem publisherCrashes_of_no_breach [site.Lawful] (h : move.breach? (site.graph s) = none)
    (hcrash : (move.play site s).1 = .outcome (.crashed why)) : move.PublisherCrashes site s why := by
  cases move with
  | mutation m =>
    obtain ⟨e, he⟩ := apply_of_no_breach h
    rw [play, Site.perform, he, Site.attempt] at hcrash
    contradiction
  | call gid publisher c =>
    obtain ⟨nodes, nodes', ha⟩ := Context.allows_of_no_breach (c := { gid, site, publisher }) h
    exact ⟨nodes', Context.publish_of_crashed ha (Reply.outcome.inj hcrash)⟩
  | question | other => contradiction

theorem Balanced.paired_play [site.Lawful] (hlistener : site.Balanced site.changed)
    (h : move.Balanced site) (s : σ) : site.Paired s (move.play site s).2 := by
  cases move with
  | mutation m =>
    have hperform := Site.paired_perform hlistener m s
    rw [play]
    split
    · next heq => rwa [heq] at hperform
    · next heq => rwa [heq] at hperform
  | call gid publisher c =>
    exact Context.paired_run (c := { gid, site, publisher }) h hlistener c s
  | question q => exact Site.Paired.refl s
  | other act => exact h s

end Move

namespace Site
variable {site : Site σ} {move : Move σ} {s : σ} {v : Violation}

theorem entry_of_breach [site.Part] (hs : site.Tidy s) (h : move.breach? (site.graph s) = some v) :
    site.entry move s = ⟨move, s, .outcome (.crashed (.violation v)), s⟩ := by
  rw [entry, Move.play_of_breach hs h]

/-- Without the moves that commit a breach, a run goes as it went with them: the rest of its
history is the same, with all states, replies, publications and notices, and so is its end. Each
breach crashes in the state in which it was committed, and a move that commits none crashes only
if its publisher does. This holds of a run in an open window too, such as that of a publisher. -/
theorem history_upheld [site.Part] (hlistener : site.Balanced site.changed) {moves : List (Move σ)}
    (hmoves : ∀ move ∈ moves, move.Balanced site) (hs : site.Tidy s) :
    site.history (site.upheld moves s) s =
        (site.history moves s).filter (fun e => (e.breach? site).isNone) ∧
      site.final (site.upheld moves s) s = site.final moves s ∧
      ∀ e ∈ site.history moves s,
        (∀ v, e.breach? site = some v →
          e.reply = .outcome (.crashed (.violation v)) ∧ e.after = e.before) ∧
        (e.breach? site = none → ∀ why, e.reply = .outcome (.crashed why) →
          e.move.PublisherCrashes site e.before why) := by
  induction moves generalizing s with
  | nil => exact ⟨rfl, rfl, fun e he => absurd he List.not_mem_nil⟩
  | cons move rest ih =>
    have htidy : site.Tidy (site.entry move s).after :=
      ((hmoves move List.mem_cons_self).paired_play hlistener s hs).1
    obtain ⟨hhistory, hfinal, hentries⟩ := ih (fun m hm => hmoves m (List.mem_cons_of_mem _ hm)) htidy
    have hbreach : (site.entry move s).breach? site = move.breach? (site.graph s) := rfl
    -- A breach is back where it began, so that the rest of the run goes on from there.
    have hback (hdropped : ¬ (move.breach? (site.graph s)).isNone) : (site.entry move s).after = s := by
      cases hmove : move.breach? (site.graph s) with
      | none => exact absurd (hmove ▸ rfl) hdropped
      | some v => rw [entry_of_breach hs hmove]
    rw [upheld, history, final, List.filter_cons, hbreach]
    refine ⟨?_, ?_, List.forall_mem_cons.2 ⟨⟨fun v hv => ?_, fun hnone why hcrash => ?_⟩, hentries⟩⟩
    · split_ifs with hkept
      · rw [history, hhistory]
      · rw [← hhistory, hback hkept]
    · split_ifs with hkept
      · rw [final, hfinal]
      · rw [← hfinal, hback hkept]
    · have hentry := entry_of_breach hs (hbreach ▸ hv)
      exact ⟨congrArg Entry.reply hentry, congrArg Entry.after hentry⟩
    · exact Move.publisherCrashes_of_no_breach hnone hcrash

end Site

namespace Watched

/-- The publisher delivers its message to a peer on the same cache. Of the six moves the first
comes before its participant, and the third and the fifth before their nodes. -/
theorem history_upheld_early_calls :
    let gid (b : UInt8) := Gid.ofLeading [b]
    let peer : LocalParticipant Watched := ⟨gid 2, site⟩
    let send : Publisher Watched := fun a w =>
      (.sent, peer.receive a { w with sightings := w.sightings ++ [.published a .sent] })
    let call (subject : Subject) : Move Watched :=
      .call (gid 1) (fun _ => some send) ⟨.creation, subject, ⟨"/", "talker"⟩⟩
    let moves := [call .node, .other (LocalParticipant.join ⟨gid 1, site⟩),
      call (.client (gid 3) (gid 4)), call .node,
      .mutation (.changeNode (gid 1) ⟨"/", "ghost"⟩ (.associate .reader (gid 5))),
      call (.client (gid 3) (gid 4))]
    site.Balanced site.changed ∧ (∀ move ∈ moves, move.Balanced site) ∧ site.Tidy {} ∧
      (site.upheld moves {}).length = 3 ∧
      site.history (site.upheld moves {}) {} =
        (site.history moves {}).filter (fun e => (e.breach? site).isNone) ∧
      (site.final moves {}).sightings.length = 5 := by
  intro gid peer send call moves
  have hsend (subject : Subject) : (call subject).Balanced site := by
    intro w send' hattached a t
    obtain rfl := Option.some.inj hattached
    have hrecord : site.Paired t { t with sightings := t.sightings ++ [.published a .sent] } :=
      Site.paired_of_window_eq rfl
    exact hrecord.trans (LocalParticipant.paired_receive (p := peer) balanced_changed a _)
  have hjoin : (Move.other (LocalParticipant.join ⟨gid 1, site⟩)).Balanced site :=
    LocalParticipant.paired_join (p := ⟨gid 1, site⟩) balanced_changed
  have hmoves : ∀ move ∈ moves, move.Balanced site := by
    simp only [moves, List.forall_mem_cons]
    exact ⟨hsend _, hjoin, hsend _, hsend _, trivial, hsend _, fun _ h => absurd h List.not_mem_nil⟩
  have htidy : site.Tidy ({} : Watched) := fun _ => rfl
  exact ⟨balanced_changed, hmoves, htidy, by decide +kernel,
    (Site.history_upheld balanced_changed hmoves htidy).1, by decide +kernel⟩

end Watched

end RosGraph
