import RosGraph.Proofs.Catalogue
import RosGraph.Proofs.Network
import RosGraph.Proofs.Watched

/-! The life of one participant on a cache of its own. Its calls meet a publisher that is there
and works, or fails, or is missing. What the participant hosts at any time, and what it has
told its peers, is what the announced calls are for; calls that fail or crash leave no trace. -/

namespace RosGraph

open Lifecycle NodeChange

/-- What was sent, oldest first. -/
def Watched.published (w : Watched) : List Announcement :=
  w.attempts.filterMap fun (a, d) => if d = .sent then some a else none

namespace Host

open Watched
open Network (Link)

/-- What a publisher answers. -/
def answer : Link → Option (Announcement → Watched → Delivery)
  | .detached => none
  | .broken e => some fun _ _ => .failed e
  | .working => some fun _ _ => .sent

/-- A call, and how its publisher is at the time. -/
abbrev Turn := Call × Link

section Definitions
variable (gid : Gid)

/-- The participant has joined a cache that nobody has used before. -/
def start : Watched := (LocalParticipant.mk gid site).join {}

def play (turn : Turn) (w : Watched) : Outcome × Watched :=
  (context gid (answer turn.2)).run turn.1 w

def run (turns : List Turn) (w : Watched) : Watched :=
  turns.foldl (fun w turn => (play gid turn w).2) w

/-- The calls of a run that are announced. -/
def announced : List Turn → Watched → List Call
  | [], _ => []
  | turn :: rest, w =>
    let r := play gid turn w
    (if r.1 = .announced then [turn.1] else []) ++ announced rest r.2

/-- What a call creates is not hosted already. -/
def CreatesNew (call : Call) (nodes : List HostedNode) : Prop :=
  call.kind = .creation → call.subject = .node → ∀ n ∈ nodes, n.id ≠ call.node

/-- No call of a run creates a node that the participant hosts at the time. -/
def AllCreateNew : List Turn → Watched → Prop
  | [], _ => True
  | turn :: rest, w =>
    CreatesNew turn.1 (w.cache.graph.nodesOf gid) ∧ AllCreateNew rest (play gid turn w).2

instance (call : Call) (nodes : List HostedNode) : Decidable (CreatesNew call nodes) :=
  inferInstanceAs (Decidable (_ → _ → _))

instance decidableAllCreateNew : ∀ turns w, Decidable (AllCreateNew gid turns w)
  | [], _ => isTrue trivial
  | turn :: rest, w =>
    have := decidableAllCreateNew rest (play gid turn w).2
    inferInstanceAs (Decidable (_ ∧ _))

end Definitions

variable {gid : Gid} {turn : Turn} {w : Watched} {nodes nodes' : List HostedNode}

theorem play_working {call : Call} (hreg : w.cache.graph.participants.get? gid = some nodes)
    (hafter : nodesAfterAll? call.node call.changes nodes = some nodes') :
    let r := play gid (call, .working) w
    r.1 = .announced ∧ r.2.cache.graph = w.cache.graph.setNodes gid nodes' ∧
      r.2.published = w.published ++ [⟨gid, nodes'⟩] := by
  have ha : (context gid (answer .working)).Allows call w nodes nodes' := ⟨hreg, hafter⟩
  obtain ⟨hout, hgraph⟩ := run_sent ha rfl
  have hattempts := attempts_run ha
  refine ⟨hout, hgraph, ?_⟩
  rw [published, play, answer, hattempts, List.filterMap_append]
  rfl

theorem play_not_working (hlink : turn.2 ≠ .working)
    (hreg : w.cache.graph.participants.get? gid = some nodes)
    (hafter : nodesAfterAll? turn.1.node turn.1.changes nodes = some nodes') :
    let r := play gid turn w
    (∃ e, r.1 = .refused e) ∧ r.2.cache.graph = w.cache.graph ∧ r.2.published = w.published := by
  obtain ⟨call, link⟩ := turn
  cases link with
  | detached =>
    have ha : (context gid (answer .detached)).Allows call w nodes nodes' := ⟨hreg, hafter⟩
    obtain ⟨hout, hgraph, hattempts⟩ := run_detached ha
    exact ⟨⟨_, hout⟩, hgraph, by rw [published, play, answer, hattempts, published]⟩
  | broken e =>
    have ha : (context gid (answer (.broken e))).Allows call w nodes nodes' := ⟨hreg, hafter⟩
    obtain ⟨hout, hgraph⟩ := run_failed ha rfl
    have hattempts := attempts_run ha
    refine ⟨⟨_, hout⟩, hgraph, ?_⟩
    rw [published, play, answer, hattempts, List.filterMap_append]
    exact List.append_nil _
  | working => exact absurd rfl hlink

theorem play_stopped (hreg : w.cache.graph.participants.get? gid = some nodes)
    (hafter : nodesAfterAll? turn.1.node turn.1.changes nodes = none) :
    let r := play gid turn w
    r.1 = .crashed (.violation (.unknownNode turn.1.node gid)) ∧
      r.2.cache.graph = w.cache.graph ∧ r.2.published = w.published := by
  have hnot : ∀ known after, ¬ (context gid (answer turn.2)).Allows turn.1 w known after := by
    rintro known after ⟨hknown, hsome⟩
    obtain rfl : nodes = known := Option.some.inj (hreg.symm.trans hknown)
    rw [hafter] at hsome
    contradiction
  have hrun : play gid turn w = (_, _) :=
    Context.run_of_no_node (c := context gid (answer turn.2)) hreg hafter
  have hattempts := Context.view_run_of_not_allowed (hidden_attempts gid (answer turn.2)) hnot
  exact ⟨congrArg Prod.fst hrun, Context.graph_run_of_not_allowed hnot,
    by rw [published, play, hattempts, published]⟩

/-- What a call can do: announce a new node list, or nothing. -/
theorem play_cases (turn : Turn) (hreg : w.cache.graph.participants.get? gid = some nodes) :
    let r := play gid turn w
    let after := nodesAfterAll? turn.1.node turn.1.changes nodes
    (∃ nodes', after = some nodes' ∧ turn.2 = .working ∧ r.1 = .announced ∧
        r.2.cache.graph = w.cache.graph.setNodes gid nodes' ∧
        r.2.published = w.published ++ [⟨gid, nodes'⟩]) ∨
      ((after = none ∧ r.1 = .crashed (.violation (.unknownNode turn.1.node gid)) ∨
          after ≠ none ∧ turn.2 ≠ .working ∧ ∃ e, r.1 = .refused e) ∧
        r.2.cache.graph = w.cache.graph ∧ r.2.published = w.published) := by
  intro r after
  cases hafter : after with
  | none =>
    obtain ⟨hout, hsame⟩ := play_stopped hreg hafter
    exact .inr ⟨.inl ⟨rfl, hout⟩, hsame⟩
  | some nodes' =>
    by_cases hlink : turn.2 = .working
    · obtain ⟨call, link⟩ := turn
      obtain rfl : link = .working := hlink
      exact .inl ⟨nodes', rfl, rfl, play_working hreg hafter⟩
    · obtain ⟨hout, hsame⟩ := play_not_working hlink hreg hafter
      exact .inr ⟨.inr ⟨Option.some_ne_none nodes', hlink, hout⟩, hsame⟩

/-- The participant hosts, and has told, what the calls are for. -/
structure Mirrors (gid : Gid) (calls : List Call) (w : Watched) : Prop where
  registered : w.cache.graph.participants.get? gid = some (w.cache.graph.nodesOf gid)
  reading : Catalogue.ofNodes (w.cache.graph.nodesOf gid) = .ofCalls calls
  distinct : ((w.cache.graph.nodesOf gid).map (·.id)).Nodup
  /-- Each message reads as the catalogue right after its call. -/
  messages : w.published.map (fun a => Catalogue.ofNodes a.nodes) = calls.inits.tail.map .ofCalls

theorem Mirrors.same {calls : List Call} (h : Mirrors gid calls w) {w' : Watched}
    (hgraph : w'.cache.graph = w.cache.graph) (hpublished : w'.published = w.published) :
    Mirrors gid calls w' where
  registered := by rw [hgraph]; exact h.registered
  reading := by rw [hgraph]; exact h.reading
  distinct := by rw [hgraph]; exact h.distinct
  messages := by rw [hpublished]; exact h.messages

theorem Mirrors.announced {calls : List Call} {call : Call} (h : Mirrors gid calls w)
    (hnew : CreatesNew call (w.cache.graph.nodesOf gid))
    (hafter : nodesAfterAll? call.node call.changes (w.cache.graph.nodesOf gid) = some nodes')
    {w' : Watched} (hgraph : w'.cache.graph = w.cache.graph.setNodes gid nodes')
    (hpublished : w'.published = w.published ++ [⟨gid, nodes'⟩]) :
    Mirrors gid (calls ++ [call]) w' := by
  have hnodes : w'.cache.graph.nodesOf gid = nodes' := by rw [hgraph, Graph.nodesOf_setNodes_self]
  have hreading : Catalogue.ofNodes nodes' = .ofCalls (calls ++ [call]) := by
    rw [Catalogue.ofNodes_of_call hnew hafter, h.reading, Catalogue.ofCalls_append_one]
  refine ⟨?_, ?_, ?_, ?_⟩
  · rw [hnodes, hgraph, Graph.get?_setNodes_self]
  · rw [hnodes, hreading]
  · rw [hnodes]
    exact Catalogue.nodup_of_call hnew hafter h.distinct
  · have hinits : (calls ++ [call]).inits.tail = calls.inits.tail ++ [calls ++ [call]] := by
      rw [List.inits_append, List.tail_append_of_ne_nil]
      · simp
      · cases calls <;> simp
    rw [hpublished, hinits, List.map_append, List.map_append, h.messages]
    simp [hreading]

theorem mirrors_play {calls : List Call} (h : Mirrors gid calls w)
    (hnew : CreatesNew turn.1 (w.cache.graph.nodesOf gid)) :
    let r := play gid turn w
    Mirrors gid (calls ++ if r.1 = .announced then [turn.1] else []) r.2 := by
  intro r
  rcases play_cases turn h.registered with
    ⟨nodes', hafter, -, hout, hgraph, hpublished⟩ | ⟨hout, hgraph, hpublished⟩
  · rw [if_pos hout]
    exact h.announced hnew hafter hgraph hpublished
  · have hr : r.1 ≠ .announced := by
      rcases hout with ⟨-, hout⟩ | ⟨-, -, e, hout⟩ <;> simp [r, hout]
    rw [if_neg hr, List.append_nil]
    exact h.same hgraph hpublished

theorem mirrors_run {calls : List Call} (h : Mirrors gid calls w) {turns : List Turn}
    (hnew : AllCreateNew gid turns w) : Mirrors gid (calls ++ announced gid turns w) (run gid turns w) := by
  induction turns generalizing calls w with
  | nil =>
    rw [announced, List.append_nil]
    exact h
  | cons turn rest ih =>
    have hrest := ih (mirrors_play h hnew.1) hnew.2
    rw [List.append_assoc] at hrest
    exact hrest

theorem mirrors_start (gid : Gid) : Mirrors gid [] (start gid) := by
  have hgraph : (start gid).cache.graph = Graph.empty.setNodes gid [] := rfl
  have hnodes : (start gid).cache.graph.nodesOf gid = [] := by
    rw [hgraph, Graph.nodesOf_setNodes_self]
  refine ⟨?_, ?_, ?_, rfl⟩
  · rw [hnodes, hgraph, Graph.get?_setNodes_self]
  · rw [hnodes]
    rfl
  · rw [hnodes]
    exact List.nodup_nil

/-- How a call ends is told by the catalogue and the publisher: it crashes if it is about the
endpoints of a node that is not there, and else it is announced if the publisher works. -/
theorem Mirrors.play_outcome {calls : List Call} (h : Mirrors gid calls w) (turn : Turn) :
    let r := play gid turn w
    let missing := turn.1.subject ≠ .node ∧ (Catalogue.ofCalls calls).bags turn.1.node = none
    (r.1 = .crashed (.violation (.unknownNode turn.1.node gid)) ↔ missing) ∧
      (r.1 = .announced ↔ turn.2 = .working ∧ ¬ missing) ∧
      (r.1 ≠ .announced → r.2.cache.graph = w.cache.graph ∧ r.2.published = w.published) := by
  intro r missing
  have hmissing : nodesAfterAll? turn.1.node turn.1.changes (w.cache.graph.nodesOf gid) = none ↔
      missing := by
    rw [Call.nodesAfterAll?_eq_none_iff, ← Catalogue.bags_ofNodes_eq_none_iff, h.reading]
  rcases play_cases turn h.registered with
    ⟨nodes', hafter, hlink, hout, -⟩ | ⟨hout, hsame⟩
  · have hr : r.1 = .announced := hout
    have hthere : ¬ missing := by simp [← hmissing, hafter]
    exact ⟨by simp [hr, hthere], by simp [hr, hlink, hthere], fun hne => absurd hr hne⟩
  · rcases hout with ⟨hafter, hout⟩ | ⟨hafter, hlink, e, hout⟩
    · have hr : r.1 = .crashed (.violation (.unknownNode turn.1.node gid)) := hout
      have hthere : missing := hmissing.1 hafter
      exact ⟨⟨fun _ => hthere, fun _ => hr⟩, by simp [hr, hthere], fun _ => hsame⟩
    · have hr : r.1 = .refused e := hout
      have hthere : ¬ missing := fun h => hafter (hmissing.2 h)
      exact ⟨by simp [hr, hthere], by simp [hr, hlink], fun _ => hsame⟩

/-- What a participant hosts, and what it has told its peers, refines a catalogue. After any run
in which no node is created twice, its node list tells what the announced calls are for, with the
nodes in the order of their creation and none twice, and each message that was sent tells what
the announced calls up to then are for. A call crashes, and nothing comes of it, exactly if it is
about endpoints of a node that is not in the catalogue; any other call is announced if its
publisher works. If each node that is created is destroyed later, none is left. -/
theorem host_refines_catalogue (gid : Gid) (turns : List Turn)
    (hnew : AllCreateNew gid turns (start gid)) :
    let w := run gid turns (start gid)
    let nodes := w.cache.graph.nodesOf gid
    let calls := announced gid turns (start gid)
    w.cache.graph.participants.get? gid = some nodes ∧
      Catalogue.ofNodes nodes = .ofCalls calls ∧ (nodes.map (·.id)).Nodup ∧
      w.published.map (fun a => Catalogue.ofNodes a.nodes) = calls.inits.tail.map .ofCalls ∧
      (∀ turn : Turn,
        let r := play gid turn w
        let missing := turn.1.subject ≠ .node ∧ (Catalogue.ofCalls calls).bags turn.1.node = none
        (r.1 = .crashed (.violation (.unknownNode turn.1.node gid)) ↔ missing) ∧
          (r.1 = .announced ↔ turn.2 = .working ∧ ¬ missing) ∧
          (r.1 ≠ .announced → r.2.cache.graph = w.cache.graph ∧ r.2.published = w.published)) ∧
      ((∀ past node rest, calls = past ++ ⟨.creation, .node, node⟩ :: rest →
        ⟨.destruction, .node, node⟩ ∈ rest) → nodes = []) := by
  intro w nodes calls
  have h : Mirrors gid calls w := mirrors_run (mirrors_start gid) hnew
  refine ⟨h.registered, h.reading, h.distinct, h.messages, h.play_outcome, fun hmatched => ?_⟩
  have horder : nodes.map (·.id) = (Catalogue.ofCalls calls).order :=
    congrArg Catalogue.order h.reading
  have hempty : (Catalogue.ofCalls calls).order = [] := by
    refine List.eq_nil_iff_forall_not_mem.2 fun node hnode => ?_
    obtain ⟨past, rest, hcalls, hrest⟩ := Catalogue.exists_creation_of_mem hnode
    exact hrest (hmatched past node rest hcalls)
  rw [hempty] at horder
  exact List.map_eq_nil_iff.1 horder

/-- A service whose first announcement fails, and a subscription of a node that is not there. -/
theorem host_refines_catalogue_service :
    let node : NodeName := ⟨"/", "adder"⟩
    let service : Call := ⟨.creation, .service (.ofLeading [1]) (.ofLeading [2]), node⟩
    let stray : Call := ⟨.creation, .subscription (.ofLeading [3]), ⟨"/", "listener"⟩⟩
    let turns : List Turn := [(⟨.creation, .node, node⟩, .working), (service, .broken (.transport "closed")),
      (service, .working), (stray, .working), (service, .detached)]
    AllCreateNew .zero turns (start .zero) ∧
      announced .zero turns (start .zero) = [⟨.creation, .node, node⟩, service] ∧
      Catalogue.ofNodes ((run .zero turns (start .zero)).cache.graph.nodesOf .zero) =
        .ofCalls [⟨.creation, .node, node⟩, service] := by
  intro node service stray turns
  have hnew : AllCreateNew .zero turns (start .zero) := by decide
  have hannounced : announced .zero turns (start .zero) = [⟨.creation, .node, node⟩, service] := by
    decide
  refine ⟨hnew, hannounced, ?_⟩
  rw [← hannounced]
  exact (host_refines_catalogue .zero turns hnew).2.1

end Host

end RosGraph
