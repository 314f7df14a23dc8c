import RosGraph.Proofs.Endpoints
import RosGraph.Proofs.Watched
import RosGraph.Simulation.Step

/-! Mutations of a graph are local. Each has a key: the endpoint or the participant that
it is about. Its answer and what it leaves at its key depend on what stands there, and it
leaves all other keys alone. So what a sequence of mutations answers and leaves at one key
is what its mutations of that key alone do. Two sequences that agree on the order of the
mutations of each key cannot be told apart, however they interleave different keys. -/

namespace RosGraph

/-- What a mutation is about. -/
inductive Key
  | endpoint (kind : EndpointKind) (gid : Gid)
  | participant (gid : Gid)
deriving DecidableEq, Repr

def Mutation.key : Mutation → Key
  | addEndpoint kind gid _ => .endpoint kind gid
  | removeEndpoint kind gid => .endpoint kind gid
  | addParticipant gid => .participant gid
  | removeParticipant gid => .participant gid
  | announce a => .participant a.participant
  | changeNode gid _ _ => .participant gid

namespace Graph

/-- The same stands at the key in both graphs. -/
def Agree (g h : Graph) : Key → Prop
  | .endpoint kind gid => (g.endpoints kind).get? gid = (h.endpoints kind).get? gid
  | .participant gid => g.participants.get? gid = h.participants.get? gid

variable {g h i : Graph} {k : Key}

theorem Agree.symm (hgh : g.Agree h k) : h.Agree g k := by
  cases k <;> exact Eq.symm hgh

theorem Agree.trans (hgh : g.Agree h k) (hhi : h.Agree i k) : g.Agree i k := by
  cases k <;> exact Eq.trans hgh hhi

/-- A graph is what stands at its keys. -/
theorem ext_agree (hgh : ∀ k, g.Agree h k) : g = h := by
  have hwriters : g.writers = h.writers :=
    SortedMap.ext_get? fun gid => hgh (.endpoint .writer gid)
  have hreaders : g.readers = h.readers :=
    SortedMap.ext_get? fun gid => hgh (.endpoint .reader gid)
  have hparticipants : g.participants = h.participants :=
    SortedMap.ext_get? fun gid => hgh (.participant gid)
  cases g
  cases h
  simp_all

/-- The endpoints are the same, and the nodes of all other participants. -/
theorem agree_of_ne_participant {p : Gid} (hk : k ≠ .participant p)
    (hends : ∀ kind, g.endpoints kind = h.endpoints kind)
    (hothers : ∀ other, other ≠ p → g.participants.get? other = h.participants.get? other) :
    g.Agree h k := by
  cases k with
  | endpoint kind gid => rw [Agree, hends]
  | participant gid => exact hothers gid fun heq => hk (congrArg Key.participant heq)

/-- The nodes are the same, and all other endpoints. -/
theorem agree_of_ne_endpoint {kind : EndpointKind} {gid : Gid} (hk : k ≠ .endpoint kind gid)
    (hparticipants : g.participants = h.participants)
    (hothers : ∀ other gid', ¬ (other = kind ∧ gid' = gid) →
      (g.endpoints other).get? gid' = (h.endpoints other).get? gid') : g.Agree h k := by
  cases k with
  | endpoint other gid' =>
    exact hothers other gid' fun ⟨hkind, hgid⟩ => hk (by rw [hkind, hgid])
  | participant gid => rw [Agree, hparticipants]

end Graph

namespace Mutation

open RosGraph.Graph

/-- The graph after a mutation. One that breaks the contract leaves the graph as it is. -/
def after (m : Mutation) (g : Graph) : Graph :=
  match m.apply g with
  | .ok e => e.graph
  | .error _ => g

/-- What a caller is told of a mutation. -/
def outcome (m : Mutation) (g : Graph) : Except Violation Answer := (m.apply g).map (·.answer)

variable {m : Mutation} {g h : Graph} {k : Key}

/-- A mutation leaves all keys but its own alone. -/
theorem agree_after_of_ne (hk : k ≠ m.key) (g : Graph) : (m.after g).Agree g k := by
  cases m with
  | addEndpoint kind gid r =>
    exact agree_of_ne_endpoint hk (participants_addEndpoint g kind gid r)
      fun _ _ hne => get?_addEndpoint_of_ne g hne r
  | removeEndpoint kind gid =>
    exact agree_of_ne_endpoint hk (participants_removeEndpoint g kind gid)
      fun _ _ hne => get?_removeEndpoint_of_ne g hne
  | addParticipant gid =>
    exact agree_of_ne_participant hk (endpoints_addParticipant g gid)
      fun _ hne => get?_addParticipant_of_ne g hne
  | removeParticipant gid =>
    exact agree_of_ne_participant hk (endpoints_removeParticipant g gid)
      fun _ hne => get?_removeParticipant_of_ne g hne
  | announce a =>
    exact agree_of_ne_participant hk (endpoints_announce g a) fun _ hne => get?_announce_of_ne g hne
  | changeNode gid node change =>
    have hafter : (changeNode gid node change).after g = g ∨
        ∃ nodes, (changeNode gid node change).after g = g.setNodes gid nodes := by
      rw [after, apply_changeNode]
      cases g.participants.get? gid with
      | none => exact .inl rfl
      | some nodes =>
        dsimp only
        cases change.nodesAfter? node nodes with
        | none => exact .inl rfl
        | some nodes' => exact .inr ⟨nodes', rfl⟩
    rcases hafter with heq | ⟨nodes, heq⟩
    · rw [heq]
      cases k <;> rfl
    · rw [heq]
      exact agree_of_ne_participant hk (endpoints_setNodes g gid nodes)
        fun _ hne => get?_setNodes_of_ne g hne nodes

/-- What a mutation answers, and what it leaves at its key, is decided by what stands there. -/
theorem local_at_key (hgh : g.Agree h m.key) :
    m.outcome g = m.outcome h ∧ (m.after g).Agree (m.after h) m.key := by
  cases m with
  | addEndpoint kind gid r =>
    have hget : (g.endpoints kind).get? gid = (h.endpoints kind).get? gid := hgh
    refine ⟨?_, ?_⟩
    · change Except.ok (Answer.flag (g.addEndpoint kind gid r).answer) =
        .ok (.flag (h.addEndpoint kind gid r).answer)
      rw [answer_addEndpoint, answer_addEndpoint, hget]
    · change ((g.addEndpoint kind gid r).graph.endpoints kind).get? gid =
        ((h.addEndpoint kind gid r).graph.endpoints kind).get? gid
      rw [get?_addEndpoint_self, get?_addEndpoint_self, hget]
  | removeEndpoint kind gid =>
    have hget : (g.endpoints kind).get? gid = (h.endpoints kind).get? gid := hgh
    refine ⟨?_, ?_⟩
    · change Except.ok (Answer.flag (g.removeEndpoint kind gid).answer) =
        .ok (.flag (h.removeEndpoint kind gid).answer)
      rw [answer_removeEndpoint, answer_removeEndpoint, hget]
    · change ((g.removeEndpoint kind gid).graph.endpoints kind).get? gid =
        ((h.removeEndpoint kind gid).graph.endpoints kind).get? gid
      rw [get?_removeEndpoint_self, get?_removeEndpoint_self]
  | addParticipant gid =>
    have hget : g.participants.get? gid = h.participants.get? gid := hgh
    refine ⟨rfl, ?_⟩
    change (g.addParticipant gid).graph.participants.get? gid =
      (h.addParticipant gid).graph.participants.get? gid
    rw [get?_addParticipant_self, get?_addParticipant_self, hget]
  | removeParticipant gid =>
    have hget : g.participants.get? gid = h.participants.get? gid := hgh
    refine ⟨?_, ?_⟩
    · change Except.ok (Answer.flag (g.removeParticipant gid).answer) =
        .ok (.flag (h.removeParticipant gid).answer)
      rw [answer_removeParticipant, answer_removeParticipant, hget]
    · change (g.removeParticipant gid).graph.participants.get? gid =
        (h.removeParticipant gid).graph.participants.get? gid
      rw [get?_removeParticipant_self, get?_removeParticipant_self]
  | announce a =>
    refine ⟨rfl, ?_⟩
    change (g.announce a).graph.participants.get? a.participant =
      (h.announce a).graph.participants.get? a.participant
    rw [get?_announce_self, get?_announce_self]
  | changeNode gid node change =>
    have hget : g.participants.get? gid = h.participants.get? gid := hgh
    rw [outcome, outcome, after, after, apply_changeNode, apply_changeNode, ← hget]
    cases hreg : g.participants.get? gid with
    | none => exact ⟨rfl, hgh⟩
    | some nodes =>
      dsimp only
      cases change.nodesAfter? node nodes with
      | none => exact ⟨rfl, hgh⟩
      | some nodes' =>
        refine ⟨rfl, ?_⟩
        change (g.setNodes gid nodes').participants.get? gid = (h.setNodes gid nodes').participants.get? gid
        rw [get?_setNodes_self, get?_setNodes_self]

end Mutation

namespace Site

variable {σ : Type} (site : Site σ)

/-- Perform mutations in order, and keep each with what its caller was told. -/
def performAll : List Mutation → σ → List (Mutation × Except Violation Answer) × σ
  | [], s => ([], s)
  | m :: rest, s =>
    let r := site.perform m s
    let rs := performAll rest r.2
    ((m, r.1) :: rs.1, rs.2)

variable {site}

theorem perform_outcome (m : Mutation) (s : σ) : (site.perform m s).1 = m.outcome (site.graph s) := by
  rw [perform, Mutation.outcome]
  cases m.apply (site.graph s) <;> rfl

section Quiet
variable [site.Quiet]

theorem graph_perform_after (m : Mutation) (s : σ) :
    site.graph (site.perform m s).2 = m.after (site.graph s) := by
  rw [Mutation.after]
  cases h : m.apply (site.graph s) with
  | error v => rw [perform, h, attempt]
  | ok e => exact graph_perform h

/-- At one key a sequence of mutations answers and leaves what those of the key alone do. -/
theorem filter_performAll (k : Key) (ms : List Mutation) {s t : σ}
    (hst : (site.graph s).Agree (site.graph t) k) :
    let r := site.performAll ms s
    let q := site.performAll (ms.filter (·.key = k)) t
    r.1.filter (·.1.key = k) = q.1 ∧ (site.graph r.2).Agree (site.graph q.2) k := by
  induction ms generalizing s t with
  | nil => exact ⟨rfl, hst⟩
  | cons m rest ih =>
    by_cases hk : m.key = k
    · subst hk
      obtain ⟨houtcome, hafter⟩ := Mutation.local_at_key hst
      rw [← graph_perform_after, ← graph_perform_after] at hafter
      obtain ⟨hfilter, hagree⟩ := ih hafter
      rw [List.filter_cons_of_pos (by simp)]
      refine ⟨?_, hagree⟩
      simp only [performAll]
      rw [List.filter_cons_of_pos (by simp), hfilter, perform_outcome, perform_outcome, houtcome]
    · have hafter : (site.graph (site.perform m s).2).Agree (site.graph t) k := by
        rw [graph_perform_after]
        exact (Mutation.agree_after_of_ne (Ne.symm hk) _).trans hst
      obtain ⟨hfilter, hagree⟩ := ih hafter
      rw [List.filter_cons_of_neg (by simpa using hk)]
      refine ⟨?_, hagree⟩
      simp only [performAll]
      rw [List.filter_cons_of_neg (by simpa using hk), hfilter]

/-- Mutations of different keys may come in any order. Two sequences that have the same
mutations of each key in the same order lead from one state to the same graph, and so to
the same reply to every query; the callers of the mutations of each key are told the same,
breaches of contract included. -/
theorem performAll_interleaving (site : Site σ) [site.Quiet] (s : σ) {ms ns : List Mutation}
    (h : ∀ k, ms.filter (·.key = k) = ns.filter (·.key = k)) :
    let r := site.performAll ms s
    let q := site.performAll ns s
    site.graph r.2 = site.graph q.2 ∧
      (∀ k, r.1.filter (·.1.key = k) = q.1.filter (·.1.key = k)) ∧
      ∀ query : Simulation.Query, query.ask (site.graph r.2) = query.ask (site.graph q.2) := by
  intro r q
  have hself (k : Key) : (site.graph s).Agree (site.graph s) k := by cases k <;> rfl
  have hgraph : site.graph r.2 = site.graph q.2 := Graph.ext_agree fun k => by
    have hr := (filter_performAll k ms (hself k)).2
    have hq := (filter_performAll k ns (hself k)).2
    rw [h k] at hr
    exact hr.trans hq.symm
  refine ⟨hgraph, fun k => ?_, fun query => by rw [hgraph]⟩
  have hr := (filter_performAll k ms (hself k)).1
  have hq := (filter_performAll k ns (hself k)).1
  rw [h k] at hr
  exact hr.trans hq.symm

end Quiet

end Site

/-- Gossip about one participant and the discovery of a writer, in two orders. The change of a
node comes before its participant in both, and is refused in both. -/
theorem performAll_interleaving_writer :
    let node : NodeName := ⟨"/", "talker"⟩
    let writer : Gid := .ofLeading [1]
    let early : Mutation := .changeNode .zero node .add
    let known : Mutation := .announce ⟨.zero, [{ id := node }]⟩
    let found : Mutation := .addEndpoint .writer writer ⟨"rt/chatter", "String", .zero, {}⟩
    let lost : Mutation := .removeEndpoint .writer writer
    let ms := [early, found, known, lost]
    let ns := [found, lost, early, known]
    (∀ k, ms.filter (·.key = k) = ns.filter (·.key = k)) ∧
      Watched.site.graph (Watched.site.performAll ms {}).2 =
        Watched.site.graph (Watched.site.performAll ns {}).2 ∧
      (Watched.site.performAll ms {}).1.filter (·.1.key = .participant .zero) =
        (Watched.site.performAll ns {}).1.filter (·.1.key = .participant .zero) := by
  intro node writer early known found lost ms ns
  have hkeys : ∀ k, ms.filter (·.key = k) = ns.filter (·.key = k) := by
    intro k
    cases k with
    | endpoint kind gid =>
      by_cases h : Key.endpoint .writer writer = .endpoint kind gid <;>
        simp [ms, ns, early, known, found, lost, Mutation.key, h]
    | participant gid =>
      by_cases h : Key.participant .zero = .participant gid <;>
        simp [ms, ns, early, known, found, lost, Mutation.key, h]
  have hsame := Site.performAll_interleaving Watched.site {} hkeys
  exact ⟨hkeys, hsame.1, hsame.2.1 _⟩

end RosGraph
