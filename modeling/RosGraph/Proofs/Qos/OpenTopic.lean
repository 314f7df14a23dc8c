import RosGraph.Proofs.Endpoints
import RosGraph.Proofs.Qos.Fit

/-! A topic whose endpoints all leave everything to their peers. An endpoint is created in one
step: its profile is resolved against the peers that the graph knows on the topic, and then
it is added. A new writer serves the readers that it finds. A new reader is served by the
writers that it finds, since no period is ever chosen on such a topic. So of a writer and a
reader the later one has seen to it that they fit. -/

namespace RosGraph

open Qos Qos.Policy

/-- The kind that endpoints of a kind communicate with. -/
def EndpointKind.peer : EndpointKind → EndpointKind
  | writer => reader
  | reader => writer

/-- How the open policies of an endpoint are resolved against the profiles of its peers. -/
def EndpointKind.resolve : EndpointKind → List Profile → Profile → Profile
  | writer => .resolvePublisher
  | reader => .resolveSubscription

namespace OpenTopic

/-- The outcome and the profile when an endpoint that leaves everything to its peers is
resolved on a topic of the graph. -/
def chosen (g : Graph) (topic : String) (kind : EndpointKind) (showType : String → String) :
    Except Error Unit × Profile :=
  Id.run (resolveOnTopic kind.resolve topic
    (fun topic _ => pure (.ok (g.endpointsInfo kind.peer topic showType))) .bestAvailable)

/-- What happens to a graph with an open topic: an endpoint is created on the topic, or
anything else that adds no endpoint there. -/
inductive Event (topic : String)
  | create (kind : EndpointKind) (gid : Gid) (type : String) (participant : Gid)
      (showType : String → String)
  | other (m : Mutation) (h : ∀ kind gid r, m = .addEndpoint kind gid r → r.topic ≠ topic)

/-- The graph after an event. An endpoint that is not resolved is not added. -/
def Event.step {topic : String} (g : Graph) : Event topic → Graph
  | create kind gid type participant showType =>
    match chosen g topic kind showType with
    | (.ok (), qos) => (g.addEndpoint kind gid ⟨topic, type, participant, qos⟩).graph
    | (.error _, _) => g
  | other m _ => match m.apply g with
    | .ok e => e.graph
    | .error _ => g

def run {topic : String} (events : List (Event topic)) : Graph := events.foldl Event.step .empty

/-- Nothing about the profile is in doubt, and it sets no period. -/
structure Plain (p : Profile) : Prop where
  reliability : ¬ p.reliability.Unclear
  durability : ¬ p.durability.Unclear
  liveliness : ¬ p.liveliness.Unclear
  deadline : p.deadline = .unset
  lease : p.lease = .unset

section Profiles
variable {peers : List Profile} {choice p s : Profile}

theorem Plain.not_doubtful (hp : Plain p) (hs : Plain s) (f : Policy) : ¬ f.Doubtful p s := by
  cases f with
  | reliability => exact not_inDoubt hp.reliability hs.reliability
  | durability => exact not_inDoubt hp.durability hs.durability
  | liveliness => exact not_inDoubt hp.liveliness hs.liveliness
  | deadline => exact not_false
  | lease => exact not_false

theorem Plain.resolveWith (h : Plain choice) : Plain (.resolveWith choice .bestAvailable) :=
  ⟨h.reliability, h.durability, h.liveliness, h.deadline, h.lease⟩

theorem shortestSet_of_unset {periods : List Period} (h : ∀ p ∈ periods, p = .unset) :
    shortestSet periods = .unset := by
  rcases shortestSet_spec periods with ⟨hunset, -⟩ | ⟨hmem, -, -⟩
  · exact hunset
  · exact h _ hmem

theorem longestSet_of_unset {periods : List Period} (h : ∀ p ∈ periods, p = .unset) :
    longestSet periods = .unset := by
  rcases longestSet_spec periods with ⟨hunset, -⟩ | ⟨hmem, -, -⟩
  · exact hunset
  · exact h _ hmem

theorem plain_servingAll (h : ∀ p ∈ peers, Plain p) : Plain (.servingAll peers) where
  reliability := graded_reliability.not_unclear_strong
  durability := graded_durability.not_unclear_strong
  liveliness := graded_liveliness.not_unclear_ite _
  deadline := shortestSet_of_unset (List.forall_mem_map.2 fun p hp => (h p hp).deadline)
  lease := shortestSet_of_unset (List.forall_mem_map.2 fun p hp => (h p hp).lease)

theorem plain_servedByAll (h : ∀ p ∈ peers, Plain p) : Plain (.servedByAll peers) where
  reliability := graded_reliability.not_unclear_ite _
  durability := graded_durability.not_unclear_ite _
  liveliness := graded_liveliness.not_unclear_ite _
  deadline := longestSet_of_unset (List.forall_mem_map.2 fun p hp => (h p hp).deadline)
  lease := longestSet_of_unset (List.forall_mem_map.2 fun p hp => (h p hp).lease)

/-- Publishers without periods serve a subscription that looked at them. -/
theorem not_violated_servedByAll (h : ∀ p ∈ peers, Plain p) (hp : p ∈ peers) (f : Policy) :
    ¬ f.Violated p (.servedByAll peers) := by
  rw [violated_servedByAll_iff hp]
  rintro (⟨-, -, q, hq, hset⟩ | ⟨-, -, q, hq, hset⟩)
  · exact hset (h q hq).deadline
  · exact hset (h q hq).lease

end Profiles

/-- The profiles of the endpoints that the graph knows on a topic. -/
def profiles (g : Graph) (kind : EndpointKind) (topic : String) : List Profile :=
  (g.onTopic kind topic).map (·.2.qos)

theorem mem_profiles_iff {g : Graph} {kind : EndpointKind} {topic : String} {p : Profile} :
    p ∈ profiles g kind topic ↔ ∃ gid r, (gid, r) ∈ g.onTopic kind topic ∧ r.qos = p := by
  simp [profiles]

theorem chosen_eq (g : Graph) {topic : String} (h : topic ≠ "") (kind : EndpointKind)
    (showType : String → String) : chosen g topic kind showType =
      (.ok (), kind.resolve (profiles g kind.peer topic) .bestAvailable) := by
  have hprofiles : (g.endpointsInfo kind.peer topic showType).map (·.qos) =
      profiles g kind.peer topic := by
    rw [Graph.endpointsInfo, profiles, List.map_map]
    rfl
  rw [← hprofiles, chosen, resolveOnTopic, if_neg h]
  rfl

theorem step_create (g : Graph) {topic : String} (h : topic ≠ "") (kind : EndpointKind) (gid : Gid)
    (type : String) (participant : Gid) (showType : String → String) :
    (.create kind gid type participant showType : Event topic).step g =
      (g.addEndpoint kind gid ⟨topic, type, participant,
        kind.resolve (profiles g kind.peer topic) .bestAvailable⟩).graph := by
  rw [Event.step, chosen_eq g h]

/-- No profile on the topic is in doubt or sets a period, and each writer serves each reader. -/
structure Harmonious (g : Graph) (topic : String) : Prop where
  plain (kind : EndpointKind) : ∀ p ∈ profiles g kind topic, Plain p
  served : ∀ w ∈ profiles g .writer topic, ∀ r ∈ profiles g .reader topic, ∀ f : Policy,
    ¬ f.Violated w r

variable {g g' : Graph} {topic : String}

/-- Endpoints may go. -/
theorem Harmonious.mono (h : Harmonious g topic)
    (hsub : ∀ kind, profiles g' kind topic ⊆ profiles g kind topic) : Harmonious g' topic where
  plain kind p hp := h.plain kind p (hsub kind hp)
  served w hw r hr := h.served w (hsub .writer hw) r (hsub .reader hr)

theorem mem_profiles_addEndpoint {kind other : EndpointKind} {gid : Gid} {r : EndpointRecord}
    {p : Profile} (h : p ∈ profiles (g.addEndpoint kind gid r).graph other topic) :
    p ∈ profiles g other topic ∨ other = kind ∧ p = r.qos ∧ r.topic = topic := by
  obtain ⟨gid', r', hr', rfl⟩ := mem_profiles_iff.1 h
  rcases Graph.mem_onTopic_addEndpoint hr' with hold | ⟨hkind, rfl⟩
  · exact .inl (mem_profiles_iff.2 ⟨gid', r', hold, rfl⟩)
  · exact .inr ⟨hkind, rfl, (Graph.mem_onTopic_iff.1 hr').2⟩

/-- What is created serves, or is served by, the peers that it found. -/
theorem Harmonious.addEndpoint (h : Harmonious g topic) (kind : EndpointKind) (gid : Gid)
    {r : EndpointRecord}
    (hr : r.qos = kind.resolve (profiles g kind.peer topic) .bestAvailable) :
    Harmonious (g.addEndpoint kind gid r).graph topic := by
  have hplain : Plain r.qos := by
    rw [hr]
    cases kind with
    | writer => exact (plain_servingAll (h.plain .reader)).resolveWith
    | reader => exact (plain_servedByAll (h.plain .writer)).resolveWith
  refine ⟨fun other p hp => ?_, fun w hw s hs f => ?_⟩
  · rcases mem_profiles_addEndpoint hp with hold | ⟨-, rfl, -⟩
    · exact h.plain other p hold
    · exact hplain
  · -- At most one of the two is new, and it was resolved against the other.
    rcases mem_profiles_addEndpoint hw with hw' | ⟨rfl, rfl, -⟩
    · rcases mem_profiles_addEndpoint hs with hs' | ⟨rfl, rfl, -⟩
      · exact h.served w hw' s hs' f
      · rw [hr, EndpointKind.resolve, Profile.resolveSubscription,
          violated_resolveWith_bestAvailable_right]
        exact not_violated_servedByAll (h.plain .writer) hw' f
    · rcases mem_profiles_addEndpoint hs with hs' | ⟨hkind, -, -⟩
      · rw [hr, EndpointKind.resolve, Profile.resolvePublisher, violated_resolveWith_bestAvailable_left]
        exact not_violated_servingAll hs' f
      · contradiction

theorem Harmonious.apply (h : Harmonious g topic) {m : Mutation} {e : Effect Answer}
    (he : m.apply g = .ok e) (hm : ∀ kind gid r, m = .addEndpoint kind gid r → r.topic ≠ topic) :
    Harmonious e.graph topic := by
  refine h.mono fun kind p hp => ?_
  rcases Graph.endpoints_apply he with ⟨k, gid, r, rfl, hgraph⟩ | ⟨k, gid, rfl, hgraph⟩ | hsame
  · rw [hgraph] at hp
    rcases mem_profiles_addEndpoint hp with hold | ⟨-, -, htopic⟩
    · exact hold
    · exact absurd htopic (hm k gid r rfl)
  · rw [hgraph] at hp
    obtain ⟨gid', r, hr, rfl⟩ := mem_profiles_iff.1 hp
    exact mem_profiles_iff.2 ⟨gid', r, Graph.mem_onTopic_removeEndpoint hr, rfl⟩
  · rwa [profiles, Graph.onTopic, hsame] at hp

theorem harmonious_step (htopic : topic ≠ "") (h : Harmonious g topic) (event : Event topic) :
    Harmonious (event.step g) topic := by
  cases event with
  | create kind gid type participant showType =>
    rw [step_create g htopic]
    exact h.addEndpoint kind gid rfl
  | other m hm =>
    rw [Event.step]
    cases he : m.apply g with
    | error v => exact h
    | ok e => exact h.apply he hm

theorem harmonious_run (htopic : topic ≠ "") (events : List (Event topic)) :
    Harmonious (run events) topic := by
  have hempty : Harmonious .empty topic := by
    refine ⟨fun kind p hp => ?_, fun w hw => absurd hw List.not_mem_nil⟩
    cases kind <;> exact absurd hp List.not_mem_nil
  have hsteps (g : Graph) (h : Harmonious g topic) : Harmonious (events.foldl Event.step g) topic := by
    induction events generalizing g with
    | nil => exact h
    | cons event rest ih => exact ih _ (harmonious_step htopic h event)
  exact hsteps _ hempty

/-- On a topic whose endpoints all leave everything to their peers, every writer and every reader
fit at any time, whichever came first, and there is nothing to say about them. An endpoint
that is created under an identifier of its own is on the topic afterwards, with what the
peers that it found led to. Endpoints are created one after the other: to look up the peers,
to resolve the profile against them and to store the endpoint is one event. A peer that goes
in between may as well go after it, but nothing is said of two endpoints that are resolved
before either is stored. -/
theorem openTopic_all_fit (htopic : topic ≠ "") (events : List (Event topic)) :
    let g := run events
    (∀ w ∈ g.onTopic .writer topic, ∀ r ∈ g.onTopic .reader topic,
      verdict w.2.qos r.2.qos = .ok ∧ reason w.2.qos r.2.qos = "") ∧
    ∀ kind gid type participant showType, (g.endpoints kind).get? gid = none →
      (gid, ⟨topic, type, participant, kind.resolve (profiles g kind.peer topic) .bestAvailable⟩) ∈
        ((.create kind gid type participant showType : Event topic).step g).onTopic kind topic := by
  intro g
  have h : Harmonious g topic := harmonious_run htopic events
  refine ⟨fun w hw r hr => ?_, fun kind gid type participant showType hfresh => ?_⟩
  · have hw : w.2.qos ∈ profiles g .writer topic := List.mem_map_of_mem hw
    have hr : r.2.qos ∈ profiles g .reader topic := List.mem_map_of_mem hr
    have hok : verdict w.2.qos r.2.qos = .ok := verdict_eq_ok_iff.2 fun f =>
      ⟨h.served _ hw _ hr f, (h.plain _ _ hw).not_doubtful (h.plain _ _ hr) f⟩
    exact ⟨hok, reason_of_ok hok⟩
  · rw [step_create g htopic, Graph.mem_onTopic_iff, Graph.get?_addEndpoint_self, hfresh]
    exact ⟨rfl, rfl⟩

/-- A reader that comes first asks to be told by hand, and the writer after it does so. Once that
reader is gone a second writer need not, and then a second reader does not ask for it. -/
theorem openTopic_all_fit_both_orders :
    let create (kind : EndpointKind) (n : UInt8) : Event "rt/chatter" :=
      .create kind (.ofLeading [n]) "String" .zero id
    let gone : Event "rt/chatter" := .other (.removeEndpoint .reader (.ofLeading [1])) (by simp)
    let g := run [create .reader 1, create .writer 2, gone, create .writer 3, create .reader 4]
    "rt/chatter" ≠ "" ∧
      (g.onTopic .writer "rt/chatter").map (·.2.qos.liveliness) = [.manualByTopic, .automatic] ∧
      ∀ w ∈ g.onTopic .writer "rt/chatter", ∀ r ∈ g.onTopic .reader "rt/chatter",
        verdict w.2.qos r.2.qos = .ok ∧ reason w.2.qos r.2.qos = "" := by
  intro create gone g
  have htopic : "rt/chatter" ≠ "" := by decide
  refine ⟨htopic, by decide, (openTopic_all_fit htopic _).1⟩

end OpenTopic

end RosGraph
