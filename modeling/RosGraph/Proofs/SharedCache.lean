import RosGraph.Proofs.Gossip

/-! Participants that share one cache. Each announcement that is sent comes to every member of the
cache, its sender included, before the next call of any of them. A member ignores the echo of its
own announcements, but not those of the others, which are no news to the cache. They set what is
there already, with one exception: an announcement without nodes removes its participant, and
with it the place of a member that is still alive. From then on all its calls crash. -/

namespace RosGraph

open Lifecycle

/-- What the members of a cache share, and what each of them has yet to receive. -/
structure Commons (n : ℕ) where
  cache : Cache := {}
  /-- All announcements that were sent, oldest first. -/
  sent : List Announcement := []
  inbox : Fin n → List Announcement := fun _ => []

namespace Commons

open Network (Link)

variable {n : ℕ}

def site : Site (Commons n) where
  cache := cache
  setCache c s := { s with cache := c }
  report _ s := s
  changed s := s

def graph (s : Commons n) : Graph := s.cache.graph

def send (a : Announcement) (s : Commons n) : Commons n :=
  { s with sent := s.sent ++ [a], inbox := fun j => s.inbox j ++ [a] }

def publisher : Link → Option (Publisher (Commons n))
  | .detached => none
  | .broken e => some fun _ s => (.failed e, s)
  | .working => some fun a s => (.sent, s.send a)

inductive Action (n : ℕ)
  | call (i : Fin n) (c : Call) (link : Link)
  /-- The next announcement comes to a member. -/
  | deliver (j : Fin n)

/-- Every announcement has come to every member. -/
def Settled (s : Commons n) : Prop := ∀ j, s.inbox j = []

instance (s : Commons n) : Decidable s.Settled := inferInstanceAs (Decidable (∀ j, s.inbox j = []))

/-- The last announcement of a participant. -/
def last? (s : Commons n) (gid : Gid) : Option Announcement :=
  (s.sent.filter (·.participant = gid)).getLast?

/-- The nodes that a participant has announced. -/
def told (s : Commons n) (gid : Gid) : List HostedNode := ((s.last? gid).map (·.nodes)).getD []

section Roster
variable (r : Roster n)

def member (i : Fin n) : LocalParticipant (Commons n) := ⟨r.gid i, site⟩

def context (i : Fin n) (link : Link) : Context (Commons n) :=
  { member r i with publisher := fun _ => publisher link }

/-- There is no call until everything has been delivered. -/
def step (s : Commons n) : Action n → Commons n
  | .call i c link => if s.Settled then ((context r i link).run c s).2 else s
  | .deliver j => match s.inbox j with
    | [] => s
    | a :: rest => (member r j).receive a { s with inbox := Function.update s.inbox j rest }

/-- Every member has joined. -/
def start : Commons n := (List.finRange n).foldl (fun s i => (member r i).join s) {}

def run (actions : List (Action n)) : Commons n := actions.foldl (step r) (start r)

/-- The last announcement of a member is without nodes, and another member has received it. -/
def Forgotten (s : Commons n) (i : Fin n) : Prop :=
  ∃ a, s.last? (r.gid i) = some a ∧ a.nodes = [] ∧ ∃ j, j ≠ i ∧ a ∉ s.inbox j

end Roster

variable {r : Roster n} {s s' : Commons n}

instance : (site (n := n)).Quiet where
  cache_setCache _ _ := rfl
  cache_report _ _ := rfl
  cache_changed _ := rfl

/-- Nothing is sent or received at the site. -/
theorem hidden_mail : (site (n := n)).Hidden fun s => (s.sent, s.inbox) where
  setCache _ _ := rfl
  report _ _ := rfl
  changed _ := rfl

instance (i : Fin n) (link : Link) : (context r i link).site.Quiet := inferInstanceAs site.Quiet

theorem undisturbed (i : Fin n) (link : Link) : (context r i link).Undisturbed := by
  intro s send hsend a t
  cases link with
  | detached => cases hsend
  | broken e => obtain rfl := Option.some.inj hsend; rfl
  | working => obtain rfl := Option.some.inj hsend; rfl

theorem graph_perform {m : Mutation} {e : Effect Answer} (h : m.apply s.graph = .ok e) :
    (site.perform m s).2.graph = e.graph := by
  have hgraph : site.graph (site.perform m s).2 = e.graph := Site.graph_perform h
  exact hgraph

theorem last?_of_sent (h : s'.sent = s.sent) (gid : Gid) : s'.last? gid = s.last? gid := by
  rw [last?, h, last?]

theorem last?_of_append_one {a : Announcement} (h : s'.sent = s.sent ++ [a]) (gid : Gid) :
    s'.last? gid = if a.participant = gid then some a else s.last? gid := by
  rw [last?, h, List.filter_append]
  split_ifs with hgid <;> simp [hgid, last?]

theorem last?_of_getLast? {a : Announcement} (h : s.sent.getLast? = some a) :
    s.last? a.participant = some a := by
  obtain ⟨earlier, hsent⟩ := List.getLast?_eq_some_iff.1 h
  rw [last?_of_append_one (s := { s with sent := earlier }) hsent, if_pos rfl]

theorem participant_of_last? {gid : Gid} {a : Announcement} (h : s.last? gid = some a) :
    a.participant = gid := by
  have hmem := List.mem_of_getLast? h
  simpa using (List.mem_filter.1 hmem).2

/-- A settled member is forgotten if it has announced that it has no nodes, and is not alone. -/
theorem Settled.forgotten_iff (hs : s.Settled) (i : Fin n) :
    Forgotten r s i ↔ (∃ j, j ≠ i) ∧ ∃ a, s.last? (r.gid i) = some a ∧ a.nodes = [] := by
  constructor
  · rintro ⟨a, hlast, hempty, j, hj, -⟩
    exact ⟨⟨j, hj⟩, a, hlast, hempty⟩
  · rintro ⟨⟨j, hj⟩, a, hlast, hempty⟩
    exact ⟨a, hlast, hempty, j, hj, by simp [hs j]⟩

/-- Nothing is sent or received and the graph is the same. -/
structure Same (s s' : Commons n) : Prop where
  graph : s'.graph = s.graph
  sent : s'.sent = s.sent
  inbox : s'.inbox = s.inbox

/-- A member with a place in the graph has a new node list, which all are about to be told of. -/
structure Announced (r : Roster n) (i : Fin n) (nodes : List HostedNode) (s s' : Commons n) : Prop where
  registered : s.graph.participants.get? (r.gid i) ≠ none
  graph : s'.graph = s.graph.setNodes (r.gid i) nodes
  sent : s'.sent = s.sent ++ [⟨r.gid i, nodes⟩]
  inbox (j : Fin n) : s'.inbox j = s.inbox j ++ [⟨r.gid i, nodes⟩]

section Call
variable {i : Fin n} {link : Link} {c : Call} {nodes nodes' : List HostedNode}

theorem announced_run (ha : (context r i .working).Allows c s nodes nodes') :
    Announced r i nodes' s ((context r i .working).run c s).2 := by
  have hview : (context r i .working).site.Hidden fun s : Commons n => (s.sent, s.inbox) := hidden_mail
  have hmail := Context.view_run hview ha
  have hprepared := Context.view_prepared hview c s
  change _ = ((send _ _).sent, (send _ _).inbox) at hmail
  simp only [send, Prod.mk.injEq] at hmail hprepared
  refine ⟨?_, (Context.graph_run_of_sent (undisturbed i .working) ha rfl).2, ?_, fun j => ?_⟩
  · rw [show s.graph.participants.get? (r.gid i) = some nodes from ha.registered]
    exact Option.some_ne_none nodes
  · rw [hmail.1, hprepared.1]
    rfl
  · rw [hmail.2, hprepared.2]
    rfl

theorem same_run_of_failed (ha : (context r i link).Allows c s nodes nodes') {e : Error}
    (hp : ∀ a t, (context r i link).publish a t = (.failed e, t)) :
    Same s ((context r i link).run c s).2 := by
  have hview : (context r i link).site.Hidden fun s : Commons n => (s.sent, s.inbox) := hidden_mail
  have hmail := Context.view_run hview ha
  rw [hp, Context.view_prepared hview c s, Prod.mk.injEq] at hmail
  exact ⟨(Context.graph_run_of_failed (undisturbed i link) ha (by rw [hp])).2, hmail.1, hmail.2⟩

theorem same_run_of_not_allowed (h : ∀ nodes nodes', ¬ (context r i link).Allows c s nodes nodes') :
    Same s ((context r i link).run c s).2 := by
  have hmail := Context.view_run_of_not_allowed (c := context r i link) hidden_mail h
  rw [Prod.mk.injEq] at hmail
  exact ⟨Context.graph_run_of_not_allowed h, hmail.1, hmail.2⟩

/-- A publication either reaches all members or fails. -/
theorem publish_cases (r : Roster n) (i : Fin n) (link : Link) :
    link = .working ∨ ∃ e, ∀ a t, (context r i link).publish a t = (.failed e, t) := by
  cases link with
  | detached => exact .inr ⟨_, fun _ _ => rfl⟩
  | broken e => exact .inr ⟨_, fun _ _ => rfl⟩
  | working => exact .inl rfl

/-- What a call can do: announce a new node list to all, or nothing. -/
theorem call_cases (r : Roster n) (i : Fin n) (c : Call) (link : Link) (s : Commons n) :
    Same s ((context r i link).run c s).2 ∨
      ∃ nodes, Announced r i nodes s ((context r i link).run c s).2 := by
  by_cases hallowed : ∃ nodes nodes', (context r i link).Allows c s nodes nodes'
  · obtain ⟨nodes, nodes', ha⟩ := hallowed
    rcases publish_cases r i link with rfl | ⟨e, hp⟩
    · exact .inr ⟨nodes', announced_run ha⟩
    · exact .inl (same_run_of_failed ha hp)
  · exact .inl (same_run_of_not_allowed fun nodes nodes' ha => hallowed ⟨nodes, nodes', ha⟩)

/-- A call finds its participant unknown if that has no place in the graph. -/
theorem run_unknown_iff :
    ((context r i link).run c s).1 = .crashed (.violation (.unknownParticipant (r.gid i))) ↔
      s.graph.participants.get? (r.gid i) = none := by
  constructor
  · intro hrun
    rcases Context.allows_or_not (c := context r i link) c s with ⟨nodes, nodes', ha⟩ | hreg |
        ⟨nodes, hreg, hafter⟩
    · rcases publish_cases r i link with rfl | ⟨e, hp⟩
      · rw [(Context.graph_run_of_sent (undisturbed i .working) ha rfl).1] at hrun
        cases hrun
      · rw [(Context.graph_run_of_failed (undisturbed i link) ha (by rw [hp])).1] at hrun
        cases hrun
    · exact hreg
    · rw [Context.run_of_no_node hreg hafter] at hrun
      cases hrun
  · intro hreg
    rw [Context.run_of_unregistered (c := context r i link) c hreg]
    rfl

end Call

section Receive
variable (j : Fin n) (a : Announcement) (s : Commons n)

theorem mail_receive (r : Roster n) :
    (((member r j).receive a s).sent, ((member r j).receive a s).inbox) = (s.sent, s.inbox) := by
  rw [LocalParticipant.receive]
  split_ifs
  · rfl
  · exact hidden_mail.perform (.announce a) s

/-- The announcement of another participant sets its node list, or removes it. -/
theorem get?_receive (gid : Gid) :
    ((member r j).receive a s).graph.participants.get? gid =
      if a.participant = gid ∧ gid ≠ r.gid j then (if a.nodes = [] then none else some a.nodes)
      else s.graph.participants.get? gid := by
  by_cases hown : a.participant = r.gid j
  · have hreceive : (member r j).receive a s = s := if_pos hown
    rw [hreceive, if_neg fun h => h.2 (h.1.symm.trans hown)]
  · have hreceive : (member r j).receive a s = (site.perform (.announce a) s).2 := if_neg hown
    have hgraph : (site.perform (.announce a) s).2.graph = (s.graph.announce a).graph :=
      graph_perform (e := (s.graph.announce a).map fun _ => .done) rfl
    rw [hreceive, hgraph]
    by_cases hgid : a.participant = gid
    · subst hgid
      rw [Graph.get?_announce_self, if_pos (And.intro rfl hown)]
    · rw [Graph.get?_announce_of_ne _ fun h => hgid h.symm, if_neg fun h => hgid h.1]

end Receive

/-- An announcement has come to `j`. If it is of another member, that has the new list or no place. -/
structure Received (r : Roster n) (j : Fin n) (a : Announcement) (s s' : Commons n) : Prop where
  sent : s'.sent = s.sent
  inbox (k : Fin n) : s'.inbox k = if k = j then [] else s.inbox k
  get? (i : Fin n) : s'.graph.participants.get? (r.gid i) =
    if a.participant = r.gid i ∧ i ≠ j then (if a.nodes = [] then none else some a.nodes)
    else s.graph.participants.get? (r.gid i)

theorem received_step {j : Fin n} {a : Announcement} (hqueue : s.inbox j = [a]) :
    Received r j a s (step r s (.deliver j)) := by
  have hstep : step r s (.deliver j) =
      (member r j).receive a { s with inbox := Function.update s.inbox j [] } := by
    simp only [step, hqueue]
  have hmail := mail_receive j a { s with inbox := Function.update s.inbox j [] } r
  rw [← hstep, Prod.mk.injEq] at hmail
  refine ⟨hmail.1, fun k => ?_, fun i => ?_⟩
  · rw [hmail.2]
    exact Function.update_apply s.inbox j [] k
  · rw [hstep, get?_receive]
    simp only [ne_eq, r.distinct.eq_iff]
    rfl

/-- The place of a member in the graph: what it has announced, or none if it is forgotten. -/
structure Placed (r : Roster n) (s : Commons n) (i : Fin n) : Prop where
  gone (h : Forgotten r s i) : s.graph.participants.get? (r.gid i) = none
  stands (h : ¬ Forgotten r s i) : s.graph.participants.get? (r.gid i) = some (s.told (r.gid i))

/-- At most the latest announcement is still on its way, and each member has its place. -/
structure Kept (r : Roster n) (s : Commons n) : Prop where
  inbox (j : Fin n) : s.inbox j = [] ∨ ∃ a, s.inbox j = [a] ∧ s.sent.getLast? = some a
  placed (i : Fin n) : Placed r s i

theorem Placed.of_same {i : Fin n} (hs : Placed r s i) (hlast : s'.last? (r.gid i) = s.last? (r.gid i))
    (hget : s'.graph.participants.get? (r.gid i) = s.graph.participants.get? (r.gid i))
    (hforgotten : Forgotten r s' i ↔ Forgotten r s i) : Placed r s' i where
  gone h := by rw [hget, hs.gone (hforgotten.1 h)]
  stands h := by rw [hget, told, hlast, hs.stands fun hf => h (hforgotten.2 hf), told]

theorem Placed.unknown_iff {i : Fin n} (hs : Placed r s i) :
    s.graph.participants.get? (r.gid i) = none ↔ Forgotten r s i := by
  refine ⟨fun hnone => ?_, hs.gone⟩
  by_contra h
  rw [hs.stands h] at hnone
  cases hnone

/-- Nothing new of a forgotten member is on its way, and it stays forgotten. -/
theorem Forgotten.of_inbox {i : Fin n} (hf : Forgotten r s i)
    (hlast : s'.last? (r.gid i) = s.last? (r.gid i))
    (hinbox : ∀ j a, a.participant = r.gid i → a ∈ s'.inbox j → a ∈ s.inbox j) : Forgotten r s' i := by
  obtain ⟨a, ha, hempty, j, hj, hreceived⟩ := hf
  exact ⟨a, hlast.trans ha, hempty, j, hj, fun h => hreceived (hinbox j a (participant_of_last? ha) h)⟩

theorem Placed.of_announced_self {i : Fin n} {nodes : List HostedNode} (hsettled : s.Settled)
    (h : Announced r i nodes s s') : Placed r s' i := by
  have hlast : s'.last? (r.gid i) = some ⟨r.gid i, nodes⟩ := by
    rw [last?_of_append_one h.sent, if_pos rfl]
  constructor
  · rintro ⟨a, ha, -, j, -, hnew⟩
    obtain rfl := Option.some.inj (hlast.symm.trans ha)
    exact absurd (by simp [h.inbox, hsettled j]) hnew
  · intro
    rw [h.graph, Graph.get?_setNodes_self, told, hlast]
    rfl

theorem Placed.of_announced_other {i k : Fin n} {nodes : List HostedNode} (hs : Placed r s k)
    (hsettled : s.Settled) (h : Announced r i nodes s s') (hk : k ≠ i) : Placed r s' k := by
  have hgid : r.gid i ≠ r.gid k := fun heq => hk (r.distinct heq).symm
  have hlast : s'.last? (r.gid k) = s.last? (r.gid k) := by
    rw [last?_of_append_one h.sent, if_neg hgid]
  refine hs.of_same hlast (by rw [h.graph, Graph.get?_setNodes_of_ne _ hgid.symm]) ?_
  rw [Forgotten, Forgotten, hlast]
  refine exists_congr fun a => and_congr_right fun ha => and_congr_right fun _ =>
    exists_congr fun j => and_congr_right fun _ => ?_
  have hother : a ≠ ⟨r.gid i, nodes⟩ := by
    rintro rfl
    exact hgid (participant_of_last? ha)
  simp [h.inbox, hsettled j, hother]

/-- A member receives an announcement of its own, or one of another participant. -/
theorem Placed.of_received {i j : Fin n} {a : Announcement} (hs : Placed r s i)
    (hqueue : s.inbox j = [a]) (hsent : s.sent.getLast? = some a) (h : Received r j a s s') :
    Placed r s' i := by
  have hlast := last?_of_sent h.sent (r.gid i)
  by_cases hnews : a.participant = r.gid i ∧ i ≠ j
  · have hi : s.last? (r.gid i) = some a := hnews.1 ▸ last?_of_getLast? hsent
    have hforgotten : Forgotten r s' i ↔ a.nodes = [] := by
      rw [Forgotten, hlast, hi]
      constructor
      · rintro ⟨b, hb, hempty, -⟩
        rwa [Option.some.inj hb]
      · exact fun hempty => ⟨a, rfl, hempty, j, hnews.2.symm, by simp [h.inbox]⟩
    constructor
    · intro hf
      rw [h.get?, if_pos hnews, if_pos (hforgotten.1 hf)]
    · intro hf
      rw [h.get?, if_pos hnews, if_neg fun hempty => hf (hforgotten.2 hempty), told, hlast, hi]
      rfl
  · refine hs.of_same hlast (by rw [h.get?, if_neg hnews]) ?_
    rw [Forgotten, Forgotten, hlast]
    refine exists_congr fun b => and_congr_right fun hb => and_congr_right fun _ =>
      exists_congr fun k => and_congr_right fun hk => ?_
    rw [h.inbox]
    split_ifs with hkj
    · -- What has come to `j` is not from `i`, which is not `j`.
      subst hkj
      have hother : b ≠ a := by
        rintro rfl
        exact hnews ⟨participant_of_last? hb, hk.symm⟩
      simp [hqueue, hother]
    · rfl

theorem Kept.same (hs : Kept r s) (h : Same s s') : Kept r s' where
  inbox j := by rw [h.inbox, h.sent]; exact hs.inbox j
  placed i := by
    have hlast := last?_of_sent h.sent (r.gid i)
    refine (hs.placed i).of_same hlast (by rw [h.graph]) ?_
    rw [Forgotten, Forgotten, hlast, h.inbox]

theorem Kept.announced (hs : Kept r s) (hsettled : s.Settled) {i : Fin n} {nodes : List HostedNode}
    (h : Announced r i nodes s s') : Kept r s' where
  inbox j := .inr ⟨_, by rw [h.inbox, hsettled j, List.nil_append], by simp [h.sent]⟩
  placed k := by
    by_cases hk : k = i
    · subst hk
      exact .of_announced_self hsettled h
    · exact (hs.placed k).of_announced_other hsettled h hk

theorem Kept.received (hs : Kept r s) {j : Fin n} {a : Announcement} (hqueue : s.inbox j = [a])
    (hsent : s.sent.getLast? = some a) (h : Received r j a s s') : Kept r s' where
  inbox k := by
    rw [h.inbox, h.sent]
    split_ifs
    · exact .inl rfl
    · exact hs.inbox k
  placed i := (hs.placed i).of_received hqueue hsent h

theorem kept_step (hs : Kept r s) (action : Action n) : Kept r (step r s action) := by
  cases action with
  | call i c link =>
    rw [step]
    split_ifs with hsettled
    · rcases call_cases r i c link s with h | ⟨nodes, h⟩
      · exact hs.same h
      · exact hs.announced hsettled h
    · exact hs
  | deliver j =>
    rcases hs.inbox j with hempty | ⟨a, hqueue, hsent⟩
    · simpa [step, hempty] using hs
    · exact hs.received hqueue hsent (received_step hqueue)

theorem Kept.steps (hs : Kept r s) (actions : List (Action n)) : Kept r (actions.foldl (step r) s) := by
  induction actions generalizing s with
  | nil => exact hs
  | cons action rest ih => exact ih (kept_step hs action)

/-- A forgotten member cannot announce anything, and no other one announces it. -/
theorem Kept.forgotten_step (hs : Kept r s) {i : Fin n} (hf : Forgotten r s i) (action : Action n) :
    Forgotten r (step r s action) i := by
  cases action with
  | call k c link =>
    rw [step]
    split_ifs with hsettled
    · rcases call_cases r k c link s with h | ⟨nodes, h⟩
      · exact hf.of_inbox (last?_of_sent h.sent _) fun j a _ ha => by rwa [h.inbox] at ha
      · have hgid : r.gid k ≠ r.gid i := by
          intro heq
          rw [r.distinct heq] at h
          exact h.registered ((hs.placed i).gone hf)
        refine hf.of_inbox (by rw [last?_of_append_one h.sent, if_neg hgid]) fun j a hown ha => ?_
        rw [h.inbox, List.mem_append, List.mem_singleton] at ha
        rcases ha with ha | rfl
        · exact ha
        · exact absurd hown hgid
    · exact hf
  | deliver j =>
    rcases hs.inbox j with hempty | ⟨a, hqueue, -⟩
    · simpa [step, hempty] using hf
    · have h := received_step (r := r) hqueue
      refine hf.of_inbox (last?_of_sent h.sent _) fun k b _ hb => ?_
      rw [h.inbox] at hb
      split_ifs at hb
      · cases hb
      · exact hb

theorem Kept.forgotten_steps (hs : Kept r s) {i : Fin n} (hf : Forgotten r s i)
    (actions : List (Action n)) : Forgotten r (actions.foldl (step r) s) i := by
  induction actions generalizing s with
  | nil => exact hf
  | cons action rest ih => exact ih (kept_step hs action) (hs.forgotten_step hf action)

/-- Some members have joined; nothing was sent and nobody has a node. -/
structure Joined (r : Roster n) (members : List (Fin n)) (s : Commons n) : Prop where
  sent : s.sent = []
  inbox (j : Fin n) : s.inbox j = []
  nodesOf (gid : Gid) : s.graph.nodesOf gid = []
  registered : ∀ i ∈ members, s.graph.participants.get? (r.gid i) = some []

theorem Joined.join {members : List (Fin n)} (hs : Joined r members s) (i : Fin n) :
    Joined r (i :: members) ((member r i).join s) := by
  have hmail : (((member r i).join s).sent, ((member r i).join s).inbox) = (s.sent, s.inbox) :=
    hidden_mail.perform (.addParticipant (r.gid i)) s
  have hgraph : ((member r i).join s).graph = (s.graph.addParticipant (r.gid i)).graph :=
    graph_perform (e := (s.graph.addParticipant (r.gid i)).map fun _ => .done) rfl
  rw [Prod.mk.injEq] at hmail
  refine ⟨hmail.1.trans hs.sent, fun j => (congrFun hmail.2 j).trans (hs.inbox j), fun gid => ?_,
    fun k hk => ?_⟩
  · rw [hgraph, Graph.nodesOf_addParticipant, hs.nodesOf]
  · rw [hgraph]
    by_cases hki : r.gid k = r.gid i
    · rw [hki, Graph.get?_addParticipant_self]
      exact congrArg some (hs.nodesOf (r.gid i))
    · rw [Graph.get?_addParticipant_of_ne _ hki]
      rcases List.mem_cons.1 hk with rfl | hk
      · exact absurd rfl hki
      · exact hs.registered k hk

theorem joined_start (r : Roster n) : Joined r (List.finRange n) (start r) := by
  have hall (members before : List (Fin n)) (t : Commons n) (ht : Joined r before t) :
      Joined r (members.reverse ++ before) (members.foldl (fun s i => (member r i).join s) t) := by
    induction members generalizing before t with
    | nil => exact ht
    | cons i rest ih => simpa using ih (i :: before) _ (ht.join i)
  have hempty : Joined r [] ({} : Commons n) := ⟨rfl, fun _ => rfl, fun _ => rfl, by simp⟩
  have hstart := hall (List.finRange n) [] {} hempty
  exact ⟨hstart.sent, hstart.inbox, hstart.nodesOf, fun i hi => hstart.registered i (by simp)⟩

theorem kept_start (r : Roster n) : Kept r (start r) where
  inbox j := .inl ((joined_start r).inbox j)
  placed i := by
    have hlast : (start r).last? (r.gid i) = none := by simp [last?, (joined_start r).sent]
    constructor
    · rintro ⟨a, ha, -⟩
      rw [hlast] at ha
      cases ha
    · intro
      rw [told, hlast]
      exact (joined_start r).registered i (List.mem_finRange i)

theorem kept_run (r : Roster n) (actions : List (Action n)) : Kept r (run r actions) :=
  (kept_start r).steps actions

/-- A member that shares its cache stands with what it has announced, except after it has announced
that it has no nodes: as soon as another member receives that, its calls find it unknown, and
nothing brings it back. -/
theorem shared_member_forgotten_iff (r : Roster n) (actions : List (Action n)) (i : Fin n) :
    let s := run r actions
    (Forgotten r s i → s.graph.participants.get? (r.gid i) = none) ∧
    (¬ Forgotten r s i → s.graph.participants.get? (r.gid i) = some (s.told (r.gid i))) ∧
    (s.Settled → (Forgotten r s i ↔
      (∃ j, j ≠ i) ∧ ∃ a, s.last? (r.gid i) = some a ∧ a.nodes = [])) ∧
    (∀ c link, ((context r i link).run c s).1 =
      .crashed (.violation (.unknownParticipant (r.gid i))) ↔ Forgotten r s i) ∧
    (Forgotten r s i → ∀ later, Forgotten r (run r (actions ++ later)) i) := by
  intro s
  have hkept : Kept r s := kept_run r actions
  have hplaced : Placed r s i := hkept.placed i
  refine ⟨hplaced.gone, hplaced.stands, fun hs => hs.forgotten_iff i, fun c link => ?_,
    fun hf later => ?_⟩
  · rw [run_unknown_iff]
    exact hplaced.unknown_iff
  · rw [run, List.foldl_append]
    exact hkept.forgotten_steps hf later

/-- A participant that is still alive is forgotten when it destroys its only node. -/
theorem shared_member_forgotten_pair :
    let call (kind : Kind) : Action 2 := .call 0 ⟨kind, .node, ⟨"/", "talker"⟩⟩ .working
    let s := run Network.pair
      [call .creation, .deliver 0, .deliver 1, call .destruction, .deliver 0, .deliver 1]
    s.Settled ∧ s.last? (Network.pair.gid 0) = some ⟨Network.pair.gid 0, []⟩ ∧
      s.graph.participants.get? (Network.pair.gid 0) = none ∧
      ((context Network.pair 0 .working).run ⟨.creation, .node, ⟨"/", "talker"⟩⟩ s).1 =
        .crashed (.violation (.unknownParticipant (Network.pair.gid 0))) := by
  decide

end Commons

end RosGraph
