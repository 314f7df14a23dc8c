import RosGraph.Proofs.Network

/-! Gossip converges. What a member knows of another one is the node list of that one
as it was some announcements ago, and those announcements are still on their way: once
they have arrived in order, the two lists are one. The invariant says so for every
pair of members at every state; it also says that each channel carries announcements
of its sender only, and that nobody has nodes for a participant that is no member. -/

namespace RosGraph.Network

open Lifecycle

variable {n : ℕ} {r : Roster n} {s s' : Network n}

/-- What becomes of a known node list when announcements arrive one after the other. -/
def latest (queue : List Announcement) (known : List HostedNode) : List HostedNode :=
  queue.foldl (fun _ a => a.nodes) known

@[simp] theorem latest_append_one (queue : List Announcement) (a : Announcement)
    (known : List HostedNode) : latest (queue ++ [a]) known = a.nodes := by
  simp [latest]

/-- What is on its way leads from what a member knows of another one to what that one has. -/
structure Consistent (r : Roster n) (s : Network n) : Prop where
  labelled (i j : Fin n) : ∀ a ∈ s.channel i j, a.participant = r.gid i
  pending (i j : Fin n) (h : i ≠ j) :
    latest (s.channel i j) (s.nodesOf j (r.gid i)) = s.nodesOf i (r.gid i)
  strangers (j : Fin n) (gid : Gid) (h : ∀ i, gid ≠ r.gid i) : s.nodesOf j gid = []

theorem Consistent.same (hs : Consistent r s) (h : Same s s') : Consistent r s' where
  labelled i j := by rw [h.channel]; exact hs.labelled i j
  pending i j hij := by rw [h.channel, h.nodesOf, h.nodesOf]; exact hs.pending i j hij
  strangers j gid hgid := by rw [h.nodesOf]; exact hs.strangers j gid hgid

theorem Consistent.announced (hs : Consistent r s) {k : Fin n} {nodes : List HostedNode}
    (h : Announced r k nodes s s') : Consistent r s' where
  labelled i j a ha := by
    rw [h.channel] at ha
    by_cases hi : i = k
    · subst hi
      rw [channel_send_self, List.mem_append, List.mem_singleton] at ha
      rcases ha with ha | rfl
      · exact hs.labelled i j a ha
      · rfl
    · rw [channel_send_of_ne hi] at ha
      exact hs.labelled i j a ha
  pending i j hij := by
    rw [h.channel]
    by_cases hi : i = k
    · subst hi
      rw [channel_send_self, latest_append_one]
      exact h.own.symm
    · have hgid : r.gid i ≠ r.gid k := fun heq => hi (r.distinct heq)
      rw [channel_send_of_ne hi, h.other j _ (fun hk => hgid hk.2),
        h.other i _ (fun hk => hi hk.1)]
      exact hs.pending i j hij
  strangers j gid hgid := by
    rw [h.other j gid fun hk => hgid k hk.2]
    exact hs.strangers j gid hgid

/-- An announcement of `k` that arrives at `l` sets the list that `l` has for `k`, unless it
is an echo. -/
theorem nodesOf_receive_from {k l : Fin n} {a : Announcement} (hlabel : a.participant = r.gid k)
    (t : Network n) (j : Fin n) (gid : Gid) :
    ((r.member l).receive a t).nodesOf j gid =
      if k ≠ l ∧ j = l ∧ gid = r.gid k then a.nodes else t.nodesOf j gid := by
  by_cases hself : k = l
  · subst hself
    rw [receive_own k a t hlabel, if_neg fun h => h.1 rfl]
  · have hforeign : a.participant ≠ r.gid l := by
      rw [hlabel]
      exact fun heq => hself (r.distinct heq)
    rw [nodesOf_receive l a t hforeign, hlabel]
    simp only [ne_eq, hself, not_false_eq_true, true_and]

/-- The head of a channel arrives: what is pending afterwards is what was, less the head. -/
theorem Consistent.deliver (hs : Consistent r s) (k l : Fin n) :
    Consistent r (r.step s (.deliver k l)) := by
  cases hqueue : s.channel k l with
  | nil => simpa [Roster.step, hqueue] using hs
  | cons a rest =>
    have hlabel : a.participant = r.gid k := hs.labelled k l a (by simp [hqueue])
    have hchannel (i j : Fin n) : (r.step s (.deliver k l)).channel i j =
        if i = k ∧ j = l then rest else s.channel i j := by
      simp only [Roster.step, hqueue, channel_receive]
      by_cases hi : i = k
      · subst hi
        by_cases hj : j = l <;> simp [hj]
      · simp [hi]
    have hnodes (j : Fin n) (gid : Gid) : (r.step s (.deliver k l)).nodesOf j gid =
        if k ≠ l ∧ j = l ∧ gid = r.gid k then a.nodes else s.nodesOf j gid := by
      simp only [Roster.step, hqueue]
      exact nodesOf_receive_from hlabel _ j gid
    refine ⟨fun i j b hb => ?_, fun i j hij => ?_, fun j gid hgid => ?_⟩
    · rw [hchannel] at hb
      split_ifs at hb with hkl
      · obtain ⟨rfl, rfl⟩ := hkl
        exact hs.labelled i j b (by simp [hqueue, hb])
      · exact hs.labelled i j b hb
    · have hpending := hs.pending i j hij
      have hown : ¬ (k ≠ l ∧ i = l ∧ r.gid i = r.gid k) := fun ⟨hne, hil, hgid⟩ =>
        hne ((r.distinct hgid).symm.trans hil)
      rw [hchannel, hnodes, hnodes, if_neg hown]
      by_cases hkl : i = k ∧ j = l
      · obtain ⟨rfl, rfl⟩ := hkl
        rw [hqueue] at hpending
        rw [if_pos ⟨rfl, rfl⟩, if_pos ⟨hij, rfl, rfl⟩]
        exact hpending
      · have hkeep : ¬ (k ≠ l ∧ j = l ∧ r.gid i = r.gid k) := fun ⟨_, hj, hgid⟩ =>
          hkl ⟨r.distinct hgid, hj⟩
        rw [if_neg hkl, if_neg hkeep]
        exact hpending
    · rw [hnodes, if_neg fun h => hgid k h.2.2]
      exact hs.strangers j gid hgid

theorem consistent_step (hs : Consistent r s) (action : Action n) : Consistent r (r.step s action) := by
  cases action with
  | call i c link =>
    rcases call_cases r i c link s with h | ⟨nodes, h⟩
    · exact hs.same h
    · exact hs.announced h
  | deliver i j => exact hs.deliver i j
  | discover j d => exact hs.same (same_discover j d s)

theorem consistent_start (r : Roster n) : Consistent r r.start := by
  have hempty : Consistent r ({} : Network n) := by
    refine ⟨fun i j a ha => ?_, fun i j _ => rfl, fun j gid _ => rfl⟩
    cases ha
  have hjoin (members : List (Fin n)) (t : Network n) (ht : Consistent r t) :
      Consistent r (members.foldl (fun s i => (r.member i).join s) t) := by
    induction members generalizing t with
    | nil => exact ht
    | cons i rest ih => exact ih _ (ht.same (same_join i t))
  exact hjoin _ _ hempty

theorem Consistent.steps (hs : Consistent r s) (actions : List (Action n)) :
    Consistent r (actions.foldl r.step s) := by
  induction actions generalizing s with
  | nil => exact hs
  | cons action rest ih => exact ih (consistent_step hs action)

theorem consistent_run (r : Roster n) (actions : List (Action n)) : Consistent r (r.run actions) :=
  (consistent_start r).steps actions

/-- Announcements of `i` that arrive at `j` one after the other leave the last of them. -/
theorem nodesOf_receive_all {i j : Fin n} (hij : i ≠ j) {queue : List Announcement}
    (hqueue : ∀ a ∈ queue, a.participant = r.gid i) (t : Network n) :
    (queue.foldl (fun t a => (r.member j).receive a t) t).nodesOf j (r.gid i) =
      latest queue (t.nodesOf j (r.gid i)) := by
  induction queue generalizing t with
  | nil => rfl
  | cons a rest ih =>
    rw [List.foldl_cons, ih fun b hb => hqueue b (List.mem_cons_of_mem _ hb),
      nodesOf_receive_from (hqueue a List.mem_cons_self), if_pos ⟨hij, rfl, rfl⟩]
    rfl

/-- When nothing is on its way between two members, all know the same nodes. -/
theorem Consistent.nodesOf_eq (hs : Consistent r s) (hquiet : ∀ i j, i ≠ j → s.channel i j = [])
    (j k : Fin n) (gid : Gid) : s.nodesOf j gid = s.nodesOf k gid := by
  have hknown (i j : Fin n) : s.nodesOf j (r.gid i) = s.nodesOf i (r.gid i) := by
    by_cases hij : i = j
    · rw [hij]
    · have hpending := hs.pending i j hij
      rwa [hquiet i j hij] at hpending
  by_cases hmember : ∃ i, gid = r.gid i
  · obtain ⟨i, rfl⟩ := hmember
    rw [hknown i j, hknown i k]
  · have hstranger : ∀ i, gid ≠ r.gid i := fun i heq => hmember ⟨i, heq⟩
    rw [hs.strangers j gid hstranger, hs.strangers k gid hstranger]

/-- Gossip converges. After any run, once all that is on its way from `i` to `j` has
arrived, `j` lists for `i` what `i` lists for itself. When nothing is on its way, all
caches name the same nodes, and any two with the same endpoints give the same answers. -/
theorem gossip_converges (r : Roster n) (actions : List (Action n)) :
    let s := r.run actions
    (∀ i j, i ≠ j → (r.drain i j s).nodesOf j (r.gid i) = s.nodesOf i (r.gid i)) ∧
    ((∀ i j, i ≠ j → s.channel i j = []) → ∀ j k,
      (s.graph j).nodeCount = (s.graph k).nodeCount ∧
      (s.graph j).nodeNames = (s.graph k).nodeNames ∧
      ((s.graph j).writers = (s.graph k).writers → (s.graph j).readers = (s.graph k).readers →
        (∀ kind id d, (s.graph j).namesAndTypesOf kind id d = (s.graph k).namesAndTypesOf kind id d) ∧
        (∀ kind topic, (s.graph j).endpointCount kind topic = (s.graph k).endpointCount kind topic) ∧
        ∀ kind topic showType, (s.graph j).endpointsInfo kind topic showType =
          (s.graph k).endpointsInfo kind topic showType)) := by
  intro s
  have hs : Consistent r s := consistent_run r actions
  refine ⟨fun i j hij => ?_, fun hquiet j k => ?_⟩
  · rw [Roster.drain, nodesOf_receive_all hij (hs.labelled i j)]
    exact hs.pending i j hij
  · have hnodes (gid : Gid) : (s.graph j).nodesOf gid = (s.graph k).nodesOf gid :=
      hs.nodesOf_eq hquiet j k gid
    refine ⟨Graph.nodeCount_eq_of_nodesOf hnodes, Graph.nodeNames_eq_of_nodesOf hnodes,
      fun hw hr => ?_⟩
    have hends (kind : EndpointKind) : (s.graph j).endpoints kind = (s.graph k).endpoints kind := by
      cases kind
      · exact hw
      · exact hr
    refine ⟨fun kind id d => ?_, fun kind topic => ?_, fun kind topic showType => ?_⟩
    · exact Graph.namesAndTypesOf_eq_of_nodesOf hnodes (hends kind) id d
    · exact Graph.endpointCount_eq_of_endpoints (hends kind) topic
    · exact Graph.endpointsInfo_eq_of_nodesOf hnodes (hends kind) topic showType

/-- Two participants. -/
def pair : Roster 2 where
  gid i := .ofLeading [i.val.toUInt8]
  distinct i j h := by revert i j h; decide

/-- The announcement of a node has reached its sender only, then the other member as well. -/
theorem gossip_converges_pair :
    let call : Call := ⟨.creation, .node, ⟨"/", "talker"⟩⟩
    let halfway := pair.run [.call 0 call .working, .deliver 0 0]
    let done := pair.run [.call 0 call .working, .deliver 0 0, .deliver 0 1]
    (0 : Fin 2) ≠ 1 ∧
      (pair.drain 0 1 halfway).nodesOf 1 (pair.gid 0) = [{ id := ⟨"/", "talker"⟩ }] ∧
      (∀ i j, i ≠ j → done.channel i j = []) ∧ (done.graph 1).nodeNames = [⟨"/", "talker"⟩] := by
  intro call halfway done
  have hne : (0 : Fin 2) ≠ 1 := by decide
  have hquiet : ∀ i j, i ≠ j → done.channel i j = [] := by decide
  refine ⟨hne, ?_, hquiet, ?_⟩
  · rw [(gossip_converges pair _).1 0 1 hne]
    decide
  · rw [((gossip_converges pair _).2 hquiet 1 0).2.1]
    decide

end RosGraph.Network
