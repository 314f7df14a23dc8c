import RosGraph.SortedMap.Values
import RosGraph.TopicLedger
import Mathlib.Tactic.SplitIfs

/-! What one operation does to a ledger of topics. A recorded use is one more occurrence
of its type in two lists, the one of its node and the one of the total, and nothing else;
a removal that succeeds is the same step backwards. The lists differ in their order, so
they are compared by how many of their elements satisfy a condition. -/

namespace RosGraph

namespace Occurrences

variable {o o' : Occurrences} {topic type : String}

/-- `o'` has one more of a type on a topic than `o`, wherever it stands in the list. -/
def OneMore (o : Occurrences) (topic type : String) (o' : Occurrences) : Prop :=
  ∀ (t : String) (p : String → Bool),
    (o'.valueAt t).countP p = (o.valueAt t).countP p + if topic = t ∧ p type then 1 else 0

theorem valueAt_add_self (o : Occurrences) (topic type : String) :
    (o.add topic type).valueAt topic = o.valueAt topic ++ [type] :=
  SortedMap.valueAt_alter_self ..

theorem oneMore_add (o : Occurrences) (topic type : String) :
    OneMore o topic type (o.add topic type) := by
  intro t p
  by_cases ht : topic = t
  · subst ht
    rw [valueAt_add_self, List.countP_append, List.countP_singleton]
    simp
  · have hother : (o.add topic type).valueAt t = o.valueAt t :=
      SortedMap.valueAt_alter_of_ne _ (Ne.symm ht) _
    simp [hother, ht]

theorem add_ne_empty (o : Occurrences) (topic type : String) : o.add topic type ≠ ∅ :=
  SortedMap.alter_ne_empty rfl

theorem pruned_add (h : SortedMap.Pruned o) (topic type : String) :
    SortedMap.Pruned (o.add topic type) :=
  h.alter fun heq => by simp at heq

theorem remove?_eq_none_iff : o.remove? topic type = none ↔ type ∉ o.valueAt topic := by
  rw [remove?]
  split_ifs with h
  · simpa [SortedMap.valueAt] using h
  · simpa [SortedMap.valueAt] using h

theorem remove?_eq_some (h : o.remove? topic type = some o') :
    type ∈ o.valueAt topic ∧ o' = o.alter topic fun _ =>
      if (o.valueAt topic).erase type = [] then none else some ((o.valueAt topic).erase type) := by
  rw [remove?] at h
  split_ifs at h with hmem
  exact ⟨hmem, (Option.some.inj h).symm⟩

theorem oneMore_of_remove? (h : o.remove? topic type = some o') : OneMore o' topic type o := by
  obtain ⟨hmem, rfl⟩ := remove?_eq_some h
  intro t p
  by_cases ht : topic = t
  · subst ht
    have hself := SortedMap.valueAt_alter_self o topic fun _ =>
      if (o.valueAt topic).erase type = [] then none else some ((o.valueAt topic).erase type)
    have hrest : (if (o.valueAt topic).erase type = [] then none
        else some ((o.valueAt topic).erase type)).getD ∅ = (o.valueAt topic).erase type := by
      split_ifs with hempty
      · exact hempty.symm
      · rfl
    rw [hself, hrest, (List.perm_cons_erase hmem).countP_eq p, List.countP_cons]
    simp
  · rw [SortedMap.valueAt_alter_of_ne _ (Ne.symm ht)]
    simp [ht]

theorem pruned_remove? (ho : SortedMap.Pruned o) (h : o.remove? topic type = some o') :
    SortedMap.Pruned o' := by
  obtain ⟨-, rfl⟩ := remove?_eq_some h
  refine ho.alter ?_
  split_ifs with hempty
  · exact Option.some_ne_none _ |>.symm
  · simpa using hempty

end Occurrences

namespace TopicLedger

open Occurrences

/-- What a node has recorded; nothing for a node that is not known. -/
def topicsOf (l : TopicLedger) (participant : Gid) (node : NodeName) : Occurrences :=
  (l.byNode.valueAt participant).valueAt node

/-- The types that the node of a use has recorded on its topic. -/
def typesOf (l : TopicLedger) (u : TopicUse) : List String :=
  (l.topicsOf u.participant u.node).valueAt u.topic

/-- No node of a participant is without topics, and no topic without types. -/
structure PrunedNodes (nodes : SortedMap NodeName Occurrences) : Prop where
  pruned : SortedMap.Pruned nodes
  topics : ∀ topics ∈ nodes.values, SortedMap.Pruned topics

/-- No map at any level holds an empty map or an empty list. -/
structure Pruned (l : TopicLedger) : Prop where
  total : SortedMap.Pruned l.total
  participants : SortedMap.Pruned l.byNode
  nodes : ∀ nodes ∈ l.byNode.values, PrunedNodes nodes

/-- The sum of a number over all nodes of all participants. -/
def sumOverNodes (l : TopicLedger) (f : Occurrences → ℕ) : ℕ :=
  (l.byNode.values.map fun nodes => (nodes.values.map f).sum).sum

/-- `l'` is `l` with one more occurrence of `u`. -/
structure OneMoreUse (l : TopicLedger) (u : TopicUse) (l' : TopicLedger) : Prop where
  total : OneMore l.total u.topic u.type l'.total
  topics : OneMore (l.topicsOf u.participant u.node) u.topic u.type
    (l'.topicsOf u.participant u.node)
  nodes (node : NodeName) (h : node ≠ u.node) :
    (l'.byNode.valueAt u.participant).get? node = (l.byNode.valueAt u.participant).get? node
  participants (gid : Gid) (h : gid ≠ u.participant) : l'.byNode.get? gid = l.byNode.get? gid

variable {l l' : TopicLedger} {u : TopicUse}

namespace OneMoreUse

/-- Other nodes keep what they have recorded. -/
theorem topicsOf_of_ne (h : OneMoreUse l u l') {gid : Gid} {node : NodeName}
    (hne : ¬ (gid = u.participant ∧ node = u.node)) : l'.topicsOf gid node = l.topicsOf gid node := by
  by_cases hgid : gid = u.participant
  · subst hgid
    have hnode : node ≠ u.node := fun heq => hne ⟨rfl, heq⟩
    exact SortedMap.valueAt_congr (h.nodes node hnode)
  · rw [topicsOf, SortedMap.valueAt_congr (h.participants gid hgid)]
    rfl

/-- A sum over all nodes changes by what changes at the node of the use. -/
theorem sumOverNodes (h : OneMoreUse l u l') {f : Occurrences → ℕ} (hf : f ∅ = 0) :
    l'.sumOverNodes f + f (l.topicsOf u.participant u.node) =
      l.sumOverNodes f + f (l'.topicsOf u.participant u.node) := by
  have hnodes := SortedMap.sum_values_of_get?_eq f hf h.nodes
  have hparticipants := SortedMap.sum_values_of_get?_eq
    (fun nodes : SortedMap NodeName Occurrences => (nodes.values.map f).sum) rfl h.participants
  rw [TopicLedger.sumOverNodes, TopicLedger.sumOverNodes, topicsOf, topicsOf]
  omega

end OneMoreUse

section Record

theorem nodes_record_self (l : TopicLedger) (u : TopicUse) :
    (l.record u).byNode.valueAt u.participant =
      (l.byNode.valueAt u.participant).alter u.node fun topics =>
        some (Occurrences.add (topics.getD ∅) u.topic u.type) :=
  SortedMap.valueAt_alter_self ..

theorem oneMoreUse_record (l : TopicLedger) (u : TopicUse) : OneMoreUse l u (l.record u) where
  total := oneMore_add _ _ _
  topics := by
    rw [topicsOf, topicsOf, nodes_record_self, SortedMap.valueAt_alter_self]
    exact oneMore_add _ _ _
  nodes node h := by rw [nodes_record_self, SortedMap.get?_alter_of_ne _ h]
  participants gid h := SortedMap.get?_alter_of_ne _ h _

theorem Pruned.nodesOf (h : l.Pruned) (participant : Gid) :
    PrunedNodes (l.byNode.valueAt participant) :=
  SortedMap.forall_valueAt h.nodes ⟨SortedMap.pruned_empty, fun _ h => absurd h List.not_mem_nil⟩ _

theorem Pruned.topicsOf (h : l.Pruned) (participant : Gid) (node : NodeName) :
    SortedMap.Pruned (l.topicsOf participant node) :=
  SortedMap.forall_valueAt (h.nodesOf participant).topics SortedMap.pruned_empty _

theorem pruned_record (h : l.Pruned) (u : TopicUse) : (l.record u).Pruned where
  total := pruned_add h.total u.topic u.type
  participants := by
    refine h.participants.alter fun heq => ?_
    exact SortedMap.alter_ne_empty rfl (Option.some.inj heq)
  nodes := by
    refine SortedMap.forall_values_alter h.nodes fun nodes hnodes => ?_
    obtain rfl := Option.some.inj hnodes
    have hold : PrunedNodes (l.byNode.valueAt u.participant) := h.nodesOf u.participant
    constructor
    · exact hold.pruned.alter fun heq => add_ne_empty _ _ _ (Option.some.inj heq)
    · refine SortedMap.forall_values_alter hold.topics fun topics htopics => ?_
      obtain rfl := Option.some.inj htopics
      exact pruned_add (h.topicsOf u.participant u.node) u.topic u.type

end Record

section PutNonEmpty
variable {κ β γ : Type} [Ord κ] [Std.TransOrd κ] [Std.LawfulEqOrd κ] [Ord γ]
  (m : SortedMap κ (SortedMap γ β)) (k : κ) (v : SortedMap γ β)

theorem valueAt_putNonEmpty_self : (putNonEmpty m k v).valueAt k = v := by
  rw [putNonEmpty, SortedMap.valueAt_alter_self]
  split_ifs with hempty
  · exact (SortedMap.isEmpty_iff.1 hempty).symm
  · rfl

theorem get?_putNonEmpty_of_ne {j : κ} (h : j ≠ k) : (putNonEmpty m k v).get? j = m.get? j :=
  SortedMap.get?_alter_of_ne _ h _

theorem forall_values_putNonEmpty {P : SortedMap γ β → Prop} (h : ∀ v ∈ m.values, P v) (hv : P v) :
    ∀ w ∈ (putNonEmpty m k v).values, P w := by
  refine SortedMap.forall_values_alter h fun w hw => ?_
  split_ifs at hw
  obtain rfl := Option.some.inj hw
  exact hv

theorem pruned_putNonEmpty (h : SortedMap.Pruned m) : SortedMap.Pruned (putNonEmpty m k v) := by
  refine h.alter ?_
  split_ifs with hempty
  · exact Option.some_ne_none _ |>.symm
  · exact fun heq => hempty (SortedMap.isEmpty_iff.2 (Option.some.inj heq))

end PutNonEmpty

section Remove

/-- The participants when the node of a use has `topics` left. -/
def leaving (l : TopicLedger) (u : TopicUse) (topics : Occurrences) :
    SortedMap Gid (SortedMap NodeName Occurrences) :=
  putNonEmpty l.byNode u.participant (putNonEmpty (l.byNode.valueAt u.participant) u.node topics)

/-- All that a removal can do. -/
theorem remove_cases (l : TopicLedger) (u : TopicUse) :
    (u.type ∉ l.typesOf u ∧ (l.remove u).1.succeeded = false ∧ (l.remove u).2 = l) ∨
    ∃ topics, Occurrences.remove? (l.topicsOf u.participant u.node) u.topic u.type = some topics ∧
      (Occurrences.remove? l.total u.topic u.type = none ∧
        l.remove u = (.removedUncounted, { l with byNode := l.leaving u topics }) ∨
      ∃ total, Occurrences.remove? l.total u.topic u.type = some total ∧
        l.remove u = (.removed, { total, byNode := l.leaving u topics })) := by
  rw [remove]
  cases hnodes : l.byNode.get? u.participant with
  | none =>
    refine .inl ⟨?_, rfl, rfl⟩
    rw [typesOf, topicsOf, SortedMap.valueAt_of_none hnodes]
    exact List.not_mem_nil
  | some nodes =>
    have htopicsOf : l.topicsOf u.participant u.node = nodes.valueAt u.node := by
      rw [topicsOf, SortedMap.valueAt_of_get? hnodes]
    dsimp only
    cases hremove : (nodes.get? u.node).bind (Occurrences.remove? · u.topic u.type) with
    | none =>
      refine .inl ⟨?_, rfl, rfl⟩
      rw [typesOf, htopicsOf]
      cases htopics : nodes.get? u.node with
      | none =>
        rw [SortedMap.valueAt_of_none htopics]
        exact List.not_mem_nil
      | some topics =>
        rw [SortedMap.valueAt_of_get? htopics]
        rw [htopics] at hremove
        exact remove?_eq_none_iff.1 hremove
    | some topics =>
      obtain ⟨before, hbefore, hafter⟩ := Option.bind_eq_some_iff.1 hremove
      refine .inr ⟨topics, ?_, ?_⟩
      · rw [htopicsOf, SortedMap.valueAt_of_get? hbefore]
        exact hafter
      · have hleaving : l.leaving u topics =
            putNonEmpty l.byNode u.participant (putNonEmpty nodes u.node topics) := by
          rw [leaving, SortedMap.valueAt_of_get? hnodes]
        rw [hleaving]
        dsimp only
        cases htotal : Occurrences.remove? l.total u.topic u.type with
        | none => exact .inl ⟨rfl, rfl⟩
        | some total => exact .inr ⟨total, rfl, rfl⟩

section Leaving
variable {topics total : Occurrences}

theorem nodes_leaving_self (l : TopicLedger) (u : TopicUse) (topics : Occurrences) :
    (l.leaving u topics).valueAt u.participant =
      putNonEmpty (l.byNode.valueAt u.participant) u.node topics :=
  valueAt_putNonEmpty_self ..

/-- Recording a use and withdrawing it are one step in two directions. -/
theorem oneMoreUse_leaving
    (htopics : Occurrences.remove? (l.topicsOf u.participant u.node) u.topic u.type = some topics)
    (htotal : Occurrences.remove? l.total u.topic u.type = some total) :
    OneMoreUse { total, byNode := l.leaving u topics } u l where
  total := oneMore_of_remove? htotal
  topics := by
    rw [topicsOf, nodes_leaving_self, valueAt_putNonEmpty_self]
    exact oneMore_of_remove? htopics
  nodes node h := by rw [nodes_leaving_self, get?_putNonEmpty_of_ne _ _ _ h]
  participants gid h := (get?_putNonEmpty_of_ne _ _ _ h).symm

theorem pruned_leaving (h : l.Pruned)
    (htopics : Occurrences.remove? (l.topicsOf u.participant u.node) u.topic u.type = some topics)
    (htotal : Occurrences.remove? l.total u.topic u.type = some total) :
    Pruned { total, byNode := l.leaving u topics } where
  total := pruned_remove? h.total htotal
  participants := pruned_putNonEmpty _ _ _ h.participants
  nodes := by
    refine forall_values_putNonEmpty _ _ _ h.nodes ⟨?_, ?_⟩
    · exact pruned_putNonEmpty _ _ _ (h.nodesOf u.participant).pruned
    · exact forall_values_putNonEmpty _ _ _ (h.nodesOf u.participant).topics
        (pruned_remove? (h.topicsOf u.participant u.node) htopics)

end Leaving

end Remove

end TopicLedger

end RosGraph
