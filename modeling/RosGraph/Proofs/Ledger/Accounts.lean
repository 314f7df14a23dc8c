import RosGraph.Proofs.Ledger.Step
import Mathlib.Data.Multiset.Count
import Mathlib.Data.Multiset.Filter

/-! A ledger of topics stands for a bag of uses: recording a use adds a copy, a removal
takes one away if there is one. The ledger `Accounts` for the bag when all its numbers are
those of the bag and no container is empty. Every operation keeps that and gives the answer
that the bag gives. The total and the nodes account for the same bag, hence for each other. -/

namespace RosGraph.TopicLedger

open Occurrences

inductive Op
  | record (u : TopicUse)
  | remove (u : TopicUse)
deriving DecidableEq

namespace Op

def use : Op → TopicUse
  | record u => u
  | remove u => u

/-- What the caller is told, and the ledger afterwards. -/
def onLedger (l : TopicLedger) : Op → Bool × TopicLedger
  | record u => (true, l.record u)
  | remove u => ((l.remove u).1.succeeded, (l.remove u).2)

def onBag (b : Multiset TopicUse) : Op → Bool × Multiset TopicUse
  | record u => (true, u ::ₘ b)
  | remove u => (u ∈ b, b.erase u)

end Op

/-- The state after some operations, for the ledger and for the bag alike. -/
def runFrom {σ : Type} (step : σ → Op → Bool × σ) (s : σ) (ops : List Op) : σ :=
  ops.foldl (fun s op => (step s op).2) s

/-- The ledger after some operations on an empty one. -/
def run (ops : List Op) : TopicLedger := runFrom Op.onLedger empty ops

/-- The bag after the same operations. -/
def bag (ops : List Op) : Multiset TopicUse := runFrom Op.onBag 0 ops

/-- The numbers of the ledger are those of the bag. -/
structure Tallies (l : TopicLedger) (b : Multiset TopicUse) : Prop where
  copies (u : TopicUse) : (l.typesOf u).count u.type = b.count u
  total (topic : String) (p : String → Bool) :
    (l.total.valueAt topic).countP p = b.countP fun u => u.topic = topic ∧ p u.type
  nodes (topic : String) (p : String → Bool) :
    (l.sumOverNodes fun topics => (topics.valueAt topic).countP p) =
      b.countP fun u => u.topic = topic ∧ p u.type

structure Accounts (l : TopicLedger) (b : Multiset TopicUse) : Prop extends Tallies l b where
  pruned : l.Pruned

variable {l l' : TopicLedger} {b : Multiset TopicUse} {u : TopicUse}

namespace OneMoreUse

theorem count_typesOf (h : OneMoreUse l u l') (v : TopicUse) :
    (l'.typesOf v).count v.type = (l.typesOf v).count v.type + if v = u then 1 else 0 := by
  by_cases hnode : v.participant = u.participant ∧ v.node = u.node
  · have hsame : (u.topic = v.topic ∧ u.type == v.type) ↔ v = u := by
      rw [beq_iff_eq]
      constructor
      · rintro ⟨htopic, htype⟩
        cases u
        cases v
        rw [TopicUse.mk.injEq]
        exact ⟨hnode.1, hnode.2, htopic.symm, htype.symm⟩
      · rintro rfl
        exact ⟨rfl, rfl⟩
    have htopics := h.topics v.topic (· == v.type)
    rw [typesOf, typesOf, hnode.1, hnode.2, List.count, htopics]
    simp only [hsame]
  · have hne : v ≠ u := fun heq => hnode (heq ▸ ⟨rfl, rfl⟩)
    rw [typesOf, h.topicsOf_of_ne hnode, if_neg hne]
    rfl

theorem countP_sumOverNodes (h : OneMoreUse l u l') (topic : String) (p : String → Bool) :
    (l'.sumOverNodes fun topics => (topics.valueAt topic).countP p) =
      (l.sumOverNodes fun topics => (topics.valueAt topic).countP p) +
        if u.topic = topic ∧ p u.type then 1 else 0 := by
  have hsum := h.sumOverNodes (f := fun topics => (topics.valueAt topic).countP p) rfl
  have htopics := h.topics topic p
  omega

/-- The ledger with one more use tallies with the bag that has one more. -/
theorem tallies_iff (h : OneMoreUse l u l') : Tallies l' (u ::ₘ b) ↔ Tallies l b := by
  constructor
  · rintro ⟨hcopies, htotal, hnodes⟩
    simp only [h.count_typesOf, Multiset.count_cons, Nat.add_right_cancel_iff] at hcopies
    simp only [h.total _ _, Multiset.countP_cons, Nat.add_right_cancel_iff] at htotal
    simp only [h.countP_sumOverNodes, Multiset.countP_cons, Nat.add_right_cancel_iff] at hnodes
    exact ⟨hcopies, htotal, hnodes⟩
  · rintro ⟨hcopies, htotal, hnodes⟩
    constructor
    · simpa only [h.count_typesOf, Multiset.count_cons, Nat.add_right_cancel_iff] using hcopies
    · simpa only [h.total _ _, Multiset.countP_cons, Nat.add_right_cancel_iff] using htotal
    · simpa only [h.countP_sumOverNodes, Multiset.countP_cons, Nat.add_right_cancel_iff] using hnodes

end OneMoreUse

namespace Accounts

theorem empty : Accounts empty 0 where
  copies _ := rfl
  total _ _ := rfl
  nodes _ _ := rfl
  pruned := ⟨SortedMap.pruned_empty, SortedMap.pruned_empty, fun _ h => absurd h List.not_mem_nil⟩

theorem mem_bag_iff (h : Accounts l b) : u ∈ b ↔ u.type ∈ l.typesOf u := by
  rw [← Multiset.count_pos, ← h.copies u, List.count_pos_iff]

theorem mem_total_iff (h : Accounts l b) {topic type : String} :
    type ∈ l.total.valueAt topic ↔ ∃ u ∈ b, u.topic = topic ∧ u.type = type := by
  have hcount := h.total topic (· == type)
  rw [← List.count_pos_iff, List.count, hcount, Multiset.countP_pos]
  simp only [beq_iff_eq]

/-- What a node has recorded stands in the total as well. -/
theorem mem_total (h : Accounts l b) (hu : u ∈ b) : u.type ∈ l.total.valueAt u.topic :=
  h.mem_total_iff.2 ⟨u, hu, rfl, rfl⟩

theorem record (h : Accounts l b) (u : TopicUse) : Accounts (l.record u) (u ::ₘ b) :=
  ⟨(oneMoreUse_record l u).tallies_iff.2 h.toTallies, pruned_record h.pruned u⟩

/-- A removal finds a copy in the ledger exactly if the bag has one, and takes it from both
lists; otherwise it changes nothing. -/
theorem remove (h : Accounts l b) (u : TopicUse) :
    (u ∈ b ∧ (l.remove u).1 = .removed ∨
      u ∉ b ∧ (l.remove u).1.succeeded = false ∧ (l.remove u).2 = l) ∧
    Accounts (l.remove u).2 (b.erase u) := by
  rcases remove_cases l u with ⟨hnot, hfail, hsame⟩ | ⟨topics, htopics, htotal⟩
  · have hu : u ∉ b := fun hu => hnot (h.mem_bag_iff.1 hu)
    rw [hsame, Multiset.erase_of_notMem hu]
    exact ⟨.inr ⟨hu, hfail, rfl⟩, h⟩
  · have hu : u ∈ b := h.mem_bag_iff.2 (remove?_eq_some htopics).1
    -- The total has whatever a node has, so it cannot be the part that fails.
    rcases htotal with ⟨hnone, -⟩ | ⟨total, htotal, hremove⟩
    · exact absurd (h.mem_total hu) (remove?_eq_none_iff.1 hnone)
    · rw [hremove]
      refine ⟨.inl ⟨hu, rfl⟩, ?_, pruned_leaving h.pruned htopics htotal⟩
      rw [← (oneMoreUse_leaving htopics htotal).tallies_iff, Multiset.cons_erase hu]
      exact h.toTallies

/-- One operation gives the same answer on the ledger as on the bag. -/
theorem step (h : Accounts l b) (op : Op) :
    (op.onLedger l).1 = (op.onBag b).1 ∧ Accounts (op.onLedger l).2 (op.onBag b).2 := by
  cases op with
  | record u => exact ⟨rfl, h.record u⟩
  | remove u =>
    obtain ⟨hanswer, hafter⟩ := h.remove u
    refine ⟨?_, hafter⟩
    rcases hanswer with ⟨hu, hremoved⟩ | ⟨hu, hfail, -⟩
    · simp [Op.onLedger, Op.onBag, hu, hremoved, Removal.succeeded]
    · simp [Op.onLedger, Op.onBag, hu, hfail]

theorem runFrom (h : Accounts l b) (ops : List Op) :
    Accounts (TopicLedger.runFrom Op.onLedger l ops) (TopicLedger.runFrom Op.onBag b ops) := by
  induction ops generalizing l b with
  | nil => exact h
  | cons op rest ih => exact ih (h.step op).2

end Accounts

theorem accounts_run (ops : List Op) : Accounts (run ops) (bag ops) := Accounts.empty.runFrom ops

/-- The two parts of a ledger do not drift apart. The total has as many occurrences of a type on
a topic as all nodes together, nothing is kept that is empty, no removal finds the total
without its use, and a count is that of all nodes. -/
theorem run_total_eq_nodes (ops : List Op) :
    let l := run ops
    (∀ topic type, (l.total.valueAt topic).count type =
      l.sumOverNodes fun topics => (topics.valueAt topic).count type) ∧
    l.Pruned ∧ (∀ u, (l.remove u).1 ≠ .removedUncounted) ∧
    ∀ mangle topic, mangle topic ≠ "" → l.count mangle topic =
      .ok (l.sumOverNodes fun topics => (topics.valueAt (mangle topic)).length) := by
  intro l
  have h : Accounts l (bag ops) := accounts_run ops
  have hcount (topic : String) (p : String → Bool) : (l.total.valueAt topic).countP p =
      l.sumOverNodes fun topics => (topics.valueAt topic).countP p :=
    (h.total topic p).trans (h.nodes topic p).symm
  refine ⟨fun topic type => hcount topic (· == type), h.pruned, fun u hu => ?_,
    fun mangle topic hmangle => ?_⟩
  · rcases (h.remove u).1 with ⟨-, hremoved⟩ | ⟨-, hfail, -⟩
    · rw [hremoved] at hu
      contradiction
    · rw [hu] at hfail
      contradiction
  · have hlength := hcount (mangle topic) fun _ => true
    simp only [List.countP_true] at hlength
    rw [count, if_neg hmangle, ← hlength]
    rfl

/-- One type recorded by two nodes, twice by one of them, and withdrawn once. -/
theorem run_total_eq_nodes_shared :
    let talker : TopicUse := ⟨.zero, ⟨"/", "talker"⟩, "rt/chatter", "String"⟩
    let relay : TopicUse := { talker with participant := .ofLeading [1] }
    let l := run [.record talker, .record relay, .record relay, .remove talker, .record talker]
    let mangle (topic : String) := "rt/" ++ topic
    mangle "chatter" ≠ "" ∧ l.count mangle "chatter" = .ok 3 := by
  intro talker relay l mangle
  have hmangle : mangle "chatter" ≠ "" := by decide
  refine ⟨hmangle, ?_⟩
  rw [(run_total_eq_nodes _).2.2.2 mangle "chatter" hmangle]
  decide

end RosGraph.TopicLedger
