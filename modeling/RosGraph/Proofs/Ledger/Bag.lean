import RosGraph.Proofs.Ledger.Accounts

/-! What is seen of a ledger of topics is what is seen of its bag of uses: the answers, and
the contents up to the order of the types on a topic. In a bag a use does not depend on the
others, so runs that agree on the operations on each use agree altogether. -/

namespace RosGraph.TopicLedger

open Occurrences

/-- The operations, each with what its caller is told. -/
def transcript {σ : Type} (step : σ → Op → Bool × σ) : σ → List Op → List (Op × Bool)
  | _, [] => []
  | s, op :: rest => (op, (step s op).1) :: transcript step (step s op).2 rest

/-- The same contents up to the order of the types on a topic. -/
structure Similar (l l' : TopicLedger) : Prop where
  total : l.total.Rel List.Perm l'.total
  byNode : l.byNode.Rel (SortedMap.Rel (SortedMap.Rel List.Perm)) l'.byNode

variable {l l' : TopicLedger} {b b' : Multiset TopicUse} {u : TopicUse}

namespace Accounts

theorem transcript_eq (h : Accounts l b) (ops : List Op) :
    transcript Op.onLedger l ops = transcript Op.onBag b ops := by
  induction ops generalizing l b with
  | nil => rfl
  | cons op rest ih =>
    obtain ⟨hanswer, hafter⟩ := h.step op
    rw [transcript, transcript, hanswer, ih hafter]

theorem total_eq_empty_iff (h : Accounts l b) : l.total = ∅ ↔ b = 0 := by
  rw [h.pruned.total.eq_empty_iff]
  constructor
  · intro hempty
    refine Multiset.eq_zero_of_forall_notMem fun u hu => ?_
    have hmem := h.mem_total hu
    rw [hempty] at hmem
    exact List.not_mem_nil hmem
  · rintro rfl topic
    have hlength := h.total topic fun _ => true
    rw [Multiset.countP_zero, List.countP_true] at hlength
    exact List.length_eq_zero_iff.1 hlength

theorem byNode_eq_empty_iff (h : Accounts l b) : l.byNode = ∅ ↔ b = 0 := by
  constructor
  · intro hempty
    refine Multiset.eq_zero_of_forall_notMem fun u hu => ?_
    have hmem := h.mem_bag_iff.1 hu
    rw [typesOf, topicsOf, hempty] at hmem
    exact List.not_mem_nil hmem
  · rintro rfl
    rw [h.pruned.participants.eq_empty_iff]
    intro participant
    rw [(h.pruned.nodesOf participant).pruned.eq_empty_iff]
    intro node
    refine (h.pruned.topicsOf participant node).eq_empty_iff.2 fun topic => ?_
    refine List.eq_nil_iff_forall_not_mem.2 fun type hmem => ?_
    exact Multiset.notMem_zero _ (h.mem_bag_iff (u := ⟨participant, node, topic, type⟩).2 hmem)

/-- Two ledgers for one bag differ in the order of types only. -/
theorem similar (h : Accounts l b) (h' : Accounts l' b) : Similar l l' := by
  have hnil (v w : List String) (hvw : v.Perm w) : v = ∅ ↔ w = ∅ :=
    ⟨fun hv => (hv ▸ hvw).nil_eq.symm, fun hw => (hw ▸ hvw).eq_nil⟩
  refine ⟨h.pruned.total.rel h'.pruned.total hnil fun topic => ?_, ?_⟩
  · refine List.perm_iff_count.2 fun type => ?_
    exact (h.total topic (· == type)).trans (h'.total topic (· == type)).symm
  · refine h.pruned.participants.rel h'.pruned.participants (fun _ _ => SortedMap.Rel.eq_empty_iff)
      fun participant => ?_
    refine (h.pruned.nodesOf participant).pruned.rel (h'.pruned.nodesOf participant).pruned
      (fun _ _ => SortedMap.Rel.eq_empty_iff) fun node => ?_
    refine (h.pruned.topicsOf participant node).rel (h'.pruned.topicsOf participant node) hnil
      fun topic => ?_
    refine List.perm_iff_count.2 fun type => ?_
    exact (h.copies ⟨participant, node, topic, type⟩).trans
      (h'.copies ⟨participant, node, topic, type⟩).symm

end Accounts

section OneUse

/-- An operation on another use makes no difference to a use. -/
theorem count_onBag_of_ne {op : Op} (h : op.use ≠ u) : (op.onBag b).2.count u = b.count u := by
  cases op with
  | record v => exact Multiset.count_cons_of_ne (Ne.symm h) b
  | remove v => exact Multiset.count_erase_of_ne (Ne.symm h) b

/-- The answer to an operation on a use, and its number afterwards, depend on its number. -/
theorem onBag_congr {op : Op} (h : op.use = u) (hcount : b.count u = b'.count u) :
    (op.onBag b).1 = (op.onBag b').1 ∧ (op.onBag b).2.count u = (op.onBag b').2.count u := by
  subst h
  cases op with
  | record v => exact ⟨rfl, by simpa [Op.onBag, Op.use] using hcount⟩
  | remove v =>
    have hmem : v ∈ b ↔ v ∈ b' := by
      rw [← Multiset.count_pos, ← Multiset.count_pos]
      exact iff_of_eq (congrArg (0 < ·) hcount)
    refine ⟨decide_eq_decide.2 hmem, ?_⟩
    have herase : b.count v - 1 = b'.count v - 1 := congrArg (· - 1) hcount
    simpa [Op.onBag, Op.use] using herase

/-- What happens to a use in a run is what happens to it in the run of its own operations. -/
theorem filter_transcript (ops : List Op) (hcount : b.count u = b'.count u) :
    (transcript Op.onBag b ops).filter (·.1.use = u) =
        transcript Op.onBag b' (ops.filter (·.use = u)) ∧
      (runFrom Op.onBag b ops).count u = (runFrom Op.onBag b' (ops.filter (·.use = u))).count u := by
  -- The bags agree on `u` alone: an operation on another use is a step of the first one only.
  induction ops generalizing b b' with
  | nil => exact ⟨rfl, hcount⟩
  | cons op rest ih =>
    by_cases hu : op.use = u
    · obtain ⟨hanswer, hafter⟩ := onBag_congr hu hcount
      obtain ⟨htranscript, hfinal⟩ := ih hafter
      simp only [transcript, List.filter_cons, hu, decide_true, if_true]
      rw [htranscript, hanswer]
      exact ⟨rfl, hfinal⟩
    · obtain ⟨htranscript, hfinal⟩ := ih ((count_onBag_of_ne (b := b) hu).trans hcount)
      simp only [transcript, List.filter_cons, hu, decide_false, Bool.false_eq_true, if_false]
      exact ⟨htranscript, hfinal⟩

end OneUse

/-- A ledger is a bag of uses. It has as many copies of a use as the bag, a removal succeeds
exactly if there is one and otherwise changes nothing, and both parts of the ledger are empty
together with the bag. Runs with the same operations on each use give the same answers and the
same ledger up to the order of types. -/
theorem run_refines_bag (ops : List Op) :
    let l := run ops
    let b := bag ops
    (∀ u : TopicUse,
      (((l.byNode.valueAt u.participant).valueAt u.node).valueAt u.topic).count u.type = b.count u) ∧
    (∀ u, (l.remove u).1.succeeded ↔ 0 < b.count u) ∧
    (∀ u, (l.remove u).1.succeeded = false → (l.remove u).2 = l) ∧
    (l.total = ∅ ↔ b = 0) ∧ (l.byNode = ∅ ↔ b = 0) ∧
    ∀ ops', (∀ u, ops.filter (·.use = u) = ops'.filter (·.use = u)) →
      (∀ u, (transcript Op.onLedger empty ops).filter (·.1.use = u) =
        (transcript Op.onLedger empty ops').filter (·.1.use = u)) ∧
      l.Similar (run ops') := by
  intro l b
  have h : Accounts l b := accounts_run ops
  refine ⟨h.copies, fun u => ?_, fun u hfail => ?_, h.total_eq_empty_iff, h.byNode_eq_empty_iff,
    fun ops' hsame => ?_⟩
  · rw [Multiset.count_pos]
    rcases (h.remove u).1 with ⟨hu, hremoved⟩ | ⟨hu, hfail, -⟩
    · simp [hu, hremoved, Removal.succeeded]
    · simp [hu, hfail]
  · rcases (h.remove u).1 with ⟨-, hremoved⟩ | ⟨-, -, hunchanged⟩
    · rw [hremoved] at hfail
      contradiction
    · exact hunchanged
  · have h' : Accounts (run ops') (bag ops') := accounts_run ops'
    have hbag : b = bag ops' := Multiset.ext.2 fun u => by
      have hops := (filter_transcript (u := u) ops (b := 0) rfl).2
      have hops' := (filter_transcript (u := u) ops' (b := 0) rfl).2
      rw [hsame u] at hops
      exact hops.trans hops'.symm
    refine ⟨fun u => ?_, h.similar (hbag ▸ h')⟩
    rw [Accounts.empty.transcript_eq, Accounts.empty.transcript_eq,
      (filter_transcript ops rfl).1, (filter_transcript ops' rfl).1, hsame u]

/-- Two types on one topic, recorded in either order, and a node that has recorded nothing. -/
theorem run_refines_bag_swapped :
    let talker : TopicUse := ⟨.zero, ⟨"/", "talker"⟩, "rt/chatter", "String"⟩
    let header : TopicUse := { talker with type := "Header" }
    let stranger : TopicUse := { talker with node := ⟨"/", "listener"⟩ }
    let ops : List Op := [.record talker, .remove talker, .record talker, .record header]
    let ops' : List Op := [.record header, .record talker, .remove talker, .record talker]
    ((run ops).remove stranger).1.succeeded = false ∧ ((run ops).remove stranger).2 = run ops ∧
      (∀ u, ops.filter (·.use = u) = ops'.filter (·.use = u)) ∧
      run ops ≠ run ops' ∧ (run ops).Similar (run ops') := by
  intro talker header stranger ops ops'
  obtain ⟨-, hremove, hfail, -, -, hsame⟩ := run_refines_bag ops
  have hstranger : ((run ops).remove stranger).1.succeeded = false := by
    rw [← Bool.not_eq_true, hremove]
    decide
  have hfilter : ∀ u, ops.filter (·.use = u) = ops'.filter (·.use = u) := by
    intro u
    by_cases htalker : talker = u
    · subst htalker
      decide
    · by_cases hheader : header = u
      · subst hheader
        decide
      · simp [ops, ops', Op.use, htalker, hheader]
  refine ⟨hstranger, hfail stranger hstranger, hfilter, ?_, (hsame ops' hfilter).2⟩
  decide

end RosGraph.TopicLedger
