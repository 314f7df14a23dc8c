import RosGraph.Proofs.Qos.Negotiation

/-! How a resolved profile fits the peers that it was resolved against. A publisher
serves every one of them in all that was left to them. A subscription does so in all
but its periods: it requests the longest period that some publisher declares, and a
publisher that declares none does not offer it. -/

namespace RosGraph.Qos

open Policy

section Periods
variable {periods : List Period} {p : Period}

/-- The longest of the set periods is one of them, unless none is set. -/
theorem longestSet_spec (periods : List Period) :
    (longestSet periods = .unset ∧ ∀ p ∈ periods, p = .unset) ∨
      (longestSet periods ∈ periods ∧ longestSet periods ≠ .unset ∧
        ∀ p ∈ periods, p ≤ longestSet periods) := by
  rw [longestSet]
  cases hmax : (periods.filter (· ≠ .unset)).max? with
  | none =>
    rw [List.max?_eq_none_iff, List.filter_eq_nil_iff] at hmax
    exact .inl ⟨rfl, by simpa using hmax⟩
  | some m =>
    obtain ⟨hmem, hle⟩ := List.max?_eq_some_iff.1 hmax
    obtain ⟨hin, hset⟩ := List.mem_filter.1 hmem
    refine .inr ⟨hin, by simpa using hset, fun p hp => ?_⟩
    by_cases hunset : p = .unset
    · rw [hunset]; exact Period.unset_le m
    · exact hle p (List.mem_filter.2 ⟨hp, by simpa using hunset⟩)

/-- The shortest of the set periods is one of them, unless none is set. -/
theorem shortestSet_spec (periods : List Period) :
    (shortestSet periods = .unset ∧ ∀ p ∈ periods, p = .unset) ∨
      (shortestSet periods ∈ periods ∧ shortestSet periods ≠ .unset ∧
        ∀ p ∈ periods, p ≠ .unset → shortestSet periods ≤ p) := by
  rw [shortestSet]
  cases hmin : (periods.filter (· ≠ .unset)).min? with
  | none =>
    rw [List.min?_eq_none_iff, List.filter_eq_nil_iff] at hmin
    exact .inl ⟨rfl, by simpa using hmin⟩
  | some m =>
    obtain ⟨hmem, hle⟩ := List.min?_eq_some_iff.1 hmin
    obtain ⟨hin, hset⟩ := List.mem_filter.1 hmem
    refine .inr ⟨hin, by simpa using hset, fun p hp hunset => ?_⟩
    exact hle p (List.mem_filter.2 ⟨hp, by simpa using hunset⟩)

/-- A period falls short of the longest one exactly if it is not set and another one is. -/
theorem missed_longestSet_iff (hp : p ∈ periods) :
    Missed p (longestSet periods) ↔ p = .unset ∧ ∃ q ∈ periods, q ≠ .unset := by
  rcases longestSet_spec periods with ⟨hunset, hall⟩ | ⟨hmem, hset, hle⟩
  · constructor
    · rintro ⟨hne, -⟩
      exact absurd hunset hne
    · rintro ⟨-, q, hq, hne⟩
      exact absurd (hall q hq) hne
  · constructor
    · rintro ⟨-, hnot | hlt⟩
      · exact ⟨hnot, _, hmem, hset⟩
      · exact absurd hlt (not_lt.2 (hle p hp))
    · rintro ⟨hnot, -⟩
      exact ⟨hset, .inl hnot⟩

/-- The shortest of the set periods serves them all. -/
theorem not_missed_shortestSet (hp : p ∈ periods) : ¬ Missed (shortestSet periods) p := by
  rintro ⟨hset, hshort⟩
  rcases shortestSet_spec periods with ⟨-, hall⟩ | ⟨-, hne, hle⟩
  · exact hset (hall p hp)
  · rcases hshort with hunset | hlt
    · exact hne hunset
    · exact absurd hlt (not_lt.2 (hle p hp hset))

end Periods

/-- What a publisher chooses serves every subscription that it looked at. -/
theorem not_violated_servingAll {subscriptions : List Profile} {s : Profile} (hs : s ∈ subscriptions)
    (f : Policy) : ¬ f.Violated (.servingAll subscriptions) s := by
  cases f with
  | reliability => simp [Violated, Profile.servingAll]
  | durability => simp [Violated, Profile.servingAll]
  | deadline => exact not_missed_shortestSet (List.mem_map_of_mem hs)
  | liveliness =>
    rintro ⟨hautomatic, hmanual⟩
    have hany : subscriptions.any (·.liveliness = .manualByTopic) :=
      List.any_eq_true.2 ⟨s, hs, by simpa using hmanual⟩
    simp [Profile.servingAll, hany] at hautomatic
  | lease => exact not_missed_shortestSet (List.mem_map_of_mem hs)

/-- The strong setting is not chosen where one of the publishers does not have what it takes. -/
theorem ite_all_ne {Setting : Type} {publishers : List Profile} {has : Profile → Bool}
    {strong weak : Setting} {p : Profile} (hp : p ∈ publishers) (hlacks : has p = false)
    (hne : weak ≠ strong) : (if publishers.all has then strong else weak) ≠ strong := by
  have hnot : ¬ publishers.all has := fun hall => by
    have hhas := List.all_eq_true.1 hall p hp
    simp [hlacks] at hhas
  rw [if_neg hnot]
  exact hne

/-- A publisher does not serve the choice of a subscription that looked at it exactly if
it declares no deadline, or no lease, and another one does. -/
theorem violated_servedByAll_iff {publishers : List Profile} {p : Profile} (hp : p ∈ publishers)
    (f : Policy) : f.Violated p (.servedByAll publishers) ↔
      f = .deadline ∧ p.deadline = .unset ∧ (∃ q ∈ publishers, q.deadline ≠ .unset) ∨
      f = .lease ∧ p.lease = .unset ∧ ∃ q ∈ publishers, q.lease ≠ .unset := by
  cases f with
  | reliability =>
    simp only [reduceCtorEq, false_and, or_false, iff_false]
    rintro ⟨hweak, hstrong⟩
    exact ite_all_ne hp (by simp [hweak]) (by decide) hstrong
  | durability =>
    simp only [reduceCtorEq, false_and, or_false, iff_false]
    rintro ⟨hweak, hstrong⟩
    exact ite_all_ne hp (by simp [hweak]) (by decide) hstrong
  | liveliness =>
    simp only [reduceCtorEq, false_and, or_false, iff_false]
    rintro ⟨hweak, hstrong⟩
    exact ite_all_ne hp (by simp [hweak]) (by decide) hstrong
  | deadline =>
    have hmissed := missed_longestSet_iff (List.mem_map_of_mem (f := (·.deadline)) hp)
    simpa [Violated, Profile.servedByAll] using hmissed
  | lease =>
    have hmissed := missed_longestSet_iff (List.mem_map_of_mem (f := (·.lease)) hp)
    simpa [Violated, Profile.servedByAll] using hmissed

/-- A subscription that leaves everything to its publishers does not get those that declare
no deadline, or no lease, where another one does; it gets all the others. -/
theorem bestAvailable_subscription_error_iff {publishers : List Profile} {p : Profile}
    (hp : p ∈ publishers) :
    verdict p (.resolveSubscription publishers .bestAvailable) = .error ↔
      p.deadline = .unset ∧ (∃ q ∈ publishers, q.deadline ≠ .unset) ∨
      p.lease = .unset ∧ ∃ q ∈ publishers, q.lease ≠ .unset := by
  rw [verdict_eq_error_iff]
  simp only [Profile.resolveSubscription, violated_resolveWith_right, leftOpen_bestAvailable, true_and,
    not_true_eq_false, false_and, or_false, violated_servedByAll_iff hp]
  constructor
  · rintro ⟨f, ⟨-, h⟩ | ⟨-, h⟩⟩
    · exact .inl h
    · exact .inr h
  · rintro (h | h)
    · exact ⟨.deadline, .inl ⟨rfl, h⟩⟩
    · exact ⟨.lease, .inr ⟨rfl, h⟩⟩

/-- One publisher declares a lease and the other one does not, though both declare a deadline:
the subscription gets the first one only. -/
theorem bestAvailable_subscription_error_iff_lone_lease :
    let quick : Profile := { deadline := ⟨1, 0⟩, lease := ⟨2, 0⟩ }
    let slow : Profile := { reliability := .bestEffort, deadline := ⟨4, 0⟩ }
    let chosen : Profile := .resolveSubscription [quick, slow] .bestAvailable
    quick ∈ [quick, slow] ∧ verdict quick chosen ≠ .error ∧
      slow ∈ [quick, slow] ∧ verdict slow chosen = .error := by
  intro quick slow chosen
  have hquick : quick ∈ [quick, slow] := by decide
  have hslow : slow ∈ [quick, slow] := by decide
  refine ⟨hquick, ?_, hslow, (bestAvailable_subscription_error_iff hslow).2 (by decide)⟩
  rw [ne_eq, bestAvailable_subscription_error_iff hquick]
  decide

/-- Two publishers that differ in their deadline only, of which one declares none: the
subscription that is resolved against both requests a deadline that this one does not offer. -/
theorem bestAvailable_subscription_loses_publisher :
    let silent : Profile := .standard
    let punctual : Profile := { deadline := ⟨1, 0⟩ }
    silent ∈ [silent, punctual] ∧
      verdict silent (.resolveSubscription [silent, punctual] .bestAvailable) = .error := by
  decide

/-- A publisher does not serve a subscription that was resolved against it exactly where the
subscription had chosen by itself, or where it follows a deadline or a lease of another one. -/
theorem violated_resolveSubscription_iff {publishers : List Profile} {p : Profile}
    (hp : p ∈ publishers) (f : Policy) (s : Profile) :
    f.Violated p (.resolveSubscription publishers s) ↔
      ¬ f.LeftOpen s ∧ f.Violated p s ∨
      f.LeftOpen s ∧ f = .deadline ∧ p.deadline = .unset ∧ (∃ q ∈ publishers, q.deadline ≠ .unset) ∨
      f.LeftOpen s ∧ f = .lease ∧ p.lease = .unset ∧ ∃ q ∈ publishers, q.lease ≠ .unset := by
  rw [Profile.resolveSubscription, violated_resolveWith_right, violated_servedByAll_iff hp,
    and_or_left, or_comm]

/-- A resolved subscription is in error with a publisher that it looked at exactly if a policy that
it had chosen by itself breaks its rule, or if the deadline was left open, this publisher
declares none and another one does, or the same of the lease. No other policy that was left open
breaks its rule. -/
theorem resolveSubscription_error_iff (s : Profile) {publishers : List Profile} {p : Profile}
    (hp : p ∈ publishers) :
    let chosen := Profile.resolveSubscription publishers s
    (verdict p chosen = .error ↔
      (∃ f : Policy, ¬ f.LeftOpen s ∧ f.Violated p s) ∨
      (s.deadline = .bestAvailable ∧ p.deadline = .unset ∧ ∃ q ∈ publishers, q.deadline ≠ .unset) ∨
      (s.lease = .bestAvailable ∧ p.lease = .unset ∧ ∃ q ∈ publishers, q.lease ≠ .unset)) ∧
    ∀ f ∈ [Policy.reliability, .durability, .liveliness], f.LeftOpen s → ¬ f.Violated p chosen := by
  intro chosen
  have hrule (f : Policy) := violated_resolveSubscription_iff hp f s
  refine ⟨?_, fun f hf hopen hviolated => ?_⟩
  · rw [verdict_eq_error_iff]
    constructor
    · rintro ⟨f, hf⟩
      rcases (hrule f).1 hf with hchosen | ⟨hopen, rfl, hdeadline⟩ | ⟨hopen, rfl, hlease⟩
      · exact .inl ⟨f, hchosen⟩
      · exact .inr (.inl ⟨hopen, hdeadline⟩)
      · exact .inr (.inr ⟨hopen, hlease⟩)
    · rintro (⟨f, hchosen⟩ | ⟨hopen, hdeadline⟩ | ⟨hopen, hlease⟩)
      · exact ⟨f, (hrule f).2 (.inl hchosen)⟩
      · exact ⟨.deadline, (hrule .deadline).2 (.inr (.inl ⟨hopen, rfl, hdeadline⟩))⟩
      · exact ⟨.lease, (hrule .lease).2 (.inr (.inr ⟨hopen, rfl, hlease⟩))⟩
  · rcases (hrule f).1 hviolated with ⟨hchosen, -⟩ | ⟨-, rfl, -⟩ | ⟨-, rfl, -⟩
    · exact hchosen hopen
    · simp at hf
    · simp at hf

/-- A subscription that insists on being told by hand and leaves the rest open: it loses a publisher
that declares no deadline, and one that is alive automatically, but not the third. -/
theorem resolveSubscription_error_iff_by_hand :
    let silent : Profile := { liveliness := .manualByTopic }
    let automatic : Profile := { liveliness := .automatic, deadline := ⟨4, 0⟩ }
    let punctual : Profile :=
      { reliability := .bestEffort, liveliness := .manualByTopic, deadline := ⟨1, 0⟩ }
    let publishers := [silent, automatic, punctual]
    let s : Profile := { Profile.bestAvailable with liveliness := .manualByTopic }
    silent ∈ publishers ∧ verdict silent (.resolveSubscription publishers s) = .error ∧
      automatic ∈ publishers ∧ verdict automatic (.resolveSubscription publishers s) = .error ∧
      punctual ∈ publishers ∧ verdict punctual (.resolveSubscription publishers s) ≠ .error := by
  intro silent automatic punctual publishers s
  have hsilent : silent ∈ publishers := by decide
  have hautomatic : automatic ∈ publishers := by decide
  have hpunctual : punctual ∈ publishers := by decide
  refine ⟨hsilent, (resolveSubscription_error_iff s hsilent).1.2 (.inr (.inl (by decide))),
    hautomatic, (resolveSubscription_error_iff s hautomatic).1.2 (.inl ⟨.liveliness, ?_, rfl, rfl⟩),
    hpunctual, fun herror => ?_⟩
  · simp [LeftOpen, s]
  · rcases (resolveSubscription_error_iff s hpunctual).1.1 herror with ⟨f, hchosen, hviolated⟩ | h | h
    · -- Liveliness is all that the subscription chose, and this publisher offers it.
      cases f with
      | liveliness => exact absurd hviolated.1 (by decide)
      | _ => exact hchosen rfl
    · exact absurd h (by decide)
    · exact absurd h (by decide)

/-- Resolving a publisher creates no conflict: the pair is in error exactly if a policy that
the publisher had chosen by itself breaks its rule. One that leaves everything to its
subscriptions serves them all. -/
theorem resolvePublisher_error_iff (q : Profile) {subscriptions : List Profile} {s : Profile}
    (hs : s ∈ subscriptions) :
    (verdict (.resolvePublisher subscriptions q) s = .error ↔
      ∃ f : Policy, ¬ f.LeftOpen q ∧ f.Violated q s) ∧
    ((∀ f : Policy, f.LeftOpen q) → verdict (.resolvePublisher subscriptions q) s ≠ .error) := by
  have hiff : verdict (.resolvePublisher subscriptions q) s = .error ↔
      ∃ f : Policy, ¬ f.LeftOpen q ∧ f.Violated q s := by
    simp only [verdict_eq_error_iff, Profile.resolvePublisher, violated_resolveWith_left,
      not_violated_servingAll hs, and_false, false_or]
  refine ⟨hiff, fun hopen herror => ?_⟩
  obtain ⟨f, hchosen, -⟩ := hiff.1 herror
  exact hchosen (hopen f)

/-- A publisher that insists on being alive automatically loses a subscription that wants to be
told by hand; had it left that open, too, it would serve both. -/
theorem resolvePublisher_error_iff_automatic :
    let strict : Profile := { liveliness := .manualByTopic, deadline := ⟨2, 0⟩ }
    let relaxed : Profile := { reliability := .bestEffort, lease := ⟨3, 0⟩ }
    let q : Profile := { Profile.bestAvailable with liveliness := .automatic }
    strict ∈ [strict, relaxed] ∧ verdict (.resolvePublisher [strict, relaxed] q) strict = .error ∧
      relaxed ∈ [strict, relaxed] ∧
      verdict (.resolvePublisher [strict, relaxed] .bestAvailable) relaxed ≠ .error := by
  intro strict relaxed q
  have hstrict : strict ∈ [strict, relaxed] := by decide
  have hrelaxed : relaxed ∈ [strict, relaxed] := by decide
  refine ⟨hstrict, (resolvePublisher_error_iff q hstrict).1.2 ⟨.liveliness, ?_, rfl, rfl⟩,
    hrelaxed, ?_⟩
  · simp [LeftOpen, q]
  · exact (resolvePublisher_error_iff .bestAvailable hrelaxed).2 leftOpen_bestAvailable

end RosGraph.Qos
