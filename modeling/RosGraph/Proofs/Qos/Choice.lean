import RosGraph.Proofs.Qos.Fit

/-! What the peers make of the policies that are left to them. It depends on the set of the peers
and, of each peer, on the negotiated policies only: neither the order of the peers matters, nor how
often one comes up, nor what else it says. And it is the best there is. A period is taken from one
of the peers; a subscription is given a weak setting because of one publisher, and a publisher is
to be alive by hand because of one subscription. That peer does not surely serve a subscription
that asks for more than what was chosen, and is not served by a publisher that offers less. -/

namespace RosGraph.Qos

open Policy

section Peers

theorem all_eq_of_mem_iff {α : Type} {xs ys : List α} (h : ∀ x, x ∈ xs ↔ x ∈ ys) (has : α → Bool) :
    xs.all has = ys.all has := by
  rw [Bool.eq_iff_iff, List.all_eq_true, List.all_eq_true]
  simp only [h]

theorem any_eq_of_mem_iff {α : Type} {xs ys : List α} (h : ∀ x, x ∈ xs ↔ x ∈ ys) (has : α → Bool) :
    xs.any has = ys.any has := by
  rw [Bool.eq_iff_iff, List.any_eq_true, List.any_eq_true]
  simp only [h]

theorem mem_map_iff_of_mem_iff {α β : Type} {xs ys : List α} (h : ∀ x, x ∈ xs ↔ x ∈ ys) (f : α → β)
    (y : β) : y ∈ xs.map f ↔ y ∈ ys.map f := by
  simp only [List.mem_map, h]

/-- A choice among the periods that are set does not depend on their order, nor on repetitions,
if the chosen one comes first by some rule. -/
theorem pick_eq_of_mem_iff {pick : List Period → Period} (first : Period → Period → Prop)
    (hanti : ∀ p q, first p q → first q p → p = q)
    (hspec : ∀ periods, (pick periods = .unset ∧ ∀ p ∈ periods, p = .unset) ∨
      (pick periods ∈ periods ∧ pick periods ≠ .unset ∧
        ∀ p ∈ periods, p ≠ .unset → first (pick periods) p))
    {xs ys : List Period} (h : ∀ p, p ∈ xs ↔ p ∈ ys) : pick xs = pick ys := by
  rcases hspec xs with ⟨hx, hallx⟩ | ⟨hmemx, hsetx, hfirstx⟩
  · rcases hspec ys with ⟨hy, -⟩ | ⟨hmemy, hsety, -⟩
    · rw [hx, hy]
    · exact absurd (hallx _ ((h _).2 hmemy)) hsety
  · rcases hspec ys with ⟨-, hally⟩ | ⟨hmemy, hsety, hfirsty⟩
    · exact absurd (hally _ ((h _).1 hmemx)) hsetx
    · exact hanti _ _ (hfirstx _ ((h _).2 hmemy) hsety) (hfirsty _ ((h _).1 hmemx) hsetx)

theorem longestSet_eq_of_mem_iff {xs ys : List Period} (h : ∀ p, p ∈ xs ↔ p ∈ ys) :
    longestSet xs = longestSet ys := by
  refine pick_eq_of_mem_iff (· ≥ ·) (fun _ _ => ge_antisymm) (fun periods => ?_) h
  exact (longestSet_spec periods).imp_right fun ⟨hmem, hset, hle⟩ => ⟨hmem, hset, fun p hp _ => hle p hp⟩

theorem shortestSet_eq_of_mem_iff {xs ys : List Period} (h : ∀ p, p ∈ xs ↔ p ∈ ys) :
    shortestSet xs = shortestSet ys :=
  pick_eq_of_mem_iff (· ≤ ·) (fun _ _ => le_antisymm) shortestSet_spec h

/-- What a profile says of the negotiated policies, and nothing else. -/
def Profile.negotiated (p : Profile) : Profile where
  reliability := p.reliability
  durability := p.durability
  deadline := p.deadline
  liveliness := p.liveliness
  lease := p.lease

variable {ps qs : List Profile}

theorem servedByAll_map_negotiated (ps : List Profile) :
    Profile.servedByAll (ps.map (·.negotiated)) = .servedByAll ps := by
  simp only [Profile.servedByAll, List.all_map, List.map_map]
  rfl

theorem servingAll_map_negotiated (ps : List Profile) :
    Profile.servingAll (ps.map (·.negotiated)) = .servingAll ps := by
  simp only [Profile.servingAll, List.any_map, List.map_map]
  rfl

theorem servedByAll_eq_of_mem_iff (h : ∀ p, p ∈ ps ↔ p ∈ qs) :
    Profile.servedByAll ps = .servedByAll qs := by
  simp only [Profile.servedByAll, all_eq_of_mem_iff h,
    longestSet_eq_of_mem_iff (mem_map_iff_of_mem_iff h _)]

theorem servingAll_eq_of_mem_iff (h : ∀ p, p ∈ ps ↔ p ∈ qs) :
    Profile.servingAll ps = .servingAll qs := by
  simp only [Profile.servingAll, any_eq_of_mem_iff h,
    shortestSet_eq_of_mem_iff (mem_map_iff_of_mem_iff h _)]

/-- Resolution depends on no more than the set of what the peers say of the negotiated policies.
Two lists of the same peers, in any order and with any repetitions, have the same such set, and so
have two lists whose peers differ in other fields only. -/
theorem resolution_eq_of_same_peers (p : Profile)
    (h : ∀ t, t ∈ ps.map (·.negotiated) ↔ t ∈ qs.map (·.negotiated)) :
    Profile.resolveSubscription ps p = .resolveSubscription qs p ∧
      Profile.resolvePublisher ps p = .resolvePublisher qs p := by
  have hserved : Profile.servedByAll ps = .servedByAll qs := by
    rw [← servedByAll_map_negotiated, servedByAll_eq_of_mem_iff h, servedByAll_map_negotiated]
  have hserving : Profile.servingAll ps = .servingAll qs := by
    rw [← servingAll_map_negotiated, servingAll_eq_of_mem_iff h, servingAll_map_negotiated]
  exact ⟨congrArg (Profile.resolveWith · p) hserved, congrArg (Profile.resolveWith · p) hserving⟩

/-- Two peers, one of them twice, and the same two in the other order, with another depth, history
and lifespan. -/
theorem resolution_eq_of_same_peers_swapped :
    let quick : Profile := { deadline := ⟨1, 0⟩, liveliness := .manualByTopic }
    let slow : Profile := { reliability := .bestEffort, deadline := ⟨4, 0⟩ }
    let ps := [quick, slow, quick]
    let qs := [{ slow with depth := 3 }, { quick with history := .keepAll, lifespan := ⟨9, 0⟩ }]
    (∀ t, t ∈ ps.map (·.negotiated) ↔ t ∈ qs.map (·.negotiated)) ∧
      Profile.resolveSubscription ps .bestAvailable = .resolveSubscription qs .bestAvailable ∧
      (Profile.resolvePublisher qs .bestAvailable).deadline = ⟨1, 0⟩ ∧
      (Profile.resolveSubscription qs .bestAvailable).deadline = ⟨4, 0⟩ := by
  intro quick slow ps qs
  have hps : ps.map (·.negotiated) = [quick.negotiated, slow.negotiated, quick.negotiated] := rfl
  have hqs : qs.map (·.negotiated) = [slow.negotiated, quick.negotiated] := rfl
  have hsame : ∀ t, t ∈ ps.map (·.negotiated) ↔ t ∈ qs.map (·.negotiated) := by
    intro t
    rw [hps, hqs]
    simp only [List.mem_cons, List.not_mem_nil, or_false]
    tauto
  exact ⟨hsame, (resolution_eq_of_same_peers .bestAvailable hsame).1, by decide, by decide⟩

end Peers

section Best
variable {publishers subscriptions : List Profile} {t : Profile} {f : Policy}

/-- A profile asks for more than another one in a policy: an offer of what the other one asks for
would not serve it. -/
def Policy.AsksMore (f : Policy) (t s : Profile) : Prop := f.Violated s t

/-- A profile offers less than another one in a policy: it would not serve a request for what the
other one offers. -/
def Policy.OffersLess (f : Policy) (t q : Profile) : Prop := f.Violated t q

theorem verdict_ne_ok {p t : Profile} (h : f.Violated p t ∨ f.Doubtful p t) : verdict p t ≠ .ok := by
  intro hok
  obtain ⟨hviolated, hdoubtful⟩ := verdict_eq_ok_iff.1 hok f
  rcases h with hv | hd
  · exact hviolated hv
  · exact hdoubtful hd

/-- The weak setting is chosen because one of the publishers has not got the strong one. If its
setting is not left open either, it is the weak one or cannot be told. -/
theorem exists_conflict_or_inDoubt {Setting : Type} [DecidableEq Setting] {Unclear : Setting → Prop}
    {strong weak leftOpen s : Setting} (hne : weak ≠ strong)
    (hsettings : ∀ x, x = strong ∨ x = weak ∨ x = leftOpen ∨ Unclear x) {setting : Profile → Setting}
    (hopen : ∀ p ∈ publishers, setting p ≠ leftOpen)
    (h : (if publishers.all (setting · = strong) then strong else weak) = weak ∧ s = strong) :
    ∃ p ∈ publishers, setting p = weak ∧ s = strong ∨ InDoubt Unclear strong weak (setting p) s := by
  obtain ⟨hweak, hs⟩ := h
  have hnotall : ¬ publishers.all (setting · = strong) := fun hall => by
    rw [if_pos hall] at hweak
    exact hne hweak.symm
  obtain ⟨p, hp, hlacks⟩ : ∃ p ∈ publishers, setting p ≠ strong := by simpa using hnotall
  refine ⟨p, hp, ?_⟩
  rcases hsettings (setting p) with hstrong | hp' | hleft | hunclear
  · exact absurd hstrong hlacks
  · exact .inl ⟨hp', hs⟩
  · exact absurd hleft (hopen p hp)
  · exact .inr (.inl ⟨hunclear, .inr hs⟩)

/-- Whoever is not content with the longest period is not content with that of some publisher. -/
theorem exists_missed_of_longestSet {field : Profile → Period} {requested : Period}
    (hne : publishers ≠ []) (h : Missed (longestSet (publishers.map field)) requested) :
    ∃ p ∈ publishers, Missed (field p) requested := by
  rcases longestSet_spec (publishers.map field) with ⟨hunset, hall⟩ | ⟨hmem, -, -⟩
  · obtain ⟨p, hp⟩ := List.exists_mem_of_ne_nil publishers hne
    exact ⟨p, hp, by rwa [List.forall_mem_map.1 hall p hp, ← hunset]⟩
  · obtain ⟨p, hp, hfield⟩ := List.mem_map.1 hmem
    exact ⟨p, hp, by rwa [hfield]⟩

theorem exists_missed_of_shortestSet {field : Profile → Period} {offered : Period}
    (h : Missed offered (shortestSet (subscriptions.map field))) :
    ∃ s ∈ subscriptions, Missed offered (field s) := by
  rcases shortestSet_spec (subscriptions.map field) with ⟨hunset, -⟩ | ⟨hmem, -, -⟩
  · exact absurd hunset h.1
  · obtain ⟨s, hs, hfield⟩ := List.mem_map.1 hmem
    exact ⟨s, hs, by rwa [hfield]⟩

/-- Whoever asks for more than what all publishers serve is not surely served by one of them. -/
theorem exists_unsure_of_asksMore (hne : publishers ≠ [])
    (hdecided : ∀ p ∈ publishers, p.reliability ≠ .bestAvailable ∧ p.durability ≠ .bestAvailable ∧
      p.liveliness ≠ .bestAvailable) (hmore : f.AsksMore t (.servedByAll publishers)) :
    ∃ p ∈ publishers, f.Violated p t ∨ f.Doubtful p t := by
  cases f with
  | reliability =>
    exact exists_conflict_or_inDoubt (by decide) (fun x => by cases x <;> decide)
      (fun p hp => (hdecided p hp).1) hmore
  | durability =>
    exact exists_conflict_or_inDoubt (by decide) (fun x => by cases x <;> decide)
      (fun p hp => (hdecided p hp).2.1) hmore
  | liveliness =>
    exact exists_conflict_or_inDoubt (by decide) (fun x => by cases x <;> decide)
      (fun p hp => (hdecided p hp).2.2) hmore
  | deadline =>
    obtain ⟨p, hp, hmissed⟩ := exists_missed_of_longestSet hne hmore
    exact ⟨p, hp, .inl hmissed⟩
  | lease =>
    obtain ⟨p, hp, hmissed⟩ := exists_missed_of_longestSet hne hmore
    exact ⟨p, hp, .inl hmissed⟩

/-- Whoever offers less than what serves all subscriptions does not serve one of them. Reliability
and durability are offered without need. -/
theorem exists_violated_of_offersLess (hf : f ≠ .reliability ∧ f ≠ .durability)
    (hless : f.OffersLess t (.servingAll subscriptions)) : ∃ s ∈ subscriptions, f.Violated t s := by
  cases f with
  | reliability => exact absurd rfl hf.1
  | durability => exact absurd rfl hf.2
  | liveliness =>
    obtain ⟨hautomatic, hmanual⟩ := hless
    have hany : subscriptions.any (·.liveliness = .manualByTopic) := by
      by_contra hnone
      simp [Profile.servingAll, hnone] at hmanual
    obtain ⟨s, hs, hasks⟩ := List.any_eq_true.1 hany
    exact ⟨s, hs, hautomatic, of_decide_eq_true hasks⟩
  | deadline => exact exists_missed_of_shortestSet hless
  | lease => exact exists_missed_of_shortestSet hless

/-- No profile does better than what is chosen for one that leaves everything open. A subscription
that asks for more of some policy does not go well with one of the publishers, where these have
decided on theirs. A publisher that offers less liveliness, or a longer deadline or lease or none,
is in error with one of the subscriptions. -/
theorem resolution_is_best :
    (∀ publishers : List Profile, publishers ≠ [] →
      (∀ p ∈ publishers, p.reliability ≠ .bestAvailable ∧ p.durability ≠ .bestAvailable ∧
        p.liveliness ≠ .bestAvailable) →
      ∀ t, (∃ f : Policy, f.AsksMore t (.resolveSubscription publishers .bestAvailable)) →
        ∃ p ∈ publishers, verdict p t ≠ .ok) ∧
    ∀ (subscriptions : List Profile) (t : Profile),
      (∃ f ∈ [Policy.liveliness, .deadline, .lease],
        f.OffersLess t (.resolvePublisher subscriptions .bestAvailable)) →
      ∃ s ∈ subscriptions, verdict t s = .error := by
  constructor
  · rintro publishers hne hdecided t ⟨f, hmore⟩
    have hmore : f.AsksMore t (.servedByAll publishers) :=
      (violated_resolveWith_bestAvailable_left f _ t).1 hmore
    obtain ⟨p, hp, hunsure⟩ := exists_unsure_of_asksMore hne hdecided hmore
    exact ⟨p, hp, verdict_ne_ok hunsure⟩
  · rintro subscriptions t ⟨f, hf, hless⟩
    have hless : f.OffersLess t (.servingAll subscriptions) :=
      (violated_resolveWith_bestAvailable_right f _ t).1 hless
    have hneeded : f ≠ .reliability ∧ f ≠ .durability := by
      constructor <;> rintro rfl <;> simp at hf
    obtain ⟨s, hs, hviolated⟩ := exists_violated_of_offersLess hneeded hless
    exact ⟨s, hs, verdict_eq_error_iff.2 ⟨f, hviolated⟩⟩

/-- Of two peers one says nothing clear about its liveliness. A subscription that asks to be told by
hand is not in error with either publisher, but cannot be sure of this one; and a publisher with a
deadline of two seconds loses the subscription that requests one. -/
theorem resolution_is_best_unclear :
    let punctual : Profile := { liveliness := .manualByTopic, deadline := ⟨1, 0⟩ }
    let unclear : Profile := { liveliness := .unknown, deadline := ⟨4, 0⟩ }
    let peers := [punctual, unclear]
    let byHand : Profile := { liveliness := .manualByTopic }
    let late : Profile := { liveliness := .manualByTopic, deadline := ⟨2, 0⟩ }
    peers ≠ [] ∧
      (∀ p ∈ peers, p.reliability ≠ .bestAvailable ∧ p.durability ≠ .bestAvailable ∧
        p.liveliness ≠ .bestAvailable) ∧
      Policy.liveliness.AsksMore byHand (.resolveSubscription peers .bestAvailable) ∧
      (∃ p ∈ peers, verdict p byHand ≠ .ok) ∧ (∀ p ∈ peers, verdict p byHand ≠ .error) ∧
      Policy.deadline.OffersLess late (.resolvePublisher peers .bestAvailable) ∧
      ∃ s ∈ peers, verdict late s = .error := by
  intro punctual unclear peers byHand late
  have hne : peers ≠ [] := by decide
  have hdecided : ∀ p ∈ peers, p.reliability ≠ .bestAvailable ∧ p.durability ≠ .bestAvailable ∧
      p.liveliness ≠ .bestAvailable := by decide
  have hmore : Policy.liveliness.AsksMore byHand (.resolveSubscription peers .bestAvailable) :=
    ⟨by decide, rfl⟩
  have hless : Policy.deadline.OffersLess late (.resolvePublisher peers .bestAvailable) :=
    ⟨by decide, .inr (by decide)⟩
  exact ⟨hne, hdecided, hmore, resolution_is_best.1 peers hne hdecided byHand ⟨_, hmore⟩, by decide,
    hless, resolution_is_best.2 peers late ⟨_, by decide, hless⟩⟩

end Best

end RosGraph.Qos
