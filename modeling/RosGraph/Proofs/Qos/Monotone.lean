import RosGraph.Proofs.Qos.Negotiation

/-! The verdict follows what is offered and what is requested. The settings of each policy are ranked
by name, once by what they offer and once by what they request: one that is left to the peers offers as
much as the strong setting, and requests no more than the weak one. There is a conflict where the
lowest offer meets the highest request, and at least a doubt unless the offer is the highest or the
request the lowest. So no verdict gets worse by a better offer or a lower request, and what a profile
offers serves what it requests. -/

namespace RosGraph

/-- `q` is as strict as `p`: it is set if `p` is, and then is no longer. -/
def Period.AsStrict (q p : Period) : Prop := p = .unset ∨ q ≠ .unset ∧ q ≤ p

theorem Period.AsStrict.refl (p : Period) : p.AsStrict p := by
  by_cases h : p = .unset
  · exact .inl h
  · exact .inr ⟨h, le_refl p⟩

namespace Qos

open Policy

/-- How bad a verdict is. -/
def Verdict.severity : Verdict → Nat
  | ok => 0
  | warning => 1
  | error => 2

theorem Verdict.severity_injective : Function.Injective severity := by
  intro a b
  cases a <;> cases b <;> decide

/-- Verdicts are ordered from good to bad. -/
instance : LinearOrder Verdict := LinearOrder.lift' Verdict.severity Verdict.severity_injective

/-- A rank for every setting of the policies that are not periods. -/
structure Ranking where
  reliability : Reliability → Nat
  durability : Durability → Nat
  liveliness : Liveliness → Nat

/-- How much a publisher offers. -/
def Ranking.offers : Ranking where
  reliability
    | .bestEffort => 0
    | .systemDefault | .unknown => 1
    | .reliable | .bestAvailable => 2
  durability
    | .volatile => 0
    | .systemDefault | .unknown => 1
    | .transientLocal | .bestAvailable => 2
  liveliness
    | .automatic => 0
    | .systemDefault | .unknown => 1
    | .manualByTopic | .bestAvailable => 2

/-- How much a subscription requests. -/
def Ranking.requests : Ranking where
  reliability
    | .bestEffort | .bestAvailable => 0
    | .systemDefault | .unknown => 1
    | .reliable => 2
  durability
    | .volatile | .bestAvailable => 0
    | .systemDefault | .unknown => 1
    | .transientLocal => 2
  liveliness
    | .automatic | .bestAvailable => 0
    | .systemDefault | .unknown => 1
    | .manualByTopic => 2

/-- Only the weak setting is the lowest offer and only the strong one the highest request. Of those in
between none can be told. -/
structure Ranked {Setting : Type} (Unclear : Setting → Prop) (strong weak : Setting)
    (offer request : Setting → Nat) : Prop where
  offer_eq_zero_iff (x : Setting) : offer x = 0 ↔ x = weak
  offer_lt_two_iff (x : Setting) : offer x < 2 ↔ x = weak ∨ Unclear x
  request_eq_two_iff (x : Setting) : request x = 2 ↔ x = strong
  request_pos_iff (x : Setting) : 0 < request x ↔ x = strong ∨ Unclear x
  request_le (x : Setting) : request x ≤ 2

theorem ranked_reliability : Ranked Reliability.Unclear .reliable .bestEffort
    Ranking.offers.reliability Ranking.requests.reliability := by
  constructor <;> intro x <;> cases x <;> decide

theorem ranked_durability : Ranked Durability.Unclear .transientLocal .volatile
    Ranking.offers.durability Ranking.requests.durability := by
  constructor <;> intro x <;> cases x <;> decide

theorem ranked_liveliness : Ranked Liveliness.Unclear .manualByTopic .automatic
    Ranking.offers.liveliness Ranking.requests.liveliness := by
  constructor <;> intro x <;> cases x <;> decide

namespace Ranked

variable {Setting : Type} {Unclear : Setting → Prop} {strong weak : Setting} {offer request : Setting → Nat}
  {p p' s s' : Setting}
variable (hr : Ranked Unclear strong weak offer request)
include hr

theorem conflict_iff : p = weak ∧ s = strong ↔ offer p = 0 ∧ request s = 2 := by
  rw [hr.offer_eq_zero_iff, hr.request_eq_two_iff]

/-- All is well only for the highest offer or the lowest request. -/
theorem conflict_or_inDoubt_iff : p = weak ∧ s = strong ∨ InDoubt Unclear strong weak p s ↔
    offer p < 2 ∧ 0 < request s := by
  rw [hr.offer_lt_two_iff, hr.request_pos_iff, InDoubt]
  tauto

variable (hp : offer p ≤ offer p') (hs : request s' ≤ request s)
include hp hs

theorem conflict_of_le (h : p' = weak ∧ s' = strong) : p = weak ∧ s = strong := by
  rw [hr.conflict_iff] at h ⊢
  have hle := hr.request_le s
  omega

theorem conflict_or_inDoubt_of_le (h : InDoubt Unclear strong weak p' s') :
    p = weak ∧ s = strong ∨ InDoubt Unclear strong weak p s := by
  have hbad := hr.conflict_or_inDoubt_iff.1 (.inr h)
  rw [hr.conflict_or_inDoubt_iff]
  omega

end Ranked

theorem missed_of_asStrict {offered offered' requested requested' : Period}
    (ho : offered'.AsStrict offered) (hr : requested.AsStrict requested')
    (h : Missed offered' requested') : Missed offered requested := by
  obtain ⟨hset', hmissed⟩ := h
  obtain ⟨hset, hle⟩ := hr.resolve_left hset'
  refine ⟨hset, ?_⟩
  by_cases hunset : offered = .unset
  · exact .inl hunset
  · obtain ⟨hoset, hole⟩ := ho.resolve_left hunset
    exact .inr ((hle.trans_lt (hmissed.resolve_left hoset)).trans_le hole)

/-- `q` ranks at least as high as `p` in every policy. -/
structure Profile.AtLeast (rank : Ranking) (q p : Profile) : Prop where
  reliability : rank.reliability p.reliability ≤ rank.reliability q.reliability
  durability : rank.durability p.durability ≤ rank.durability q.durability
  deadline : q.deadline.AsStrict p.deadline
  liveliness : rank.liveliness p.liveliness ≤ rank.liveliness q.liveliness
  lease : q.lease.AsStrict p.lease

/-- The publisher `q` offers at least as much as `p`. -/
def Profile.OffersAtLeast (q p : Profile) : Prop := q.AtLeast .offers p

/-- The subscription `q` asks at most as much as `s`. -/
def Profile.AsksAtMost (q s : Profile) : Prop := s.AtLeast .requests q

theorem Profile.AtLeast.refl (rank : Ranking) (p : Profile) : p.AtLeast rank p :=
  ⟨le_refl _, le_refl _, .refl _, le_refl _, .refl _⟩

section Verdict
variable {p p' s s' : Profile}

section Ranked
variable (hp : p'.OffersAtLeast p) (hs : s'.AsksAtMost s)
include hp hs

theorem violated_of_atLeast {f : Policy} (h : f.Violated p' s') : f.Violated p s := by
  cases f with
  | reliability => exact ranked_reliability.conflict_of_le hp.reliability hs.reliability h
  | durability => exact ranked_durability.conflict_of_le hp.durability hs.durability h
  | deadline => exact missed_of_asStrict hp.deadline hs.deadline h
  | liveliness => exact ranked_liveliness.conflict_of_le hp.liveliness hs.liveliness h
  | lease => exact missed_of_asStrict hp.lease hs.lease h

theorem violated_or_doubtful_of_atLeast {f : Policy} (h : f.Doubtful p' s') :
    f.Violated p s ∨ f.Doubtful p s := by
  cases f with
  | reliability => exact ranked_reliability.conflict_or_inDoubt_of_le hp.reliability hs.reliability h
  | durability => exact ranked_durability.conflict_or_inDoubt_of_le hp.durability hs.durability h
  | liveliness => exact ranked_liveliness.conflict_or_inDoubt_of_le hp.liveliness hs.liveliness h
  | deadline => exact h.elim
  | lease => exact h.elim

theorem verdict_le_of_atLeast : verdict p' s' ≤ verdict p s := by
  cases hv : verdict p' s' with
  | ok => exact Nat.zero_le _
  | warning =>
    have hbad : verdict p s ≠ .ok := fun hok => by
      have hclear := verdict_eq_ok_iff.1 hok
      have hok' : verdict p' s' = .ok := verdict_eq_ok_iff.2 fun f =>
        ⟨fun hf => (hclear f).1 (violated_of_atLeast hp hs hf), fun hf =>
          (violated_or_doubtful_of_atLeast hp hs hf).elim (hclear f).1 (hclear f).2⟩
      rw [hv] at hok'
      contradiction
    cases h : verdict p s with
    | ok => exact absurd h hbad
    | warning => exact le_refl _
    | error => decide
  | error =>
    obtain ⟨f, hf⟩ := verdict_eq_error_iff.1 hv
    rw [verdict_eq_error_iff.2 ⟨f, violated_of_atLeast hp hs hf⟩]

end Ranked

/-- No profile requests what it does not offer. -/
theorem not_violated_self (f : Policy) (x : Profile) : ¬ f.Violated x x := by
  have hperiod (d : Period) : ¬ Missed d d := by
    rintro ⟨hset, hunset | hlt⟩
    · exact hset hunset
    · exact lt_irrefl d hlt
  cases f with
  | reliability => simp +contextual [Violated]
  | durability => simp +contextual [Violated]
  | deadline => exact hperiod _
  | liveliness => simp +contextual [Violated]
  | lease => exact hperiod _

end Verdict

/-- A publisher that offers at least as much makes no verdict worse, nor does a subscription that asks
at most as much, and a profile is never in error with itself. -/
theorem verdict_monotone :
    (∀ p p' s : Profile, p'.OffersAtLeast p → verdict p' s ≤ verdict p s) ∧
    (∀ p s s' : Profile, s'.AsksAtMost s → verdict p s' ≤ verdict p s) ∧
    ∀ x : Profile, verdict x x ≠ .error := by
  refine ⟨fun p p' s hp => verdict_le_of_atLeast hp (.refl _ s),
    fun p s s' hs => verdict_le_of_atLeast (.refl _ p) hs, fun x herror => ?_⟩
  obtain ⟨f, hf⟩ := verdict_eq_error_iff.1 herror
  exact not_violated_self f x hf

/-- A publisher whose reliability cannot be told, and one that leaves it to the peers and has a shorter
deadline: the subscription is sure of the second one only. A late publisher is in error with it, and
in doubt with a subscription that requests no deadline and does not say what liveliness it wants. -/
theorem verdict_monotone_unclear :
    let unclear : Profile := { reliability := .unknown, liveliness := .manualByTopic, deadline := ⟨2, 0⟩ }
    let better : Profile := { unclear with reliability := .bestAvailable, deadline := ⟨1, 0⟩ }
    let late : Profile := { deadline := ⟨3, 0⟩ }
    let s : Profile := { liveliness := .manualByTopic, deadline := ⟨2, 0⟩ }
    let content : Profile := { liveliness := .unknown }
    (better.OffersAtLeast unclear ∧ verdict better s ≤ verdict unclear s ∧
      verdict unclear s = .warning ∧ verdict better s = .ok) ∧
    (content.AsksAtMost s ∧ verdict late content ≤ verdict late s ∧
      verdict late s = .error ∧ verdict late content = .warning) ∧
    verdict s s ≠ .error := by
  intro unclear better late s content
  have hbetter : better.OffersAtLeast unclear :=
    ⟨by decide, by decide, .inr ⟨by decide, by decide⟩, by decide, .inl rfl⟩
  have hcontent : content.AsksAtMost s :=
    ⟨by decide, by decide, .inl rfl, by decide, .inl rfl⟩
  exact ⟨⟨hbetter, verdict_monotone.1 _ _ s hbetter, by decide, by decide⟩,
    ⟨hcontent, verdict_monotone.2.1 late _ _ hcontent, by decide, by decide⟩,
    verdict_monotone.2.2 s⟩

end Qos

end RosGraph
