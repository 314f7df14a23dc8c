import RosGraph.Proofs.Qos.Fit
import Mathlib.Order.Bounds.Basic

/-! When resolution settles a profile. A policy that was left open is still open afterwards exactly if
the choice leaves it open, too, and no choice does so but for a period: the mark of an open period is
a period like any other, which peers may declare, and which may be the longest or the shortest that
they do. What services use leaves nothing open. A profile with nothing left open is kept by every
resolution, and none changes what was not left open. -/

namespace RosGraph.Qos

open Policy

section Periods
variable {periods : List Period} {d : Period}

theorem longestSet_eq_iff (hd : d ≠ .unset) :
    longestSet periods = d ↔ IsGreatest {q | q ≠ .unset ∧ q ∈ periods} d := by
  rcases longestSet_spec periods with ⟨hunset, hall⟩ | ⟨hmem, hset, hle⟩
  · constructor
    · rintro rfl
      exact absurd hunset hd
    · rintro ⟨⟨-, hin⟩, -⟩
      exact absurd (hall d hin) hd
  · have hgreatest : IsGreatest {q | q ≠ .unset ∧ q ∈ periods} (longestSet periods) :=
      ⟨⟨hset, hmem⟩, fun q hq => hle q hq.2⟩
    exact ⟨fun heq => heq ▸ hgreatest, hgreatest.unique⟩

theorem shortestSet_eq_iff (hd : d ≠ .unset) :
    shortestSet periods = d ↔ IsLeast {q | q ≠ .unset ∧ q ∈ periods} d := by
  rcases shortestSet_spec periods with ⟨hunset, hall⟩ | ⟨hmem, hset, hle⟩
  · constructor
    · rintro rfl
      exact absurd hunset hd
    · rintro ⟨⟨-, hin⟩, -⟩
      exact absurd (hall d hin) hd
  · have hleast : IsLeast {q | q ≠ .unset ∧ q ∈ periods} (shortestSet periods) :=
      ⟨⟨hset, hmem⟩, fun q hq => hle q hq.2 hq.1⟩
    exact ⟨fun heq => heq ▸ hleast, hleast.unique⟩

end Periods

/-- The periods that peers set for a policy. -/
def declared (peers : List Profile) (field : Profile → Period) : Set Period :=
  {d | d ≠ .unset ∧ d ∈ peers.map field}

section Open
variable {choice p : Profile}

theorem asksPeers_iff : p.asksPeers ↔ ∃ f : Policy, f.LeftOpen p := by
  constructor
  · intro h
    simp only [Profile.asksPeers, Bool.or_eq_true, decide_eq_true_eq] at h
    rcases h with (((h | h) | h) | h) | h
    · exact ⟨.reliability, h⟩
    · exact ⟨.durability, h⟩
    · exact ⟨.liveliness, h⟩
    · exact ⟨.deadline, h⟩
    · exact ⟨.lease, h⟩
  · rintro ⟨f, hf⟩
    cases f <;> rw [LeftOpen] at hf <;> simp [Profile.asksPeers, hf]

theorem leftOpen_resolveWith {f : Policy} :
    f.LeftOpen (.resolveWith choice p) ↔ f.LeftOpen p ∧ f.LeftOpen choice := by
  cases f <;> simp only [LeftOpen, Profile.resolveWith] <;> split_ifs with h <;> simp [h]

/-- A profile with nothing left open is kept, whatever the choice. -/
theorem resolveWith_of_not_asksPeers (h : ¬ p.asksPeers) : Profile.resolveWith choice p = p := by
  have hclosed (f : Policy) : ¬ f.LeftOpen p := fun hf => h (asksPeers_iff.2 ⟨f, hf⟩)
  simp only [Policy.forall_iff, LeftOpen] at hclosed
  obtain ⟨hreliability, hdurability, hdeadline, hliveliness, hlease⟩ := hclosed
  rw [Profile.resolveWith, if_neg hreliability, if_neg hdurability, if_neg hdeadline,
    if_neg hliveliness, if_neg hlease]

/-- A choice has settled each policy that is not a period. -/
structure Profile.Decided (choice : Profile) : Prop where
  reliability : choice.reliability ≠ .bestAvailable
  durability : choice.durability ≠ .bestAvailable
  liveliness : choice.liveliness ≠ .bestAvailable

theorem ite_ne_of_ne {Setting : Type} {c : Prop} [Decidable c] {x y z : Setting} (hx : x ≠ z)
    (hy : y ≠ z) : (if c then x else y) ≠ z := by
  split_ifs
  · exact hx
  · exact hy

theorem decided_servedByAll (publishers : List Profile) :
    (Profile.servedByAll publishers).Decided where
  reliability := ite_ne_of_ne (by decide) (by decide)
  durability := ite_ne_of_ne (by decide) (by decide)
  liveliness := ite_ne_of_ne (by decide) (by decide)

theorem decided_servingAll (subscriptions : List Profile) :
    (Profile.servingAll subscriptions).Decided where
  reliability := by simp [Profile.servingAll]
  durability := by simp [Profile.servingAll]
  liveliness := ite_ne_of_ne (by decide) (by decide)

/-- After resolution no policy is left open but a period that the choice leaves open. -/
theorem asksPeers_resolveWith_iff (h : choice.Decided) : (Profile.resolveWith choice p).asksPeers ↔
    p.deadline = .bestAvailable ∧ choice.deadline = .bestAvailable ∨
      p.lease = .bestAvailable ∧ choice.lease = .bestAvailable := by
  rw [asksPeers_iff]
  simp only [leftOpen_resolveWith]
  constructor
  · rintro ⟨f, hp, hchoice⟩
    cases f with
    | reliability => exact absurd hchoice h.reliability
    | durability => exact absurd hchoice h.durability
    | deadline => exact .inl ⟨hp, hchoice⟩
    | liveliness => exact absurd hchoice h.liveliness
    | lease => exact .inr ⟨hp, hchoice⟩
  · rintro (hdeadline | hlease)
    · exact ⟨.deadline, hdeadline⟩
    · exact ⟨.lease, hlease⟩

/-- `q` is `p` but for policies that `p` leaves open. -/
structure Profile.Keeps (q p : Profile) : Prop where
  history : q.history = p.history
  depth : q.depth = p.depth
  lifespan : q.lifespan = p.lifespan
  avoidsNamespaceConventions : q.avoidsNamespaceConventions = p.avoidsNamespaceConventions
  reliability : p.reliability ≠ .bestAvailable → q.reliability = p.reliability
  durability : p.durability ≠ .bestAvailable → q.durability = p.durability
  deadline : p.deadline ≠ .bestAvailable → q.deadline = p.deadline
  liveliness : p.liveliness ≠ .bestAvailable → q.liveliness = p.liveliness
  lease : p.lease ≠ .bestAvailable → q.lease = p.lease

theorem keeps_resolveWith : (Profile.resolveWith choice p).Keeps p where
  history := rfl
  depth := rfl
  lifespan := rfl
  avoidsNamespaceConventions := rfl
  reliability h := if_neg h
  durability h := if_neg h
  deadline h := if_neg h
  liveliness h := if_neg h
  lease h := if_neg h

end Open

/-- A resolved profile still leaves something open exactly if its deadline was left open and the
peers declare the mark of an open period as their longest, or shortest, deadline, or the same of the
lease; services leave nothing open. A result that leaves nothing open is kept by any further
resolution. No result differs from the profile in what that did not leave open. -/
theorem asksPeers_resolved_iff (p : Profile) (peers : List Profile) :
    ((Profile.resolveSubscription peers p).asksPeers ↔
      p.deadline = .bestAvailable ∧ IsGreatest (declared peers (·.deadline)) .bestAvailable ∨
      p.lease = .bestAvailable ∧ IsGreatest (declared peers (·.lease)) .bestAvailable) ∧
    ((Profile.resolvePublisher peers p).asksPeers ↔
      p.deadline = .bestAvailable ∧ IsLeast (declared peers (·.deadline)) .bestAvailable ∨
      p.lease = .bestAvailable ∧ IsLeast (declared peers (·.lease)) .bestAvailable) ∧
    ¬ (Profile.resolveService p).asksPeers ∧
    ∀ q ∈ [Profile.resolveSubscription peers p, .resolvePublisher peers p, .resolveService p],
      q.Keeps p ∧
      (¬ q.asksPeers → ∀ others, Profile.resolveSubscription others q = q ∧
        Profile.resolvePublisher others q = q ∧ Profile.resolveService q = q) := by
  have hset : Period.bestAvailable ≠ .unset := by decide
  refine ⟨?_, ?_, ?_, fun q hq => ⟨?_, fun hsettled others => ?_⟩⟩
  · rw [Profile.resolveSubscription, asksPeers_resolveWith_iff (decided_servedByAll peers)]
    exact or_congr (and_congr_right' (longestSet_eq_iff hset))
      (and_congr_right' (longestSet_eq_iff hset))
  · rw [Profile.resolvePublisher, asksPeers_resolveWith_iff (decided_servingAll peers)]
    exact or_congr (and_congr_right' (shortestSet_eq_iff hset))
      (and_congr_right' (shortestSet_eq_iff hset))
  · rw [Profile.resolveService, asksPeers_resolveWith_iff ⟨by decide, by decide, by decide⟩]
    rintro (⟨-, hopen⟩ | ⟨-, hopen⟩)
    · exact absurd hopen (by decide)
    · exact absurd hopen (by decide)
  · simp only [List.mem_cons, List.not_mem_nil, or_false] at hq
    rcases hq with rfl | rfl | rfl
    · exact keeps_resolveWith
    · exact keeps_resolveWith
    · exact keeps_resolveWith
  · exact ⟨resolveWith_of_not_asksPeers hsettled, resolveWith_of_not_asksPeers hsettled,
      resolveWith_of_not_asksPeers hsettled⟩

/-- A peer that declares the mark of an open period as its deadline, and another one. The longest
deadline is the mark, the shortest one is not: so the subscription may be resolved further, and the
publisher not. -/
theorem asksPeers_resolved_iff_mark :
    let unsettled : Profile := { deadline := .bestAvailable }
    let punctual : Profile := { deadline := ⟨1, 0⟩ }
    let peers := [unsettled, punctual]
    let q := Profile.resolvePublisher peers .bestAvailable
    IsGreatest (declared peers (·.deadline)) .bestAvailable ∧
      (Profile.resolveSubscription peers .bestAvailable).asksPeers ∧
      Profile.resolveSubscription [punctual] (.resolveSubscription peers .bestAvailable) ≠
        .resolveSubscription peers .bestAvailable ∧
      ¬ q.asksPeers ∧ Profile.resolveSubscription [unsettled] q = q := by
  intro unsettled punctual peers q
  have hgreatest : IsGreatest (declared peers (·.deadline)) .bestAvailable :=
    (longestSet_eq_iff (by decide)).1 (by decide)
  have hsettled : ¬ q.asksPeers := by decide
  have hmain := asksPeers_resolved_iff .bestAvailable peers
  exact ⟨hgreatest, hmain.1.2 (.inl ⟨rfl, hgreatest⟩), by decide, hsettled,
    ((hmain.2.2.2 q (by simp [q])).2 hsettled [unsettled]).1⟩

end RosGraph.Qos
