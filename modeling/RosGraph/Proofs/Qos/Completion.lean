import RosGraph.Proofs.Qos.Negotiation

/-! What a verdict says of policies that cannot be told. A completion of a profile settles
each undetermined policy for its strong or its weak setting. A conflict is one in every
completion of a pair, and where there is none a doubt stands for both outcomes: it goes well
for the strongest offer and the weakest request, and badly the other way round. So the
verdict is exact: it is the one of all completions, or a warning if they do not agree. -/

namespace RosGraph.Qos

open Policy

section Setting
variable {Setting : Type} {Unclear : Setting → Prop} [DecidablePred Unclear] {strong weak : Setting}

/-- `q` is what `p` may turn out to be: one of the two settings where `p` cannot be told. -/
def Settles (Unclear : Setting → Prop) [DecidablePred Unclear] (strong weak q p : Setting) : Prop :=
  if Unclear p then q = strong ∨ q = weak else q = p

/-- Settle for `choice` where a setting cannot be told. -/
def settle (Unclear : Setting → Prop) [DecidablePred Unclear] (choice p : Setting) : Setting :=
  if Unclear p then choice else p

theorem settles_settle {choice : Setting} (h : choice = strong ∨ choice = weak) (p : Setting) :
    Settles Unclear strong weak (settle Unclear choice p) p := by
  rw [Settles, settle]
  split_ifs
  · exact h
  · rfl

theorem Settles.eq {p q : Setting} (h : Settles Unclear strong weak q p) (hp : ¬ Unclear p) : q = p := by
  rwa [Settles, if_neg hp] at h

variable {level : Setting → Level} {p s p' s' : Setting}

theorem Graded.not_unclear_of_settles (hg : Graded level Unclear strong weak)
    (h : Settles Unclear strong weak p' p) : ¬ Unclear p' := by
  rw [Settles] at h
  split_ifs at h with hp
  · rcases h with rfl | rfl
    · exact hg.not_unclear_strong
    · exact hg.not_unclear_weak
  · rwa [h]

/-- A conflict does not go away when policies are settled. -/
theorem Graded.conflict_of_settles (hg : Graded level Unclear strong weak)
    (hp : Settles Unclear strong weak p' p) (hs : Settles Unclear strong weak s' s)
    (h : p = weak ∧ s = strong) : p' = weak ∧ s' = strong := by
  obtain ⟨rfl, rfl⟩ := h
  exact ⟨hp.eq hg.not_unclear_weak, hs.eq hg.not_unclear_strong⟩

/-- A conflict that comes up when policies are settled was in doubt before. -/
theorem conflict_or_inDoubt (hp : Settles Unclear strong weak p' p) (hs : Settles Unclear strong weak s' s)
    (h : p' = weak ∧ s' = strong) : p = weak ∧ s = strong ∨ InDoubt Unclear strong weak p s := by
  obtain ⟨rfl, rfl⟩ := h
  by_cases hpu : Unclear p
  · by_cases hsu : Unclear s
    · exact .inr (.inl ⟨hpu, .inl hsu⟩)
    · exact .inr (.inl ⟨hpu, .inr (hs.eq hsu).symm⟩)
  · by_cases hsu : Unclear s
    · exact .inr (.inr ⟨(hp.eq hpu).symm, hsu⟩)
    · exact .inl ⟨(hp.eq hpu).symm, (hs.eq hsu).symm⟩

theorem Graded.not_inDoubt_of_settles (hg : Graded level Unclear strong weak)
    (hp : Settles Unclear strong weak p' p) (hs : Settles Unclear strong weak s' s) :
    ¬ InDoubt Unclear strong weak p' s' :=
  not_inDoubt (hg.not_unclear_of_settles hp) (hg.not_unclear_of_settles hs)

/-- The strongest offer and the weakest request make no conflict of their own. -/
theorem Graded.conflict_of_best (hg : Graded level Unclear strong weak)
    (h : settle Unclear strong p = weak ∧ settle Unclear weak s = strong) : p = weak ∧ s = strong := by
  obtain ⟨hp, hs⟩ := h
  rw [settle] at hp hs
  split_ifs at hp hs
  · exact absurd hp hg.strong_ne_weak
  · exact absurd hp hg.strong_ne_weak
  · exact absurd hs.symm hg.strong_ne_weak
  · exact ⟨hp, hs⟩

/-- The weakest offer and the strongest request make every doubt a conflict. -/
theorem conflict_of_worst (h : InDoubt Unclear strong weak p s) :
    settle Unclear weak p = weak ∧ settle Unclear strong s = strong := by
  rw [settle, settle]
  rcases h with ⟨hp, hs | rfl⟩ | ⟨rfl, hs⟩
  · exact ⟨if_pos hp, if_pos hs⟩
  · exact ⟨if_pos hp, ite_self _⟩
  · exact ⟨ite_self _, if_pos hs⟩

end Setting

namespace Profile

/-- `q` is what `p` may turn out to be. -/
structure Completes (q p : Profile) : Prop where
  reliability : Settles Reliability.Unclear .reliable .bestEffort q.reliability p.reliability
  durability : Settles Durability.Unclear .transientLocal .volatile q.durability p.durability
  liveliness : Settles Liveliness.Unclear .manualByTopic .automatic q.liveliness p.liveliness
  others : q = { p with
    reliability := q.reliability, durability := q.durability, liveliness := q.liveliness }

/-- The strong setting of each policy that cannot be told. -/
def strongest (p : Profile) : Profile :=
  { p with
    reliability := settle Reliability.Unclear .reliable p.reliability
    durability := settle Durability.Unclear .transientLocal p.durability
    liveliness := settle Liveliness.Unclear .manualByTopic p.liveliness }

def weakest (p : Profile) : Profile :=
  { p with
    reliability := settle Reliability.Unclear .bestEffort p.reliability
    durability := settle Durability.Unclear .volatile p.durability
    liveliness := settle Liveliness.Unclear .automatic p.liveliness }

theorem completes_strongest (p : Profile) : p.strongest.Completes p :=
  ⟨settles_settle (.inl rfl) _, settles_settle (.inl rfl) _, settles_settle (.inl rfl) _, rfl⟩

theorem completes_weakest (p : Profile) : p.weakest.Completes p :=
  ⟨settles_settle (.inr rfl) _, settles_settle (.inr rfl) _, settles_settle (.inr rfl) _, rfl⟩

theorem Completes.deadline {p q : Profile} (h : q.Completes p) : q.deadline = p.deadline := by
  rw [h.others]

theorem Completes.lease {p q : Profile} (h : q.Completes p) : q.lease = p.lease := by
  rw [h.others]

end Profile

section Verdict
variable {p s p' s' : Profile} {f : Policy}

section Completes
variable (hp : p'.Completes p) (hs : s'.Completes s)
include hp hs

theorem violated_of_completes (h : f.Violated p s) : f.Violated p' s' := by
  cases f with
  | reliability => exact graded_reliability.conflict_of_settles hp.reliability hs.reliability h
  | durability => exact graded_durability.conflict_of_settles hp.durability hs.durability h
  | deadline => rwa [Violated, hp.deadline, hs.deadline]
  | liveliness => exact graded_liveliness.conflict_of_settles hp.liveliness hs.liveliness h
  | lease => rwa [Violated, hp.lease, hs.lease]

theorem violated_or_doubtful (h : f.Violated p' s') : f.Violated p s ∨ f.Doubtful p s := by
  cases f with
  | reliability => exact conflict_or_inDoubt hp.reliability hs.reliability h
  | durability => exact conflict_or_inDoubt hp.durability hs.durability h
  | deadline => rw [Violated, hp.deadline, hs.deadline] at h; exact .inl h
  | liveliness => exact conflict_or_inDoubt hp.liveliness hs.liveliness h
  | lease => rw [Violated, hp.lease, hs.lease] at h; exact .inl h

/-- In a completion nothing is left in doubt. -/
theorem not_doubtful_of_completes (f : Policy) : ¬ f.Doubtful p' s' := by
  cases f with
  | reliability => exact graded_reliability.not_inDoubt_of_settles hp.reliability hs.reliability
  | durability => exact graded_durability.not_inDoubt_of_settles hp.durability hs.durability
  | liveliness => exact graded_liveliness.not_inDoubt_of_settles hp.liveliness hs.liveliness
  | deadline => exact not_false
  | lease => exact not_false

end Completes

theorem violated_of_best (h : f.Violated p.strongest s.weakest) : f.Violated p s := by
  cases f with
  | reliability => exact graded_reliability.conflict_of_best h
  | durability => exact graded_durability.conflict_of_best h
  | liveliness => exact graded_liveliness.conflict_of_best h
  | deadline => exact h
  | lease => exact h

theorem violated_of_worst (h : f.Doubtful p s) : f.Violated p.weakest s.strongest := by
  cases f with
  | reliability => exact conflict_of_worst h
  | durability => exact conflict_of_worst h
  | liveliness => exact conflict_of_worst h
  | deadline => exact h.elim
  | lease => exact h.elim

/-- Of a pair in which nothing conflicts, every completion goes well if nothing is in doubt. -/
theorem ok_of_completes (h : verdict p s = .ok) (hp : p'.Completes p) (hs : s'.Completes s) :
    verdict p' s' = .ok := by
  rw [verdict_eq_ok_iff] at h ⊢
  refine fun f => ⟨fun hviolated => ?_, not_doubtful_of_completes hp hs f⟩
  rcases violated_or_doubtful hp hs hviolated with hv | hd
  · exact (h f).1 hv
  · exact (h f).2 hd

theorem error_of_completes (h : verdict p s = .error) (hp : p'.Completes p) (hs : s'.Completes s) :
    verdict p' s' = .error := by
  rw [verdict_eq_error_iff] at h ⊢
  obtain ⟨f, hf⟩ := h
  exact ⟨f, violated_of_completes hp hs hf⟩

/-- After a warning things may go either way. -/
theorem best_and_worst_of_warning (h : verdict p s = .warning) :
    verdict p.strongest s.weakest = .ok ∧ verdict p.weakest s.strongest = .error := by
  obtain ⟨hclear, f, hf⟩ := verdict_eq_warning_iff.1 h
  constructor
  · exact verdict_eq_ok_iff.2 fun f => ⟨fun hv => hclear f (violated_of_best hv),
      not_doubtful_of_completes p.completes_strongest s.completes_weakest f⟩
  · exact verdict_eq_error_iff.2 ⟨f, violated_of_worst hf⟩

end Verdict

/-- A verdict is exact: it is what all completions of the pair agree on, and a warning exactly
if some completion goes well and some does not. -/
theorem verdict_iff_completions (p s : Profile) :
    (verdict p s = .ok ↔ ∀ p' s', p'.Completes p → s'.Completes s → verdict p' s' = .ok) ∧
    (verdict p s = .error ↔ ∀ p' s', p'.Completes p → s'.Completes s → verdict p' s' = .error) ∧
    (verdict p s = .warning ↔
      (∃ p' s', p'.Completes p ∧ s'.Completes s ∧ verdict p' s' = .ok) ∧
      ∃ p' s', p'.Completes p ∧ s'.Completes s ∧ verdict p' s' = .error) := by
  have hp : p.strongest.Completes p := p.completes_strongest
  have hs : s.weakest.Completes s := s.completes_weakest
  cases hv : verdict p s with
  | ok =>
    have hall (p' s') (hp : p'.Completes p) (hs : s'.Completes s) : verdict p' s' ≠ .error := by
      rw [ok_of_completes hv hp hs]
      decide
    refine ⟨iff_of_true rfl fun p' s' => ok_of_completes hv, iff_of_false (by decide) ?_,
      iff_of_false (by decide) ?_⟩
    · exact fun herror => hall _ _ hp hs (herror _ _ hp hs)
    · rintro ⟨-, p', s', hp', hs', herror⟩
      exact hall p' s' hp' hs' herror
  | warning =>
    obtain ⟨hbest, hworst⟩ := best_and_worst_of_warning hv
    refine ⟨iff_of_false (by decide) fun hok => ?_, iff_of_false (by decide) fun herror => ?_,
      iff_of_true rfl ⟨⟨_, _, hp, hs, hbest⟩, _, _, p.completes_weakest, s.completes_strongest, hworst⟩⟩
    · have hok := hok _ _ p.completes_weakest s.completes_strongest
      rw [hworst] at hok
      contradiction
    · have herror := herror _ _ hp hs
      rw [hbest] at herror
      contradiction
  | error =>
    have hall (p' s') (hp : p'.Completes p) (hs : s'.Completes s) : verdict p' s' ≠ .ok := by
      rw [error_of_completes hv hp hs]
      decide
    refine ⟨iff_of_false (by decide) ?_, iff_of_true rfl fun p' s' => error_of_completes hv,
      iff_of_false (by decide) ?_⟩
    · exact fun hok => hall _ _ hp hs (hok _ _ hp hs)
    · rintro ⟨⟨p', s', hp', hs', hok⟩, -⟩
      exact hall p' s' hp' hs' hok

/-- A subscription that cannot be told asks for nothing that the strongest publisher lacks, and
an unknown publisher may fall short of what is asked. -/
theorem verdict_iff_completions_unknown :
    let strong : Profile := { reliability := .reliable, durability := .transientLocal, liveliness := .manualByTopic }
    let unknown : Profile := { reliability := .unknown, durability := .systemDefault, liveliness := .unknown }
    strong.strongest.Completes strong ∧ unknown.strongest.Completes unknown ∧
      verdict strong.strongest unknown.strongest = .ok ∧
      ∃ p' s', p'.Completes unknown ∧ s'.Completes strong ∧ verdict p' s' = .error := by
  intro strong unknown
  have hstrong := strong.completes_strongest
  have hunknown := unknown.completes_strongest
  refine ⟨hstrong, hunknown, ?_, ?_⟩
  · exact (verdict_iff_completions strong unknown).1.1 (by decide) _ _ hstrong hunknown
  · exact ((verdict_iff_completions unknown strong).2.2.1 (by decide)).2

end RosGraph.Qos
