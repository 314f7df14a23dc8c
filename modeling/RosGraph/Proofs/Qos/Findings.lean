import RosGraph.Proofs.Qos.Negotiation

/-! What a check reports, policy by policy. Where some rule is violated those are reported, and
otherwise those that are in doubt: one finding for each, in a fixed order. The finding on a policy
says no more than that, but for a period whether it is missing or too long, and for a doubt which
settings it hangs on. -/

namespace RosGraph.Qos

namespace Policy

/-- The order in which policies are reported. -/
def all : List Policy := [reliability, durability, deadline, liveliness, lease]

theorem mem_all (f : Policy) : f ∈ all := by cases f <;> decide

/-- The rule of the policy is one of those to report: it is violated, or it is in doubt and no rule
is violated. -/
def Reported (p s : Profile) (f : Policy) : Prop :=
  f.Violated p s ∨ (∀ f' : Policy, ¬ f'.Violated p s) ∧ f.Doubtful p s

end Policy

open Policy

instance (offered requested : Period) : Decidable (Missed offered requested) :=
  inferInstanceAs (Decidable (_ ∧ _))

instance (p s : Profile) : DecidablePred (Violated p s)
  | .reliability | .durability | .liveliness => inferInstanceAs (Decidable (_ ∧ _))
  | .deadline | .lease => inferInstanceAs (Decidable (Missed _ _))

instance {Setting : Type} [DecidableEq Setting] {Unclear : Setting → Prop} [DecidablePred Unclear]
    (strong weak p s : Setting) : Decidable (InDoubt Unclear strong weak p s) :=
  inferInstanceAs (Decidable (_ ∨ _))

instance (p s : Profile) : DecidablePred (Doubtful p s)
  | .reliability | .durability | .liveliness => inferInstanceAs (Decidable (InDoubt _ _ _ _ _))
  | .deadline | .lease => inferInstanceAs (Decidable False)

instance (p s : Profile) : Decidable (∀ f : Policy, ¬ f.Violated p s) :=
  decidable_of_iff _ Policy.forall_iff.symm

instance (p s : Profile) : DecidablePred (Reported p s) := fun _ => inferInstanceAs (Decidable (_ ∨ _))

section Reported
variable {p s : Profile} {f : Policy}

theorem not_reported_of_ok (h : verdict p s = .ok) : ¬ f.Reported p s := by
  have hclear := verdict_eq_ok_iff.1 h f
  rintro (hviolated | ⟨-, hdoubtful⟩)
  · exact hclear.1 hviolated
  · exact hclear.2 hdoubtful

theorem reported_iff_of_warning (h : verdict p s = .warning) : f.Reported p s ↔ f.Doubtful p s := by
  have hclear := (verdict_eq_warning_iff.1 h).1
  rw [Reported, or_iff_right (hclear f), and_iff_right hclear]

theorem reported_iff_of_error (h : verdict p s = .error) : f.Reported p s ↔ f.Violated p s := by
  obtain ⟨f', hf'⟩ := verdict_eq_error_iff.1 h
  exact or_iff_left fun hclear => hclear.1 f' hf'

end Reported

section Details
variable {Setting : Type} {level : Setting → Level} {Unclear : Setting → Prop} [DecidablePred Unclear]
  {strong weak p s p' s' : Setting}

/-- A setting that cannot be told. -/
def unclear? (Unclear : Setting → Prop) [DecidablePred Unclear] (x : Setting) : Option Setting :=
  if Unclear x then some x else none

/-- The publisher's setting that a doubt hangs on. -/
def Doubt.offered? : Doubt Setting → Option Setting
  | both offered _ => some offered
  | offer offered => some offered
  | request _ => none

def Doubt.requested? : Doubt Setting → Option Setting
  | both _ requested => some requested
  | offer _ => none
  | request requested => some requested

theorem Doubt.ext_sides {d d' : Doubt Setting} (ho : d.offered? = d'.offered?)
    (hr : d.requested? = d'.requested?) : d = d' := by
  cases d <;> cases d' <;> simp_all [offered?, requested?]

/-- A doubt hangs on all settings that cannot be told. -/
theorem Graded.sides_of_doubt (hg : Graded level Unclear strong weak) {d : Doubt Setting}
    (h : doubt? level p s = some d) :
    d.offered? = unclear? Unclear p ∧ d.requested? = unclear? Unclear s := by
  rw [doubt?] at h
  simp only [unclear?, ← hg.undetermined_iff]
  split at h <;> cases h <;> simp_all [Doubt.offered?, Doubt.requested?]

/-- Two doubts about a policy are the same if they hang on the same settings. -/
theorem Graded.doubt?_eq_iff (hg : Graded level Unclear strong weak) (h : InDoubt Unclear strong weak p s)
    (h' : InDoubt Unclear strong weak p' s') : doubt? level p s = doubt? level p' s' ↔
      unclear? Unclear p = unclear? Unclear p' ∧ unclear? Unclear s = unclear? Unclear s' := by
  obtain ⟨d, hd⟩ := Option.ne_none_iff_exists'.1 (hg.doubt?_ne_none_iff.2 h)
  obtain ⟨d', hd'⟩ := Option.ne_none_iff_exists'.1 (hg.doubt?_ne_none_iff.2 h')
  obtain ⟨ho, hr⟩ := hg.sides_of_doubt hd
  obtain ⟨ho', hr'⟩ := hg.sides_of_doubt hd'
  rw [hd, hd', Option.some.injEq, ← ho, ← hr, ← ho', ← hr']
  constructor
  · rintro rfl
    exact ⟨rfl, rfl⟩
  · rintro ⟨hoffered, hrequested⟩
    exact Doubt.ext_sides hoffered hrequested

/-- A conflict leaves no setting unclear. -/
theorem Graded.unclear?_of_conflict (hg : Graded level Unclear strong weak) (h : p = weak ∧ s = strong) :
    unclear? Unclear p = none ∧ unclear? Unclear s = none := by
  obtain ⟨rfl, rfl⟩ := h
  exact ⟨if_neg hg.not_unclear_weak, if_neg hg.not_unclear_strong⟩

theorem shortfall?_eq_iff {o r o' r' : Period} (h : Missed o r) (h' : Missed o' r') :
    shortfall? o r = shortfall? o' r' ↔ (o = .unset ↔ o' = .unset) := by
  have hcause {o r : Period} (h : Missed o r) :
      shortfall? o r = if o = .unset then some .missing else some .tooLong := by
    obtain ⟨hset, hmissed⟩ := h
    rw [shortfall?, if_neg hset]
    split_ifs with hunset hlt
    · rfl
    · rfl
    · exact absurd (hmissed.resolve_left hunset) hlt
  rw [hcause h, hcause h']
  by_cases ho : o = .unset <;> by_cases ho' : o' = .unset <;> simp [ho, ho']

end Details

/-- What an entry of a reason is about. -/
inductive Finding
  | conflict (c : Conflict)
  | warning (w : Warning)
deriving DecidableEq

def Conflict.policy : Conflict → Policy
  | reliability => .reliability
  | durability => .durability
  | deadline _ => .deadline
  | liveliness => .liveliness
  | lease _ => .lease

def Warning.policy : Warning → Policy
  | reliability _ => .reliability
  | durability _ => .durability
  | liveliness _ => .liveliness

namespace Finding

def policy : Finding → Policy
  | conflict c => c.policy
  | warning w => w.policy

/-- The verdict that comes with a finding. -/
def verdict : Finding → Verdict
  | conflict _ => .error
  | warning _ => .warning

def text : Finding → String
  | conflict c => c.text
  | warning w => w.text

end Finding

section Policies
variable (p s : Profile)

def conflict? : Policy → Option Conflict
  | .reliability =>
    if p.reliability.level.conflicts s.reliability.level then some .reliability else none
  | .durability => if p.durability.level.conflicts s.durability.level then some .durability else none
  | .deadline => (shortfall? p.deadline s.deadline).map .deadline
  | .liveliness => if p.liveliness.level.conflicts s.liveliness.level then some .liveliness else none
  | .lease => (shortfall? p.lease s.lease).map .lease

def warning? : Policy → Option Warning
  | .reliability => (doubt? Reliability.level p.reliability s.reliability).map .reliability
  | .durability => (doubt? Durability.level p.durability s.durability).map .durability
  | .liveliness => (doubt? Liveliness.level p.liveliness s.liveliness).map .liveliness
  | .deadline | .lease => none

/-- What is found on a policy, in the light of the verdict. -/
def finding? (f : Policy) : Option Finding :=
  match verdict p s with
  | .ok => none
  | .warning => (warning? p s f).map .warning
  | .error => (conflict? p s f).map .conflict

def findings : List Finding := Policy.all.filterMap (finding? p s)

theorem conflicts_eq_filterMap : conflicts p s = Policy.all.filterMap (conflict? p s) := by
  rw [List.filterMap_eq_flatMap_toList, conflicts]
  simp only [Policy.all, List.flatMap_cons, List.flatMap_nil, List.append_nil, List.append_assoc,
    conflict?, apply_ite Option.toList, Option.toList_some, Option.toList_none, Option.toList_map]

theorem warnings_eq_filterMap : warnings p s = Policy.all.filterMap (warning? p s) := by
  rw [List.filterMap_eq_flatMap_toList, warnings]
  simp only [Policy.all, List.flatMap_cons, List.flatMap_nil, List.append_nil, List.append_assoc,
    List.nil_append, warning?, Option.toList_none, Option.toList_map]

variable {p s}

theorem findings_of_error (h : verdict p s = .error) :
    findings p s = (conflicts p s).map .conflict := by
  rw [conflicts_eq_filterMap, List.map_filterMap]
  exact List.filterMap_congr fun f _ => by rw [finding?, h]

theorem findings_of_warning (h : verdict p s = .warning) :
    findings p s = (warnings p s).map .warning := by
  rw [warnings_eq_filterMap, List.map_filterMap]
  exact List.filterMap_congr fun f _ => by rw [finding?, h]

theorem findings_of_ok (h : verdict p s = .ok) : findings p s = [] := by
  have hnone (f : Policy) : finding? p s f = none := by rw [finding?, h]
  simp only [findings, hnone, List.filterMap_none]

/-- The entries of a reason are the texts of the findings. -/
theorem reasons_eq_map_findings : reasons p s = (findings p s).map Finding.text := by
  cases h : verdict p s with
  | ok =>
    have hclear := verdict_eq_ok_iff.1 h
    have hconflicts : conflicts p s = [] := conflicts_eq_nil_iff.2 fun f => (hclear f).1
    have hwarnings : warnings p s = [] := warnings_eq_nil_iff.2 fun f => (hclear f).2
    rw [findings_of_ok h, reasons, hconflicts, hwarnings]
    rfl
  | warning =>
    have hconflicts : conflicts p s = [] := conflicts_eq_nil_iff.2 (verdict_eq_warning_iff.1 h).1
    rw [findings_of_warning h, reasons, hconflicts, List.map_map]
    rfl
  | error =>
    have hconflicts : conflicts p s ≠ [] := fun hnil => by
      obtain ⟨f, hf⟩ := verdict_eq_error_iff.1 h
      exact conflicts_eq_nil_iff.1 hnil f hf
    rw [findings_of_error h, reasons, List.map_map]
    obtain ⟨c, rest, hcons⟩ := List.exists_cons_of_ne_nil hconflicts
    rw [hcons]
    rfl

theorem conflict?_ne_none_iff {f : Policy} : conflict? p s f ≠ none ↔ f.Violated p s := by
  have hite {b : Bool} {c : Conflict} : (if b then some c else none) ≠ none ↔ b := by cases b <;> simp
  cases f with
  | reliability => exact hite.trans graded_reliability.conflicts_iff
  | durability => exact hite.trans graded_durability.conflicts_iff
  | deadline => rw [conflict?, Ne, Option.map_eq_none_iff, shortfall?_eq_none_iff, not_not, Violated]
  | liveliness => exact hite.trans graded_liveliness.conflicts_iff
  | lease => rw [conflict?, Ne, Option.map_eq_none_iff, shortfall?_eq_none_iff, not_not, Violated]

theorem warning?_ne_none_iff {f : Policy} : warning? p s f ≠ none ↔ f.Doubtful p s := by
  cases f with
  | reliability => exact Option.map_eq_none_iff.not.trans graded_reliability.doubt?_ne_none_iff
  | durability => exact Option.map_eq_none_iff.not.trans graded_durability.doubt?_ne_none_iff
  | liveliness => exact Option.map_eq_none_iff.not.trans graded_liveliness.doubt?_ne_none_iff
  | deadline => exact iff_of_false (not_not.2 rfl) not_false
  | lease => exact iff_of_false (not_not.2 rfl) not_false

theorem finding?_ne_none_iff {f : Policy} : finding? p s f ≠ none ↔ f.Reported p s := by
  rw [finding?]
  cases hv : verdict p s with
  | ok => exact iff_of_false (not_not.2 rfl) (not_reported_of_ok hv)
  | warning =>
    rw [reported_iff_of_warning hv, Ne, Option.map_eq_none_iff, ← Ne, warning?_ne_none_iff]
  | error => rw [reported_iff_of_error hv, Ne, Option.map_eq_none_iff, ← Ne, conflict?_ne_none_iff]

/-- A finding is on the policy that it was made for. -/
theorem policy_of_finding? {f : Policy} {x : Finding} (h : finding? p s f = some x) : x.policy = f := by
  rw [finding?] at h
  cases hv : verdict p s with
  | ok => rw [hv] at h; contradiction
  | warning =>
    rw [hv] at h
    obtain ⟨w, hw, rfl⟩ := Option.map_eq_some_iff.1 h
    cases f with
    | deadline => contradiction
    | lease => contradiction
    | _ => obtain ⟨d, -, rfl⟩ := Option.map_eq_some_iff.1 hw; rfl
  | error =>
    rw [hv] at h
    obtain ⟨c, hc, rfl⟩ := Option.map_eq_some_iff.1 h
    cases f with
    | deadline => obtain ⟨cause, -, rfl⟩ := Option.map_eq_some_iff.1 hc; rfl
    | lease => obtain ⟨cause, -, rfl⟩ := Option.map_eq_some_iff.1 hc; rfl
    | _ => rw [conflict?] at hc; split_ifs at hc; cases hc; rfl

theorem verdict_of_finding? {f : Policy} {x : Finding} (h : finding? p s f = some x) :
    x.verdict = verdict p s := by
  rw [finding?] at h
  cases hv : verdict p s with
  | ok => rw [hv] at h; contradiction
  | warning =>
    rw [hv] at h
    obtain ⟨w, -, rfl⟩ := Option.map_eq_some_iff.1 h
    rfl
  | error =>
    rw [hv] at h
    obtain ⟨c, -, rfl⟩ := Option.map_eq_some_iff.1 h
    rfl

theorem map_filterMap_of_tag {ι α : Type} {g : ι → Option α} {tag : α → ι}
    (htag : ∀ i x, g i = some x → tag x = i) (l : List ι) :
    (l.filterMap g).map tag = l.filter (g · ≠ none) := by
  induction l with
  | nil => rfl
  | cons i l ih =>
    cases hi : g i with
    | none => simp [hi, ih]
    | some x => simp [hi, ih, htag i x hi]

/-- There is one finding on each policy that is reported. -/
theorem policies_findings :
    (findings p s).map Finding.policy = Policy.all.filter (·.Reported p s) := by
  rw [findings, map_filterMap_of_tag fun _ _ => policy_of_finding?]
  exact List.filter_congr fun f _ => decide_eq_decide.2 finding?_ne_none_iff

end Policies

section Pairs
variable {p s p' s' : Profile}

/-- The finding on a policy says the same of both pairs: which settings of the two sides cannot be
told, of which a conflict has none, and of a period whether it is missing. -/
def Policy.SameDetail (p s p' s' : Profile) : Policy → Prop
  | reliability =>
    unclear? Reliability.Unclear p.reliability = unclear? Reliability.Unclear p'.reliability ∧
      unclear? Reliability.Unclear s.reliability = unclear? Reliability.Unclear s'.reliability
  | durability =>
    unclear? Durability.Unclear p.durability = unclear? Durability.Unclear p'.durability ∧
      unclear? Durability.Unclear s.durability = unclear? Durability.Unclear s'.durability
  | deadline => p.deadline = .unset ↔ p'.deadline = .unset
  | liveliness =>
    unclear? Liveliness.Unclear p.liveliness = unclear? Liveliness.Unclear p'.liveliness ∧
      unclear? Liveliness.Unclear s.liveliness = unclear? Liveliness.Unclear s'.liveliness
  | lease => p.lease = .unset ↔ p'.lease = .unset

instance : DecidablePred (Policy.SameDetail p s p' s')
  | .reliability | .durability | .liveliness => inferInstanceAs (Decidable (_ ∧ _))
  | .deadline | .lease => inferInstanceAs (Decidable (_ ↔ _))

theorem conflict?_eq_iff {f : Policy} (h : f.Violated p s) (h' : f.Violated p' s') :
    conflict? p s f = conflict? p' s' f ↔ f.SameDetail p s p' s' := by
  have hgraded {Setting : Type} {level : Setting → Level} {Unclear : Setting → Prop} [DecidablePred Unclear]
      {strong weak x y x' y' : Setting} {c : Conflict} (hg : Graded level Unclear strong weak)
      (hc : x = weak ∧ y = strong) (hc' : x' = weak ∧ y' = strong) :
      (if (level x).conflicts (level y) then some c else none) =
          (if (level x').conflicts (level y') then some c else none) ↔
        unclear? Unclear x = unclear? Unclear x' ∧ unclear? Unclear y = unclear? Unclear y' := by
    obtain ⟨hx, hy⟩ := hg.unclear?_of_conflict hc
    obtain ⟨hx', hy'⟩ := hg.unclear?_of_conflict hc'
    rw [if_pos (hg.conflicts_iff.2 hc), if_pos (hg.conflicts_iff.2 hc'), hx, hy, hx', hy']
    exact iff_of_true rfl ⟨rfl, rfl⟩
  cases f with
  | reliability => exact hgraded graded_reliability h h'
  | durability => exact hgraded graded_durability h h'
  | deadline =>
    exact (Option.map_inj_right fun _ _ => Conflict.deadline.inj).trans (shortfall?_eq_iff h h')
  | liveliness => exact hgraded graded_liveliness h h'
  | lease =>
    exact (Option.map_inj_right fun _ _ => Conflict.lease.inj).trans (shortfall?_eq_iff h h')

theorem warning?_eq_iff {f : Policy} (h : f.Doubtful p s) (h' : f.Doubtful p' s') :
    warning? p s f = warning? p' s' f ↔ f.SameDetail p s p' s' := by
  cases f with
  | reliability =>
    exact (Option.map_inj_right fun _ _ => Warning.reliability.inj).trans (graded_reliability.doubt?_eq_iff h h')
  | durability =>
    exact (Option.map_inj_right fun _ _ => Warning.durability.inj).trans (graded_durability.doubt?_eq_iff h h')
  | liveliness =>
    exact (Option.map_inj_right fun _ _ => Warning.liveliness.inj).trans (graded_liveliness.doubt?_eq_iff h h')
  | deadline => exact h.elim
  | lease => exact h.elim

/-- Under one verdict the findings on a policy agree if it is reported for both pairs with the same
detail, or for none. -/
theorem finding?_eq_iff (hv : verdict p s = verdict p' s') (f : Policy) :
    finding? p s f = finding? p' s' f ↔
      (f.Reported p s ↔ f.Reported p' s') ∧ (f.Reported p s → f.SameDetail p s p' s') := by
  by_cases h : f.Reported p s
  · by_cases h' : f.Reported p' s'
    · have hdetail : finding? p s f = finding? p' s' f ↔ f.SameDetail p s p' s' := by
        rw [finding?, finding?, ← hv]
        cases hverdict : verdict p s with
        | ok => exact absurd h (not_reported_of_ok hverdict)
        | warning =>
          rw [reported_iff_of_warning hverdict] at h
          rw [reported_iff_of_warning (hv ▸ hverdict)] at h'
          exact (Option.map_inj_right fun _ _ => Finding.warning.inj).trans (warning?_eq_iff h h')
        | error =>
          rw [reported_iff_of_error hverdict] at h
          rw [reported_iff_of_error (hv ▸ hverdict)] at h'
          exact (Option.map_inj_right fun _ _ => Finding.conflict.inj).trans (conflict?_eq_iff h h')
      simp only [hdetail, h, h', true_and, forall_const]
    · have hne : finding? p s f ≠ finding? p' s' f := fun heq =>
        h' (finding?_ne_none_iff.1 (heq ▸ finding?_ne_none_iff.2 h))
      exact iff_of_false hne fun hsame => h' (hsame.1.1 h)
  · have hnone : finding? p s f = none := not_not.1 fun hne => h (finding?_ne_none_iff.1 hne)
    rw [hnone, eq_comm, ← not_iff_not, ← Ne, finding?_ne_none_iff]
    simp only [h, false_iff, false_imp_iff, and_true, not_not]

theorem eq_of_filterMap_eq {ι α : Type} {g g' : ι → Option α} {tag : α → ι}
    (htag : ∀ i x, g i = some x → tag x = i) (htag' : ∀ i x, g' i = some x → tag x = i) {l : List ι}
    (h : l.filterMap g = l.filterMap g') {i : ι} (hi : i ∈ l) : g i = g' i := by
  have hsub {g g' : ι → Option α} (htag : ∀ i x, g i = some x → tag x = i)
      (htag' : ∀ i x, g' i = some x → tag x = i) (h : l.filterMap g = l.filterMap g') (x : α)
      (hx : g i = some x) : g' i = some x := by
    have hmem : x ∈ l.filterMap g' := h ▸ List.mem_filterMap.2 ⟨i, hi, hx⟩
    obtain ⟨j, -, hj⟩ := List.mem_filterMap.1 hmem
    have hji : j = i := (htag' j x hj).symm.trans (htag i x hx)
    rwa [hji] at hj
  exact Option.ext fun x => ⟨hsub htag htag' h x, hsub htag' htag h.symm x⟩

/-- Findings are the same if they are on every policy, since each says which one it is on. -/
theorem findings_eq_iff : findings p s = findings p' s' ↔ ∀ f, finding? p s f = finding? p' s' f := by
  constructor
  · exact fun h f => eq_of_filterMap_eq (fun _ _ => policy_of_finding?) (fun _ _ => policy_of_finding?)
      h f.mem_all
  · exact fun h => List.filterMap_congr fun f _ => h f

/-- A check that is not well has a finding to show. -/
theorem exists_finding (h : verdict p s ≠ .ok) : ∃ f x, finding? p s f = some x := by
  have hreported : ∃ f : Policy, f.Reported p s := by
    cases hv : verdict p s with
    | ok => exact absurd hv h
    | warning =>
      obtain ⟨-, f, hf⟩ := verdict_eq_warning_iff.1 hv
      exact ⟨f, (reported_iff_of_warning hv).2 hf⟩
    | error =>
      obtain ⟨f, hf⟩ := verdict_eq_error_iff.1 hv
      exact ⟨f, .inl hf⟩
  obtain ⟨f, hf⟩ := hreported
  exact ⟨f, Option.ne_none_iff_exists'.1 (finding?_ne_none_iff.2 hf)⟩

/-- Pairs with the same findings have the same verdict. -/
theorem verdict_eq_of_findings (h : ∀ f, finding? p s f = finding? p' s' f) :
    verdict p s = verdict p' s' := by
  by_cases hv : verdict p s = .ok
  · by_contra hne
    rw [hv] at hne
    obtain ⟨f, x, hx⟩ := exists_finding (Ne.symm hne)
    rw [← h f, finding?, hv] at hx
    contradiction
  · obtain ⟨f, x, hx⟩ := exists_finding hv
    rw [← verdict_of_finding? hx, ← verdict_of_finding? ((h f).symm.trans hx)]

end Pairs

end RosGraph.Qos
