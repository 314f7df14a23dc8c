import RosGraph.Proofs.PeriodOrder
import RosGraph.Qos.Compatibility
import RosGraph.Qos.Resolution
import Mathlib.Tactic.SplitIfs

/-! The five policies that are negotiated, each with its rule on what is offered and
requested, and with the settings that leave the rule in doubt, all by name. A pair is in
error exactly if one of the rules is violated, and free of warnings as well if no rule is in
doubt. Resolution replaces a policy only where it is left to the peers, so that the rules for
a resolved profile come apart into those for the choice and those for the caller's own
settings. -/

namespace RosGraph.Qos

/-- The policies that are negotiated. -/
inductive Policy
  | reliability
  | durability
  | deadline
  | liveliness
  | lease
deriving DecidableEq

/-- A period is requested, and the offered one is not set or is longer. -/
def Missed (offered requested : Period) : Prop :=
  requested ≠ .unset ∧ (offered = .unset ∨ requested < offered)

theorem shortfall?_eq_none_iff {offered requested : Period} :
    shortfall? offered requested = none ↔ ¬ Missed offered requested := by
  rw [shortfall?, Missed]
  by_cases hr : requested = .unset
  · simp [hr]
  · by_cases ho : offered = .unset
    · simp [hr, ho]
    · by_cases hlt : requested < offered <;> simp [hr, ho, hlt]

/-- The setting does not tell what is offered or requested. -/
def Reliability.Unclear (x : Reliability) : Prop := x = .systemDefault ∨ x = .unknown

def Durability.Unclear (x : Durability) : Prop := x = .systemDefault ∨ x = .unknown

def Liveliness.Unclear (x : Liveliness) : Prop := x = .systemDefault ∨ x = .unknown

instance : DecidablePred Reliability.Unclear := fun _ => inferInstanceAs (Decidable (_ ∨ _))

instance : DecidablePred Durability.Unclear := fun _ => inferInstanceAs (Decidable (_ ∨ _))

instance : DecidablePred Liveliness.Unclear := fun _ => inferInstanceAs (Decidable (_ ∨ _))

/-- Some side cannot be told, and the weak setting could be offered where the strong one is
requested. -/
def InDoubt {Setting : Type} (Unclear : Setting → Prop) (strong weak offered requested : Setting) : Prop :=
  Unclear offered ∧ (Unclear requested ∨ requested = strong) ∨ offered = weak ∧ Unclear requested

/-- Nothing is in doubt between two settings that can be told. -/
theorem not_inDoubt {Setting : Type} {Unclear : Setting → Prop} {strong weak p s : Setting} (hp : ¬ Unclear p)
    (hs : ¬ Unclear s) : ¬ InDoubt Unclear strong weak p s := by
  rintro (⟨hpu, -⟩ | ⟨-, hsu⟩)
  · exact hp hpu
  · exact hs hsu

/-- The levels of a policy by the names of its settings. -/
structure Graded {Setting : Type} (level : Setting → Level) (Unclear : Setting → Prop)
    (strong weak : Setting) : Prop where
  strong_iff (x : Setting) : level x = .strong ↔ x = strong
  weak_iff (x : Setting) : level x = .weak ↔ x = weak
  undetermined_iff (x : Setting) : level x = .undetermined ↔ Unclear x

theorem graded_reliability : Graded Reliability.level Reliability.Unclear .reliable .bestEffort :=
  ⟨fun x => by cases x <;> decide, fun x => by cases x <;> decide, fun x => by cases x <;> decide⟩

theorem graded_durability : Graded Durability.level Durability.Unclear .transientLocal .volatile :=
  ⟨fun x => by cases x <;> decide, fun x => by cases x <;> decide, fun x => by cases x <;> decide⟩

theorem graded_liveliness : Graded Liveliness.level Liveliness.Unclear .manualByTopic .automatic :=
  ⟨fun x => by cases x <;> decide, fun x => by cases x <;> decide, fun x => by cases x <;> decide⟩

namespace Graded

variable {Setting : Type} {level : Setting → Level} {Unclear : Setting → Prop} {strong weak p s : Setting}
variable (hg : Graded level Unclear strong weak)
include hg

theorem conflicts_iff : (level p).conflicts (level s) ↔ p = weak ∧ s = strong := by
  rw [← hg.weak_iff p, ← hg.strong_iff s]
  simp [Level.conflicts]

/-- What is found to be doubtful is in doubt. -/
theorem doubt?_ne_none_iff : doubt? level p s ≠ none ↔ InDoubt Unclear strong weak p s := by
  rw [InDoubt, ← hg.undetermined_iff p, ← hg.undetermined_iff s, ← hg.strong_iff s, ← hg.weak_iff p, doubt?]
  cases level p <;> cases level s <;> simp

theorem doubt?_eq_none_iff : doubt? level p s = none ↔ ¬ InDoubt Unclear strong weak p s := by
  rw [← hg.doubt?_ne_none_iff, Ne, not_not]

theorem strong_ne_weak : strong ≠ weak := fun heq => by
  have hstrong : level strong = .strong := (hg.strong_iff strong).2 rfl
  rw [(hg.weak_iff strong).2 heq] at hstrong
  contradiction

theorem not_unclear_strong : ¬ Unclear strong := by
  rw [← hg.undetermined_iff, (hg.strong_iff strong).2 rfl]
  decide

theorem not_unclear_weak : ¬ Unclear weak := by
  rw [← hg.undetermined_iff, (hg.weak_iff weak).2 rfl]
  decide

/-- What is chosen between the strong and the weak setting can be told. -/
theorem not_unclear_ite (c : Prop) [Decidable c] : ¬ Unclear (if c then strong else weak) := by
  split_ifs
  · exact hg.not_unclear_strong
  · exact hg.not_unclear_weak

end Graded

namespace Policy

/-- The policy is left to the peers. -/
def LeftOpen (p : Profile) : Policy → Prop
  | reliability => p.reliability = .bestAvailable
  | durability => p.durability = .bestAvailable
  | deadline => p.deadline = .bestAvailable
  | liveliness => p.liveliness = .bestAvailable
  | lease => p.lease = .bestAvailable

/-- The publisher does not offer what the subscription requests. -/
def Violated (publisher subscription : Profile) : Policy → Prop
  | reliability => publisher.reliability = .bestEffort ∧ subscription.reliability = .reliable
  | durability => publisher.durability = .volatile ∧ subscription.durability = .transientLocal
  | deadline => Missed publisher.deadline subscription.deadline
  | liveliness => publisher.liveliness = .automatic ∧ subscription.liveliness = .manualByTopic
  | lease => Missed publisher.lease subscription.lease

/-- The outcome hangs on a setting that cannot be told. A period can always be told. -/
def Doubtful (publisher subscription : Profile) : Policy → Prop
  | reliability =>
    InDoubt Reliability.Unclear .reliable .bestEffort publisher.reliability subscription.reliability
  | durability =>
    InDoubt Durability.Unclear .transientLocal .volatile publisher.durability subscription.durability
  | deadline => False
  | liveliness =>
    InDoubt Liveliness.Unclear .manualByTopic .automatic publisher.liveliness subscription.liveliness
  | lease => False

theorem forall_iff {P : Policy → Prop} : (∀ f, P f) ↔
    P .reliability ∧ P .durability ∧ P .deadline ∧ P .liveliness ∧ P .lease :=
  ⟨fun h => ⟨h _, h _, h _, h _, h _⟩, fun h f => by cases f <;> simp [h]⟩

end Policy

open Policy

section Conflicts
variable {publisher subscription : Profile}

theorem map_toList_eq_nil_iff {α β : Type} {o : Option α} {f : α → β} :
    o.toList.map f = [] ↔ o = none := by
  cases o <;> simp

/-- A policy is reported as a conflict exactly if its rule is violated. -/
theorem conflicts_eq_nil_iff :
    conflicts publisher subscription = [] ↔ ∀ f : Policy, ¬ f.Violated publisher subscription := by
  have hif {c : Conflict} {b : Bool} : (if b then [c] else []) = [] ↔ ¬ b := by cases b <;> simp
  rw [Policy.forall_iff]
  rw [conflicts, List.append_eq_nil_iff, List.append_eq_nil_iff, List.append_eq_nil_iff,
    List.append_eq_nil_iff, hif, hif, hif, map_toList_eq_nil_iff, map_toList_eq_nil_iff]
  simp only [graded_reliability.conflicts_iff, graded_durability.conflicts_iff,
    graded_liveliness.conflicts_iff, shortfall?_eq_none_iff, Violated, and_assoc]

theorem verdict_eq_error_iff :
    verdict publisher subscription = .error ↔ ∃ f : Policy, f.Violated publisher subscription := by
  rw [verdict]
  split_ifs with hconflicts hwarnings
  · simpa [conflicts_eq_nil_iff] using hconflicts
  · simpa [conflicts_eq_nil_iff] using hconflicts
  · simpa [conflicts_eq_nil_iff] using hconflicts

theorem warnings_eq_nil_iff :
    warnings publisher subscription = [] ↔ ∀ f : Policy, ¬ f.Doubtful publisher subscription := by
  rw [Policy.forall_iff, warnings, List.append_eq_nil_iff, List.append_eq_nil_iff,
    map_toList_eq_nil_iff, map_toList_eq_nil_iff, map_toList_eq_nil_iff]
  simp only [Doubtful, graded_reliability.doubt?_eq_none_iff, graded_durability.doubt?_eq_none_iff,
    graded_liveliness.doubt?_eq_none_iff, not_false_eq_true, true_and, and_true, and_assoc]

theorem verdict_eq_ok_iff : verdict publisher subscription = .ok ↔
    ∀ f : Policy, ¬ f.Violated publisher subscription ∧ ¬ f.Doubtful publisher subscription := by
  rw [verdict, forall_and, ← conflicts_eq_nil_iff, ← warnings_eq_nil_iff]
  split_ifs with hconflicts hwarnings
  · simp [hconflicts]
  · simp [hwarnings]
  · simp [not_not.1 hconflicts, not_not.1 hwarnings]

theorem verdict_eq_warning_iff : verdict publisher subscription = .warning ↔
    (∀ f : Policy, ¬ f.Violated publisher subscription) ∧
      ∃ f : Policy, f.Doubtful publisher subscription := by
  have hdoubtful : (∃ f : Policy, f.Doubtful publisher subscription) ↔
      warnings publisher subscription ≠ [] := by
    rw [Ne, warnings_eq_nil_iff, not_forall_not]
  rw [verdict, ← conflicts_eq_nil_iff, hdoubtful]
  split_ifs with hconflicts hwarnings
  · simp [hconflicts]
  · simp [not_not.1 hconflicts, hwarnings]
  · simp [hwarnings]

/-- There is nothing to say of a pair that goes well. -/
theorem reason_of_ok (h : verdict publisher subscription = .ok) :
    reason publisher subscription = "" := by
  rw [verdict_eq_ok_iff, forall_and, ← conflicts_eq_nil_iff, ← warnings_eq_nil_iff] at h
  rw [reason, reasons, h.1, h.2]
  rfl

end Conflicts

section Resolved
variable (f : Policy) (choice p peer : Profile)

/-- A resolved publisher breaks a rule through the choice, or by itself where it chose. -/
theorem violated_resolveWith_left : f.Violated (.resolveWith choice p) peer ↔
    f.LeftOpen p ∧ f.Violated choice peer ∨ ¬ f.LeftOpen p ∧ f.Violated p peer := by
  cases f <;> simp only [Violated, LeftOpen, Profile.resolveWith] <;> split_ifs with h <;> simp [h]

theorem violated_resolveWith_right : f.Violated peer (.resolveWith choice p) ↔
    f.LeftOpen p ∧ f.Violated peer choice ∨ ¬ f.LeftOpen p ∧ f.Violated peer p := by
  cases f <;> simp only [Violated, LeftOpen, Profile.resolveWith] <;> split_ifs with h <;> simp [h]

theorem leftOpen_bestAvailable : f.LeftOpen .bestAvailable := by cases f <;> rfl

/-- A profile that leaves everything open is as good as the choice. -/
theorem violated_resolveWith_bestAvailable_left :
    f.Violated (.resolveWith choice .bestAvailable) peer ↔ f.Violated choice peer := by
  simp [violated_resolveWith_left, leftOpen_bestAvailable]

theorem violated_resolveWith_bestAvailable_right :
    f.Violated peer (.resolveWith choice .bestAvailable) ↔ f.Violated peer choice := by
  simp [violated_resolveWith_right, leftOpen_bestAvailable]

end Resolved

end RosGraph.Qos
