import RosGraph.Proofs.Qos.Negotiation
import RosGraph.Proofs.WireDuration

/-! Profiles as the wire carries them. Two periods are compared by their seconds first, and
the wire moves whole seconds from one word to the other, so that a pair of profiles may fit
and no longer fit on the wire. It is the publisher's nanoseconds that matter: if they are
below one second, a pair that fits stays one. -/

namespace RosGraph.Qos

open Period Policy

/-- The profile with its requested and offered periods as on the wire. -/
def Profile.onWire (p : Profile) : Profile :=
  { p with deadline := p.deadline.clampToWire, lease := p.lease.clampToWire }

/-- A period is requested, and the offered one is longer, as far as the wire can tell. -/
def Outlasts (offered requested : Period) : Prop :=
  requested ≠ .unset ∧ min requested.length wireLongest < min offered.length wireLongest

instance (offered requested : Period) : Decidable (Outlasts offered requested) :=
  inferInstanceAs (Decidable (_ ∧ _))

variable {offered requested : Period} {publisher subscription : Profile}

theorem missed_clampToWire_iff : Missed offered.clampToWire requested.clampToWire ↔
    requested ≠ .unset ∧ offered = .unset ∨ Outlasts offered requested := by
  have hlt : requested.clampToWire < offered.clampToWire ↔
      min requested.length wireLongest < min offered.length wireLongest := by
    rw [lt_iff_length (normal_clampToWire _) (normal_clampToWire _), length_clampToWire,
      length_clampToWire]
  rw [Missed, Outlasts, hlt, Ne, clampToWire_eq_unset_iff, clampToWire_eq_unset_iff, and_or_left]

/-- What was served is missed on the wire exactly if the offered period is the longer one. -/
theorem missed_clampToWire_iff_outlasts (h : ¬ Missed offered requested) :
    Missed offered.clampToWire requested.clampToWire ↔ Outlasts offered requested := by
  rw [missed_clampToWire_iff, or_iff_right]
  rintro ⟨hrequested, hoffered⟩
  exact h ⟨hrequested, .inl hoffered⟩

/-- An offered period with nanoseconds below one second is not longer than one that it serves. -/
theorem not_outlasts_of_normal (hnormal : offered.Normal) (h : ¬ Missed offered requested) :
    ¬ Outlasts offered requested := by
  rintro ⟨hrequested, hlonger⟩
  have hle : offered ≤ requested := not_lt.1 fun hlt => h ⟨hrequested, .inr hlt⟩
  have hlength : offered.length ≤ requested.length := length_le_of_le hnormal hle
  omega

/-- The settings that are no periods are carried as they are. -/
theorem violated_onWire_iff (f : Policy) : f.Violated publisher.onWire subscription.onWire ↔
    match f with
    | .deadline => Missed publisher.deadline.clampToWire subscription.deadline.clampToWire
    | .lease => Missed publisher.lease.clampToWire subscription.lease.clampToWire
    | f => f.Violated publisher subscription := by
  cases f <;> rfl

/-- A pair that is not in error comes into error on the wire exactly if the publisher's deadline
or lease is longer than the requested one. That cannot be if the nanoseconds of both of the
publisher's periods are below one second, whatever the subscription's are. -/
theorem onWire_error_iff (h : verdict publisher subscription ≠ .error) :
    (verdict publisher.onWire subscription.onWire = .error ↔
      Outlasts publisher.deadline subscription.deadline ∨
        Outlasts publisher.lease subscription.lease) ∧
    (publisher.deadline.Normal → publisher.lease.Normal →
      verdict publisher.onWire subscription.onWire ≠ .error) := by
  have hnot (f : Policy) : ¬ f.Violated publisher subscription := fun hf =>
    h (verdict_eq_error_iff.2 ⟨f, hf⟩)
  have hiff : verdict publisher.onWire subscription.onWire = .error ↔
      Outlasts publisher.deadline subscription.deadline ∨
        Outlasts publisher.lease subscription.lease := by
    rw [verdict_eq_error_iff, ← missed_clampToWire_iff_outlasts (hnot .deadline),
      ← missed_clampToWire_iff_outlasts (hnot .lease)]
    constructor
    · rintro ⟨f, hf⟩
      rw [violated_onWire_iff] at hf
      cases f with
      | deadline => exact .inl hf
      | lease => exact .inr hf
      | reliability | durability | liveliness => exact absurd hf (hnot _)
    · rintro (hmissed | hmissed)
      · exact ⟨.deadline, hmissed⟩
      · exact ⟨.lease, hmissed⟩
  refine ⟨hiff, fun hdeadline hlease => ?_⟩
  rw [Ne, hiff, not_or]
  exact ⟨not_outlasts_of_normal hdeadline (hnot .deadline),
    not_outlasts_of_normal hlease (hnot .lease)⟩

/-- A publisher with a normal deadline and a subscription whose one second is in the wrong
word. -/
theorem onWire_error_iff_normal :
    let publisher : Profile := { deadline := ⟨0, 999999999⟩ }
    let subscription : Profile := { deadline := ⟨0, 1000000000⟩ }
    verdict publisher subscription ≠ .error ∧ publisher.deadline.Normal ∧ publisher.lease.Normal ∧
      subscription.onWire.deadline = ⟨1, 0⟩ ∧
      verdict publisher.onWire subscription.onWire ≠ .error := by
  intro publisher subscription
  have hfits : verdict publisher subscription ≠ .error := by decide
  have hdeadline : publisher.deadline.Normal := by decide
  have hlease : publisher.lease.Normal := by decide
  exact ⟨hfits, hdeadline, hlease, by decide, (onWire_error_iff hfits).2 hdeadline hlease⟩

/-- Five seconds in the nanosecond word come before one second, but are carried as five. -/
theorem onWire_loses_subscription :
    let publisher : Profile := { deadline := ⟨0, 5000000000⟩ }
    let subscription : Profile := { deadline := ⟨1, 0⟩ }
    verdict publisher subscription ≠ .error ∧
      verdict publisher.onWire subscription.onWire = .error := by
  decide

end RosGraph.Qos
