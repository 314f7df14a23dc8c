import RosGraph.Proofs.WireDuration

/-! Periods and spans of time. A span has one form for each length, up to the longest span, so
that it comes back from the period that it is turned into. A period comes back from its span with
its whole seconds moved out of the nanosecond word, and is as long as before unless it was longer
than all spans. The wire carries the same for it. -/

namespace RosGraph

namespace Span

/-- In nanoseconds. -/
def length (s : Span) : ℕ := s.secs.toNat * 10 ^ 9 + s.nanos.toNat

/-- The length of the longest span. -/
def longestLength : ℕ := (2 ^ 64 - 1) * 10 ^ 9 + 999999999

theorem nanos_toNat_lt (s : Span) : s.nanos.toNat < 10 ^ 9 := UInt64.lt_iff_toNat_lt.1 s.nanos_lt

theorem length_le (s : Span) : s.length ≤ longestLength := by
  have hsecs := s.secs.toNat_lt
  have hnanos := s.nanos_toNat_lt
  unfold length longestLength
  omega

theorem length_ofSecs (secs : UInt64) : (ofSecs secs).length = secs.toNat * 10 ^ 9 := by
  rw [length, ofSecs, UInt64.toNat_zero, Nat.add_zero]

theorem length_ofNanos (nanos : UInt64) : (ofNanos nanos).length = nanos.toNat := by
  rw [length, ofNanos, UInt64.toNat_div, UInt64.toNat_mod, toNat_nanosPerSecond]
  omega

/-- Both fractions fit one word. -/
theorem toNat_nanos_add (a b : Span) : (a.nanos + b.nanos).toNat = a.nanos.toNat + b.nanos.toNat := by
  have ha := a.nanos_toNat_lt
  have hb := b.nanos_toNat_lt
  rw [UInt64.toNat_add]
  omega

theorem length_add (a b : Span) : (a.add b).length = min (a.length + b.length) longestLength := by
  have hsize : UInt64.size = 2 ^ 64 := rfl
  have hcarry : ((a.nanos + b.nanos) / nanosPerSecond).toNat =
      (a.nanos.toNat + b.nanos.toNat) / 10 ^ 9 := by
    rw [UInt64.toNat_div, toNat_nanos_add, toNat_nanosPerSecond]
  have hfraction : ((a.nanos + b.nanos) % nanosPerSecond).toNat =
      (a.nanos.toNat + b.nanos.toNat) % 10 ^ 9 := by
    rw [UInt64.toNat_mod, toNat_nanos_add, toNat_nanosPerSecond]
  simp only [add, hcarry]
  split_ifs with hfits
  · unfold length
    rw [hfraction, UInt64.toNat_ofNat_of_lt' hfits]
    unfold longestLength
    omega
  · -- The seconds do not fit a word, whatever the fractions are.
    have hlongest : longest.length = longestLength := by decide
    have hlonger : longestLength ≤ a.length + b.length := by
      rw [hsize] at hfits
      unfold length longestLength
      omega
    rw [hlongest, min_eq_right hlonger]

end Span

namespace Period

variable {p : Period}

theorem length_ofSpan (s : Span) : (ofSpan s).length = s.length := rfl

theorem normal_ofSpan (s : Span) : (ofSpan s).Normal := s.nanos_lt

theorem ofSpan_injective : Function.Injective ofSpan := by
  intro s t h
  cases s
  cases t
  simpa [ofSpan] using h

theorem length_toSpan (p : Period) : p.toSpan.length = min p.length Span.longestLength := by
  rw [toSpan, Span.length_add, Span.length_ofSecs, Span.length_ofNanos, length]

/-- A normal period is the period of a span. -/
theorem length_le_of_normal (h : p.Normal) : p.length ≤ Span.longestLength :=
  Span.length_le ⟨p.sec, p.nsec, h⟩

theorem length_ofSpan_toSpan (p : Period) :
    (ofSpan p.toSpan).length = min p.length Span.longestLength := by
  rw [length_ofSpan, length_toSpan]

theorem ofSpan_toSpan_eq_self_iff : ofSpan p.toSpan = p ↔ p.Normal := by
  constructor
  · intro h
    rw [← h]
    exact normal_ofSpan _
  · intro h
    refine eq_of_length (normal_ofSpan _) h ?_
    rw [length_ofSpan_toSpan, min_eq_left (length_le_of_normal h)]

theorem toSpan_ofSpan (s : Span) : (ofSpan s).toSpan = s :=
  ofSpan_injective (ofSpan_toSpan_eq_self_iff.2 (normal_ofSpan s))

/-- A period that has no span of its length is too long for the wire, too. -/
theorem clampToWire_ofSpan_toSpan (p : Period) :
    (ofSpan p.toSpan).clampToWire = p.clampToWire := by
  have hlonger : wireLongest ≤ Span.longestLength := by decide
  refine eq_of_length (normal_clampToWire _) (normal_clampToWire _) ?_
  rw [length_clampToWire, length_clampToWire, length_ofSpan_toSpan, min_assoc,
    min_eq_right hlonger]

/-- The period of the span of a period is as long as the period, or as the longest span. It is
normal, and it is the period itself exactly if that is normal, so that it comes back from its own
span. On the wire both are the same. A span comes back from its period. -/
theorem ofSpan_toSpan_keeps_length (p : Period) (s : Span) :
    (ofSpan p.toSpan).length = min p.length Span.longestLength ∧
    (ofSpan p.toSpan).Normal ∧
    (ofSpan p.toSpan = p ↔ p.Normal) ∧
    ofSpan (ofSpan p.toSpan).toSpan = ofSpan p.toSpan ∧
    (ofSpan p.toSpan).clampToWire = p.clampToWire ∧
    (ofSpan s).toSpan = s :=
  ⟨length_ofSpan_toSpan p, normal_ofSpan _, ofSpan_toSpan_eq_self_iff,
    ofSpan_toSpan_eq_self_iff.2 (normal_ofSpan _), clampToWire_ofSpan_toSpan p, toSpan_ofSpan s⟩

/-- Two nanoseconds more than the longest span has. -/
example : ofSpan (toSpan ⟨18446744073709551615, 1000000001⟩) = ⟨18446744073709551615, 999999999⟩ := by
  decide

end Period

end RosGraph
