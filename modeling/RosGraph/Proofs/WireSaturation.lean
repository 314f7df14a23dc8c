import RosGraph.Proofs.WireDuration

/-! What the wire carries for a period is the nearest one that it has room for: a period as
long, or the longest. Hence a carried period is carried as it is, a longer period is never
carried as a shorter one, and the unset period stands for itself alone. Words wrap, but the
clamp does not rely on it: its steps with every result refused that does not fit a word come to
the same. -/

namespace RosGraph

namespace Word

/-- The word for a number; none if the number does not fit one. -/
def ofInt? (n : ℤ) : Option UInt64 :=
  if 0 ≤ n ∧ n < UInt64.size then some (UInt64.ofNat n.toNat) else none

def add? (a b : UInt64) : Option UInt64 := ofInt? (a.toNat + b.toNat)

def sub? (a b : UInt64) : Option UInt64 := ofInt? (a.toNat - b.toNat)

def mul? (a b : UInt64) : Option UInt64 := ofInt? (a.toNat * b.toNat)

theorem ofInt?_eq_some_iff {n : ℤ} {w : UInt64} : ofInt? n = some w ↔ w.toNat = n := by
  have hword := w.toNat_lt_size
  rw [ofInt?, Option.ite_none_right_eq_some, Option.some.injEq, ← UInt64.toNat_inj]
  constructor
  · rintro ⟨⟨hnonneg, hlt⟩, heq⟩
    rw [UInt64.toNat_ofNat_of_lt' (by omega)] at heq
    omega
  · intro heq
    refine ⟨by omega, ?_⟩
    rw [UInt64.toNat_ofNat_of_lt' (by omega)]
    omega

theorem sub?_of_le {a b : UInt64} (h : b ≤ a) : sub? a b = some (a - b) := by
  have hle := UInt64.le_iff_toNat_le.1 h
  rw [sub?, ofInt?_eq_some_iff, UInt64.toNat_sub_of_le _ _ h]
  omega

end Word

namespace Period

open Word

variable {p q : Period}

section Checked

def headroom? (p : Period) : Option UInt64 := sub? wireMaxSec p.carry

def exceedsWire? (p : Period) : Option Bool := do
  let room ← p.headroom?
  return wireMaxSec < p.nsec / nanosPerSecond || room < p.sec

def clampedSec? (p : Period) : Option UInt64 := do
  let room ← p.headroom?
  if room < p.sec then return wireMaxSec else add? p.sec p.carry

def clampedNsec? (p : Period) : Option UInt64 := do
  let exceeds ← p.exceedsWire?
  if exceeds then sub? nanosPerSecond 1
  else
    let moved ← mul? p.carry nanosPerSecond
    sub? p.nsec moved

/-- The clamp, unless the result of an operation on words does not fit one. -/
def clampToWire? (p : Period) : Option Period := do
  let sec ← p.clampedSec?
  let nsec ← p.clampedNsec?
  return ⟨sec, nsec⟩

theorem headroom?_eq (p : Period) : p.headroom? = some p.headroom := sub?_of_le (carry_le p)

theorem exceedsWire?_eq (p : Period) : p.exceedsWire? = some p.exceedsWire := by
  rw [exceedsWire?, headroom?_eq]
  rfl

/-- The carry is added only where there is room for the seconds. -/
theorem clampedSec?_eq (p : Period) : p.clampedSec? = some p.clampedSec := by
  rw [clampedSec?, headroom?_eq, Option.bind_eq_bind, Option.bind_some, clampedSec]
  split_ifs with hexceeds
  · rfl
  · have hcarry := toNat_carry p
    rw [UInt64.lt_iff_toNat_lt, toNat_headroom] at hexceeds
    rw [add?, ofInt?_eq_some_iff, UInt64.toNat_add]
    omega

theorem mul?_carry (p : Period) :
    mul? p.carry nanosPerSecond = some (p.carry * nanosPerSecond) := by
  rw [mul?, ofInt?_eq_some_iff, toNat_carry_mul, toNat_nanosPerSecond]
  norm_cast

theorem clampToWire?_eq (p : Period) : p.clampToWire? = some p.clampToWire := by
  rw [clampToWire?, clampedSec?_eq, clampedNsec?, exceedsWire?_eq, Option.bind_eq_bind,
    Option.bind_some, Option.bind_eq_bind, Option.bind_some, clampToWire]
  split_ifs with hexceeds
  · rfl
  · rw [mul?_carry, Option.bind_eq_bind, Option.bind_some, sub?_of_le (carry_mul_le p)]
    rfl

end Checked

/-- What the wire has room for. -/
def FitsWire (p : Period) : Prop := p.nsec.toNat < 10 ^ 9 ∧ p.sec.toNat ≤ 2 ^ 31 - 1

instance (p : Period) : Decidable p.FitsWire := inferInstanceAs (Decidable (_ ∧ _))

theorem fitsWire_iff_length : p.FitsWire ↔ p.Normal ∧ p.length ≤ wireLongest := by
  rw [FitsWire, normal_iff_toNat, length, wireLongest]
  omega

theorem fitsWire_clampToWire (p : Period) : p.clampToWire.FitsWire := by
  rw [fitsWire_iff_length, length_clampToWire]
  exact ⟨normal_clampToWire p, min_le_right _ _⟩

theorem clampToWire_eq_self_iff : p.clampToWire = p ↔ p.FitsWire := by
  constructor
  · intro h
    rw [← h]
    exact fitsWire_clampToWire p
  · intro h
    obtain ⟨hnormal, hlength⟩ := fitsWire_iff_length.1 h
    refine eq_of_length (normal_clampToWire p) hnormal ?_
    rw [length_clampToWire, min_eq_left hlength]

theorem clampToWire_le (h : p.length ≤ q.length) : p.clampToWire ≤ q.clampToWire := by
  rw [← not_lt, lt_iff_length (normal_clampToWire q) (normal_clampToWire p), length_clampToWire,
    length_clampToWire, not_lt]
  exact min_le_min_right _ h

/-- No operation on words has a result that does not fit one, and what comes out fits the wire
and is as long as the period, or as long as can be. So what is carried is carried as it is,
nothing else is, and the order of what is carried is that of the lengths of the periods, whatever
their own order. The unset period comes from the unset one only. -/
theorem clampToWire_saturates (p : Period) :
    p.clampToWire? = some p.clampToWire ∧
    p.clampToWire.FitsWire ∧
    p.clampToWire.length = min p.length wireLongest ∧
    p.clampToWire.clampToWire = p.clampToWire ∧
    (∀ q : Period, p.length ≤ q.length → p.clampToWire ≤ q.clampToWire) ∧
    (p.clampToWire = p ↔ p.FitsWire) ∧
    (p.clampToWire = unset ↔ p = unset) :=
  ⟨clampToWire?_eq p, fitsWire_clampToWire p, length_clampToWire p,
    clampToWire_eq_self_iff.2 (fitsWire_clampToWire p), fun _ => clampToWire_le,
    clampToWire_eq_self_iff, clampToWire_eq_unset_iff⟩

/-- The last second of the wire, one part of it in the wrong word, and a longer period that comes
first, since all of it is in the wrong word. -/
theorem clampToWire_saturates_late :
    let p : Period := ⟨1, 2147483646000000000⟩
    let q : Period := ⟨0, 2147483648000000000⟩
    q < p ∧ p.length ≤ q.length ∧ p.clampToWire = ⟨2147483647, 0⟩ ∧
      q.clampToWire = ⟨2147483647, 999999999⟩ ∧ p.clampToWire ≤ q.clampToWire := by
  intro p q
  have hlength : p.length ≤ q.length := by decide
  obtain ⟨-, -, -, -, hmono, -⟩ := clampToWire_saturates p
  exact ⟨by decide, hlength, by decide, by decide, hmono q hlength⟩

end Period

end RosGraph
