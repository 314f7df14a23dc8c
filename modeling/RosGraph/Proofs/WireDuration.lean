import RosGraph.Proofs.PeriodOrder

/-! The length of a period and the duration that the wire carries for it. Whole
seconds in the nanosecond word are moved to the other word, and the length stays, up to the
longest one that the wire has. Where the nanoseconds are below one second, as they are on the
wire, periods are ordered by their length. In general they are not, since their order looks at
the seconds first, before any are moved. -/

namespace RosGraph

theorem toNat_nanosPerSecond : nanosPerSecond.toNat = 10 ^ 9 := rfl

namespace Period

theorem toNat_wireMaxSec : wireMaxSec.toNat = 2 ^ 31 - 1 := rfl

/-- In nanoseconds. -/
def length (p : Period) : ℕ := p.sec.toNat * 10 ^ 9 + p.nsec.toNat

/-- The length of the longest duration of the wire. -/
def wireLongest : ℕ := (2 ^ 31 - 1) * 10 ^ 9 + 999999999

/-- The nanoseconds are below one second. -/
def Normal (p : Period) : Prop := p.nsec < nanosPerSecond

instance (p : Period) : Decidable p.Normal := inferInstanceAs (Decidable (_ < _))

variable {p a b : Period}

theorem normal_iff_toNat : p.Normal ↔ p.nsec.toNat < 10 ^ 9 := by
  rw [Normal, UInt64.lt_iff_toNat_lt, toNat_nanosPerSecond]

theorem length_eq_zero_iff : p.length = 0 ↔ p = unset := by
  rw [eq_iff_toNat, length]
  simp only [unset, UInt64.toNat_zero]
  omega

/-- A normal period is no longer than the ones after it. -/
theorem length_le_of_le (ha : a.Normal) (h : a ≤ b) : a.length ≤ b.length := by
  rw [normal_iff_toNat] at ha
  rw [le_def, lt_iff_toNat] at h
  unfold length
  omega

theorem lt_iff_length (ha : a.Normal) (hb : b.Normal) : a < b ↔ a.length < b.length := by
  constructor
  · intro h
    have hne : a.length ≠ b.length := by
      rw [normal_iff_toNat] at ha hb
      rw [lt_iff_toNat] at h
      unfold length
      omega
    exact lt_of_le_of_ne (length_le_of_le ha h.le) hne
  · intro h
    by_contra hle
    exact absurd (length_le_of_le hb (not_lt.1 hle)) (not_le.2 h)

/-- Normal periods are told apart by their length. -/
theorem eq_of_length (ha : a.Normal) (hb : b.Normal) (h : a.length = b.length) : a = b := by
  rcases lt_trichotomy a b with hlt | heq | hgt
  · exact absurd h ((lt_iff_length ha hb).1 hlt).ne
  · exact heq
  · exact absurd h ((lt_iff_length hb ha).1 hgt).ne'

section Clamp

theorem toNat_carry (p : Period) : p.carry.toNat = min (p.nsec.toNat / 10 ^ 9) (2 ^ 31 - 1) := by
  rw [carry, UInt64.toNat_min, UInt64.toNat_div, toNat_nanosPerSecond, toNat_wireMaxSec]

theorem carry_le (p : Period) : p.carry ≤ wireMaxSec := by
  rw [UInt64.le_iff_toNat_le, toNat_carry]
  exact min_le_right _ _

theorem toNat_headroom (p : Period) : p.headroom.toNat = 2 ^ 31 - 1 - p.carry.toNat := by
  rw [headroom, UInt64.toNat_sub_of_le _ _ (carry_le p), toNat_wireMaxSec]

/-- There is no room for the seconds of a period exactly if it is longer than all that the
wire carries. -/
theorem exceedsWire_iff : p.exceedsWire ↔ wireLongest < p.length := by
  rw [exceedsWire, Bool.or_eq_true, decide_eq_true_eq, decide_eq_true_eq, UInt64.lt_iff_toNat_lt,
    UInt64.lt_iff_toNat_lt, toNat_headroom, toNat_carry, UInt64.toNat_div, toNat_wireMaxSec,
    toNat_nanosPerSecond, wireLongest, length]
  omega

/-- The seconds on the wire. -/
theorem toNat_clampedSec (p : Period) :
    p.clampedSec.toNat = min (p.sec.toNat + p.nsec.toNat / 10 ^ 9) (2 ^ 31 - 1) := by
  have hmax := toNat_wireMaxSec
  have hcarry := toNat_carry p
  have hroom := toNat_headroom p
  rw [clampedSec]
  split_ifs with hexceeds
  · rw [UInt64.lt_iff_toNat_lt] at hexceeds
    omega
  · rw [UInt64.lt_iff_toNat_lt] at hexceeds
    rw [UInt64.toNat_add]
    omega

theorem toNat_carry_of_le (h : p.length ≤ wireLongest) : p.carry.toNat = p.nsec.toNat / 10 ^ 9 := by
  rw [toNat_carry]
  unfold length wireLongest at h
  omega

/-- The carried seconds fit the nanosecond word that they come from. -/
theorem toNat_carry_mul (p : Period) :
    (p.carry * nanosPerSecond).toNat = p.carry.toNat * 10 ^ 9 := by
  have hcarry := toNat_carry p
  rw [UInt64.toNat_mul, toNat_nanosPerSecond, Nat.mod_eq_of_lt (by omega)]

theorem carry_mul_le (p : Period) : p.carry * nanosPerSecond ≤ p.nsec := by
  have hcarry := toNat_carry p
  rw [UInt64.le_iff_toNat_le, toNat_carry_mul]
  omega

/-- The nanoseconds on the wire, if the period is not too long for it. -/
theorem toNat_clampedNsec (h : p.length ≤ wireLongest) :
    (p.nsec - p.carry * nanosPerSecond).toNat = p.nsec.toNat % 10 ^ 9 := by
  rw [UInt64.toNat_sub_of_le _ _ (carry_mul_le p), toNat_carry_mul, toNat_carry_of_le h]
  omega

theorem toNat_clampToWire (p : Period) :
    p.clampToWire.sec.toNat = min (p.sec.toNat + p.nsec.toNat / 10 ^ 9) (2 ^ 31 - 1) ∧
      p.clampToWire.nsec.toNat =
        if wireLongest < p.length then 999999999 else p.nsec.toNat % 10 ^ 9 := by
  by_cases hexceeds : wireLongest < p.length
  · rw [clampToWire, if_pos (exceedsWire_iff.2 hexceeds), if_pos hexceeds]
    exact ⟨toNat_clampedSec p, rfl⟩
  · rw [clampToWire, if_neg (mt exceedsWire_iff.1 hexceeds), if_neg hexceeds]
    exact ⟨toNat_clampedSec p, toNat_clampedNsec (not_lt.1 hexceeds)⟩

theorem normal_clampToWire (p : Period) : p.clampToWire.Normal := by
  rw [normal_iff_toNat, (toNat_clampToWire p).2]
  split_ifs <;> omega

/-- What the wire carries is as long as the period, or the longest that it has. -/
theorem length_clampToWire (p : Period) : p.clampToWire.length = min p.length wireLongest := by
  obtain ⟨hsec, hnsec⟩ := toNat_clampToWire p
  rw [length, hsec, hnsec]
  unfold length wireLongest
  split_ifs <;> omega

/-- Only a period that is not set is carried as one. -/
theorem clampToWire_eq_unset_iff : p.clampToWire = unset ↔ p = unset := by
  rw [← length_eq_zero_iff, ← length_eq_zero_iff, length_clampToWire]
  unfold wireLongest
  omega

end Clamp

end Period

end RosGraph
