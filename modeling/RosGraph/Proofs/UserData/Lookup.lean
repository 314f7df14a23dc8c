import RosGraph.UserData
import Mathlib.Data.List.TakeWhile

/-! The value that is found for a key. A segment is an entry of the key that stands before its first
`=`, and the first segment that is an entry of the key decides. -/

namespace RosGraph.UserData

variable {k value segment data : List UInt8} {segments before after : List (List UInt8)}

/-- The segment has this key before its first `=`, and this value behind it. -/
structure Splits (segment k value : List UInt8) : Prop where
  eq : segment = k ++ equals :: value
  first : equals ∉ k

def HasKey (k segment : List UInt8) : Prop := ∃ value, Splits segment k value

theorem forall_ne_of_not_mem (h : equals ∉ k) : ∀ b ∈ k, decide (b ≠ equals) = true :=
  fun _ hb => decide_eq_true fun heq => h (heq ▸ hb)

theorem keyValue?_entry (hk : equals ∉ k) : keyValue? (k ++ equals :: value) = some (k, value) := by
  have hpass := forall_ne_of_not_mem hk
  rw [keyValue?, List.dropWhile_append_of_pos hpass, List.takeWhile_append_of_pos hpass]
  simp

theorem keyValue?_of_not_mem (h : equals ∉ segment) : keyValue? segment = none := by
  rw [keyValue?, List.dropWhile_eq_nil_iff.2 (forall_ne_of_not_mem h)]

theorem exists_splits_iff : (∃ k value, Splits segment k value) ↔ equals ∈ segment := by
  constructor
  · rintro ⟨k, value, rfl, -⟩
    exact List.mem_append_right k List.mem_cons_self
  · intro hmem
    obtain ⟨k, value, heq, hfirst⟩ := List.eq_append_cons_of_mem hmem
    exact ⟨k, value, heq, hfirst⟩

theorem keyValue?_eq_some_iff : keyValue? segment = some (k, value) ↔ Splits segment k value := by
  constructor
  · intro h
    by_cases hmem : equals ∈ segment
    · obtain ⟨k', value', rfl, hfirst⟩ := exists_splits_iff.2 hmem
      rw [keyValue?_entry hfirst] at h
      cases h
      exact ⟨rfl, hfirst⟩
    · rw [keyValue?_of_not_mem hmem] at h
      contradiction
  · rintro ⟨rfl, hfirst⟩
    exact keyValue?_entry hfirst

theorem hasKey_iff : HasKey k segment ↔ (keyValue? segment).map (·.1) = some k := by
  simp [HasKey, ← keyValue?_eq_some_iff, Option.map_eq_some_iff]

instance (k segment : List UInt8) : Decidable (HasKey k segment) := decidable_of_iff _ hasKey_iff.symm

theorem find?_filterMap_eq_none_iff :
    (segments.filterMap keyValue?).find? (·.1 = k) = none ↔ ∀ s ∈ segments, ¬ HasKey k s := by
  rw [List.find?_eq_none]
  constructor
  · rintro h s hs ⟨value, hsplits⟩
    have hmem := List.mem_filterMap.2 ⟨s, hs, keyValue?_eq_some_iff.2 hsplits⟩
    exact h _ hmem (decide_eq_true rfl)
  · rintro h ⟨k', value⟩ hmem hk
    obtain ⟨s, hs, hvalue⟩ := List.mem_filterMap.1 hmem
    obtain rfl : k' = k := of_decide_eq_true hk
    exact h s hs ⟨value, keyValue?_eq_some_iff.1 hvalue⟩

theorem value?_eq_none_iff : value? k data = none ↔ ∀ s ∈ data.splitOn semicolon, ¬ HasKey k s := by
  rw [value?, Option.map_eq_none_iff, find?_filterMap_eq_none_iff]

/-- The first segment with the key decides, whatever follows it. -/
theorem value?_of_first (hdata : data.splitOn semicolon = before ++ segment :: after)
    (hbefore : ∀ s ∈ before, ¬ HasKey k s) (hsegment : Splits segment k value) :
    value? k data = some value := by
  rw [value?, hdata, List.filterMap_append, List.find?_append,
    find?_filterMap_eq_none_iff.2 hbefore, Option.none_or,
    List.filterMap_cons_some (keyValue?_eq_some_iff.2 hsegment), List.find?_cons_of_pos (by simp),
    Option.map_some]

end RosGraph.UserData
