import RosGraph.Proofs.UserData

/-! Data in form consists of entries only, each closed by a semicolon. The form is not checked when a
hash is read: data that is not in form is read like data that is, by its first segment with the key,
and so it is ignored only if no segment has the key. -/

namespace RosGraph.UserData

open Text

variable {data tail : List UInt8} {closed before after : List (List UInt8)}

/-- A key and a value with `=` between them, again and again, and a semicolon after each value. -/
def InForm (data : List UInt8) : Prop :=
  ∃ entries : List (List UInt8 × List UInt8),
    (∀ e ∈ entries, equals ∉ e.1 ∧ semicolon ∉ e.1 ∧ semicolon ∉ e.2) ∧
      data = entries.flatMap fun e => e.1 ++ equals :: e.2 ++ [semicolon]

/-- Segments that all have an `=` are entries. -/
theorem exists_entries (hclosed : ∀ s ∈ closed, semicolon ∉ s) (hequals : ∀ s ∈ closed, equals ∈ s) :
    ∃ entries : List (List UInt8 × List UInt8),
      (∀ e ∈ entries, equals ∉ e.1 ∧ semicolon ∉ e.1 ∧ semicolon ∉ e.2) ∧
        closed = entries.map fun e => e.1 ++ equals :: e.2 := by
  induction closed with
  | nil => exact ⟨[], List.forall_mem_nil _, rfl⟩
  | cons s closed ih =>
    obtain ⟨hs, hrest⟩ := List.forall_mem_cons.1 hclosed
    obtain ⟨hmem, hequalsRest⟩ := List.forall_mem_cons.1 hequals
    obtain ⟨k, value, rfl, hfirst⟩ := exists_splits_iff.2 hmem
    obtain ⟨entries, hentries, rfl⟩ := ih hrest hequalsRest
    rw [List.mem_append, List.mem_cons, not_or, not_or] at hs
    obtain ⟨hkey, -, hvalue⟩ := hs
    exact ⟨(k, value) :: entries, List.forall_mem_cons.2 ⟨⟨hfirst, hkey, hvalue⟩, hentries⟩, rfl⟩

/-- In form are those data that end with their last closed segment, if all segments have an `=`. -/
theorem inForm_iff_of_cut (h : Cut semicolon data closed tail) :
    InForm data ↔ tail = [] ∧ ∀ s ∈ closed, equals ∈ s := by
  constructor
  · rintro ⟨entries, hentries, rfl⟩
    have hcut : Cut semicolon (entries.flatMap fun e => e.1 ++ equals :: e.2 ++ [semicolon])
        (entries.map fun e => e.1 ++ equals :: e.2) [] := by
      refine ⟨?_, ?_, List.not_mem_nil⟩
      · rw [List.flatMap_map, List.append_nil]
      · rintro s hs
        obtain ⟨e, he, rfl⟩ := List.mem_map.1 hs
        obtain ⟨-, hkey, hvalue⟩ := hentries e he
        rw [List.mem_append, List.mem_cons, not_or, not_or]
        exact ⟨hkey, by decide, hvalue⟩
    obtain ⟨rfl, rfl⟩ := h.unique hcut
    refine ⟨rfl, fun s hs => ?_⟩
    obtain ⟨e, -, rfl⟩ := List.mem_map.1 hs
    exact List.mem_append_right e.1 List.mem_cons_self
  · rintro ⟨rfl, hequals⟩
    obtain ⟨entries, hentries, rfl⟩ := exists_entries h.closed hequals
    refine ⟨entries, hentries, ?_⟩
    rw [h.eq, List.flatMap_map, List.append_nil]

theorem inForm_iff : InForm data ↔ (data.splitOn semicolon).getLast? = some [] ∧
    ∀ s ∈ (data.splitOn semicolon).dropLast, equals ∈ s := by
  obtain ⟨closed, tail, hcut⟩ := exists_cut semicolon data
  rw [inForm_iff_of_cut hcut, hcut.splitOn, List.getLast?_concat, List.dropLast_concat,
    Option.some.injEq]

instance (data : List UInt8) : Decidable (InForm data) := decidable_of_iff _ inForm_iff.symm

/-- What is read as a hash is of version 1. -/
theorem parse_ne_unset (text : String) : TypeHash.parse text ≠ .ok .unset := by
  intro hparse
  exact absurd (TypeHash.spells_of_parse hparse).1 (by decide)

theorem typeHash_eq_unset_iff :
    typeHash data = .ok .unset ↔ ∀ s ∈ data.splitOn semicolon, ¬ HasKey key s := by
  rw [← value?_eq_none_iff]
  constructor
  · intro hunset
    cases hvalue : value? key data with
    | none => rfl
    | some value =>
      rw [typeHash, hvalue] at hunset
      dsimp only at hunset
      split at hunset
      · contradiction
      · exact absurd hunset (parse_ne_unset _)
  · exact typeHash_of_none

theorem typeHash_congr {data' : List UInt8} (h : value? key data = value? key data') :
    typeHash data = typeHash data' := by
  rw [typeHash, h, typeHash]

/-- Data that is not in form is heeded exactly if some segment of it has the key. It is not in form if
it goes on behind its last semicolon or a segment in front of that has no `=`. In form or not, the
first segment with the key is read like the entry alone. -/
theorem malformed_heeded_iff (data : List UInt8) :
    (¬ InForm data ∧ typeHash data ≠ .ok .unset ↔
      ((data.splitOn semicolon).getLast? ≠ some [] ∨
        ∃ s ∈ (data.splitOn semicolon).dropLast, equals ∉ s) ∧
      ∃ s ∈ data.splitOn semicolon, HasKey key s) ∧
    ∀ before value after, data.splitOn semicolon = before ++ (key ++ equals :: value) :: after →
      (∀ s ∈ before, ¬ HasKey key s) →
        typeHash data = typeHash (key ++ equals :: value ++ [semicolon]) := by
  constructor
  · rw [inForm_iff, ne_eq, typeHash_eq_unset_iff, not_and_or]
    simp only [not_forall, not_not, exists_prop]
  · intro before value after hdata hbefore
    have hend : semicolon ∉ key ++ equals :: value :=
      not_mem_of_mem_splitOn (hdata ▸ List.mem_append_right before List.mem_cons_self)
    have halone : (key ++ equals :: value ++ [semicolon]).splitOn semicolon =
        [] ++ (key ++ equals :: value) :: [[]] :=
      List.splitOn_append_cons_self_of_not_mem hend []
    refine typeHash_congr ?_
    rw [value?_of_first hdata hbefore (splits_key value),
      value?_of_first halone (List.forall_mem_nil _) (splits_key value)]

/-- The entry of a hash behind a segment without `=`, and with more behind it that no semicolon closes. -/
theorem malformed_heeded_iff_stray :
    let bytes (text : String) := text.toUTF8.data.toList
    let h : TypeHash := ⟨1, List.replicate 32 7, rfl⟩
    let data := bytes s!"stray;{ofTypeHash h}typehash=" ++ [255]
    ¬ InForm data ∧ typeHash data ≠ .ok .unset ∧
      data.splitOn semicolon = [bytes "stray"] ++
        (key ++ equals :: bytes h.text) :: [key ++ equals :: [255]] ∧
      (∀ s ∈ [bytes "stray"], ¬ HasKey key s) ∧
      typeHash data = typeHash (key ++ equals :: bytes h.text ++ [semicolon]) := by
  intro bytes h data
  obtain ⟨hheeded, hread⟩ := malformed_heeded_iff data
  obtain ⟨hform, hset⟩ := hheeded.2 (by decide +kernel)
  have hdata : data.splitOn semicolon = [bytes "stray"] ++
      (key ++ equals :: bytes h.text) :: [key ++ equals :: [255]] := by decide +kernel
  have hstray : ∀ s ∈ [bytes "stray"], ¬ HasKey key s := by decide +kernel
  exact ⟨hform, hset, hdata, hstray, hread _ _ _ hdata hstray⟩

/-- The entry of a hash is read without the semicolon that would close it. -/
theorem unclosed_entry_heeded :
    let h : TypeHash := ⟨1, List.replicate 32 0, rfl⟩
    let data := s!"typehash={h}".toUTF8.data.toList
    ¬ InForm data ∧ typeHash data = .ok h ∧ typeHash data ≠ .ok .unset := by
  decide +kernel

end RosGraph.UserData
