import RosGraph.SortedMap

/-! Lookup equations of the sorted map: `alter` changes the lookup at its own
key and no other, and a map is determined by its lookups. -/

namespace RosGraph.SortedMap

open Std

variable {κ β : Type} [Ord κ] [TransOrd κ] [LawfulEqOrd κ]

omit [TransOrd κ] [LawfulEqOrd κ] in
theorem lookup_eq_none_of_lt {k : κ} : ∀ {l : List (κ × β)}, (∀ e ∈ l, compare k e.1 = .lt) →
    lookup k l = none
  | [], _ => rfl
  | (k', v) :: rest, h => by
    have hk : compare k k' = .lt := h _ (List.mem_cons_self ..)
    rw [lookup, hk]
    exact lookup_eq_none_of_lt fun e he => h e (List.mem_cons_of_mem _ he)

omit [TransOrd κ] in
theorem lookup_optEntry_self (k : κ) (v : Option β) : lookup k (optEntry k v) = v := by
  cases v <;> simp [optEntry, lookup, compare_self]

omit [TransOrd κ] in
theorem lookup_append_of_ne {j k : κ} (h : j ≠ k) (v : Option β) (l : List (κ × β)) :
    lookup j (optEntry k v ++ l) = lookup j l := by
  cases v with
  | none => rfl
  | some v =>
    simp only [optEntry, Option.toList_some, List.map_cons, List.map_nil, List.cons_append,
      List.nil_append, lookup]
    split
    · next hc => exact absurd (LawfulEqOrd.eq_of_compare hc) h
    · rfl

omit [TransOrd κ] in
theorem lookup_optEntry_append (k : κ) (v : Option β) {l : List (κ × β)}
    (h : ∀ e ∈ l, compare k e.1 = .lt) : lookup k (optEntry k v ++ l) = v := by
  cases v with
  | none => exact lookup_eq_none_of_lt h
  | some v => simp [optEntry, lookup, compare_self]

theorem lookup_alterEntries_self (k : κ) (f : Option β → Option β) :
    ∀ {l : List (κ × β)}, l.Pairwise (fun a b => compare a.1 b.1 = .lt) →
      lookup k (alterEntries k f l) = f (lookup k l)
  | [], _ => lookup_optEntry_self k (f none)
  | (k', v) :: rest, h => by
    have ⟨hhead, hrest⟩ := List.pairwise_cons.1 h
    rw [alterEntries]
    split
    · next hk =>
      have hall : ∀ e ∈ (k', v) :: rest, compare k e.1 = .lt := fun e he =>
        (List.mem_cons.1 he).elim (fun he => he ▸ hk) fun he => TransCmp.lt_trans hk (hhead e he)
      rw [lookup_optEntry_append k _ hall, lookup_eq_none_of_lt hall]
    · next hk =>
      obtain rfl : k = k' := LawfulEqOrd.eq_of_compare hk
      rw [lookup_optEntry_append k _ hhead, lookup, compare_self]
    · next hk =>
      rw [lookup, lookup, hk]
      exact lookup_alterEntries_self k f hrest

omit [TransOrd κ] in
theorem lookup_alterEntries_of_ne {j k : κ} (hjk : j ≠ k) (f : Option β → Option β) :
    ∀ l : List (κ × β), lookup j (alterEntries k f l) = lookup j l
  | [] => by
    have := lookup_append_of_ne hjk (f none) []
    rwa [List.append_nil] at this
  | (k', v) :: rest => by
    rw [alterEntries]
    split
    · exact lookup_append_of_ne hjk ..
    · next hk =>
      obtain rfl : k = k' := LawfulEqOrd.eq_of_compare hk
      rw [lookup_append_of_ne hjk, lookup]
      split
      · next hc => exact absurd (LawfulEqOrd.eq_of_compare hc) hjk
      · rfl
    · rw [lookup, lookup, lookup_alterEntries_of_ne hjk f rest]

omit [TransOrd κ] [LawfulEqOrd κ] in
@[simp] theorem get?_empty (k : κ) : (∅ : SortedMap κ β).get? k = none := rfl

@[simp] theorem get?_alter_self (m : SortedMap κ β) (k : κ) (f : Option β → Option β) :
    (m.alter k f).get? k = f (m.get? k) := lookup_alterEntries_self k f m.sorted

theorem get?_alter_of_ne (m : SortedMap κ β) {j k : κ} (h : j ≠ k) (f : Option β → Option β) :
    (m.alter k f).get? j = m.get? j := lookup_alterEntries_of_ne h f m.entries

@[simp] theorem get?_insert_self (m : SortedMap κ β) (k : κ) (v : β) :
    (m.insert k v).get? k = some v := get?_alter_self ..

theorem get?_insert_of_ne (m : SortedMap κ β) {j k : κ} (h : j ≠ k) (v : β) :
    (m.insert k v).get? j = m.get? j := get?_alter_of_ne _ h _

@[simp] theorem get?_insertNew_self (m : SortedMap κ β) (k : κ) (v : β) :
    (m.insertNew k v).get? k = some ((m.get? k).getD v) := get?_alter_self ..

theorem get?_insertNew_of_ne (m : SortedMap κ β) {j k : κ} (h : j ≠ k) (v : β) :
    (m.insertNew k v).get? j = m.get? j := get?_alter_of_ne _ h _

@[simp] theorem get?_erase_self (m : SortedMap κ β) (k : κ) : (m.erase k).get? k = none :=
  get?_alter_self ..

theorem get?_erase_of_ne (m : SortedMap κ β) {j k : κ} (h : j ≠ k) :
    (m.erase k).get? j = m.get? j := get?_alter_of_ne _ h _

omit [TransOrd κ] in
theorem lookup_eq_some_iff {k : κ} {v : β} : ∀ {l : List (κ × β)},
    l.Pairwise (fun a b => compare a.1 b.1 = .lt) → (lookup k l = some v ↔ (k, v) ∈ l)
  | [], _ => by simp [lookup]
  | (k', w) :: rest, h => by
    have ⟨hhead, hrest⟩ := List.pairwise_cons.1 h
    rw [lookup]
    split
    · next hk =>
      obtain rfl : k = k' := LawfulEqOrd.eq_of_compare hk
      have hnot : (k, v) ∉ rest := fun hm => by
        have := hhead _ hm
        rw [compare_self] at this
        contradiction
      simp [hnot, eq_comm]
    · next hk =>
      have hne : k ≠ k' := fun heq => hk (heq ▸ compare_self)
      simp [lookup_eq_some_iff hrest, hne]

omit [TransOrd κ] in
theorem mem_entries_iff {m : SortedMap κ β} {k : κ} {v : β} :
    (k, v) ∈ m.entries ↔ m.get? k = some v := (lookup_eq_some_iff m.sorted).symm

omit [TransOrd κ] in
theorem mem_keys_iff {m : SortedMap κ β} {k : κ} : k ∈ m.keys ↔ (m.get? k).isSome := by
  simp only [keys, List.mem_map, Option.isSome_iff_exists]
  constructor
  · rintro ⟨⟨k, v⟩, he, rfl⟩
    exact ⟨v, mem_entries_iff.1 he⟩
  · rintro ⟨v, hv⟩
    exact ⟨(k, v), mem_entries_iff.2 hv, rfl⟩

theorem entries_eq_of_mem_iff : ∀ {l r : List (κ × β)},
    l.Pairwise (fun a b => compare a.1 b.1 = .lt) → r.Pairwise (fun a b => compare a.1 b.1 = .lt) →
    (∀ e, e ∈ l ↔ e ∈ r) → l = r
  | [], [], _, _, _ => rfl
  | [], e :: _, _, _, h => absurd ((h e).2 (List.mem_cons_self ..)) List.not_mem_nil
  | e :: _, [], _, _, h => absurd ((h e).1 (List.mem_cons_self ..)) List.not_mem_nil
  | a :: l, b :: r, hl, hr, h => by
    have ⟨hal, hl'⟩ := List.pairwise_cons.1 hl
    have ⟨hbr, hr'⟩ := List.pairwise_cons.1 hr
    have irrefl (e : κ × β) : compare e.1 e.1 ≠ .lt := by simp [compare_self]
    have hab : a = b := by
      rcases List.mem_cons.1 ((h a).1 (List.mem_cons_self ..)) with hab | har
      · exact hab
      · rcases List.mem_cons.1 ((h b).2 (List.mem_cons_self ..)) with hba | hbl
        · exact hba.symm
        · exact absurd (TransCmp.lt_trans (hal b hbl) (hbr a har)) (irrefl a)
    subst hab
    congr 1
    refine entries_eq_of_mem_iff hl' hr' fun e => ⟨fun he => ?_, fun he => ?_⟩
    · rcases List.mem_cons.1 ((h e).1 (List.mem_cons_of_mem _ he)) with rfl | he'
      · exact absurd (hal e he) (irrefl e)
      · exact he'
    · rcases List.mem_cons.1 ((h e).2 (List.mem_cons_of_mem _ he)) with rfl | he'
      · exact absurd (hbr e he) (irrefl e)
      · exact he'

/-- What stands in front of an entry is what has a smaller key. -/
theorem mem_before_iff {m : SortedMap κ β} {before after : List (κ × β)} {j k : κ} {v w : β}
    (h : m.entries = before ++ (k, v) :: after) :
    (j, w) ∈ before ↔ m.get? j = some w ∧ compare j k = .lt := by
  have hsorted := m.sorted
  rw [h] at hsorted
  obtain ⟨-, htail, hcross⟩ := List.pairwise_append.1 hsorted
  constructor
  · intro hmem
    refine ⟨mem_entries_iff.1 ?_, hcross _ hmem _ (List.mem_cons_self ..)⟩
    rw [h]
    exact List.mem_append_left _ hmem
  · rintro ⟨hget, hlt⟩
    have hmem := mem_entries_iff.2 hget
    rw [h] at hmem
    rcases List.mem_append.1 hmem with hbefore | hafter
    · exact hbefore
    · rcases List.mem_cons.1 hafter with heq | hafter
      · obtain ⟨rfl, -⟩ := Prod.mk.inj heq
        rw [compare_self] at hlt
        contradiction
      · have hgt : compare k j = .lt := (List.pairwise_cons.1 htail).1 _ hafter
        have hself : compare k k = .lt := TransCmp.lt_trans hgt hlt
        rw [compare_self] at hself
        contradiction

theorem ext_get? {m n : SortedMap κ β} (h : ∀ k, m.get? k = n.get? k) : m = n := by
  have : m.entries = n.entries := entries_eq_of_mem_iff m.sorted n.sorted fun (k, v) => by
    rw [mem_entries_iff, mem_entries_iff, h]
  cases m
  cases n
  simp_all

/-- Of two values for one key the later one stays. -/
@[simp] theorem insert_insert (m : SortedMap κ β) (k : κ) (v w : β) :
    (m.insert k v).insert k w = m.insert k w := by
  refine ext_get? fun j => ?_
  by_cases h : j = k
  · subst h; simp
  · simp [get?_insert_of_ne _ h]

/-- Putting back what is there changes nothing. -/
theorem insert_of_get? {m : SortedMap κ β} {k : κ} {v : β} (h : m.get? k = some v) :
    m.insert k v = m := by
  refine ext_get? fun j => ?_
  by_cases hj : j = k
  · subst hj; simp [h]
  · exact get?_insert_of_ne _ hj v

/-- A list with a value for each key once is read as the map that has them. -/
theorem get?_ofList_eq_some_iff {l : List (κ × β)} (h : (l.map (·.1)).Nodup) {k : κ} {v : β} :
    (ofList l).get? k = some v ↔ (k, v) ∈ l := by
  have hfold (m : SortedMap κ β) (hm : ∀ j ∈ l.map (·.1), m.get? j = none) :
      (l.foldl (fun m e => m.insert e.1 e.2) m).get? k = some v ↔ (k, v) ∈ l ∨ m.get? k = some v := by
    induction l generalizing m with
    | nil => simp
    | cons e rest ih =>
      obtain ⟨i, w⟩ := e
      have ⟨hnew, hrest⟩ : i ∉ rest.map (·.1) ∧ (rest.map (·.1)).Nodup := List.nodup_cons.1 h
      have hkept : ∀ j ∈ rest.map (·.1), (m.insert i w).get? j = none := fun j hj => by
        have hj' : j ≠ i := fun heq => hnew (heq ▸ hj)
        rw [get?_insert_of_ne _ hj', hm j (List.mem_cons_of_mem _ hj)]
      rw [List.foldl_cons, ih hrest _ hkept, List.mem_cons]
      by_cases hk : k = i
      · subst hk
        have hnone : m.get? k = none := hm k (List.mem_cons_self ..)
        have hnot : (k, v) ∉ rest := fun hmem => hnew (List.mem_map_of_mem (f := (·.1)) hmem)
        simp [hnone, hnot, eq_comm]
      · simp [get?_insert_of_ne _ hk, hk]
  have hempty := hfold ∅ fun _ _ => rfl
  rwa [get?_empty, or_iff_left (by simp)] at hempty

omit [TransOrd κ] in
theorem nodup_keys (m : SortedMap κ β) : m.keys.Nodup :=
  List.pairwise_map.2 (m.sorted.imp fun h heq => by rw [heq, compare_self] at h; contradiction)

end RosGraph.SortedMap
