/-! A finite map is kept as the list of its entries in strictly increasing key
order. Every change of a map is an `alter` at one key, a single pass over the
list, so one pair of lookup equations covers insertion, deletion and update.
The order makes the list a normal form: two maps with the same lookups are
equal (`SortedMap.ext_get?` in the lemma module). -/

namespace RosGraph

open Std

structure SortedMap (κ β : Type) [Ord κ] where
  entries : List (κ × β)
  sorted : entries.Pairwise fun a b => compare a.1 b.1 = .lt

namespace SortedMap

variable {κ β : Type} [Ord κ]

def empty : SortedMap κ β := ⟨[], .nil⟩

instance : EmptyCollection (SortedMap κ β) := ⟨empty⟩

instance : Inhabited (SortedMap κ β) := ⟨∅⟩

instance [DecidableEq κ] [DecidableEq β] : DecidableEq (SortedMap κ β) := fun m n =>
  decidable_of_iff (m.entries = n.entries) ⟨fun h => by cases m; cases n; simp_all, fun h => h ▸ rfl⟩

/-- The value at the first entry whose key compares equal. -/
def lookup (k : κ) : List (κ × β) → Option β
  | [] => none
  | (k', v) :: rest => match compare k k' with
    | .eq => some v
    | _ => lookup k rest

def get? (m : SortedMap κ β) (k : κ) : Option β := lookup k m.entries

def contains (m : SortedMap κ β) (k : κ) : Bool := (m.get? k).isSome

def isEmpty (m : SortedMap κ β) : Bool := m.entries.isEmpty

def keys (m : SortedMap κ β) : List κ := m.entries.map (·.1)

def values (m : SortedMap κ β) : List β := m.entries.map (·.2)

/-- The entry for `k`, if there is a value. -/
def optEntry (k : κ) (v : Option β) : List (κ × β) := v.toList.map (k, ·)

/-- Replace the value at `k`, absent values included, and keep the order. -/
def alterEntries (k : κ) (f : Option β → Option β) : List (κ × β) → List (κ × β)
  | [] => optEntry k (f none)
  | (k', v) :: rest => match compare k k' with
    | .lt => optEntry k (f none) ++ (k', v) :: rest
    | .eq => optEntry k' (f (some v)) ++ rest
    | .gt => (k', v) :: alterEntries k f rest

omit [Ord κ] in
theorem key_of_mem_optEntry {k : κ} {v : Option β} {e : κ × β} (h : e ∈ optEntry k v) : e.1 = k := by
  obtain ⟨_, _, rfl⟩ := List.mem_map.1 h
  rfl

omit [Ord κ] in
theorem pairwise_optEntry (k : κ) (v : Option β) (R : κ × β → κ × β → Prop) :
    (optEntry k v).Pairwise R := by
  cases v <;> simp [optEntry]

theorem mem_alterEntries [LawfulEqOrd κ] {k : κ} {f : Option β → Option β} {e : κ × β} :
    ∀ {l : List (κ × β)}, e ∈ alterEntries k f l → e.1 = k ∨ e ∈ l
  | [], h => .inl (key_of_mem_optEntry h)
  | (k', v) :: rest, h => by
    rw [alterEntries] at h
    split at h
    · exact (List.mem_append.1 h).imp_left key_of_mem_optEntry
    · next hk =>
      have hk : k = k' := LawfulEqOrd.eq_of_compare hk
      exact (List.mem_append.1 h).imp (fun h => hk ▸ key_of_mem_optEntry h) (List.mem_cons_of_mem _)
    · rcases List.mem_cons.1 h with rfl | h
      · exact .inr (List.mem_cons_self ..)
      · exact (mem_alterEntries h).imp_right (List.mem_cons_of_mem _)

theorem sorted_alterEntries [TransOrd κ] [LawfulEqOrd κ] (k : κ) (f : Option β → Option β) :
    ∀ {l : List (κ × β)}, l.Pairwise (fun a b => compare a.1 b.1 = .lt) →
      (alterEntries k f l).Pairwise fun a b => compare a.1 b.1 = .lt
  | [], _ => pairwise_optEntry ..
  | (k', v) :: rest, h => by
    have ⟨hhead, hrest⟩ := List.pairwise_cons.1 h
    rw [alterEntries]
    split
    · next hk =>
      refine List.pairwise_append.2 ⟨pairwise_optEntry .., h, fun a ha b hb => ?_⟩
      rw [key_of_mem_optEntry ha]
      rcases List.mem_cons.1 hb with rfl | hb
      · exact hk
      · exact TransCmp.lt_trans hk (hhead b hb)
    · refine List.pairwise_append.2 ⟨pairwise_optEntry .., hrest, fun a ha b hb => ?_⟩
      rw [key_of_mem_optEntry ha]
      exact hhead b hb
    · next hk =>
      refine List.pairwise_cons.2 ⟨fun b hb => ?_, sorted_alterEntries k f hrest⟩
      rcases mem_alterEntries hb with hb | hb
      · rw [hb]
        exact OrientedCmp.gt_iff_lt.1 hk
      · exact hhead b hb

section Lawful
variable [TransOrd κ] [LawfulEqOrd κ]

/-- Replace the value at `k` by what `f` makes of it; `none` stands for no entry. -/
def alter (m : SortedMap κ β) (k : κ) (f : Option β → Option β) : SortedMap κ β :=
  ⟨alterEntries k f m.entries, sorted_alterEntries k f m.sorted⟩

def insert (m : SortedMap κ β) (k : κ) (v : β) : SortedMap κ β := m.alter k fun _ => some v

/-- Keeps the value that is there. -/
def insertNew (m : SortedMap κ β) (k : κ) (v : β) : SortedMap κ β :=
  m.alter k fun old => some (old.getD v)

def erase (m : SortedMap κ β) (k : κ) : SortedMap κ β := m.alter k fun _ => none

def ofList (l : List (κ × β)) : SortedMap κ β := l.foldl (fun m e => m.insert e.1 e.2) ∅

end Lawful

end SortedMap

/-- A finite set, listed in increasing order. -/
abbrev SortedSet (κ : Type) [Ord κ] := SortedMap κ Unit

namespace SortedSet

variable {κ : Type} [Ord κ]

def toList (s : SortedSet κ) : List κ := s.keys

def add [TransOrd κ] [LawfulEqOrd κ] (s : SortedSet κ) (k : κ) : SortedSet κ := s.insert k ()

end SortedSet

end RosGraph
