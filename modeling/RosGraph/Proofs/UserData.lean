import RosGraph.Proofs.Text.Segments
import RosGraph.Proofs.TypeHash
import RosGraph.Proofs.UserData.Lookup

/-! The hash that an endpoint carries for its users is read back if its version is 1. A hash of
another version is not taken for one of version 1: its entry is found and refused. What stands around
the entry of a hash makes no difference, unless the key stands there first. -/

namespace RosGraph.UserData

open Text

variable {data : List UInt8} {text : String} {before : List (List UInt8)}

theorem separators_not_mem_key : equals ∉ key ∧ semicolon ∉ key := by decide +kernel

theorem splits_key (value : List UInt8) : Splits (key ++ equals :: value) key value :=
  ⟨rfl, separators_not_mem_key.1⟩

theorem typeHash_of_none (h : value? key data = none) : typeHash data = .ok .unset := by
  rw [typeHash, h]

theorem typeHash_of_text (h : value? key data = some text.toUTF8.data.toList) :
    typeHash data = TypeHash.parse text := by
  rw [typeHash, h]
  simp only [fromUTF8?_bytes]

theorem bytes_entry (text : String) : s!"typehash={text};".toUTF8.data.toList =
    key ++ equals :: text.toUTF8.data.toList ++ [semicolon] := by
  have hname : "typehash=".toUTF8.data.toList = key ++ [equals] := by decide +kernel
  calc s!"typehash={text};".toUTF8.data.toList
      = "typehash=".toUTF8.data.toList ++ text.toUTF8.data.toList ++ ";".toUTF8.data.toList := by
        rw [← bytes_append, ← bytes_append]
        rfl
    _ = key ++ equals :: text.toUTF8.data.toList ++ [semicolon] := by
        rw [hname, List.append_assoc key]
        rfl

/-- The entry of a text is found behind segments without its key, and the text is read. -/
theorem typeHash_entry (hbefore : ∀ s ∈ before, semicolon ∉ s ∧ ¬ HasKey key s)
    (hend : semicolon ∉ text.toUTF8.data.toList) (rest : List UInt8) :
    typeHash (before.flatMap (· ++ [semicolon]) ++ s!"typehash={text};".toUTF8.data.toList ++ rest) =
      TypeHash.parse text := by
  have hentry : semicolon ∉ key ++ equals :: text.toUTF8.data.toList := by
    rw [List.mem_append, List.mem_cons, not_or, not_or]
    exact ⟨separators_not_mem_key.2, by decide, hend⟩
  have hsplit : (before.flatMap (· ++ [semicolon]) ++ s!"typehash={text};".toUTF8.data.toList ++
      rest).splitOn semicolon =
        before ++ (key ++ equals :: text.toUTF8.data.toList) :: rest.splitOn semicolon := by
    rw [bytes_entry, List.append_assoc, splitOn_closed_append fun s hs => (hbefore s hs).1,
      List.append_assoc, List.singleton_append, List.splitOn_append_cons_self_of_not_mem hentry]
  exact typeHash_of_text (value?_of_first hsplit (fun s hs => (hbefore s hs).2) (splits_key _))

theorem semicolon_not_mem_text (h : TypeHash) : semicolon ∉ h.text.toUTF8.data.toList := by
  refine not_mem_bytes (TypeHash.ascii_chars h) (c := ';') (by decide) fun hc => ?_
  exact absurd (TypeHash.mem_chars hc) (by decide)

/-- There is no entry for an unset hash, and version 1 is read back. The entry of any other
version is refused, with its text, and never read as a hash. -/
theorem typeHash_ofTypeHash (h : TypeHash) :
    typeHash (ofTypeHash h).toUTF8.data.toList =
      if h.isUnset then .ok .unset
      else if h.version = 1 then .ok h
      else .error (.missingMarker h.text) := by
  rw [ofTypeHash]
  by_cases hunset : h.isUnset
  · rw [if_pos hunset, if_pos hunset]
    rfl
  · rw [if_neg hunset, if_neg hunset, ← TypeHash.parse_text]
    have hnone : ∀ s ∈ ([] : List (List UInt8)), semicolon ∉ s ∧ ¬ HasKey key s :=
      List.forall_mem_nil _
    have hentry := typeHash_entry hnone (semicolon_not_mem_text h) []
    rwa [List.append_nil] at hentry

/-- The entry of a hash of version 2 is an error for those who read it. -/
theorem typeHash_ofTypeHash_version_two :
    let h : TypeHash := ⟨2, List.replicate 32 0, rfl⟩
    h.isUnset = false ∧
      typeHash (ofTypeHash h).toUTF8.data.toList = .error (.missingMarker h.text) ∧
      typeHash (ofTypeHash h).toUTF8.data.toList ≠ .ok h := by
  decide +kernel

/-- The entry of a hash is read as the text of the hash, behind any closed segments that do not have its
key and in front of any bytes. Data of which no segment has the key is read as no hash. -/
theorem typeHash_amid_segments :
    (∀ h : TypeHash, 1 ≤ h.version → ∀ before : List (List UInt8),
      (∀ s ∈ before, semicolon ∉ s ∧ ¬ HasKey key s) → ∀ rest : List UInt8,
        typeHash (before.flatMap (· ++ [semicolon]) ++ (ofTypeHash h).toUTF8.data.toList ++ rest) =
          TypeHash.parse h.text) ∧
    ∀ data : List UInt8, (∀ s ∈ data.splitOn semicolon, ¬ HasKey key s) →
      typeHash data = .ok .unset := by
  constructor
  · intro h hversion before hbefore rest
    have hset : ¬ h.isUnset := fun hunset => by
      rw [of_decide_eq_true hunset] at hversion
      exact absurd hversion (by decide)
    rw [ofTypeHash, if_neg hset]
    exact typeHash_entry hbefore (semicolon_not_mem_text h) rest
  · intro data hdata
    exact typeHash_of_none (value?_eq_none_iff.2 hdata)

/-- Segments that resemble the entry, are empty or are no text, an entry of another hash behind it, and
a last segment that is the key alone. -/
theorem typeHash_amid_segments_alike :
    let bytes (text : String) := text.toUTF8.data.toList
    let before := ["typehash2=a=b", "typehash", "", "=typehash"].map bytes ++ [[255, equals, 254]]
    let rest := key ++ equals :: [255]
    let h : TypeHash := ⟨1, List.replicate 32 7, rfl⟩
    let h' : TypeHash := ⟨2, List.replicate 32 7, rfl⟩
    let around (h : TypeHash) := before.flatMap (· ++ [semicolon]) ++ bytes (ofTypeHash h) ++ rest
    let data := before.flatMap (· ++ [semicolon]) ++ key
    1 ≤ h.version ∧ 1 ≤ h'.version ∧ (∀ s ∈ before, semicolon ∉ s ∧ ¬ HasKey key s) ∧
      typeHash (around h) = .ok h ∧ typeHash (around h') = .error (.missingMarker h'.text) ∧
      (∀ s ∈ data.splitOn semicolon, ¬ HasKey key s) ∧ typeHash data = .ok .unset := by
  intro bytes before rest h h' around data
  have hversion : 1 ≤ h.version := by decide
  have hversion' : 1 ≤ h'.version := by decide
  have hbefore : ∀ s ∈ before, semicolon ∉ s ∧ ¬ HasKey key s := by decide +kernel
  have hdata : ∀ s ∈ data.splitOn semicolon, ¬ HasKey key s := by decide +kernel
  obtain ⟨hfound, hnone⟩ := typeHash_amid_segments
  refine ⟨hversion, hversion', hbefore, ?_, ?_, hdata, hnone data hdata⟩
  · exact (hfound h hversion before hbefore rest).trans (TypeHash.parse_text h)
  · exact (hfound h' hversion' before hbefore rest).trans (TypeHash.parse_text h')

end RosGraph.UserData
