import RosGraph.TypeHash
import RosGraph.Proofs.Text.Hex

/-! The texts that are read as hashes are those that spell 64 digits after the marker, in either
case. The text of a hash of version 1 is one of them, and the hash is read back. Any other version is
refused: it has no digits that make up the marker. -/

namespace RosGraph.TypeHash

open Text

variable {v : UInt8} {c : Char}

section Version

theorem isDigit_of_mem_versionDigits (h : c ∈ versionDigits v) : c.isDigit := by
  have hdigits (hc : c ∈ Nat.toDigits 10 v.toNat) : c.isDigit :=
    Nat.isDigit_of_mem_toDigits (by decide) (by decide) hc
  rw [versionDigits] at h
  split at h
  · obtain rfl | hc := List.mem_cons.1 h
    · rfl
    · exact hdigits hc
  · exact hdigits h

theorem versionDigits_eq_iff : versionDigits v = ['0', '1'] ↔ v = 1 := by
  have hcheck : ∀ n < 256, versionDigits (UInt8.ofNat n) = ['0', '1'] → n = 1 := by decide +kernel
  constructor
  · intro h
    rw [← UInt8.toNat_inj]
    exact hcheck v.toNat v.toNat_lt (by rwa [UInt8.ofNat_toNat])
  · rintro rfl
    rfl

end Version

/-- The digits of the version end at the separator, so that only one version has the marker. -/
theorem marker_prefix_chars_iff (h : TypeHash) : marker <+: h.chars ↔ h.version = 1 := by
  have hname : marker = "RIHS".toList ++ (['0', '1'] ++ ['_']) := rfl
  have hdigits : ∀ c ∈ versionDigits h.version, decide (c ≠ '_') = true := fun c hc =>
    decide_eq_true (by rintro rfl; exact absurd (isDigit_of_mem_versionDigits hc) (by decide))
  rw [hname, chars, List.append_assoc, List.prefix_append_right_inj, ← versionDigits_eq_iff]
  constructor
  · rintro ⟨rest, hrest⟩
    have htake := congrArg (List.takeWhile (· ≠ '_')) hrest
    rw [List.takeWhile_append_of_pos hdigits] at htake
    simpa using htake.symm
  · intro hversion
    rw [hversion]
    exact ⟨Hex.encode h.value, by simp⟩

theorem chars_eq_of_version {h : TypeHash} (hversion : h.version = 1) :
    h.chars = marker ++ Hex.encode h.value := by
  rw [chars, hversion]
  rfl

theorem mem_chars {h : TypeHash} (hc : c ∈ h.chars) : c.isAlphanum ∨ c = '_' := by
  rw [chars, List.mem_append, List.mem_append, List.mem_cons] at hc
  obtain (hname | hdigit) | rfl | hhex := hc
  · have hletter : c ∈ ['R', 'I', 'H', 'S'] := hname
    simp only [List.mem_cons, List.not_mem_nil, or_false] at hletter
    obtain rfl | rfl | rfl | rfl := hletter <;> exact .inl rfl
  · left
    rw [Char.isAlphanum, isDigit_of_mem_versionDigits hdigit, Bool.or_true]
  · exact .inr rfl
  · exact .inl (Hex.isAlphanum_of_mem_encode hhex)

theorem ascii_chars (h : TypeHash) : Ascii h.chars := by
  intro c hc
  obtain hc | rfl := mem_chars hc
  · exact val_le_of_isAlphanum hc
  · decide

section Reading
variable {text : String} {digits : List Char} {h : TypeHash}

/-- The text is the marker and 64 digits of either case. -/
structure Spells (text : String) (digits : List Char) : Prop where
  toList : text.toList = marker ++ digits
  length : digits.length = 64
  isDigit : ∀ c ∈ digits, Hex.IsDigit c

/-- In bytes as in characters. -/
theorem Spells.size (hs : Spells text digits) : (String.ofList digits).utf8ByteSize = 64 := by
  rw [utf8ByteSize_ofList fun c hc => (hs.isDigit c hc).val_le, hs.length]

theorem Spells.exists_value (hs : Spells text digits) : ∃ value : List UInt8, value.length = 32 ∧
    Hex.decode? digits = some value ∧ Hex.encode value = digits.map Char.toLower := by
  have heven : 2 ∣ digits.length := by rw [hs.length]; decide
  obtain ⟨value, hvalue⟩ := Hex.exists_decode?_iff.2 ⟨heven, hs.isDigit⟩
  have hlength := Hex.length_of_decode? hvalue
  rw [hs.length] at hlength
  exact ⟨value, by omega, hvalue, Hex.encode_of_decode? hvalue⟩

theorem parse_of_spells (hs : Spells text digits) (hversion : h.version = 1)
    (hvalue : Hex.encode h.value = digits.map Char.toLower) : parse text = .ok h := by
  have hmarker : marker.isPrefixOf (marker ++ digits) :=
    List.isPrefixOf_iff_prefix.2 (List.prefix_append _ _)
  obtain ⟨value, hlength, hdecode, hencode⟩ := hs.exists_value
  obtain rfl : value = h.value := Hex.encode_injective (hencode.trans hvalue.symm)
  rw [parse, hs.toList, if_pos hmarker, List.drop_left]
  simp only [hs.size, hdecode, hlength, ne_eq, not_true_eq_false, if_false, dite_true]
  rw [← hversion]

theorem spells_of_parse (hparse : parse text = .ok h) : h.version = 1 ∧
    ∃ digits, Spells text digits ∧ Hex.encode h.value = digits.map Char.toLower := by
  rw [parse] at hparse
  split_ifs at hparse with hmarker
  obtain ⟨digits, hdigits⟩ := List.isPrefixOf_iff_prefix.1 hmarker
  rw [← hdigits, List.drop_left] at hparse
  dsimp only at hparse
  split_ifs at hparse with hsize
  cases hdecode : Hex.decode? digits with
  | none => rw [hdecode] at hparse; contradiction
  | some value =>
    rw [hdecode] at hparse
    dsimp only at hparse
    split_ifs at hparse with hlength
    cases hparse
    -- The size was checked in bytes; the value tells how many characters there are.
    have hcount : digits.length = 64 := by rw [Hex.length_of_decode? hdecode, hlength]
    have hall := (Hex.exists_decode?_iff.1 ⟨value, hdecode⟩).2
    exact ⟨rfl, digits, ⟨hdigits.symm, hcount, hall⟩, Hex.encode_of_decode? hdecode⟩

/-- The text of a hash of version 1 has its digits in lower case. -/
theorem spells_text (hversion : h.version = 1) : Spells h.text (Hex.encode h.value) where
  toList := by rw [TypeHash.text, String.toList_ofList, chars_eq_of_version hversion]
  length := by rw [Hex.length_encode, h.length_value]
  isDigit := (Hex.exists_decode?_iff.1 ⟨h.value, Hex.decode?_encode h.value⟩).2

theorem parse_text (h : TypeHash) :
    parse h.text = if h.version = 1 then .ok h else .error (.missingMarker h.text) := by
  by_cases hversion : h.version = 1
  · rw [if_pos hversion]
    exact parse_of_spells (spells_text hversion) hversion
      (Hex.encode_of_decode? (Hex.decode?_encode h.value))
  · have hchars : h.text.toList = h.chars := String.toList_ofList
    have hmarker : ¬ marker.isPrefixOf h.chars := by
      rwa [List.isPrefixOf_iff_prefix, marker_prefix_chars_iff]
    rw [parse, hchars, if_neg hmarker, if_neg hversion]

theorem Spells.unique {digits' : List Char} (hs : Spells text digits) (hs' : Spells text digits') :
    digits = digits' :=
  List.append_cancel_left (hs.toList.symm.trans hs'.toList)

/-- Every text that spells 64 digits is read, and another one is read as the same hash exactly if its
digits are the same up to letter case. The hash is of version 1 and is written with the digits in lower
case. Every text that does not spell 64 digits is refused as no hash. What is written for a hash of
version 1 is read as that hash. -/
theorem parse_reads_spelling (text : String) :
    (∀ digits, Spells text digits → ∃ h, parse text = .ok h ∧ h.version = 1 ∧
      h.text = String.ofList (marker ++ digits.map Char.toLower) ∧
      ∀ text' digits', Spells text' digits' →
        (parse text' = .ok h ↔ digits'.map Char.toLower = digits.map Char.toLower)) ∧
    ((¬ ∃ digits, Spells text digits) → ∃ message,
      (parse text).mapError Fault.toError = .error (.invalidTypeHash message)) ∧
    ∀ h : TypeHash, h.version = 1 → parse h.text = .ok h := by
  refine ⟨fun digits hs => ?_, fun hnot => ?_, fun h hversion => ?_⟩
  · obtain ⟨value, hlength, -, hvalue⟩ := hs.exists_value
    refine ⟨⟨1, value, hlength⟩, parse_of_spells hs rfl hvalue, rfl, ?_, fun text' digits' hs' => ?_⟩
    · rw [TypeHash.text, chars_eq_of_version rfl, hvalue]
    · constructor
      · intro hparse
        obtain ⟨-, spelled, hspelled, hvalue'⟩ := spells_of_parse hparse
        rw [hs'.unique hspelled, ← hvalue', hvalue]
      · intro hsame
        exact parse_of_spells hs' rfl (hvalue.trans hsame.symm)
  · cases hparse : parse text with
    | ok h =>
      obtain ⟨-, digits, hs, -⟩ := spells_of_parse hparse
      exact absurd ⟨digits, hs⟩ hnot
    | error fault => exact ⟨fault.message, rfl⟩
  · rw [parse_text, if_pos hversion]

/-- Digits of mixed case, the same digits the other way round, characters of two bytes each that
take as much room as the digits, and the text of a hash. -/
theorem parse_reads_spelling_mixed :
    let mixed := List.replicate 32 'a' ++ List.replicate 32 'B'
    let swapped := List.replicate 32 'A' ++ List.replicate 32 'b'
    let wide := List.replicate 32 'é'
    let h : TypeHash := ⟨1, List.replicate 32 7, rfl⟩
    Spells (String.ofList (marker ++ mixed)) mixed ∧
      Spells (String.ofList (marker ++ swapped)) swapped ∧
      (∃ h, parse (String.ofList (marker ++ mixed)) = .ok h ∧
        h.text = String.ofList (marker ++ mixed.map Char.toLower) ∧
        parse (String.ofList (marker ++ swapped)) = .ok h) ∧
      (¬ ∃ digits, Spells (String.ofList (marker ++ wide)) digits) ∧
      (∃ message, (parse (String.ofList (marker ++ wide))).mapError Fault.toError =
        .error (.invalidTypeHash message)) ∧
      h.version = 1 ∧ parse h.text = .ok h := by
  intro mixed swapped wide h
  have hspells {a b : Char} (ha : Hex.IsDigit a) (hb : Hex.IsDigit b) :
      Spells (String.ofList (marker ++ (List.replicate 32 a ++ List.replicate 32 b)))
        (List.replicate 32 a ++ List.replicate 32 b) := by
    refine ⟨String.toList_ofList, rfl, List.forall_mem_append.2 ⟨?_, ?_⟩⟩
    · exact fun c hc => List.eq_of_mem_replicate hc ▸ ha
    · exact fun c hc => List.eq_of_mem_replicate hc ▸ hb
  have hmixed : Spells (String.ofList (marker ++ mixed)) mixed := hspells (by decide) (by decide)
  have hswapped : Spells (String.ofList (marker ++ swapped)) swapped :=
    hspells (by decide) (by decide)
  have hwide : ¬ ∃ digits, Spells (String.ofList (marker ++ wide)) digits := by
    rintro ⟨digits, hs⟩
    have hdigits : wide = digits := List.append_cancel_left (String.toList_ofList.symm.trans hs.toList)
    have hlength := hs.length
    rw [← hdigits] at hlength
    exact absurd hlength (by decide)
  obtain ⟨found, hparse, -, htext, hsame⟩ := (parse_reads_spelling _).1 mixed hmixed
  exact ⟨hmixed, hswapped, ⟨found, hparse, htext, (hsame _ swapped hswapped).2 (by decide)⟩, hwide,
    (parse_reads_spelling _).2.1 hwide, rfl, (parse_reads_spelling h.text).2.2 h rfl⟩

end Reading

end RosGraph.TypeHash
