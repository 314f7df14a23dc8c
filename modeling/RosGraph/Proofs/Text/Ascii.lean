import Mathlib.Data.List.Basic
import RosGraph.Text.Hex

/-! The bytes of a text. A text of ASCII characters has one byte for each of them, with
the same number, so that what is found among its bytes is found among its characters. -/

namespace RosGraph.Text

/-- Each character takes one byte. -/
def Ascii (l : List Char) : Prop := ∀ c ∈ l, c.val ≤ 127

theorem bytes_append (s t : String) :
    (s ++ t).toUTF8.data.toList = s.toUTF8.data.toList ++ t.toUTF8.data.toList := by
  rw [String.toUTF8_eq_toByteArray, String.toByteArray_append, ByteArray.toList_data_append]
  rfl

theorem val_le_of_isAlphanum {c : Char} (h : c.isAlphanum) : c.val ≤ 127 := by
  have hcases : (c.isUpper || c.isLower || c.isDigit) = true := h
  rw [Bool.or_eq_true, Bool.or_eq_true] at hcases
  obtain (hupper | hlower) | hdigit := hcases
  · exact UInt32.le_trans (of_decide_eq_true hupper).2 (by decide)
  · exact UInt32.le_trans (of_decide_eq_true (Bool.and_eq_true_iff.1 hlower).2) (by decide)
  · exact UInt32.le_trans (of_decide_eq_true (Bool.and_eq_true_iff.1 hdigit).2) (by decide)

/-- A text is read back from its bytes. -/
theorem fromUTF8?_bytes (s : String) : String.fromUTF8? ⟨s.toUTF8.data.toList.toArray⟩ = some s := by
  have hbytes : (⟨s.toUTF8.data.toList.toArray⟩ : ByteArray) = s.toByteArray := by
    rw [Array.toArray_toList]
    rfl
  rw [hbytes, String.fromUTF8?, dif_pos s.isValidUTF8]
  rfl

variable {l : List Char} {c : Char}

theorem bytes_ofList (h : Ascii l) :
    (String.ofList l).toUTF8.data.toList = l.map (·.val.toUInt8) := by
  have hchars : l.flatMap String.utf8EncodeChar = l.map (·.val.toUInt8) := by
    rw [List.map_eq_flatMap]
    refine List.flatMap_congr fun c hc => ?_
    exact String.utf8EncodeChar_eq_singleton (Char.utf8Size_eq_one_iff.2 (h c hc))
  rw [String.toUTF8_eq_toByteArray, String.toByteArray_ofList, List.utf8Encode, hchars,
    List.data_toByteArray]

theorem utf8ByteSize_ofList (h : Ascii l) : (String.ofList l).utf8ByteSize = l.length := by
  have hsize : (String.ofList l).utf8ByteSize = (String.ofList l).toUTF8.data.toList.length := rfl
  rw [hsize, bytes_ofList h, List.length_map]

/-- The text can be cut between any two bytes. -/
theorem fromUTF8?_take_bytes (h : Ascii l) (n : ℕ) :
    String.fromUTF8? ⟨((String.ofList l).toUTF8.data.toList.take n).toArray⟩ =
      some (String.ofList (l.take n)) := by
  have htake : Ascii (l.take n) := fun c hc => h c (List.mem_of_mem_take hc)
  rw [bytes_ofList h, ← List.map_take, ← bytes_ofList htake, fromUTF8?_bytes]

/-- No byte of the text is that of a character that it does not have. -/
theorem not_mem_bytes (h : Ascii l) (hc : c.val ≤ 127) (hnot : c ∉ l) :
    c.val.toUInt8 ∉ (String.ofList l).toUTF8.data.toList := by
  rw [bytes_ofList h, List.mem_map]
  rintro ⟨d, hd, heq⟩
  have hval : d.val = c.val := by
    have hdsmall := h d hd
    rw [UInt32.le_iff_toNat_le] at hdsmall hc
    rw [← UInt8.toNat_inj, UInt32.toNat_toUInt8, UInt32.toNat_toUInt8] at heq
    rw [← UInt32.toNat_inj]
    have hlimit : (127 : UInt32).toNat = 127 := rfl
    omega
  exact hnot (Char.ext hval ▸ hd)

end RosGraph.Text
