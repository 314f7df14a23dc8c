import RosGraph.Text.Blank
import Mathlib.Data.List.TakeWhile

/-! The first token of a text: blanks in front of it, none in it, and one behind it unless the text
ends there. -/

namespace RosGraph.Text.Blank

structure FirstToken (text token : List Char) : Prop where
  nonempty : token ≠ []
  solid : ∀ c ∈ token, isBlank c = false
  place : ∃ blanks rest, text = blanks ++ token ++ rest ∧ (∀ c ∈ blanks, isBlank c) ∧
    ∀ c, rest.head? = some c → isBlank c

variable {text token : List Char}

theorem firstToken_of_place (h : FirstToken text token) : firstToken text = token := by
  obtain ⟨hnonempty, hsolid, blanks, rest, rfl, hblanks, hrest⟩ := h
  have hstart : (token ++ rest).dropWhile isBlank = token ++ rest := by
    obtain ⟨c, token, rfl⟩ := List.exists_cons_of_ne_nil hnonempty
    rw [List.cons_append, List.dropWhile_cons_of_neg (by simp [hsolid c])]
  have hstop : rest.takeWhile (!isBlank ·) = [] := by
    cases rest with
    | nil => rfl
    | cons c rest =>
      have hc : isBlank c := hrest c rfl
      rw [List.takeWhile_cons_of_neg (by simp [hc])]
  rw [firstToken, List.append_assoc, List.dropWhile_append_of_pos hblanks, hstart,
    List.takeWhile_append_of_pos (by simpa using hsolid), hstop, List.append_nil]

theorem place_firstToken (h : firstToken text ≠ []) : FirstToken text (firstToken text) where
  nonempty := h
  solid c hc := by simpa using List.mem_takeWhile_imp hc
  place := by
    refine ⟨text.takeWhile isBlank, (text.dropWhile isBlank).dropWhile (!isBlank ·), ?_,
      fun c hc => List.mem_takeWhile_imp hc, fun c hc => ?_⟩
    · rw [firstToken, List.append_assoc, List.takeWhile_append_dropWhile,
        List.takeWhile_append_dropWhile]
    · have hhead := List.head?_dropWhile_not (!isBlank ·) (text.dropWhile isBlank)
      rw [hc] at hhead
      simpa using hhead

end RosGraph.Text.Blank
