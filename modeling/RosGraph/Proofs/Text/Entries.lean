import RosGraph.Proofs.Text.Ascii
import RosGraph.Proofs.Text.Segments
import Mathlib.Data.List.Pairwise

/-! Texts made of entries, each closed by a semicolon. The entries consist of ASCII characters, of
which none is zero and none closes an entry, so that splitting the text gives them back. -/

namespace RosGraph.Text

/-- What an entry consists of. -/
def Plain (l : List Char) : Prop := ∀ c ∈ l, c.val ≤ 127 ∧ c ≠ '\x00' ∧ c ≠ ';'

instance (l : List Char) : Decidable (Plain l) := List.decidableBAll _ l

theorem plain_append {l r : List Char} : Plain (l ++ r) ↔ Plain l ∧ Plain r := List.forall_mem_append

theorem plain_ofList {l : List Char} (h : Plain l) : Plain (String.ofList l).toList := by
  rwa [String.toList_ofList]

theorem isPrefix_ofList {k l : List Char} (h : k <+: l) :
    (String.ofList k).toList <+: (String.ofList l).toList := by
  rwa [String.toList_ofList, String.toList_ofList]

/-- Neither text starts the other one. -/
def Apart (k l : List Char) : Prop := ¬ k <+: l ∧ ¬ l <+: k

instance (k l : List Char) : Decidable (Apart k l) := inferInstanceAs (Decidable (_ ∧ _))

theorem Apart.symm {k l : List Char} (h : Apart k l) : Apart l k := And.symm h

theorem pairwise_apart_ofList {texts : List (List Char)} (h : texts.Pairwise Apart) :
    (texts.map String.ofList).Pairwise fun s t => Apart s.toList t.toList := by
  rw [List.pairwise_map]
  simpa only [String.toList_ofList] using h

theorem apart_of_ne {ι : Type} {text : ι → String} {l : List ι}
    (h : (l.map text).Pairwise fun s t => Apart s.toList t.toList) {i j : ι} (hi : i ∈ l) (hj : j ∈ l)
    (hne : i ≠ j) : Apart (text i).toList (text j).toList := by
  have hsymm : Std.Symm fun i j => Apart (text i).toList (text j).toList := ⟨fun _ _ => Apart.symm⟩
  exact (List.pairwise_map.1 h).forall hi hj hne

/-- The characters of an entry without the one that closes it. -/
def body (text : String) : List Char := text.toList.dropLast

/-- A text is one closed entry that starts with a label. -/
structure Entry (label text : String) : Prop where
  closed : text.toList = body text ++ [';']
  plain : Plain (body text)
  labelled : label.toList <+: body text

theorem entry_of_append {label text : String} {phrase rest : List Char}
    (htext : text.toList = phrase ++ rest ++ [';']) (hphrase : Plain phrase) (hrest : Plain rest)
    (hlabel : label.toList <+: phrase) : Entry label text := by
  have hbody : body text = phrase ++ rest := by rw [body, htext, List.dropLast_concat]
  refine ⟨?_, ?_, ?_⟩
  · rw [hbody, htext]
  · rw [hbody]
    exact plain_append.2 ⟨hphrase, hrest⟩
  · rw [hbody]
    exact hlabel.trans (List.prefix_append phrase rest)

/-- For a text that is written out. -/
theorem entry_ofList {label l : List Char} (hclosed : l = l.dropLast ++ [';'])
    (hplain : Plain l.dropLast) (hlabel : label <+: l.dropLast) :
    Entry (String.ofList label) (String.ofList l) := by
  have hbody : body (String.ofList l) = l.dropLast := by rw [body, String.toList_ofList]
  refine ⟨?_, ?_, ?_⟩
  · rw [hbody, String.toList_ofList]
    exact hclosed
  · rwa [hbody]
  · rwa [hbody, String.toList_ofList]

section Splitting
variable {entries : List (List Char)} (h : ∀ e ∈ entries, Plain e)
include h

theorem splitOn_closed : (entries.flatMap (· ++ [';'])).splitOn ';' = entries ++ [[]] := by
  have hnot : ∀ e ∈ entries, ';' ∉ e := fun e he hmem => (h e he _ hmem).2.2 rfl
  have hsplit := splitOn_closed_append hnot []
  rwa [List.append_nil] at hsplit

theorem ascii_closed : ∀ c ∈ entries.flatMap (· ++ [';']), c.val ≤ 127 ∧ c ≠ '\x00' := by
  intro c hc
  obtain ⟨e, he, hmem⟩ := List.mem_flatMap.1 hc
  rcases List.mem_append.1 hmem with hbody | hlast
  · exact ⟨(h e he c hbody).1, (h e he c hbody).2.1⟩
  · rw [List.mem_singleton.1 hlast]
    decide

end Splitting

end RosGraph.Text
