import RosGraph.Proofs.Qos.Reason

/-! A reason in a buffer of fixed length. The buffer holds as much of the reason as leaves room for
a closing zero byte, and past that what it held before. What is read up to the first zero byte is
what was written, since a reason has no zero byte of its own, and it is a text wherever it was cut,
since all characters of a reason take one byte. Nothing outside the buffer or the reason is accessed
on the way: the same steps with every access checked come to the same. -/

namespace RosGraph.Qos

open Text

section Write
variable (text buffer : List UInt8)

/-- The first `n` bytes; none if there are fewer. -/
def first? (n : ℕ) (bytes : List UInt8) : Option (List UInt8) :=
  if n ≤ bytes.length then some (bytes.take n) else none

/-- What a run of bytes becomes if another one is copied over it; none if they differ in length. -/
def copy? (source target : List UInt8) : Option (List UInt8) :=
  if source.length = target.length then some source else none

/-- The bytes with another one at an index; none if there is no such index. -/
def store? (i : ℕ) (b : UInt8) (bytes : List UInt8) : Option (List UInt8) :=
  if i < bytes.length then some (bytes.set i b) else none

/-- How many bytes of the text there is room for. -/
def room : ℕ := min text.length (buffer.length - 1)

/-- The write, unless it accesses what is not there. -/
def writeTerminated? : Option (List UInt8) :=
  if buffer = [] then some buffer
  else do
    let target ← first? (room text buffer) buffer
    let source ← first? (room text buffer) text
    let copied ← copy? source target
    store? (room text buffer) 0 (copied ++ buffer.drop (room text buffer))

/-- The bytes up to the first zero byte; none if there is no zero byte. -/
def readTerminated? : List UInt8 → Option (List UInt8)
  | [] => none
  | b :: rest => if b = 0 then some [] else (readTerminated? rest).map (b :: ·)

variable {text buffer}

theorem readTerminated?_append {rest : List UInt8} (h : 0 ∉ text) :
    readTerminated? (text ++ 0 :: rest) = some text := by
  induction text with
  | nil => rfl
  | cons b text ih =>
    have hb : b ≠ 0 := (List.ne_of_not_mem_cons h).symm
    rw [List.cons_append, readTerminated?, if_neg hb, ih (List.not_mem_of_not_mem_cons h),
      Option.map_some]

theorem length_take_room (text buffer : List UInt8) :
    (text.take (room text buffer)).length = room text buffer :=
  List.length_take_of_le (min_le_left _ _)

section NotEmpty
variable (h : buffer ≠ [])
include h

/-- There is room for the zero byte. -/
theorem room_lt : room text buffer < buffer.length := by
  have hpos := List.length_pos_iff.2 h
  rw [room]
  omega

theorem writeTerminated_of_ne_nil : writeTerminated text buffer =
    text.take (room text buffer) ++ 0 :: buffer.drop (room text buffer + 1) := by
  obtain ⟨b, rest, rfl⟩ := List.exists_cons_of_ne_nil h
  have hroom : room text (b :: rest) = min rest.length text.length := min_comm _ _
  rw [writeTerminated, hroom, ← List.take_eq_take_min, List.length_take]

/-- The zero byte is stored over the first byte that the copy leaves alone. -/
theorem store?_zero :
    store? (room text buffer) 0 (text.take (room text buffer) ++ buffer.drop (room text buffer)) =
      some (writeTerminated text buffer) := by
  have htake := length_take_room text buffer
  have hlt := @room_lt text buffer h
  have hindex : room text buffer <
      (text.take (room text buffer) ++ buffer.drop (room text buffer)).length := by
    rw [List.length_append, htake, List.length_drop]
    omega
  rw [store?, if_pos hindex, List.set_append_right _ _ htake.le, htake, Nat.sub_self,
    List.drop_eq_getElem_cons hlt, List.set_cons_zero, writeTerminated_of_ne_nil h]

theorem take_writeTerminated :
    (writeTerminated text buffer).take (room text buffer) = text.take (room text buffer) := by
  rw [writeTerminated_of_ne_nil h, List.take_left' (length_take_room text buffer)]

theorem getElem?_writeTerminated_room :
    (writeTerminated text buffer)[room text buffer]? = some 0 := by
  have htake := length_take_room text buffer
  rw [writeTerminated_of_ne_nil h, List.getElem?_append_right htake.le, htake, Nat.sub_self,
    List.getElem?_cons_zero]

theorem drop_writeTerminated :
    (writeTerminated text buffer).drop (room text buffer + 1) =
      buffer.drop (room text buffer + 1) := by
  have hlength : (text.take (room text buffer) ++ [0]).length = room text buffer + 1 := by
    rw [List.length_append, length_take_room, List.length_singleton]
  rw [writeTerminated_of_ne_nil h, List.append_cons, List.drop_left' hlength]

theorem readTerminated?_writeTerminated (hzero : 0 ∉ text) :
    readTerminated? (writeTerminated text buffer) = some (text.take (room text buffer)) := by
  rw [writeTerminated_of_ne_nil h]
  exact readTerminated?_append fun hmem => hzero (List.mem_of_mem_take hmem)

end NotEmpty

theorem length_writeTerminated (text buffer : List UInt8) :
    (writeTerminated text buffer).length = buffer.length := by
  by_cases h : buffer = []
  · rw [h]
    rfl
  · have hlt := @room_lt text buffer h
    rw [writeTerminated_of_ne_nil h, List.length_append, List.length_cons, List.length_drop,
      length_take_room]
    omega

/-- No access is out of range. -/
theorem writeTerminated?_eq (text buffer : List UInt8) :
    writeTerminated? text buffer = some (writeTerminated text buffer) := by
  by_cases h : buffer = []
  · rw [writeTerminated?, if_pos h, h]
    rfl
  · have hbuffer : room text buffer ≤ buffer.length := (room_lt h).le
    have htext : room text buffer ≤ text.length := min_le_left _ _
    have hlength : (text.take (room text buffer)).length = (buffer.take (room text buffer)).length := by
      rw [length_take_room, List.length_take_of_le hbuffer]
    rw [writeTerminated?, if_neg h, first?, if_pos hbuffer, first?, if_pos htext]
    simp only [Option.bind_eq_bind, Option.bind_some]
    rw [copy?, if_pos hlength, Option.bind_some, store?_zero h]

end Write

section Reason
variable (p s : Profile)

def reasonBytes : List UInt8 := (reason p s).toUTF8.data.toList

/-- The verdict and the buffer, unless the write accesses what is not there. -/
def verdictInto? (buffer : List UInt8) : Option (Verdict × List UInt8) := do
  let written ← writeTerminated? (reasonBytes p s) buffer
  return (verdict p s, written)

theorem ascii_reason : Ascii (reason p s).toList := by
  rw [toList_reason]
  exact fun c hc => (ascii_closed plain_of_mem_findings c hc).1

theorem zero_not_mem_reasonBytes : 0 ∉ reasonBytes p s := by
  have hnot : '\x00' ∉ (reason p s).toList := by
    rw [toList_reason]
    exact fun hc => (ascii_closed plain_of_mem_findings _ hc).2 rfl
  have hbytes := not_mem_bytes (ascii_reason p s) (c := '\x00') (by decide) hnot
  rwa [String.ofList_toList] at hbytes

/-- Whatever the buffer is, the verdict is that of the check, no access is out of range, and the
buffer keeps its length. If it is not empty, it has the bytes of the reason that there is room for,
a zero byte, and its own bytes after that. What is read from it is then exactly the bytes of the
reason, which are the text of as many characters of it. -/
theorem verdictInto_holds_reason (p s : Profile) (buffer : List UInt8) :
    let text := reasonBytes p s
    let w := min text.length (buffer.length - 1)
    let after := (verdictInto p s buffer).2
    verdictInto? p s buffer = some (verdict p s, after) ∧
    (verdictInto p s buffer).1 = verdict p s ∧
    after.length = buffer.length ∧
    (buffer = [] → after = buffer) ∧
    (buffer ≠ [] →
      after.take w = text.take w ∧ after[w]? = some 0 ∧
      after.drop (w + 1) = buffer.drop (w + 1) ∧
      readTerminated? after = some (text.take w) ∧
      String.fromUTF8? ⟨(text.take w).toArray⟩ =
        some (String.ofList ((reason p s).toList.take w))) := by
  intro text w after
  have hchecked : verdictInto? p s buffer = some (verdict p s, after) := by
    rw [verdictInto?, writeTerminated?_eq]
    rfl
  have hutf8 := fromUTF8?_take_bytes (ascii_reason p s) w
  rw [String.ofList_toList] at hutf8
  refine ⟨hchecked, rfl, length_writeTerminated _ _, ?_, fun h => ?_⟩
  · rintro rfl
    rfl
  · exact ⟨take_writeTerminated h, getElem?_writeTerminated_room h, drop_writeTerminated h,
      readTerminated?_writeTerminated h (zero_not_mem_reasonBytes p s), hutf8⟩

/-- An error that is cut within its first words, and no reason in a buffer that is not cleared. -/
theorem verdictInto_holds_reason_cut :
    let p : Profile := { reliability := .bestEffort, liveliness := .automatic }
    let s : Profile := { liveliness := .automatic }
    let buffer : List UInt8 := List.replicate 8 255
    buffer ≠ [] ∧
      verdictInto p s buffer = (.error, [69, 82, 82, 79, 82, 58, 32, 0]) ∧
      readTerminated? (verdictInto p s buffer).2 = some [69, 82, 82, 79, 82, 58, 32] ∧
      verdictInto p p buffer = (.ok, 0 :: List.replicate 7 255) ∧
      readTerminated? (verdictInto p p buffer).2 = some [] := by
  intro p s buffer
  have hne : buffer ≠ [] := by decide
  obtain ⟨-, -, -, -, hcut⟩ := verdictInto_holds_reason p s buffer
  obtain ⟨-, -, -, hread, -⟩ := hcut hne
  obtain ⟨-, -, -, -, hwhole⟩ := verdictInto_holds_reason p p buffer
  obtain ⟨-, -, -, hnothing, -⟩ := hwhole hne
  exact ⟨hne, by decide +kernel, hread.trans (by decide +kernel), by decide +kernel,
    hnothing.trans (by decide +kernel)⟩

end Reason

end RosGraph.Qos
