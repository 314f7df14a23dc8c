import Mathlib.Data.List.Forall2
import RosGraph.Gid
import RosGraph.Proofs.Text.Hex

/-! The dotted text of an identifier stands for it alone. Bytes are not padded, so that fields differ in
width, but no field has a dot in it: splitting the text at the dots gives the fields back, and each field
is the one way to write its byte. -/

namespace RosGraph

namespace Text.Hex

def IsLower (c : Char) : Prop := '0' ≤ c ∧ c ≤ '9' ∨ 'a' ≤ c ∧ c ≤ 'f'

instance : DecidablePred IsLower := fun _ => inferInstanceAs (Decidable (_ ∨ _))

/-- The number that a run of digits stands for; none if one of them is no digit. -/
def number? (l : List Char) : Option ℕ := l.foldlM (fun n c => (value? c).map (16 * n + ·)) 0

/-- A byte in one or two digits of lower case, of which two do not start with zero. -/
structure Field (b : UInt8) (l : List Char) : Prop where
  width : l.length = 1 ∨ l.length = 2
  lower : ∀ c ∈ l, IsLower c
  unpadded : l.length = 2 → l.head? ≠ some '0'
  value : number? l = some b.toNat

theorem isLower_digit : ∀ n < 16, IsLower (digit n) := by decide

theorem digit_eq_zero_iff : ∀ n < 16, digit n = '0' ↔ n = 0 := by decide

variable {b : UInt8} {c hi lo : Char} {l : List Char} {n : ℕ}

theorem number?_one : number? [c] = value? c := by
  cases h : value? c <;> simp [number?, h]

theorem number?_two {k : ℕ} : number? [hi, lo] = some k ↔
    ∃ m n, value? hi = some m ∧ value? lo = some n ∧ 16 * m + n = k := by
  simp only [number?, List.foldlM_cons, List.foldlM_nil, Option.bind_eq_bind, Option.bind_eq_some_iff,
    Option.map_eq_some_iff, Option.pure_def, Option.some.injEq]
  constructor
  · rintro ⟨_, ⟨m, hm, rfl⟩, _, ⟨n, hn, rfl⟩, rfl⟩
    exact ⟨m, n, hm, hn, by omega⟩
  · rintro ⟨m, n, hm, hn, rfl⟩
    exact ⟨_, ⟨m, hm, rfl⟩, _, ⟨n, hn, rfl⟩, by omega⟩

theorem IsLower.toLower_eq (h : IsLower c) : c.toLower = c := by
  have hnot : ¬ ('A'.val ≤ c.val ∧ c.val ≤ 'Z'.val) := by
    rintro ⟨hA, hZ⟩
    rcases h with ⟨-, hnine⟩ | ⟨ha, -⟩
    · exact absurd (UInt32.le_trans hA hnine) (by decide)
    · exact absurd (UInt32.le_trans ha hZ) (by decide)
  delta Char.toLower
  exact dif_neg hnot

/-- A digit of lower case is the digit of the number that is read from it. -/
theorem digit_of_lower (hlower : IsLower c) (h : value? c = some n) : n < 16 ∧ digit n = c := by
  obtain ⟨hlt, hdigit⟩ := digit_of_value? h
  exact ⟨hlt, hdigit.trans hlower.toLower_eq⟩

theorem short_of_digit (hn : n < 16) (hb : b.toNat = n) : short b = [digit n] := by
  subst hb
  exact if_pos (UInt8.lt_iff_toNat_lt.2 hn)

theorem short_of_digits {m : ℕ} (hm : m ≠ 0) (hn : n < 16) (hb : b.toNat = 16 * m + n) :
    short b = [digit m, digit n] := by
  have hlarge : ¬ b < 16 := by
    intro h
    have hsmall : b.toNat < 16 := UInt8.lt_iff_toNat_lt.1 h
    omega
  have hfirst : b.toNat / 16 = m := by omega
  have hsecond : b.toNat % 16 = n := by omega
  rw [short, if_neg hlarge, pair, hfirst, hsecond]

theorem field_digit (hn : n < 16) (hb : b.toNat = n) : Field b [digit n] where
  width := .inl rfl
  lower := List.forall_mem_singleton.2 (isLower_digit n hn)
  unpadded h := absurd (Nat.succ.inj h) Nat.zero_ne_one
  value := by rw [number?_one, value?_digit n hn, hb]

theorem field_digits {m : ℕ} (hm : m < 16) (hzero : m ≠ 0) (hn : n < 16) (hb : b.toNat = 16 * m + n) :
    Field b [digit m, digit n] where
  width := .inr rfl
  lower := List.forall_mem_cons.2 ⟨isLower_digit m hm, List.forall_mem_singleton.2 (isLower_digit n hn)⟩
  unpadded _ h := hzero ((digit_eq_zero_iff m hm).1 (Option.some.inj h))
  value := number?_two.2 ⟨m, n, value?_digit m hm, value?_digit n hn, hb.symm⟩

theorem field_short (b : UInt8) : Field b (short b) := by
  have hbyte := b.toNat_lt
  by_cases hsmall : b.toNat < 16
  · rw [short_of_digit hsmall rfl]
    exact field_digit hsmall rfl
  · have hfirst : b.toNat / 16 < 16 := by omega
    have hzero : b.toNat / 16 ≠ 0 := by omega
    have hsecond : b.toNat % 16 < 16 := by omega
    have hb : b.toNat = 16 * (b.toNat / 16) + b.toNat % 16 := by omega
    rw [short_of_digits hzero hsecond hb]
    exact field_digits hfirst hzero hsecond hb

/-- There is one way to write a byte. -/
theorem field_iff : Field b l ↔ short b = l := by
  constructor
  · intro h
    obtain hone | htwo := h.width
    · obtain ⟨c, rfl⟩ := List.length_eq_one_iff.1 hone
      have hvalue : value? c = some b.toNat := number?_one.symm.trans h.value
      obtain ⟨hlt, hdigit⟩ := digit_of_lower (h.lower c List.mem_cons_self) hvalue
      rw [short_of_digit hlt rfl, hdigit]
    · obtain ⟨hi, lo, rfl⟩ := List.length_eq_two.1 htwo
      obtain ⟨m, n, hm, hn, hb⟩ := number?_two.1 h.value
      obtain ⟨-, hfirst⟩ := digit_of_lower (h.lower hi List.mem_cons_self) hm
      obtain ⟨hlt, hsecond⟩ := digit_of_lower (h.lower lo (List.mem_cons_of_mem _ List.mem_cons_self)) hn
      have hzero : m ≠ 0 := by
        rintro rfl
        exact h.unpadded rfl (congrArg some hfirst.symm)
      rw [short_of_digits hzero hlt hb.symm, hfirst, hsecond]
  · rintro rfl
    exact field_short b

theorem dot_not_mem_short (b : UInt8) : '.' ∉ short b :=
  fun h => absurd ((field_short b).lower _ h) (by decide)

theorem short_injective : Function.Injective short := by
  intro b b' h
  have hvalue := (field_short b').value
  rw [← h, (field_short b).value] at hvalue
  exact UInt8.toNat_inj.1 (Option.some.inj hvalue)

theorem forall₂_field_iff {bytes : List UInt8} {fields : List (List Char)} :
    List.Forall₂ Field bytes fields ↔ bytes.map short = fields := by
  have hfield : Field = fun b l => short b = l := by
    funext b l
    exact propext field_iff
  rw [hfield, ← List.forall₂_map_left_iff, List.forall₂_eq_eq_eq]

end Text.Hex

namespace Gid

open Text.Hex

theorem splitOn_dotted {bytes : List UInt8} (h : bytes ≠ []) :
    (dotted bytes).splitOn '.' = bytes.map short := by
  refine List.splitOn_intercalate '.' ?_ (mt List.map_eq_nil_iff.1 h)
  intro l hl
  obtain ⟨b, -, rfl⟩ := List.mem_map.1 hl
  exact dot_not_mem_short b

example : dotted [0x01, 0xab, 0x10, 0x00] = "1.ab.10.0".toList := by decide

/-- Only the dotted text of bytes falls into their fields. -/
theorem forall₂_field_splitOn_iff {bytes : List UInt8} (h : bytes ≠ []) {l : List Char} :
    List.Forall₂ Field bytes (l.splitOn '.') ↔ l = dotted bytes := by
  rw [forall₂_field_iff]
  constructor
  · intro hfields
    rw [dotted, hfields, List.intercalate_splitOn]
  · rintro rfl
    exact (splitOn_dotted h).symm

theorem bytes_injective : Function.Injective bytes := by
  rintro ⟨l, _⟩ ⟨l', _⟩ h
  obtain rfl : l = l' := h
  rfl

theorem bytes_ne_nil (g : Gid) : g.bytes ≠ [] :=
  List.ne_nil_of_length_pos (g.length_bytes ▸ Nat.succ_pos 23)

theorem splitOn_text (g : Gid) : g.text.toList.splitOn '.' = g.bytes.map short := by
  rw [text, String.toList_ofList, splitOn_dotted g.bytes_ne_nil]

/-- The dotted text of an identifier stands for it alone. Split at its dots, it always falls into 24
fields, which are the bytes in their order, each in one or two digits of lower case and not padded; no
other text falls into such fields. -/
theorem text_identifies : Function.Injective text ∧ ∀ g : Gid,
    (g.text.toList.splitOn '.').length = 24 ∧ List.Forall₂ Field g.bytes (g.text.toList.splitOn '.') ∧
      ∀ t : String, List.Forall₂ Field g.bytes (t.toList.splitOn '.') ↔ t = g.text := by
  refine ⟨fun a b h => ?_, fun g => ⟨?_, ?_, fun t => ?_⟩⟩
  · have hfields : a.bytes.map short = b.bytes.map short := by rw [← splitOn_text, h, splitOn_text]
    exact bytes_injective (List.map_injective_iff.2 short_injective hfields)
  · rw [splitOn_text, List.length_map, g.length_bytes]
  · exact forall₂_field_iff.2 g.splitOn_text.symm
  · rw [forall₂_field_splitOn_iff g.bytes_ne_nil, text, ← String.toList_inj, String.toList_ofList]

end Gid

end RosGraph
