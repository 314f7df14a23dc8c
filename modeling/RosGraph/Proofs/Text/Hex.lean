import RosGraph.Proofs.Text.Ascii

/-! Hexadecimal text is read back, and what is read is a text of digits of either case, which the bytes
give back in lower case. -/

namespace RosGraph.Text.Hex

theorem value?_digit : ∀ n < 16, value? (digit n) = some n := by decide

theorem digit_isAlphanum : ∀ n < 16, (digit n).isAlphanum := by decide

theorem length_encode (bytes : List UInt8) : (encode bytes).length = 2 * bytes.length := by
  induction bytes with
  | nil => rfl
  | cons b bytes ih =>
    have hcons : encode (b :: bytes) = pair b ++ encode bytes := List.flatMap_cons
    have hpair : (pair b).length = 2 := rfl
    rw [hcons, List.length_append, hpair, ih, List.length_cons]
    omega

theorem decode?_encode (bytes : List UInt8) : decode? (encode bytes) = some bytes := by
  induction bytes with
  | nil => rfl
  | cons b bytes ih =>
    have hlt := b.toNat_lt
    have hcons : encode (b :: bytes) =
        digit (b.toNat / 16) :: digit (b.toNat % 16) :: encode bytes := List.flatMap_cons
    have hbyte : UInt8.ofNat (16 * (b.toNat / 16) + b.toNat % 16) = b := by
      rw [Nat.div_add_mod, UInt8.ofNat_toNat]
    rw [hcons, decode?, value?_digit _ (by omega), value?_digit _ (by omega), ih]
    simp only [Option.bind_eq_bind, Option.bind_some, hbyte]

theorem encode_injective : Function.Injective encode := by
  intro bytes bytes' h
  have hdecode := congrArg decode? h
  rwa [decode?_encode, decode?_encode, Option.some.injEq] at hdecode

theorem isAlphanum_of_mem_encode {bytes : List UInt8} {c : Char} (h : c ∈ encode bytes) :
    c.isAlphanum := by
  obtain ⟨b, -, hc⟩ := List.mem_flatMap.1 h
  have hlt := b.toNat_lt
  rw [pair, List.mem_cons, List.mem_singleton] at hc
  obtain rfl | rfl := hc
  · exact digit_isAlphanum _ (by omega)
  · exact digit_isAlphanum _ (by omega)

section Reading
variable {c hi lo : Char} {m n : ℕ} {l : List Char} {bytes : List UInt8}

/-- A digit of either case. -/
def IsDigit (c : Char) : Prop := '0' ≤ c ∧ c ≤ '9' ∨ 'a' ≤ c ∧ c ≤ 'f' ∨ 'A' ≤ c ∧ c ≤ 'F'

instance : DecidablePred IsDigit := fun _ => inferInstanceAs (Decidable (_ ∨ _ ∨ _))

theorem value?_ne_none_iff : value? c ≠ none ↔ IsDigit c := by
  rw [value?, IsDigit]
  split_ifs with hdigit hlower hupper <;> simp [*]

theorem IsDigit.val_le (h : IsDigit c) : c.val ≤ 127 := by
  rcases h with ⟨-, h⟩ | ⟨-, h⟩ | ⟨-, h⟩
  · exact UInt32.le_trans h (by decide)
  · exact UInt32.le_trans h (by decide)
  · exact UInt32.le_trans h (by decide)

/-- A digit is read as the number whose digit is the same letter in lower case. -/
theorem digit_of_value? (h : value? c = some n) : n < 16 ∧ digit n = c.toLower := by
  -- All digits are ASCII characters, of which there are few enough to try.
  have hcheck : ∀ k < 128, ∀ n ∈ value? (Char.ofNat k), n < 16 ∧ digit n = (Char.ofNat k).toLower := by
    decide
  have hdigit : IsDigit c := value?_ne_none_iff.1 (by rw [h]; exact Option.some_ne_none n)
  have hsmall := UInt32.le_iff_toNat_le.1 hdigit.val_le
  have hchar : Char.ofNat c.toNat = c := Char.ofNat_toNat c
  have hc := hcheck c.toNat (Nat.lt_succ_of_le hsmall) n
  rw [hchar] at hc
  exact hc h

theorem pair_of_values (hm : value? hi = some m) (hn : value? lo = some n) :
    pair (UInt8.ofNat (16 * m + n)) = [hi.toLower, lo.toLower] := by
  obtain ⟨hmlt, hmdigit⟩ := digit_of_value? hm
  obtain ⟨hnlt, hndigit⟩ := digit_of_value? hn
  have hbyte : (UInt8.ofNat (16 * m + n)).toNat = 16 * m + n :=
    UInt8.toNat_ofNat_of_lt' (by rw [UInt8.size]; omega)
  have hfirst : (16 * m + n) / 16 = m := by omega
  have hsecond : (16 * m + n) % 16 = n := by omega
  rw [pair, hbyte, hfirst, hsecond, hmdigit, hndigit]

theorem decode?_pair_eq_some_iff : decode? (hi :: lo :: l) = some bytes ↔
    ∃ m n tail, value? hi = some m ∧ value? lo = some n ∧ decode? l = some tail ∧
      UInt8.ofNat (16 * m + n) :: tail = bytes := by
  simp only [decode?, Option.bind_eq_bind, Option.bind_eq_some_iff, Option.some.injEq]
  constructor
  · rintro ⟨m, hm, n, hn, tail, htail, rfl⟩
    exact ⟨m, n, tail, hm, hn, htail, rfl⟩
  · rintro ⟨m, n, tail, hm, hn, htail, rfl⟩
    exact ⟨m, hm, n, hn, tail, htail, rfl⟩

/-- What is read is written in lower case. -/
theorem encode_of_decode? (h : decode? l = some bytes) : encode bytes = l.map Char.toLower := by
  induction l using decode?.induct generalizing bytes with
  | case1 =>
    obtain rfl : [] = bytes := Option.some.inj h
    rfl
  | case2 hi lo rest ih =>
    obtain ⟨m, n, tail, hm, hn, htail, rfl⟩ := decode?_pair_eq_some_iff.1 h
    have hcons : encode (UInt8.ofNat (16 * m + n) :: tail) =
        pair (UInt8.ofNat (16 * m + n)) ++ encode tail := List.flatMap_cons
    rw [hcons, pair_of_values hm hn, ih htail]
    rfl
  | case3 => contradiction

theorem length_of_decode? (h : decode? l = some bytes) : l.length = 2 * bytes.length := by
  rw [← length_encode, encode_of_decode? h, List.length_map]

/-- Exactly the pairs of digits are read. -/
theorem exists_decode?_iff :
    (∃ bytes, decode? l = some bytes) ↔ 2 ∣ l.length ∧ ∀ c ∈ l, IsDigit c := by
  induction l using decode?.induct with
  | case1 => simp [decode?]
  | case2 hi lo rest ih =>
    have hlength : 2 ∣ (hi :: lo :: rest).length ↔ 2 ∣ rest.length := by
      rw [List.length_cons, List.length_cons]
      omega
    rw [hlength, List.forall_mem_cons, List.forall_mem_cons, and_left_comm (b := IsDigit hi),
      and_left_comm (b := IsDigit lo), ← ih, ← value?_ne_none_iff, ← value?_ne_none_iff,
      Option.ne_none_iff_exists', Option.ne_none_iff_exists']
    simp only [decode?_pair_eq_some_iff]
    constructor
    · rintro ⟨bytes, m, n, tail, hm, hn, htail, -⟩
      exact ⟨⟨m, hm⟩, ⟨n, hn⟩, tail, htail⟩
    · rintro ⟨⟨m, hm⟩, ⟨n, hn⟩, tail, htail⟩
      exact ⟨_, m, n, tail, hm, hn, htail, rfl⟩
  | case3 => simp [decode?]

end Reading

end RosGraph.Text.Hex
