import CoverageLift.Proofs.SourceMap.Words

/-!
# Reading back numbers

Integers of any size and sign are read back from the words in which they are written, with their sign
in the lowest bit (`Writes`). What is written for a number is a word of it (`spells_encodeNat`), so
what is written for a list of numbers is their segment, and **reading finds the numbers again**,
whichever words they are written in (`decode_flatten_words`).
-/

namespace CoverageLift.Vlq

/-! ### The sign -/

/-- The sign in the lowest bit is taken off again. -/
theorem signed_unsigned (n : Int) : signed (unsigned n) = n := by
  cases n with
  | ofNat n =>
    have heven : 2 * n % 2 ≠ 1 := by omega
    rw [unsigned, signed, if_neg heven, Nat.mul_div_cancel_left n (by decide)]
    rfl
  | negSucc n =>
    have hodd : (2 * (n + 1) + 1) % 2 = 1 := by omega
    have hhalf : (2 * (n + 1) + 1) / 2 = n + 1 := by omega
    rw [unsigned, signed, if_pos hodd, hhalf]
    rfl

/-- The bits of an integer: its magnitude behind its sign. -/
theorem unsigned_eq (n : Int) : unsigned n = 2 * n.natAbs + if n < 0 then 1 else 0 := by
  cases n with
  | ofNat n =>
    have hsign : ¬ Int.ofNat n < 0 := Int.not_lt.2 (Int.natCast_nonneg n)
    rw [unsigned, if_neg hsign]
    rfl
  | negSucc n =>
    rw [unsigned, if_pos (Int.negSucc_lt_zero n)]
    rfl

/-- A word writes an integer: the bits that it spells are the magnitude with the sign in the lowest
bit. -/
def Writes (word : Text) (n : Int) : Prop := Spells word (2 * n.natAbs + if n < 0 then 1 else 0)

/-- The words of integers make up their segment. -/
theorem isSegment_flatten {words : List Text} {numbers : List Int}
    (h : List.Forall₂ Writes words numbers) : IsSegment words.flatten numbers := by
  induction h with
  | nil => exact .nil
  | @cons word n words numbers hword _ ih =>
    have hcons := IsSegment.cons hword ih
    rwa [← unsigned_eq, signed_unsigned] at hcons

/-! ### What is written -/

/-- What is written for a natural number spells it. -/
theorem spells_encodeNat (n : Nat) : Spells (encodeNat n) n := by
  induction n using encodeNat.induct with
  | case1 n hlast =>
    rw [encodeNat, if_pos hlast]
    exact .last hlast
  | case2 n hmore ih =>
    have hword := Spells.more (Nat.mod_lt n (by decide)) ih
    rw [Nat.mod_add_div] at hword
    rwa [encodeNat, if_neg hmore]

/-- What is written for integers are their words. -/
theorem forall₂_writes (numbers : List Int) :
    List.Forall₂ Writes (numbers.map fun n => encodeNat (unsigned n)) numbers := by
  rw [List.forall₂_map_left_iff, List.forall₂_same]
  exact fun n _ => unsigned_eq n ▸ spells_encodeNat (unsigned n)

theorem flatten_words (numbers : List Int) :
    (numbers.map fun n => encodeNat (unsigned n)).flatten = encode numbers := by
  rw [encode, List.flatMap_def]

/-- What is written for a list of integers is their segment. -/
theorem isSegment_encode (numbers : List Int) : IsSegment (encode numbers) numbers :=
  flatten_words numbers ▸ isSegment_flatten (forall₂_writes numbers)

/-- The numbers of a written segment. -/
theorem decode_encode_self (numbers : List Int) : decode (encode numbers) = .ok numbers :=
  decode_of_isSegment (isSegment_encode numbers)

theorem encode_ne_nil {numbers : List Int} (h : numbers ≠ []) : encode numbers ≠ [] := by
  obtain ⟨n, numbers, rfl⟩ := List.exists_cons_of_ne_nil h
  rw [encode, List.flatMap_cons]
  exact List.append_ne_nil_of_left_ne_nil (spells_encodeNat _).ne_nil _

/-- A character outside the alphabet does not occur in a written segment. -/
theorem not_mem_encode {c : CodePoint} (h : Base64.digit? c = none) (numbers : List Int) :
    c ∉ encode numbers := by
  intro hc
  obtain ⟨d, hd, rfl⟩ := mem_alphabet_iff.1 ((isSegment_encode numbers).subset hc)
  rw [Base64.digit?_digitChar hd] at h
  cases h

/-- **Integers of any size and sign are read back** from their words, one after the other, and what is
written for a list of integers are words of them. -/
theorem decode_flatten_words (numbers : List Int) :
    (∀ words, List.Forall₂ Writes words numbers → decode words.flatten = .ok numbers) ∧
      ∃ words, List.Forall₂ Writes words numbers ∧ words.flatten = encode numbers :=
  ⟨fun _ h => decode_of_isSegment (isSegment_flatten h), _, forall₂_writes numbers,
    flatten_words numbers⟩

/-- A negative number of two digits, a zero with a digit too many, and a number beyond a machine
word. -/
theorem decode_flatten_words_of_padded_zero :
    let words : List Text := ["hB", "gA", encodeNat 0x20000000000000000]
    List.Forall₂ Writes words [-16, 0, 0x10000000000000000] ∧
      decode words.flatten = .ok [-16, 0, 0x10000000000000000] := by
  intro words
  have hwords : List.Forall₂ Writes words [-16, 0, 0x10000000000000000] := by
    refine .cons ?_ (.cons ?_ (.cons ?_ .nil))
    · exact Spells.more (d := 1) (by decide) (.last (d := 1) (by decide))
    · exact Spells.more (d := 0) (by decide) (.last (d := 0) (by decide))
    · exact spells_encodeNat 0x20000000000000000
  exact ⟨hwords, (decode_flatten_words _).1 _ hwords⟩

end CoverageLift.Vlq
