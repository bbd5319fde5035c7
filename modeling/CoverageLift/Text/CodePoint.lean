/-!
# Code points and text

A **text** is a list of code points. A JSON escape may name half of a surrogate pair without the
other half, and such a half can be part of a path or a key, so a code point is either a Unicode
scalar value (`Char`) or a lone surrogate. Texts are ordered by the values of their code points.
-/

namespace CoverageLift

/-- A Unicode code point: a scalar value, or a lone surrogate given by its offset from `0xD800`. -/
inductive CodePoint
  | char (c : Char)
  | surrogate (offset : Fin 0x800)
  deriving DecidableEq, Inhabited, Repr

namespace CodePoint

/-- The number of a code point. -/
def value : CodePoint → Nat
  | char c => c.toNat
  | surrogate offset => 0xD800 + offset.val

/-- The code point with the number `n`, if there is one. -/
def ofNat? (n : Nat) : Option CodePoint :=
  if h : n.isValidChar then some (char (Char.ofNatAux n h))
  else if 0xD800 ≤ n ∧ n < 0xE000 then some (surrogate (Fin.ofNat 0x800 (n - 0xD800)))
  else none

instance : LT CodePoint := ⟨fun a b => a.value < b.value⟩

instance : DecidableLT CodePoint := fun a b => inferInstanceAs (Decidable (a.value < b.value))

instance : LE CodePoint := ⟨fun a b => a.value ≤ b.value⟩

/-- A scalar value is no number of a surrogate. -/
theorem toNat_ne (c : Char) (offset : Fin 0x800) : c.toNat ≠ 0xD800 + offset.val := by
  have hvalid : c.val.toNat.isValidChar := c.valid
  have hoffset := offset.isLt
  simp only [Nat.isValidChar] at hvalid
  show c.val.toNat ≠ _
  omega

/-- Code points with one number are the same. -/
theorem value_injective {a b : CodePoint} (h : a.value = b.value) : a = b := by
  match a, b, h with
  | char c, char d, h => exact congrArg char (Char.toNat_inj.1 h)
  | char c, surrogate i, h => exact absurd h (toNat_ne c i)
  | surrogate i, char d, h => exact absurd h.symm (toNat_ne d i)
  | surrogate i, surrogate j, h => exact congrArg surrogate (Fin.ext (Nat.add_left_cancel h))

instance : Std.IsLinearOrder CodePoint where
  le_refl a := Nat.le_refl a.value
  le_trans _ _ _ hab hbc := Nat.le_trans hab hbc
  le_antisymm _ _ hab hba := value_injective (Nat.le_antisymm hab hba)
  le_total a b := Nat.le_total a.value b.value

instance : Std.LawfulOrderLT CodePoint where
  lt_iff a b := Nat.lt_iff_le_and_not_ge (m := a.value) (n := b.value)

/-- The value of a decimal digit of ASCII. -/
def digit? : CodePoint → Option Nat
  | char c => if '0' ≤ c ∧ c ≤ '9' then some (c.toNat - 48) else none
  | surrogate _ => none

/-- The value of a hexadecimal digit of ASCII, in either case. -/
def hexDigit? : CodePoint → Option Nat
  | char c =>
    if '0' ≤ c ∧ c ≤ '9' then some (c.toNat - 48)
    else if 'a' ≤ c ∧ c ≤ 'f' then some (c.toNat - 87)
    else if 'A' ≤ c ∧ c ≤ 'F' then some (c.toNat - 55)
    else none
  | surrogate _ => none

/-- Letters of ASCII. -/
def isLetter : CodePoint → Bool
  | char c => ('a' ≤ c ∧ c ≤ 'z') ∨ ('A' ≤ c ∧ c ≤ 'Z')
  | surrogate _ => false

/-- Decimal digits of ASCII. -/
def isDigit (c : CodePoint) : Bool := c.digit?.isSome

/-- Code points below `0x80`. -/
def isAscii (c : CodePoint) : Bool := c.value < 0x80

end CodePoint

/-- A text is a list of code points. -/
abbrev Text := List CodePoint

namespace Text

/-- The code points of a string. -/
def ofString (s : String) : Text := s.toList.map .char

instance : Coe String Text := ⟨ofString⟩

theorem ofString_append (s s' : String) : ofString (s ++ s') = ofString s ++ ofString s' := by
  rw [ofString, String.toList_append, List.map_append]
  rfl

/-- The text as a string; a lone surrogate, which no string holds, becomes U+FFFD. -/
def toString (t : Text) : String :=
  String.ofList (t.map fun
    | .char c => c
    | .surrogate _ => '\uFFFD')

/-- Whether a text holds a lone surrogate. -/
def hasSurrogate (t : Text) : Bool :=
  t.any fun
    | .surrogate _ => true
    | .char _ => false

/-- Texts in ascending order of their code points. -/
def sort (ts : List Text) : List Text := ts.mergeSort fun a b => decide (¬ b < a)

theorem mem_sort {t : Text} {ts : List Text} : t ∈ sort ts ↔ t ∈ ts :=
  (List.mergeSort_perm ts _).mem_iff

theorem length_sort (ts : List Text) : (sort ts).length = ts.length :=
  (List.mergeSort_perm ts _).length_eq

/-- Texts that are all different are sorted into strictly ascending order. -/
theorem pairwise_sort {ts : List Text} (h : ts.Nodup) : (sort ts).Pairwise (· < ·) := by
  have hsorted : (sort ts).Pairwise fun a b => decide (¬ b < a) = true := by
    refine List.pairwise_mergeSort (fun a b c hab hbc => ?_) (fun a b => ?_) ts
    · simp only [decide_eq_true_eq] at *
      exact List.le_trans hab hbc
    · simpa using List.le_total a b
  have hnodup : (sort ts).Nodup := (List.mergeSort_perm ts _).nodup_iff.2 h
  refine hsorted.imp₂ (fun a b hle hne => ?_) hnodup
  -- neither of two different texts comes after the other
  exact Decidable.not_not.1 fun hnot => hne (List.le_antisymm (of_decide_eq_true hle) hnot)

end Text

end CoverageLift
