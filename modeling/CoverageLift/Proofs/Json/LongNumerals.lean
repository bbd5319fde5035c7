import Mathlib.Data.List.TakeWhile
import CoverageLift.Json.Parser

/-!
# Numerals that are too long to be read

Of the texts that are JSON the reader refuses those with an integer literal of too many digits. Every
part of the reader **stays in the text** that it is given (`StaysIn`): it ends at a place of that
text, and when it refuses a literal for its length, the digits stand there one after the other. By
induction on the fuel this holds of values, items and members, and so of the whole text
(`hasLongNumeral_of_read`).
-/

namespace CoverageLift.Json

/-- A text has `n` digits in a row, which are too many for a numeral. -/
def HasLongNumeral (t : Text) (n : Nat) : Prop :=
  Text.maxNumeralLength < n ∧
    ∃ digits, digits <:+: t ∧ digits.length = n ∧ ∀ c ∈ digits, c.isDigit = true

/-- A part of the reader that was given the text `t` ends in it, and refuses literals of it. -/
def StaysIn {α : Type} (t : Text) : Except Fault (α × Cursor) → Prop
  | .ok (_, after) => after.rest <:+ t
  | .error (.longInteger n) => HasLongNumeral t n
  | .error (.at _ _) => True

variable {α β : Type} {t t' : Text}

theorem HasLongNumeral.mono {n : Nat} (h : HasLongNumeral t n) (ht : t <:+ t') :
    HasLongNumeral t' n := by
  obtain ⟨hlong, digits, hdigits, hrest⟩ := h
  exact ⟨hlong, digits, hdigits.trans ht.isInfix, hrest⟩

theorem StaysIn.mono {x : Except Fault (α × Cursor)} (h : StaysIn t x) (ht : t <:+ t') :
    StaysIn t' x := by
  match x, h with
  | .ok (_, _), h => exact h.trans ht
  | .error (.longInteger _), h => exact HasLongNumeral.mono h ht
  | .error (.at _ _), _ => trivial

/-- A refusal stands for the whole of which the refused part is one. -/
theorem StaysIn.error {fault : Fault} (h : StaysIn t (.error fault : Except Fault (α × Cursor))) :
    StaysIn t (.error fault : Except Fault (β × Cursor)) := by
  match fault, h with
  | .longInteger _, h => exact h
  | .at _ _, _ => trivial

theorem StaysIn.map {x : Except Fault (α × Cursor)} (h : StaysIn t x) (f : α → β) :
    StaysIn t (x.map fun (a, after) => (f a, after)) := by
  match x, h with
  | .ok (_, _), h => exact h
  | .error _, h => exact h.error

theorem rest_advance (c : Cursor) (n : Nat) : (c.advance n).rest <:+ c.rest := List.drop_suffix _ _

theorem rest_skipSpace (c : Cursor) : c.skipSpace.rest <:+ c.rest := rest_advance _ _

/-! ### Strings -/

/-- An escape is never refused for its length. -/
theorem readEscape_ne_longInteger (start index : Nat) (rest : Text) (n : Nat) :
    readEscape start index rest ≠ .error (.longInteger n) := by
  intro h
  unfold readEscape at h
  repeat' split at h
  all_goals cases h

theorem staysIn_readString (start : Nat) (rest : Text) :
    ∀ index skip read, StaysIn rest (readString start index skip read rest) := by
  induction rest with
  | nil => exact fun index skip read => trivial
  | cons c rest ih =>
    intro index skip read
    have hrest : rest <:+ c :: rest := List.suffix_cons c rest
    rcases skip with _ | skip
    · rw [readString]
      split
      · exact hrest
      · split
        · split
          · next fault hfault =>
            match fault, hfault with
            | .longInteger n, hfault => exact absurd hfault (readEscape_ne_longInteger _ _ _ n)
            | .at _ _, _ => trivial
          · exact (ih _ _ _).mono hrest
        · split
          · trivial
          · exact (ih _ _ _).mono hrest
    · exact (ih _ _ _).mono hrest

/-! ### Numbers -/

theorem prefix_integerPart (t : Text) : integerPart t <+: t := by
  unfold integerPart
  split
  · exact ⟨_, rfl⟩
  · exact List.takeWhile_prefix _

theorem isDigit_of_mem_integerPart {c : CodePoint} (h : c ∈ integerPart t) : c.isDigit = true := by
  unfold integerPart at h
  split at h
  · rw [List.mem_singleton.1 h]
    rfl
  · exact List.all_eq_true.1 List.all_takeWhile c h

/-- A number that is read ends in the text. -/
theorem rest_of_readNumber {c after : Cursor} {v : Json}
    (h : readNumber c = .ok (some (v, after))) : after.rest <:+ c.rest := by
  unfold readNumber at h
  split at h
  dsimp only at h
  split at h
  · cases h
  · split at h
    · split at h
      · cases h
      · obtain ⟨-, rfl⟩ := Prod.mk.inj (Option.some.inj (Except.ok.inj h))
        exact rest_advance _ _
    · obtain ⟨-, rfl⟩ := Prod.mk.inj (Option.some.inj (Except.ok.inj h))
      exact rest_advance _ _

/-- A number that is refused has its digits in the text, perhaps behind a sign. -/
theorem staysIn_of_readNumber {c : Cursor} {fault : Fault} (h : readNumber c = .error fault) :
    StaysIn c.rest (.error fault : Except Fault (Json × Cursor)) := by
  unfold readNumber at h
  split at h
  next negative body hsign =>
  have hbody : body <:+ c.rest := by
    split at hsign
    · next rest hrest =>
      obtain ⟨-, rfl⟩ := Prod.mk.inj hsign
      exact hrest ▸ List.suffix_cons _ rest
    · obtain ⟨-, rfl⟩ := Prod.mk.inj hsign
      exact List.suffix_refl _
  dsimp only at h
  split at h
  · cases h
  · split at h
    · split at h
      · next hlong =>
        obtain rfl := Except.error.inj h
        exact ⟨hlong, _, (prefix_integerPart body).isInfix.trans hbody.isInfix, rfl,
          fun _ => isDigit_of_mem_integerPart⟩
      · cases h
    · cases h

/-! ### Values -/

theorem staysIn_readSimple (c : Cursor) : StaysIn c.rest (readSimple c) := by
  unfold readSimple
  split
  · next rest hrest =>
    rw [hrest]
    exact ((staysIn_readString _ _ _ _ _).map _).mono (List.suffix_cons _ _)
  · split
    · exact rest_advance _ _
    · split
      · next hfault => exact staysIn_of_readNumber hfault
      · next hresult => exact rest_of_readNumber hresult
      · trivial

/-- What follows white space behind a character. -/
theorem rest_skipSpace_advance (c : Cursor) : (c.advance 1).skipSpace.rest <:+ c.rest :=
  (rest_skipSpace _).trans (rest_advance _ _)

/-- Every part of the reader stays in its text, whatever the fuel. -/
theorem staysIn_parts (fuel : Nat) :
    (∀ c, StaysIn c.rest (readValue fuel c)) ∧
      (∀ read c, StaysIn c.rest (readItems fuel read c)) ∧
      ∀ read c, StaysIn c.rest (readMembers fuel read c) := by
  induction fuel with
  | zero => exact ⟨fun c => trivial, fun read c => trivial, fun read c => trivial⟩
  | succ fuel ih =>
    obtain ⟨hvalue, hitems, hmembers⟩ := ih
    refine ⟨fun c => ?_, fun read c => ?_, fun read c => ?_⟩
    · -- a value is an object, an array or neither
      unfold readValue
      split
      · dsimp only
        split
        · exact (rest_advance _ _).trans (rest_skipSpace_advance c)
        · exact (hmembers _ _).mono (rest_skipSpace_advance c)
      · dsimp only
        split
        · exact (rest_advance _ _).trans (rest_skipSpace_advance c)
        · exact (hitems _ _).mono (rest_skipSpace_advance c)
      · exact staysIn_readSimple c
    · have hitem := hvalue c
      unfold readItems
      split
      · next hfault =>
        rw [hfault] at hitem
        exact hitem.error
      · next item after hafter =>
        rw [hafter] at hitem
        have hspace : after.skipSpace.rest <:+ c.rest := (rest_skipSpace after).trans hitem
        dsimp only
        split
        · exact (rest_advance _ _).trans hspace
        · exact (hitems _ _).mono ((rest_skipSpace_advance _).trans hspace)
        · trivial
    · unfold readMembers
      split
      · next rest hrest =>
        have hkey := (staysIn_readString c.index rest (c.index + 1) 0 []).mono
          (hrest ▸ List.suffix_cons _ rest)
        split
        · next hfault =>
          rw [hfault] at hkey
          exact hkey.error
        · next key after hafter =>
          rw [hafter] at hkey
          have hspace : after.skipSpace.rest <:+ c.rest := (rest_skipSpace after).trans hkey
          dsimp only
          split
          · have hmember := (hvalue (after.skipSpace.advance 1).skipSpace).mono
              ((rest_skipSpace_advance _).trans hspace)
            split
            · next hfault =>
              rw [hfault] at hmember
              exact hmember.error
            · next value behind hbehind =>
              rw [hbehind] at hmember
              have hspace : behind.skipSpace.rest <:+ c.rest := (rest_skipSpace behind).trans hmember
              split
              · exact (rest_advance _ _).trans hspace
              · exact (hmembers _ _).mono ((rest_skipSpace_advance _).trans hspace)
              · trivial
          · trivial
      · trivial

/-- **A text that is refused for the length of a numeral holds that many digits in a row.** -/
theorem hasLongNumeral_of_read {n : Nat} (h : read t = .error (.longInteger n)) :
    HasLongNumeral t n := by
  have hvalue := (staysIn_parts (2 * t.length + 2)).1 (Cursor.skipSpace ⟨0, t⟩)
  rw [read] at h
  split at h
  · cases h
  · next digits hread =>
    obtain rfl := ReadError.longInteger.inj (Except.error.inj h)
    unfold readText at hread
    split at hread
    · cases hread
    · split at hread
      · next fault hfault =>
        obtain rfl := Except.error.inj hread
        rw [hfault] at hvalue
        exact HasLongNumeral.mono hvalue (rest_skipSpace ⟨0, t⟩)
      · dsimp only at hread
        split at hread <;> cases hread
  · cases h

/-- A numeral of too many digits that begins with a one is refused. -/
theorem read_one_cons {rest : Text} (hdigits : ∀ c ∈ rest, c.isDigit = true)
    (hlong : Text.maxNumeralLength ≤ rest.length) :
    read (.char '1' :: rest) = .error (.longInteger (rest.length + 1)) := by
  have hpart : integerPart (.char '1' :: rest) = .char '1' :: rest :=
    List.takeWhile_eq_self_iff.2 (List.forall_mem_cons.2 ⟨rfl, hdigits⟩)
  have hnumber : readNumber ⟨0, .char '1' :: rest⟩ = .error (.longInteger (rest.length + 1)) := by
    have hlong : (CodePoint.char '1' :: rest).length > Text.maxNumeralLength :=
      Nat.lt_succ_of_le hlong
    unfold readNumber
    split
    next negative body hsign =>
      obtain ⟨rfl, rfl⟩ :=
        Prod.mk.inj (show (false, CodePoint.char '1' :: rest) = (negative, body) from hsign)
      dsimp only
      rw [hpart, List.drop_length]
      exact if_pos hlong
  have hsimple : readSimple ⟨0, .char '1' :: rest⟩ = .error (.longInteger (rest.length + 1)) := by
    have hname : (names.find? fun name => Text.startsWith name.1 (.char '1' :: rest)) = none := rfl
    unfold readSimple
    split
    · next h => simp at h
    · rw [hname, hnumber]
  have htext : readText (.char '1' :: rest) = .error (.longInteger (rest.length + 1)) := by
    unfold readText
    split
    · next h => simp at h
    · have hvalue : readValue (2 * (CodePoint.char '1' :: rest).length + 2)
          (Cursor.skipSpace ⟨0, .char '1' :: rest⟩) = readSimple ⟨0, .char '1' :: rest⟩ := rfl
      rw [hvalue, hsimple]
  rw [read, htext]

end CoverageLift.Json
