import CoverageLift.SourceMap.Vlq
import Mathlib.Data.List.Forall2

/-!
# Words of digits

The grammar behind base64 VLQ. A **word** is what one number is written as: digits of five bits, the
lowest first, of which all but the last continue (`Spells`). A **segment** is one word after the other,
with the sign of each number in its lowest bit (`IsSegment`). Every text is a segment, or it has a
character outside the alphabet, or it breaks off inside a word (`isSegment_or_fails`); the reader tells
the three apart, whatever bits it carries along at the time. So **a segment is accepted exactly when
all its characters are digits and the last one does not continue** (`decode_accepts_iff`).
-/

namespace CoverageLift.Vlq

open Base64 (digit? digitChar)

/-! ### Digits -/

/-- The digits in the order of their values. -/
def alphabet : Text := "ABCDEFGHIJKLMNOPQRSTUVWXYZabcdefghijklmnopqrstuvwxyz0123456789+/"

/-- The digits of which another one follows: those whose sixth bit is set. -/
def continuing : Text := alphabet.drop 32

theorem alphabet_eq : alphabet = (List.range 64).map digitChar := rfl

theorem getElem?_alphabet {d : Nat} {c : CodePoint} :
    alphabet[d]? = some c ↔ d < 64 ∧ c = digitChar d := by
  rw [alphabet_eq, List.getElem?_map, Option.map_eq_some_iff]
  simp only [List.getElem?_eq_some_iff, List.length_range, List.getElem_range]
  exact ⟨fun ⟨_, ⟨hd, rfl⟩, hc⟩ => ⟨hd, hc.symm⟩, fun ⟨hd, hc⟩ => ⟨d, ⟨hd, rfl⟩, hc.symm⟩⟩

theorem mem_alphabet_iff {c : CodePoint} : c ∈ alphabet ↔ ∃ d < 64, c = digitChar d := by
  rw [List.mem_iff_getElem?]
  exact exists_congr fun d => getElem?_alphabet

theorem mem_continuing_iff {c : CodePoint} : c ∈ continuing ↔ ∃ d < 32, c = digitChar (32 + d) := by
  rw [continuing, List.mem_iff_getElem?]
  refine exists_congr fun d => ?_
  rw [List.getElem?_drop, getElem?_alphabet]
  exact and_congr_left fun _ => by omega

/-- A digit that ends a number. -/
theorem last_digit {d : Nat} (h : d < 32) : digitChar d ∈ alphabet ∧ digitChar d ∉ continuing := by
  refine ⟨mem_alphabet_iff.2 ⟨d, by omega, rfl⟩, fun hmem => ?_⟩
  obtain ⟨e, he, heq⟩ := mem_continuing_iff.1 hmem
  have hvalue := Base64.digit?_digitChar (show d < 64 by omega)
  rw [heq, Base64.digit?_digitChar (by omega)] at hvalue
  have := Option.some.inj hvalue
  omega

/-- A digit that another one follows. -/
theorem more_digit {d : Nat} (h : d < 32) :
    digitChar (32 + d) ∈ alphabet ∧ digitChar (32 + d) ∈ continuing :=
  ⟨mem_alphabet_iff.2 ⟨32 + d, by omega, rfl⟩, mem_continuing_iff.2 ⟨d, h, rfl⟩⟩

theorem digit_cases {c : CodePoint} (h : c ∈ alphabet) :
    (∃ d < 32, c = digitChar d) ∨ ∃ d < 32, c = digitChar (32 + d) := by
  obtain ⟨d, hd, rfl⟩ := mem_alphabet_iff.1 h
  by_cases hlast : d < 32
  · exact .inl ⟨d, hlast, rfl⟩
  · exact .inr ⟨d - 32, by omega, by rw [Nat.add_sub_cancel' (Nat.le_of_not_lt hlast)]⟩

/-! ### The reader at one character -/

section Reader

variable {segment rest : Text} {value shift d : Nat} {c : CodePoint}

theorem decodeFrom_last (h : d < 32) :
    decodeFrom segment value shift (digitChar d :: rest) =
      (decodeFrom segment 0 0 rest).map (signed (value + d <<< shift) :: ·) := by
  rw [decodeFrom, Base64.digit?_digitChar (by omega)]
  simp only [Nat.mod_eq_of_lt h, if_neg (Nat.not_le.2 h)]

theorem decodeFrom_more (h : d < 32) :
    decodeFrom segment value shift (digitChar (32 + d) :: rest) =
      decodeFrom segment (value + d <<< shift) (shift + 5) rest := by
  have hbits : (32 + d) % 32 = d := by omega
  rw [decodeFrom, Base64.digit?_digitChar (by omega)]
  simp only [hbits, if_pos (Nat.le_add_right 32 d)]

theorem decodeFrom_foreign (h : c ∉ alphabet) :
    decodeFrom segment value shift (c :: rest) = .error (.invalidCharacter c segment) := by
  have hnone : digit? c = none := by
    rcases hdigit : digit? c with _ | d
    · rfl
    · exact absurd (mem_alphabet_iff.2 ⟨d, Base64.digit?_eq_some_iff.1 hdigit⟩) h
  rw [decodeFrom, hnone]

end Reader

/-! ### Words and segments -/

/-- A word spells the bits of a natural number: five bits for each digit, the lowest first, and all
digits but the last continue. -/
inductive Spells : Text → Nat → Prop
  | last {d : Nat} (h : d < 32) : Spells [digitChar d] d
  | more {d n : Nat} {word : Text} (h : d < 32) (hword : Spells word n) :
      Spells (digitChar (32 + d) :: word) (d + 32 * n)

/-- A segment is the words of its numbers, one after the other. -/
inductive IsSegment : Text → List Int → Prop
  | nil : IsSegment [] []
  | cons {word rest : Text} {n : Nat} {numbers : List Int} (hword : Spells word n)
      (hrest : IsSegment rest numbers) : IsSegment (word ++ rest) (signed n :: numbers)

/-- Why a text is no segment: its first character outside the alphabet, or else its last digit, which
continues. -/
inductive Fails (segment : Text) : DecodeError → Prop
  | foreign {before behind : Text} {c : CodePoint} (hsplit : segment = before ++ c :: behind)
      (hbefore : before ⊆ alphabet) (hc : c ∉ alphabet) : Fails segment (.invalidCharacter c segment)
  | truncated {before : Text} {c : CodePoint} (hsplit : segment = before ++ [c])
      (hbefore : before ⊆ alphabet) (hc : c ∈ alphabet) (hmore : c ∈ continuing) :
      Fails segment (.truncated segment)

variable {segment word text more : Text} {n : Nat} {numbers others : List Int}

theorem Spells.ne_nil (h : Spells word n) : word ≠ [] := by
  cases h <;> exact List.cons_ne_nil _ _

/-- A word has digits only. -/
theorem Spells.subset (h : Spells word n) : word ⊆ alphabet := by
  induction h with
  | last h => exact List.cons_subset.2 ⟨(last_digit h).1, List.nil_subset _⟩
  | more h _ ih => exact List.cons_subset.2 ⟨(more_digit h).1, ih⟩

/-- Of the digits of a word one does not continue. -/
theorem Spells.countP (h : Spells word n) : word.countP (· ∉ continuing) = 1 := by
  induction h with
  | last h => simp [(last_digit h).2]
  | more h _ ih => simpa [List.countP_cons, (more_digit h).2] using ih

/-- It is the last one. -/
theorem Spells.exists_last (h : Spells word n) :
    ∃ before c, word = before ++ [c] ∧ c ∉ continuing := by
  induction h with
  | last h => exact ⟨[], _, rfl, (last_digit h).2⟩
  | @more d n word h _ ih =>
    obtain ⟨before, c, rfl, hc⟩ := ih
    exact ⟨digitChar (32 + d) :: before, c, rfl, hc⟩

theorem IsSegment.subset (h : IsSegment text numbers) : text ⊆ alphabet := by
  induction h with
  | nil => exact List.nil_subset _
  | cons hword _ ih => exact List.append_subset.2 ⟨hword.subset, ih⟩

/-- A segment has as many numbers as digits that do not continue. -/
theorem IsSegment.length (h : IsSegment text numbers) :
    numbers.length = text.countP (· ∉ continuing) := by
  induction h with
  | nil => rfl
  | cons hword _ ih => rw [List.length_cons, List.countP_append, hword.countP, ih, Nat.add_comm]

/-- The last digit of a segment does not continue. -/
theorem IsSegment.closed (h : IsSegment text numbers) : ∀ c ∈ text.getLast?, c ∉ continuing := by
  induction h with
  | nil => exact fun c hc => nomatch hc
  | @cons word rest n numbers hword hrest ih =>
    intro c hc
    rcases rest with _ | ⟨d, rest⟩
    · obtain ⟨before, last, rfl, hlast⟩ := hword.exists_last
      rw [List.append_nil, List.getLast?_concat] at hc
      exact Option.some.inj hc ▸ hlast
    · rw [List.getLast?_append_of_ne_nil _ (List.cons_ne_nil d rest)] at hc
      exact ih c hc

theorem IsSegment.append (h : IsSegment text numbers) (hmore : IsSegment more others) :
    IsSegment (text ++ more) (numbers ++ others) := by
  induction h with
  | nil => exact hmore
  | cons hword _ ih => exact List.append_assoc .. ▸ .cons hword ih

/-! ### The reader at a word, a segment and a fault -/

/-- **A word** is read as its bits behind the bits `value` of the digits before it. -/
theorem decodeFrom_of_spells (segment rest : Text) (h : Spells word n) :
    ∀ value shift, decodeFrom segment value shift (word ++ rest) =
      (decodeFrom segment 0 0 rest).map (signed (value + n <<< shift) :: ·) := by
  induction h with
  | last h => exact fun value shift => decodeFrom_last h
  | @more d n word h _ ih =>
    intro value shift
    have hbits : d <<< shift + n <<< (shift + 5) = (d + 32 * n) <<< shift := by
      simp only [Nat.shiftLeft_eq, Nat.pow_add, Nat.add_mul]
      rw [Nat.mul_comm 32 n, Nat.mul_assoc, Nat.mul_comm 32]
    rw [List.cons_append, decodeFrom_more h, ih, Nat.add_assoc, hbits]

/-- **A segment** is read as its numbers, and then what follows it. -/
theorem decodeFrom_of_isSegment (segment rest : Text) (h : IsSegment text numbers) :
    decodeFrom segment 0 0 (text ++ rest) = (decodeFrom segment 0 0 rest).map (numbers ++ ·) := by
  induction h with
  | nil => cases h : decodeFrom segment 0 0 rest <;> simp [h, Except.map]
  | cons hword _ ih =>
    rw [List.append_assoc, decodeFrom_of_spells segment _ hword, ih, Nat.zero_add,
      Nat.shiftLeft_zero]
    cases decodeFrom segment 0 0 rest <;> rfl

theorem decode_of_isSegment (h : IsSegment text numbers) : decode text = .ok numbers := by
  have hread := decodeFrom_of_isSegment text [] h
  rw [List.append_nil] at hread
  rw [decode, hread]
  simp [decodeFrom, Except.map]

/-- The reader stops at the first character outside the alphabet, whatever it carries along. -/
theorem decodeFrom_of_foreign {before behind : Text} {c : CodePoint} (hbefore : before ⊆ alphabet)
    (hc : c ∉ alphabet) :
    ∀ value shift, decodeFrom segment value shift (before ++ c :: behind) =
      .error (.invalidCharacter c segment) := by
  induction before with
  | nil => exact fun value shift => decodeFrom_foreign hc
  | cons first before ih =>
    intro value shift
    obtain ⟨hfirst, hrest⟩ := List.cons_subset.1 hbefore
    obtain ⟨d, hd, rfl⟩ | ⟨d, hd, rfl⟩ := digit_cases hfirst
    · rw [List.cons_append, decodeFrom_last hd, ih hrest]
      rfl
    · rw [List.cons_append, decodeFrom_more hd, ih hrest]

/-- Behind a digit that continues the shift is not zero, and the reader finds the end of the text. -/
theorem decodeFrom_of_truncated {before : Text} {c : CodePoint} (hbefore : before ⊆ alphabet)
    (hc : c ∈ alphabet) (hmore : c ∈ continuing) :
    ∀ value shift, decodeFrom segment value shift (before ++ [c]) = .error (.truncated segment) := by
  induction before with
  | nil =>
    intro value shift
    obtain ⟨d, hd, rfl⟩ | ⟨d, hd, rfl⟩ := digit_cases hc
    · exact absurd hmore (last_digit hd).2
    · rw [List.nil_append, decodeFrom_more hd, decodeFrom, if_neg (Nat.succ_ne_zero _)]
  | cons first before ih =>
    intro value shift
    obtain ⟨hfirst, hrest⟩ := List.cons_subset.1 hbefore
    obtain ⟨d, hd, rfl⟩ | ⟨d, hd, rfl⟩ := digit_cases hfirst
    · rw [List.cons_append, decodeFrom_last hd, ih hrest]
      rfl
    · rw [List.cons_append, decodeFrom_more hd, ih hrest]

theorem decode_of_fails {error : DecodeError} (h : Fails segment error) :
    decode segment = .error error := by
  cases h with
  | foreign hsplit hbefore hc =>
    rw [decode, hsplit]
    exact decodeFrom_of_foreign hbefore hc 0 0
  | truncated hsplit hbefore hc hmore =>
    rw [decode, hsplit]
    exact decodeFrom_of_truncated hbefore hc hmore 0 0

/-! ### Acceptance -/

/-- Every text is a segment, or it fails to be one. -/
theorem isSegment_or_fails (text : Text) :
    (∃ numbers, IsSegment text numbers) ∨ ∃ error, Fails text error := by
  induction text with
  | nil => exact .inl ⟨[], .nil⟩
  | cons c text ih =>
    by_cases hc : c ∈ alphabet
    · obtain ⟨numbers, h⟩ | ⟨error, h⟩ := ih
      · obtain ⟨d, hd, rfl⟩ | ⟨d, hd, rfl⟩ := digit_cases hc
        · exact .inl ⟨_, .cons (.last hd) h⟩
        · -- the digit goes to the first word, unless there is none
          cases h with
          | nil =>
            exact .inr ⟨_, .truncated (List.nil_append _).symm (List.nil_subset _) hc (more_digit hd).2⟩
          | cons hword hrest => exact .inl ⟨_, .cons (.more hd hword) hrest⟩
      · cases h with
        | foreign hsplit hbefore hforeign =>
          exact .inr ⟨_, .foreign (congrArg (List.cons c) hsplit)
            (List.cons_subset.2 ⟨hc, hbefore⟩) hforeign⟩
        | truncated hsplit hbefore hlast hmore =>
          exact .inr ⟨_, .truncated (congrArg (List.cons c) hsplit)
            (List.cons_subset.2 ⟨hc, hbefore⟩) hlast hmore⟩
    · exact .inr ⟨_, .foreign (List.nil_append _).symm (List.nil_subset _) hc⟩

/-- The numbers of a text are read exactly when it is their segment. -/
theorem decode_eq_ok_iff : decode text = .ok numbers ↔ IsSegment text numbers := by
  refine ⟨fun h => ?_, decode_of_isSegment⟩
  obtain ⟨others, hothers⟩ | ⟨error, herror⟩ := isSegment_or_fails text
  · exact Except.ok.inj (h.symm.trans (decode_of_isSegment hothers)) ▸ hothers
  · exact nomatch h.symm.trans (decode_of_fails herror)

/-- Reading a text fails exactly as the text does. -/
theorem decode_eq_error_iff {error : DecodeError} : decode text = .error error ↔ Fails text error := by
  refine ⟨fun h => ?_, decode_of_fails⟩
  obtain ⟨numbers, hnumbers⟩ | ⟨other, hother⟩ := isSegment_or_fails text
  · exact nomatch h.symm.trans (decode_of_isSegment hnumbers)
  · exact Except.error.inj (h.symm.trans (decode_of_fails hother)) ▸ hother

/-- A text is the segment of some numbers exactly when it has digits only, of which the last does not
continue. -/
theorem exists_isSegment_iff :
    (∃ numbers, IsSegment text numbers) ↔
      text ⊆ alphabet ∧ ∀ c ∈ text.getLast?, c ∉ continuing := by
  constructor
  · rintro ⟨numbers, h⟩
    exact ⟨h.subset, h.closed⟩
  · rintro ⟨hdigits, hclosed⟩
    refine (isSegment_or_fails text).resolve_right ?_
    rintro ⟨_, ⟨hsplit, -, hc⟩ | ⟨hsplit, -, -, hmore⟩⟩
    · exact hc (hdigits (hsplit ▸ List.mem_append_right _ List.mem_cons_self))
    · exact hclosed _ (by rw [hsplit, List.getLast?_concat]; rfl) hmore

/-- What follows a segment decides whether the whole is one. -/
theorem IsSegment.exists_append_iff (h : IsSegment text numbers) :
    (∃ all, IsSegment (text ++ more) all) ↔ ∃ others, IsSegment more others := by
  refine ⟨fun hall => ?_, fun ⟨others, hmore⟩ => ⟨_, h.append hmore⟩⟩
  obtain ⟨hdigits, hclosed⟩ := exists_isSegment_iff.1 hall
  refine exists_isSegment_iff.2 ⟨(List.append_subset.1 hdigits).2, fun c hc => hclosed c ?_⟩
  rw [List.getLast?_append, Option.mem_def.1 hc]
  rfl

/-- **Acceptance.** A text is accepted exactly when it has digits only, of which the last does not
continue, and it then has as many numbers as digits that do not continue. Behind an accepted text
another one is accepted exactly when it is on its own, and the numbers of both come one after the
other. A text that is not accepted is refused for its first character outside the alphabet, or else
for breaking off. -/
theorem decode_accepts_iff (text : Text) :
    ((∃ numbers, decode text = .ok numbers) ↔
      text ⊆ alphabet ∧ ∀ c ∈ text.getLast?, c ∉ continuing) ∧
    (∀ numbers, decode text = .ok numbers →
      numbers.length = text.countP (· ∉ continuing) ∧
      ∀ more,
        ((∃ all, decode (text ++ more) = .ok all) ↔ ∃ others, decode more = .ok others) ∧
        ∀ others, decode more = .ok others → decode (text ++ more) = .ok (numbers ++ others)) ∧
    ∀ error, decode text = .error error ↔
      (∃ before c behind, text = before ++ c :: behind ∧ before ⊆ alphabet ∧ c ∉ alphabet ∧
        error = .invalidCharacter c text) ∨
      (text ⊆ alphabet ∧ (∃ c ∈ text.getLast?, c ∈ continuing) ∧ error = .truncated text) := by
  refine ⟨?_, fun numbers hnumbers => ⟨?_, fun more => ⟨?_, fun others hothers => ?_⟩⟩, fun error => ?_⟩
  · simp only [decode_eq_ok_iff]
    exact exists_isSegment_iff
  · exact (decode_eq_ok_iff.1 hnumbers).length
  · simp only [decode_eq_ok_iff]
    exact (decode_eq_ok_iff.1 hnumbers).exists_append_iff
  · exact decode_of_isSegment ((decode_eq_ok_iff.1 hnumbers).append (decode_eq_ok_iff.1 hothers))
  · rw [decode_eq_error_iff]
    constructor
    · rintro (⟨hsplit, hbefore, hc⟩ | ⟨hsplit, hbefore, hc, hmore⟩)
      · exact .inl ⟨_, _, _, hsplit, hbefore, hc, rfl⟩
      · refine .inr ⟨?_, ⟨_, by rw [hsplit, List.getLast?_concat]; rfl, hmore⟩, rfl⟩
        exact hsplit ▸ List.append_subset.2 ⟨hbefore, List.cons_subset.2 ⟨hc, List.nil_subset _⟩⟩
    · rintro (⟨before, c, behind, hsplit, hbefore, hc, rfl⟩ | ⟨hdigits, ⟨c, hc, hmore⟩, rfl⟩)
      · exact .foreign hsplit hbefore hc
      · obtain ⟨before, hsplit⟩ := List.getLast?_eq_some_iff.1 hc
        obtain ⟨hbefore, hlast⟩ := List.append_subset.1 (hsplit ▸ hdigits)
        exact .truncated hsplit hbefore (hlast List.mem_cons_self) hmore

/-- A zero with a digit too many and a negative zero, then a number of two digits; and the first of
two characters outside the alphabet. -/
theorem decode_accepts_iff_of_zeros :
    ((∃ all, decode ("gAB" ++ "2H") = .ok all) ↔ ∃ others, decode "2H" = .ok others) ∧
      decode ("gAB" ++ "2H") = .ok ([0, 0] ++ [123]) ∧
      decode "gAB!2g?" = .error (.invalidCharacter (.char '!') "gAB!2g?") := by
  have hzeros : decode "gAB" = .ok [0, 0] := rfl
  obtain ⟨-, hbehind⟩ := (decode_accepts_iff "gAB").2.1 [0, 0] hzeros
  obtain ⟨hiff, happend⟩ := hbehind "2H"
  refine ⟨hiff, happend [123] rfl, ((decode_accepts_iff "gAB!2g?").2.2 _).2 (.inl ?_)⟩
  exact ⟨"gAB", .char '!', "2g?", rfl, by decide, by decide, rfl⟩

end CoverageLift.Vlq
