import CoverageLift.Text.Utf8

/-!
# Base64

The standard alphabet writes six bits per character. The encoder pads the last group of four; the
decoder is lenient: it skips characters outside the alphabet, ignores padding that does not close a
group, and stops at padding that does. What it refuses is a text that ends inside a group.
-/

namespace CoverageLift.Base64

/-- The value of a character of the alphabet, below 64. -/
def digit? : CodePoint → Option Nat
  | .char c =>
    if 'A' ≤ c ∧ c ≤ 'Z' then some (c.toNat - 65)
    else if 'a' ≤ c ∧ c ≤ 'z' then some (c.toNat - 71)
    else if '0' ≤ c ∧ c ≤ '9' then some (c.toNat + 4)
    else if c = '+' then some 62
    else if c = '/' then some 63
    else none
  | .surrogate _ => none

/-- The character of the alphabet with the value `n`, below 64. -/
def digitChar (n : Nat) : CodePoint :=
  if n < 26 then .char (Char.ofNat (n + 65))
  else if n < 52 then .char (Char.ofNat (n + 71))
  else if n < 62 then .char (Char.ofNat (n - 4))
  else if n = 62 then .char '+'
  else .char '/'

/-- Every value below 64 has a character of its own. -/
theorem digit?_digitChar {n : Nat} (h : n < 64) : digit? (digitChar n) = some n := by
  have hall : ∀ n : Fin 64, digit? (digitChar n) = some n.val := by decide
  exact hall ⟨n, h⟩

/-- The characters of the alphabet are ASCII. -/
theorem toNat_lt_of_digit? {c : Char} {n : Nat} (h : digit? (.char c) = some n) :
    c.toNat < 128 := by
  rw [digit?] at h
  split at h
  · next hc => exact Nat.lt_of_le_of_lt (m := 'Z'.toNat) hc.2 (by decide)
  split at h
  · next hc => exact Nat.lt_of_le_of_lt (m := 'z'.toNat) hc.2 (by decide)
  split at h
  · next hc => exact Nat.lt_of_le_of_lt (m := '9'.toNat) hc.2 (by decide)
  split at h
  · next hc => exact hc ▸ (by decide)
  split at h
  · next hc => exact hc ▸ (by decide)
  · cases h

/-- The value of a character is its place in the alphabet. -/
theorem digit?_eq_some_iff {c : CodePoint} {n : Nat} :
    digit? c = some n ↔ n < 64 ∧ c = digitChar n := by
  constructor
  · intro h
    rcases c with c | offset
    · have hall : ∀ m : Fin 128, ∀ n, digit? (.char (Char.ofNat m)) = some n →
          n < 64 ∧ .char (Char.ofNat m) = digitChar n := by
        have hone : ∀ m : Fin 128, (digit? (.char (Char.ofNat m))).all fun n =>
          decide (n < 64 ∧ .char (Char.ofNat m) = digitChar n) := by decide
        intro m n hn
        simpa [hn] using hone m
      have := hall ⟨c.toNat, toNat_lt_of_digit? h⟩ n
      rw [Char.ofNat_toNat] at this
      exact this h
    · cases h
  · rintro ⟨hn, rfl⟩
    exact digit?_digitChar hn

/-- Why a text is not base64. -/
inductive DecodeError
  /-- A code point outside ASCII. -/
  | notAscii
  /-- The text ends after the first character of a group; `count` characters were read. -/
  | danglingCharacter (count : Nat)
  /-- The text ends after the second or third character of a group. -/
  | incorrectPadding
  deriving DecidableEq, Repr

/-- The bytes of a group of two, three or four digits. -/
def groupBytes : List Nat → Bytes
  | [a, b] => [UInt8.ofNat (a * 4 + b / 16)]
  | [a, b, c] => [UInt8.ofNat (a * 4 + b / 16), UInt8.ofNat (b * 16 + c / 4)]
  | [a, b, c, d] =>
    [UInt8.ofNat (a * 4 + b / 16), UInt8.ofNat (b * 16 + c / 4), UInt8.ofNat (c * 64 + d)]
  | _ => []

/-- Decodes what follows `groups` complete groups, the digits `group` of the current one and `pads`
padding characters since its last digit. -/
def decodeFrom (groups : Nat) (group : List Nat) (pads : Nat) : Text → Except DecodeError Bytes
  | [] =>
    match group with
    | [] => .ok []
    | [_] => .error (.danglingCharacter (groups * 4 + 1))
    | _ => .error .incorrectPadding
  | c :: rest =>
    if c = .char '=' then
      if group.length < 2 then decodeFrom groups group pads rest
      else if group.length + (pads + 1) ≥ 4 then .ok (groupBytes group)
      else decodeFrom groups group (pads + 1) rest
    else
      match digit? c with
      | none => decodeFrom groups group pads rest
      | some d =>
        if group.length < 3 then decodeFrom groups (group ++ [d]) 0 rest
        else (decodeFrom (groups + 1) [] 0 rest).map (groupBytes (group ++ [d]) ++ ·)

/-- The bytes that a base64 text stands for. -/
def decode (t : Text) : Except DecodeError Bytes :=
  if t.all CodePoint.isAscii then decodeFrom 0 [] 0 t else .error .notAscii

theorem decodeFrom_ne_notAscii {t : Text} :
    ∀ {groups : Nat} {group : List Nat} {pads : Nat},
      decodeFrom groups group pads t ≠ .error .notAscii := by
  induction t with
  | nil =>
    intro groups group pads h
    unfold decodeFrom at h
    split at h <;> cases h
  | cons c t ih =>
    intro groups group pads h
    rw [decodeFrom] at h
    split at h
    · split at h
      · exact ih h
      · split at h
        · cases h
        · exact ih h
    · split at h
      · exact ih h
      · split at h
        · exact ih h
        · rcases hrest : decodeFrom (groups + 1) [] 0 t with error | bytes
          · rw [hrest] at h
            exact ih (hrest.trans (congrArg _ (Except.error.inj h)))
          · rw [hrest] at h
            cases h

theorem decode_eq_notAscii_iff {t : Text} :
    decode t = .error .notAscii ↔ ∃ c ∈ t, c.isAscii = false := by
  rw [decode]
  split
  · next hall =>
    refine iff_of_false decodeFrom_ne_notAscii fun ⟨c, hc, hforeign⟩ => ?_
    exact Bool.noConfusion (hforeign.symm.trans (List.all_eq_true.1 hall c hc))
  · next hall =>
    refine iff_of_true rfl ?_
    obtain ⟨c, hc, hforeign⟩ := List.all_eq_false.1 (Bool.not_eq_true _ ▸ hall)
    exact ⟨c, hc, Bool.not_eq_true _ ▸ hforeign⟩

/-- The base64 text of bytes, padded to groups of four characters. -/
def encode : Bytes → Text
  | [] => []
  | [x] =>
    let n := x.toNat
    [digitChar (n / 4), digitChar (n % 4 * 16), .char '=', .char '=']
  | [x, y] =>
    let n := x.toNat * 256 + y.toNat
    [digitChar (n / 1024), digitChar (n / 16 % 64), digitChar (n % 16 * 4), .char '=']
  | x :: y :: z :: rest =>
    let n := (x.toNat * 256 + y.toNat) * 256 + z.toNat
    digitChar (n / 262144) :: digitChar (n / 4096 % 64) :: digitChar (n / 64 % 64)
      :: digitChar (n % 64) :: encode rest

end CoverageLift.Base64
