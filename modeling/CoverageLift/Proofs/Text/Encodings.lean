import CoverageLift.Proofs.Success
import CoverageLift.Text.Base64
import CoverageLift.Text.Percent
import Mathlib.Data.List.SplitBy

/-!
# Encoded text is read back

Three encodings carry a text through a URL: its code points become bytes as UTF-8, and the bytes
become ASCII characters, four for three as base64 or three for one as percent escapes. Each decoder
here takes more than its encoder writes. What the encoder writes it reads back, unit by unit: a
sequence for one scalar value is one piece, whatever bytes follow it (`pieces_encodeScalar_append`),
a group of base64 digits is one to three bytes (`decodeFrom_encode`), and an escape is one byte
(`bytesAfter_encodeByte_append`).
-/

namespace CoverageLift

/-! ### UTF-8 -/

namespace Utf8

variable {t : Text} {bytes rest : Bytes}

/-- A byte that continues a sequence contributes its last six bits. -/
theorem readTrail_cons {low high : UInt8} {ranges : List (UInt8 × UInt8)} {value length d : Nat}
    (hd : d < 0x40) (hlow : low.toNat ≤ 0x80 + d) (hhigh : 0x80 + d ≤ high.toNat) :
    readTrail ((low, high) :: ranges) value length (UInt8.ofNat (0x80 + d) :: bytes) =
      readTrail ranges (value * 64 + d) (length + 1) bytes := by
  have hbyte : (UInt8.ofNat (0x80 + d)).toNat = 0x80 + d :=
    UInt8.toNat_ofNat_of_lt (by show 0x80 + d < 256; omega)
  rw [readTrail, if_pos ⟨UInt8.le_iff_toNat_le.2 (hlow.trans_eq hbyte.symm),
    UInt8.le_iff_toNat_le.2 (hbyte.trans_le hhigh)⟩, hbyte, Nat.add_sub_cancel_left]

/-- A sequence of one byte. -/
theorem firstPiece_one {d : Nat} (hd : d < 0x80) :
    firstPiece (UInt8.ofNat d) rest = .scalar (Char.ofNat d) 1 := by
  have hlead : ∀ d : Fin 0x80, trail? (UInt8.ofNat d) = some (d.val, []) := by decide
  rw [firstPiece, hlead ⟨d, hd⟩]
  rfl

/-- A sequence of two bytes. -/
theorem firstPiece_two {d e : Nat} (h : 2 ≤ d) (hd : d < 0x20) (he : e < 0x40) :
    firstPiece (UInt8.ofNat (0xC0 + d)) (UInt8.ofNat (0x80 + e) :: rest) =
      .scalar (Char.ofNat (d * 64 + e)) 2 := by
  have hlead : ∀ d : Fin 0x20, 2 ≤ d.val →
      trail? (UInt8.ofNat (0xC0 + d)) = some (d.val, [(0x80, 0xBF)]) := by decide
  rw [firstPiece, hlead ⟨d, hd⟩ h]
  exact readTrail_cons he (Nat.le_add_right ..) (by show _ ≤ 0xBF; omega)

/-- A sequence of three bytes. The range of the second one rules out longer forms of small numbers
and the numbers of surrogates. -/
theorem firstPiece_three {d e f : Nat} (hd : d < 0x10) (he : e < 0x40) (hf : f < 0x40)
    (hlong : d = 0 → 0x20 ≤ e) (hsurrogate : d = 13 → e < 0x20) :
    firstPiece (UInt8.ofNat (0xE0 + d))
        (UInt8.ofNat (0x80 + e) :: UInt8.ofNat (0x80 + f) :: rest) =
      .scalar (Char.ofNat ((d * 64 + e) * 64 + f)) 3 := by
  have hlead : ∀ d : Fin 0x10, trail? (UInt8.ofNat (0xE0 + d)) = some (d.val,
      [(if d.val = 0 then 0xA0 else 0x80, if d.val = 13 then 0x9F else 0xBF), (0x80, 0xBF)]) := by
    decide
  rw [firstPiece, hlead ⟨d, hd⟩]
  change readTrail _ _ _ _ = _
  rw [readTrail_cons he ?low ?high,
    readTrail_cons hf (Nat.le_add_right ..) (by show _ ≤ 0xBF; omega), readTrail]
  case low =>
    split
    · next h => show 0xA0 ≤ _; have := hlong h; omega
    · exact Nat.le_add_right ..
  case high =>
    split
    · next h => show _ ≤ 0x9F; have := hsurrogate h; omega
    · show _ ≤ 0xBF; omega

/-- A sequence of four bytes. The range of the second one rules out longer forms of small numbers
and numbers above the last scalar value. -/
theorem firstPiece_four {d e f g : Nat} (hd : d < 5) (he : e < 0x40) (hf : f < 0x40)
    (hg : g < 0x40) (hlong : d = 0 → 0x10 ≤ e) (hlast : d = 4 → e < 0x10) :
    firstPiece (UInt8.ofNat (0xF0 + d))
        (UInt8.ofNat (0x80 + e) :: UInt8.ofNat (0x80 + f) :: UInt8.ofNat (0x80 + g) :: rest) =
      .scalar (Char.ofNat (((d * 64 + e) * 64 + f) * 64 + g)) 4 := by
  have hlead : ∀ d : Fin 5, trail? (UInt8.ofNat (0xF0 + d)) = some (d.val,
      [(if d.val = 0 then 0x90 else 0x80, if d.val = 4 then 0x8F else 0xBF), (0x80, 0xBF),
        (0x80, 0xBF)]) := by decide
  rw [firstPiece, hlead ⟨d, hd⟩]
  change readTrail _ _ _ _ = _
  rw [readTrail_cons he ?low ?high,
    readTrail_cons hf (Nat.le_add_right ..) (by show _ ≤ 0xBF; omega),
    readTrail_cons hg (Nat.le_add_right ..) (by show _ ≤ 0xBF; omega), readTrail]
  case low =>
    split
    · next h => show 0x90 ≤ _; have := hlong h; omega
    · exact Nat.le_add_right ..
  case high =>
    split
    · next h => show _ ≤ 0x8F; have := hlast h; omega
    · show _ ≤ 0xBF; omega

/-- The sequence for a scalar value is a piece, whatever bytes follow it. -/
theorem firstPiece_of_encodeScalar {c : Char} {lead : UInt8} {trail : Bytes}
    (h : encodeScalar c.toNat = lead :: trail) :
    firstPiece lead (trail ++ rest) = .scalar c (trail.length + 1) := by
  have hvalid : c.toNat < 0xD800 ∨ 0xDFFF < c.toNat ∧ c.toNat < 0x110000 := c.valid
  have hc : Char.ofNat c.toNat = c := Char.ofNat_toNat c
  generalize c.toNat = n at h hvalid hc
  subst hc
  rw [encodeScalar] at h
  split at h
  · next hone =>
    obtain ⟨rfl, rfl⟩ := List.cons.inj h
    exact firstPiece_one hone
  split at h
  · next hone htwo =>
    obtain ⟨rfl, rfl⟩ := List.cons.inj h
    refine (firstPiece_two (by omega) (by omega) (by omega)).trans ?_
    rw [Nat.div_add_mod']
    rfl
  split at h
  · next hone htwo hthree =>
    obtain ⟨rfl, rfl⟩ := List.cons.inj h
    refine (firstPiece_three (by omega) (by omega) (by omega) (by omega) (by omega)).trans ?_
    rw [show (n / 4096 * 64 + n / 64 % 64) * 64 + n % 64 = n by omega]
    rfl
  · next hone htwo hthree =>
    obtain ⟨rfl, rfl⟩ := List.cons.inj h
    refine (firstPiece_four (by omega) (by omega) (by omega) (by omega) (by omega)
      (by omega)).trans ?_
    rw [show ((n / 262144 * 64 + n / 4096 % 64) * 64 + n / 64 % 64) * 64 + n % 64 = n by omega]
    rfl

theorem piecesAfter_length_append (front : Bytes) :
    piecesAfter front.length (front ++ rest) = pieces rest := by
  induction front with
  | nil => rfl
  | cons b front ih => exact ih

/-- The sequence for a scalar value and the bytes behind it are cut apart. -/
theorem pieces_encodeScalar_append (c : Char) (rest : Bytes) :
    ∃ length, pieces (encodeScalar c.toNat ++ rest) = .scalar c length :: pieces rest := by
  obtain ⟨lead, trail, h⟩ : ∃ lead trail, encodeScalar c.toNat = lead :: trail := by
    rw [encodeScalar]
    split
    · exact ⟨_, _, rfl⟩
    split
    · exact ⟨_, _, rfl⟩
    split <;> exact ⟨_, _, rfl⟩
  refine ⟨trail.length + 1, ?_⟩
  rw [h, List.cons_append, pieces, piecesAfter, firstPiece_of_encodeScalar h]
  exact congrArg _ (piecesAfter_length_append trail)

theorem decodePieces_of_encodeFrom {start : Nat} (h : encodeFrom start t = .ok bytes) :
    ∀ (whole : Bytes) (place : Nat), decodePieces whole place (pieces bytes) = .ok t := by
  induction t generalizing start bytes with
  | nil =>
    obtain rfl := Except.ok.inj h
    exact fun _ _ => rfl
  | cons c t ih =>
    rcases c with c | offset
    · obtain ⟨bytes', ht, rfl⟩ := map_eq_ok_iff.1 h
      obtain ⟨length, hpieces⟩ := pieces_encodeScalar_append c bytes'
      intro whole place
      rw [hpieces, decodePieces, ih ht]
      rfl
    · cases h

/-- **The bytes that encode a text are read back as the text.** -/
theorem decode_of_encode (h : encode t = .ok bytes) : decode bytes = .ok t :=
  decodePieces_of_encodeFrom h bytes 0

theorem lossy_of_decodePieces {parts : List Piece} {whole : Bytes} {place : Nat}
    (h : decodePieces whole place parts = .ok t) :
    (parts.map fun
      | .scalar c _ => .char c
      | .invalid _ _ => .char '\uFFFD') = t := by
  induction parts generalizing place t with
  | nil => exact Except.ok.inj h
  | cons piece parts ih =>
    rcases piece with ⟨c, length⟩ | ⟨fault, length⟩
    · obtain ⟨t', hrest, rfl⟩ := map_eq_ok_iff.1 h
      rw [List.map_cons, ih hrest]
    · cases h

/-- The lenient reader agrees with the strict one where that reads. -/
theorem decodeLossy_of_decode (h : decode bytes = .ok t) : decodeLossy bytes = t :=
  lossy_of_decodePieces h

/-- Lone surrogates, and nothing else, keep a text from being encoded. -/
theorem exists_encodeFrom_iff (start : Nat) :
    (∃ bytes, encodeFrom start t = .ok bytes) ↔ t.hasSurrogate = false := by
  induction t generalizing start with
  | nil => exact iff_of_true ⟨[], rfl⟩ rfl
  | cons c t ih =>
    rw [Text.hasSurrogate, List.any_cons]
    rcases c with c | offset
    · rw [Bool.false_or, ← Text.hasSurrogate, ← ih (start + 1)]
      simp only [encodeFrom, map_eq_ok_iff]
      exact ⟨fun ⟨_, bytes, hbytes, _⟩ => ⟨bytes, hbytes⟩,
        fun ⟨bytes, hbytes⟩ => ⟨_, bytes, hbytes, rfl⟩⟩
    · exact iff_of_false (fun ⟨_, h⟩ => nomatch h) nofun

end Utf8

/-! ### Base64 -/

namespace Base64

variable {bytes : Bytes} {c : CodePoint}

/-- No digit is padding. -/
theorem digitChar_ne_pad {d : Nat} (hd : d < 64) : digitChar d ≠ .char '=' := fun heq =>
  nomatch (digit?_digitChar hd).symm.trans (congrArg digit? heq)

/-- A digit joins its group while that is not complete. -/
theorem decodeFrom_digitChar {groups d : Nat} {group : List Nat} {rest : Text} (hd : d < 64)
    (hgroup : group.length < 3) :
    decodeFrom groups group 0 (digitChar d :: rest) =
      decodeFrom groups (group ++ [d]) 0 rest := by
  rw [decodeFrom, if_neg (digitChar_ne_pad hd), digit?_digitChar hd]
  exact if_pos hgroup

/-- The fourth digit completes its group. -/
theorem decodeFrom_digitChar_of_three {groups d : Nat} {group : List Nat} {rest : Text}
    (hd : d < 64) (hgroup : group.length = 3) :
    decodeFrom groups group 0 (digitChar d :: rest) =
      (decodeFrom (groups + 1) [] 0 rest).map (groupBytes (group ++ [d]) ++ ·) := by
  rw [decodeFrom, if_neg (digitChar_ne_pad hd), digit?_digitChar hd]
  exact if_neg hgroup.not_lt

/-- The three bytes of a full group. -/
theorem groupBytes_of_three (x y z : UInt8) :
    let n := (x.toNat * 256 + y.toNat) * 256 + z.toNat
    groupBytes [n / 262144, n / 4096 % 64, n / 64 % 64, n % 64] = [x, y, z] := by
  intro n
  have hx := x.toNat_lt
  have hy := y.toNat_lt
  have hz := z.toNat_lt
  simp only [groupBytes, List.cons.injEq, and_true, ← UInt8.toNat_inj, UInt8.toNat_ofNat']
  refine ⟨?_, ?_, ?_⟩ <;> omega

/-- The two bytes of a group that is short of one digit. -/
theorem groupBytes_of_two (x y : UInt8) :
    let n := x.toNat * 256 + y.toNat
    groupBytes [n / 1024, n / 16 % 64, n % 16 * 4] = [x, y] := by
  intro n
  have hx := x.toNat_lt
  have hy := y.toNat_lt
  simp only [groupBytes, List.cons.injEq, and_true, ← UInt8.toNat_inj, UInt8.toNat_ofNat']
  refine ⟨?_, ?_⟩ <;> omega

/-- The byte of a group that is short of two digits. -/
theorem groupBytes_of_one (x : UInt8) : groupBytes [x.toNat / 4, x.toNat % 4 * 16] = [x] := by
  have hx := x.toNat_lt
  simp only [groupBytes, List.cons.injEq, and_true, ← UInt8.toNat_inj, UInt8.toNat_ofNat']
  omega

/-- Every group that the encoder writes is read back; a short one comes last, and its padding closes
it. -/
theorem decodeFrom_encode (bytes : Bytes) :
    ∀ groups, decodeFrom groups [] 0 (encode bytes) = .ok bytes := by
  induction bytes using encode.induct with
  | case1 => exact fun _ => rfl
  | case2 x =>
    intro groups
    have hx := x.toNat_lt
    rw [encode, decodeFrom_digitChar (by omega) (by simp),
      decodeFrom_digitChar (by omega) (by simp)]
    exact congrArg Except.ok (groupBytes_of_one x)
  | case3 x y =>
    intro groups
    have hx := x.toNat_lt
    have hy := y.toNat_lt
    rw [encode, decodeFrom_digitChar (by omega) (by simp),
      decodeFrom_digitChar (by omega) (by simp), decodeFrom_digitChar (by omega) (by simp)]
    exact congrArg Except.ok (groupBytes_of_two x y)
  | case4 x y z rest ih =>
    intro groups
    have hx := x.toNat_lt
    have hy := y.toNat_lt
    have hz := z.toNat_lt
    rw [encode, decodeFrom_digitChar (by omega) (by simp),
      decodeFrom_digitChar (by omega) (by simp), decodeFrom_digitChar (by omega) (by simp),
      decodeFrom_digitChar_of_three (by omega) (by simp), ih]
    exact congrArg (fun front => Except.ok (front ++ rest)) (groupBytes_of_three x y z)

/-- What stands in a base64 text. -/
theorem mem_encode (hc : c ∈ encode bytes) : (∃ n < 64, c = digitChar n) ∨ c = .char '=' := by
  induction bytes using encode.induct with
  | case1 => exact absurd hc List.not_mem_nil
  | case2 x =>
    have hx := x.toNat_lt
    simp only [encode, List.mem_cons, List.not_mem_nil, or_false] at hc
    obtain rfl | rfl | rfl | rfl := hc
    · exact .inl ⟨_, by omega, rfl⟩
    · exact .inl ⟨_, by omega, rfl⟩
    · exact .inr rfl
    · exact .inr rfl
  | case3 x y =>
    have hx := x.toNat_lt
    have hy := y.toNat_lt
    simp only [encode, List.mem_cons, List.not_mem_nil, or_false] at hc
    obtain rfl | rfl | rfl | rfl := hc
    · exact .inl ⟨_, by omega, rfl⟩
    · exact .inl ⟨_, by omega, rfl⟩
    · exact .inl ⟨_, by omega, rfl⟩
    · exact .inr rfl
  | case4 x y z rest ih =>
    have hx := x.toNat_lt
    have hy := y.toNat_lt
    have hz := z.toNat_lt
    simp only [encode, List.mem_cons] at hc
    obtain rfl | rfl | rfl | rfl | hc := hc
    · exact .inl ⟨_, by omega, rfl⟩
    · exact .inl ⟨_, by omega, rfl⟩
    · exact .inl ⟨_, by omega, rfl⟩
    · exact .inl ⟨_, by omega, rfl⟩
    · exact ih hc

/-- What holds of the alphabet and of padding holds of every base64 text. -/
theorem forall_mem_encode {p : CodePoint → Bool}
    (hdigit : ∀ n : Fin 64, p (digitChar n) = true) (hpad : p (.char '=') = true) :
    ∀ c ∈ encode bytes, p c = true := by
  intro c hc
  obtain ⟨n, hn, rfl⟩ | rfl := mem_encode hc
  · exact hdigit ⟨n, hn⟩
  · exact hpad

/-- **The base64 text of bytes is read back as the bytes.** -/
theorem decode_encode_bytes (bytes : Bytes) : decode (encode bytes) = .ok bytes := by
  rw [decode, if_pos (List.all_eq_true.2 (forall_mem_encode (by decide) (by decide)))]
  exact decodeFrom_encode bytes 0

example : encode [0x66] = "Zg==" ∧ encode [0x66, 0x6F] = "Zm8=" ∧
    encode [0x66, 0x6F, 0x6F] = "Zm9v" := by
  decide +kernel

end Base64

/-! ### Percent escapes -/

namespace Percent

variable {bytes : Bytes} {rest : Text} {c : CodePoint}

/-- The upper-case hexadecimal digits. -/
def hexDigitChar (n : Nat) : CodePoint := .char (Nat.digitChar n).toUpper

theorem hexDigit?_hexDigitChar {n : Nat} (h : n < 16) : (hexDigitChar n).hexDigit? = some n := by
  have hall : ∀ n : Fin 16, (hexDigitChar n).hexDigit? = some n.val := by decide
  exact hall ⟨n, h⟩

theorem encodeByte_eq (b : UInt8) :
    encodeByte b = [.char '%', hexDigitChar (b.toNat / 16), hexDigitChar (b.toNat % 16)] := rfl

/-- Two hexadecimal digits after a percent sign are read as a byte. -/
theorem bytesAfter_of_byte? {high low : CodePoint} {b : UInt8} (h : byte? high low = some b) :
    bytesAfter 0 (.char '%' :: high :: low :: rest) = b :: bytesAfter 0 rest := by
  simp only [bytesAfter, h]

/-- The escape of a byte is read as the byte, whatever follows it. -/
theorem bytesAfter_encodeByte_append (b : UInt8) :
    bytesAfter 0 (encodeByte b ++ rest) = b :: bytesAfter 0 rest := by
  have hb := b.toNat_lt
  rw [encodeByte_eq]
  refine bytesAfter_of_byte? ?_
  rw [byte?, hexDigit?_hexDigitChar (by omega), hexDigit?_hexDigitChar (by omega)]
  refine congrArg some (UInt8.toNat_inj.1 ?_)
  rw [Nat.div_add_mod']
  exact UInt8.toNat_ofNat_of_lt hb

theorem bytesAfter_encode (bytes : Bytes) : bytesAfter 0 (encode bytes) = bytes := by
  induction bytes with
  | nil => rfl
  | cons b bytes ih =>
    rw [encode, List.flatMap_cons, bytesAfter_encodeByte_append, ← encode, ih]

/-- What holds of the percent sign and of the digits holds of all escapes. -/
theorem forall_mem_encode {p : CodePoint → Bool} (hsign : p (.char '%') = true)
    (hdigit : ∀ n : Fin 16, p (hexDigitChar n) = true) : ∀ c ∈ encode bytes, p c = true := by
  intro c hc
  obtain ⟨b, -, hc⟩ := List.mem_flatMap.1 hc
  have hb := b.toNat_lt
  rw [encodeByte_eq] at hc
  simp only [List.mem_cons, List.not_mem_nil, or_false] at hc
  obtain rfl | rfl | rfl := hc
  · exact hsign
  · exact hdigit ⟨_, by omega⟩
  · exact hdigit ⟨_, Nat.mod_lt _ (by decide)⟩

/-- A text in ASCII is a single run. -/
theorem decode_of_ascii {t : Text} (h : ∀ c ∈ t, c.isAscii = true) :
    decode t = Utf8.decodeLossy (bytesAfter 0 t) := by
  by_cases hnil : t = []
  · subst hnil
    rfl
  · have hchain : t.IsChain fun a b => a.isAscii == b.isAscii := by
      refine List.Pairwise.isChain (List.pairwise_of_forall_mem_list fun a ha b hb => ?_)
      rw [h a ha, h b hb]
      rfl
    rw [decode, List.splitBy_of_isChain hnil hchain, List.flatMap_singleton, decodeRun,
      if_pos (List.all_eq_true.2 h)]

/-- **The escapes of all bytes of a text are read back as the text.** -/
theorem decode_encode_of_encode {p : Text} (h : Utf8.encode p = .ok bytes) :
    decode (encode bytes) = p := by
  rw [decode_of_ascii (forall_mem_encode (by decide) (by decide)), bytesAfter_encode]
  exact Utf8.decodeLossy_of_decode (Utf8.decode_of_encode h)

end Percent

end CoverageLift
