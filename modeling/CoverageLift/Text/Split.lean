import CoverageLift.Text.CodePoint

/-!
# Cutting text

Splitting at a separator keeps empty pieces, so a text with `n` separators has `n + 1` pieces, and
pieces that do not hold the separator are found again after they have been joined with it.
-/

namespace CoverageLift.Text

/-- The pieces of a text between the code points equal to `sep`. -/
def splitOn (sep : CodePoint) : Text → List Text
  | [] => [[]]
  | c :: rest =>
    if c = sep then [] :: splitOn sep rest
    else
      match splitOn sep rest with
      | [] => [[c]]
      | piece :: pieces => (c :: piece) :: pieces

/-- The pieces one after the other, with `sep` between neighbours. -/
def join (sep : Text) : List Text → Text
  | [] => []
  | [t] => t
  | t :: rest => t ++ sep ++ join sep rest

/-- What follows `start`, if the text begins with it. -/
def after? : (start t : Text) → Option Text
  | [], t => some t
  | _ :: _, [] => none
  | c :: start, d :: t => if c = d then after? start t else none

/-- Whether the text begins with `start`. -/
def startsWith (start t : Text) : Bool := (after? start t).isSome

/-- Whether the text ends with `stop`. -/
def endsWith (stop t : Text) : Bool := startsWith stop.reverse t.reverse

/-- The parts before and after the first code point equal to `sep`. -/
def cutFirst? (sep : CodePoint) : Text → Option (Text × Text)
  | [] => none
  | c :: rest =>
    if c = sep then some ([], rest)
    else (cutFirst? sep rest).map fun (before, behind) => (c :: before, behind)

/-- The parts before and after the last code point equal to `sep`. -/
def cutLast? (sep : CodePoint) (t : Text) : Option (Text × Text) :=
  (cutFirst? sep t.reverse).map fun (behind, before) => (before.reverse, behind.reverse)

/-- The number of code points equal to `c`. -/
def count (c : CodePoint) (t : Text) : Nat := List.count c t

/-! ### Parts of a text -/

theorem after?_eq_some_iff {start t rest : Text} : after? start t = some rest ↔ t = start ++ rest := by
  induction start generalizing t with
  | nil => exact ⟨Option.some.inj, congrArg some⟩
  | cons c start ih =>
    rcases t with _ | ⟨d, t⟩
    · exact ⟨fun h => (nomatch h), fun h => (nomatch h)⟩
    · rw [after?, List.cons_append, List.cons.injEq]
      split
      · next hd => rw [ih, and_iff_right hd.symm]
      · next hd => exact ⟨fun h => (nomatch h), fun h => absurd h.1.symm hd⟩

theorem startsWith_iff {start t : Text} : startsWith start t = true ↔ start <+: t := by
  rw [startsWith, Option.isSome_iff_exists]
  exact exists_congr fun rest => after?_eq_some_iff.trans eq_comm

theorem endsWith_iff {stop t : Text} : endsWith stop t = true ↔ stop <:+ t := by
  rw [endsWith, startsWith_iff, List.reverse_prefix]

/-- A cut is made at the first place where the code point stands. -/
theorem cutFirst?_eq_some_iff {sep : CodePoint} {t : Text} :
    ∀ {before behind : Text},
      cutFirst? sep t = some (before, behind) ↔ t = before ++ sep :: behind ∧ sep ∉ before := by
  induction t with
  | nil => simp [cutFirst?]
  | cons c t ih =>
    intro before behind
    rw [cutFirst?]
    split
    · next hc =>
      subst hc
      constructor
      · intro h
        obtain ⟨rfl, rfl⟩ := Prod.mk.inj (Option.some.inj h)
        exact ⟨rfl, List.not_mem_nil⟩
      · rintro ⟨heq, hbefore⟩
        rcases before with _ | ⟨d, before⟩
        · rw [(List.cons.inj heq).2]
        · exact absurd ((List.cons.inj heq).1 ▸ List.mem_cons_self) hbefore
    · next hc =>
      rw [Option.map_eq_some_iff]
      constructor
      · rintro ⟨⟨before, behind⟩, hcut, heq⟩
        obtain ⟨rfl, rfl⟩ := Prod.mk.inj heq
        obtain ⟨rfl, hbefore⟩ := ih.1 hcut
        exact ⟨rfl, fun hmem => (List.mem_cons.1 hmem).elim (fun h => hc h.symm) hbefore⟩
      · rintro ⟨heq, hbefore⟩
        rcases before with _ | ⟨d, before⟩
        · exact absurd (List.cons.inj heq).1 hc
        · obtain ⟨rfl, rfl⟩ := List.cons.inj heq
          exact ⟨_, ih.2 ⟨rfl, fun hmem => hbefore (List.mem_cons_of_mem _ hmem)⟩, rfl⟩

/-- The other cut is made at the last one. -/
theorem cutLast?_eq_some_iff {sep : CodePoint} {t before behind : Text} :
    cutLast? sep t = some (before, behind) ↔ t = before ++ sep :: behind ∧ sep ∉ behind := by
  rw [cutLast?, Option.map_eq_some_iff]
  constructor
  · rintro ⟨⟨after, front⟩, hcut, heq⟩
    obtain ⟨rfl, rfl⟩ := Prod.mk.inj heq
    obtain ⟨ht, hafter⟩ := cutFirst?_eq_some_iff.1 hcut
    refine ⟨?_, fun hmem => hafter (List.mem_reverse.1 hmem)⟩
    rw [← List.reverse_reverse t, ht, List.reverse_append, List.reverse_cons, List.append_assoc,
      List.singleton_append]
  · rintro ⟨rfl, hbehind⟩
    refine ⟨(behind.reverse, before.reverse), cutFirst?_eq_some_iff.2 ⟨?_, ?_⟩, ?_⟩
    · rw [List.reverse_append, List.reverse_cons, List.append_assoc, List.singleton_append]
    · exact fun hmem => hbehind (List.mem_reverse.1 hmem)
    · exact Prod.ext (List.reverse_reverse before) (List.reverse_reverse behind)

/-! ### Splitting and joining -/

theorem splitOn_ne_nil (sep : CodePoint) (t : Text) : splitOn sep t ≠ [] := by
  cases t with
  | nil => simp [splitOn]
  | cons c rest =>
    simp only [splitOn]
    split
    · simp
    · split <;> simp

theorem join_cons {sep : Text} {pieces : List Text} (h : pieces ≠ []) (t : Text) :
    join sep (t :: pieces) = t ++ sep ++ join sep pieces := by
  cases pieces with
  | nil => exact absurd rfl h
  | cons piece pieces => rfl

/-- A text without separators is its only piece. -/
theorem splitOn_of_not_mem {sep : CodePoint} {t : Text} (h : sep ∉ t) : splitOn sep t = [t] := by
  induction t with
  | nil => rfl
  | cons c rest ih =>
    rw [List.mem_cons, not_or] at h
    simp only [splitOn, if_neg (Ne.symm h.1), ih h.2]

/-- The pieces on the two sides of a separator. -/
theorem splitOn_append (sep : CodePoint) (t rest : Text) :
    splitOn sep (t ++ sep :: rest) = splitOn sep t ++ splitOn sep rest := by
  induction t with
  | nil => simp [splitOn]
  | cons c t ih =>
    simp only [List.cons_append, splitOn, ih]
    split
    · rfl
    · cases hpieces : splitOn sep t with
      | nil => exact absurd hpieces (splitOn_ne_nil sep t)
      | cons piece pieces => rfl

/-- The piece in front of the first separator. -/
theorem splitOn_append_cons {sep : CodePoint} {t : Text} (h : sep ∉ t) (rest : Text) :
    splitOn sep (t ++ sep :: rest) = t :: splitOn sep rest := by
  rw [splitOn_append, splitOn_of_not_mem h, List.singleton_append]

/-- No separator stands in a piece. -/
theorem not_mem_of_mem_splitOn {sep : CodePoint} {t piece : Text} (h : piece ∈ splitOn sep t) :
    sep ∉ piece := by
  induction t generalizing piece with
  | nil =>
    obtain rfl := List.mem_singleton.1 h
    exact List.not_mem_nil
  | cons c t ih =>
    simp only [splitOn] at h
    split at h
    · rcases List.mem_cons.1 h with rfl | h
      · exact List.not_mem_nil
      · exact ih h
    · next hc =>
      cases hpieces : splitOn sep t with
      | nil => exact absurd hpieces (splitOn_ne_nil sep t)
      | cons first pieces =>
        rw [hpieces] at h ih
        rcases List.mem_cons.1 h with rfl | h
        · exact List.not_mem_cons_of_ne_of_not_mem (Ne.symm hc) (ih List.mem_cons_self)
        · exact ih (List.mem_cons_of_mem _ h)

/-- Pieces without the separator are found again after they are joined. -/
theorem splitOn_join {sep : CodePoint} {pieces : List Text} (hne : pieces ≠ [])
    (h : ∀ piece ∈ pieces, sep ∉ piece) : splitOn sep (join [sep] pieces) = pieces := by
  induction pieces with
  | nil => exact absurd rfl hne
  | cons piece pieces ih =>
    obtain ⟨hpiece, hpieces⟩ := List.forall_mem_cons.1 h
    by_cases hlast : pieces = []
    · subst hlast
      exact splitOn_of_not_mem hpiece
    · rw [join_cons hlast, List.append_assoc, List.singleton_append, splitOn_append_cons hpiece,
        ih hlast hpieces]

/-- What stands in joined pieces stands in a separator or in a piece. -/
theorem mem_of_mem_join {sep : Text} {pieces : List Text} {c : CodePoint}
    (h : c ∈ join sep pieces) : c ∈ sep ∨ ∃ piece ∈ pieces, c ∈ piece := by
  induction pieces with
  | nil => exact absurd h List.not_mem_nil
  | cons piece pieces ih =>
    by_cases hlast : pieces = []
    · subst hlast
      exact .inr ⟨piece, List.mem_cons_self, h⟩
    · rw [join_cons hlast, List.mem_append, List.mem_append] at h
      obtain (hpiece | hsep) | hrest := h
      · exact .inr ⟨piece, List.mem_cons_self, hpiece⟩
      · exact .inl hsep
      · obtain hsep | ⟨other, hother, hc⟩ := ih hrest
        · exact .inl hsep
        · exact .inr ⟨other, List.mem_cons_of_mem _ hother, hc⟩

/-- A text with `n` separators has `n + 1` pieces. -/
theorem length_splitOn (sep : CodePoint) (t : Text) :
    (splitOn sep t).length = count sep t + 1 := by
  induction t with
  | nil => rfl
  | cons c rest ih =>
    simp only [splitOn, count, List.count_cons] at ih ⊢
    split
    · next h => simp [h, ih]
    · next h =>
      split
      · next hs => exact absurd hs (splitOn_ne_nil sep rest)
      · next piece pieces hs => simpa [hs, h] using ih

end CoverageLift.Text
