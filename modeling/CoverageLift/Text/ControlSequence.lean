import CoverageLift.Text.CodePoint

/-!
# Control sequences

A terminal takes a **control sequence** in a text as a command: an escape character, an opening
bracket, parameters, and a letter that ends it. Where a text is not shown on a terminal its control
sequences are left out. What comes together by leaving one out is not looked at again.
-/

namespace CoverageLift.Text

/-- Characters of the parameters of a control sequence. -/
def isControlParameter (c : CodePoint) : Bool :=
  c = .char ';' || c = .char '?' || c.isDigit

/-- The number of code points of the control sequence that a text begins with. -/
def controlLength? : Text → Option Nat
  | .char '\x1b' :: .char '[' :: rest =>
    let parameters := rest.takeWhile isControlParameter
    if (rest.drop parameters.length).head?.any CodePoint.isLetter then some (parameters.length + 3)
    else none
  | _ => none

/-- A text without its first `skipped` code points and without control sequences after them. -/
def withoutControlsFrom : (skipped : Nat) → Text → Text
  | _, [] => []
  | skipped + 1, _ :: rest => withoutControlsFrom skipped rest
  | 0, c :: rest =>
    match controlLength? (c :: rest) with
    | some n => withoutControlsFrom (n - 1) rest
    | none => c :: withoutControlsFrom 0 rest

/-- A text without control sequences. -/
def withoutControls (t : Text) : Text := withoutControlsFrom 0 t

/-! ### What is left of a text -/

/-- No control sequence begins with another character than the escape character. -/
theorem controlLength?_of_ne {c : CodePoint} (h : c ≠ .char '\x1b') (rest : Text) :
    controlLength? (c :: rest) = none := by
  rw [controlLength?]
  rintro rest' heq
  exact h (List.cons.inj heq).1

/-- A control sequence ends in front of a space. -/
theorem le_of_controlLength? {before rest : Text} {n : Nat}
    (h : controlLength? (before ++ .char ' ' :: rest) = some n) (hne : before ≠ []) :
    n ≤ before.length := by
  match before, hne with
  | [_], _ =>
    rw [controlLength?] at h
    · cases h
    · exact fun _ heq => nomatch heq
  | first :: second :: parameters, _ =>
    simp only [List.cons_append, controlLength?] at h
    split at h
    · next heq =>
      obtain ⟨rfl, rfl, rfl⟩ := heq
      rw [List.takeWhile_append] at h
      split at h
      · -- the space is no parameter, and it is not the letter that would end the sequence
        rw [List.takeWhile_cons_of_neg (by decide), List.append_nil, List.drop_left] at h
        exact nomatch h
      · next hlength =>
        have hle := (List.takeWhile_prefix isControlParameter (l := parameters)).length_le
        split at h
        · obtain rfl := Option.some.inj h
          simp only [List.length_cons]
          omega
        · cases h
    · cases h

/-- A text without the escape character is left as it is. -/
theorem withoutControls_append {plain : Text} (h : .char '\x1b' ∉ plain) (rest : Text) :
    withoutControls (plain ++ rest) = plain ++ withoutControls rest := by
  induction plain with
  | nil => rfl
  | cons c plain ih =>
    obtain ⟨hc, hplain⟩ := not_or.1 (mt List.mem_cons.2 h)
    rw [withoutControls, List.cons_append, withoutControlsFrom, controlLength?_of_ne (Ne.symm hc)]
    exact congrArg (List.cons c) (ih hplain)

/-- What comes behind a space does not depend on what is in front of it. -/
theorem exists_withoutControls_append (before rest : Text) :
    ∃ shown, withoutControls (before ++ .char ' ' :: rest) =
      shown ++ .char ' ' :: withoutControls rest := by
  have hfrom : ∀ (before : Text) (skipped : Nat), skipped ≤ before.length → ∃ shown,
      withoutControlsFrom skipped (before ++ .char ' ' :: rest) =
        shown ++ .char ' ' :: withoutControls rest := by
    intro before
    induction before with
    | nil =>
      intro skipped hle
      obtain rfl := Nat.le_zero.1 hle
      exact ⟨[], @withoutControls_append [.char ' '] (by decide) rest⟩
    | cons c before ih =>
      intro skipped hle
      rw [List.cons_append]
      cases skipped with
      | succ skipped => exact ih skipped (Nat.le_of_succ_le_succ hle)
      | zero =>
        rw [withoutControlsFrom]
        split
        · next n hn =>
          have hn := @le_of_controlLength? (c :: before) rest n hn (List.cons_ne_nil _ _)
          exact ih (n - 1) (Nat.sub_le_of_le_add hn)
        · obtain ⟨shown, hshown⟩ := ih 0 (Nat.zero_le _)
          exact ⟨c :: shown, congrArg (List.cons c) hshown⟩
  exact hfrom before 0 (Nat.zero_le _)

end CoverageLift.Text
