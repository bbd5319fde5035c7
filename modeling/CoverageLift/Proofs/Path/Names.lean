import CoverageLift.Files
import CoverageLift.Proofs.Path.Normal
import CoverageLift.Proofs.Success

/-!
# Paths that the file system can be asked for

A file name holds no null character, and of the lone surrogates only those that stand for a byte
(`CodePoint.IsNameable`). Where a path is resolved, the file system is asked for every path on the way,
also for one that a later `..` leaves again; so **a path can be resolved exactly if all of its
components can be named**, those of the directory that it is taken from included, and then into what
the components alone say (`FilePath.resolve?_eq_ok_iff`).
-/

namespace CoverageLift

/-- A file name can hold a code point. -/
def CodePoint.IsNameable : CodePoint → Prop
  | .char c => c ≠ '\x00'
  | .surrogate s => escapesByte s = true

instance : DecidablePred CodePoint.IsNameable
  | .char c => inferInstanceAs (Decidable (c ≠ '\x00'))
  | .surrogate s => inferInstanceAs (Decidable (escapesByte s = true))

namespace Text

/-- A file can have a text as its name. -/
def IsNameable (t : Text) : Prop := ∀ c ∈ t, c.IsNameable

instance : DecidablePred IsNameable := fun t => inferInstanceAs (Decidable (∀ c ∈ t, c.IsNameable))

theorem unencodable?_eq_none_iff {t : Text} :
    ∀ {start : Nat}, unencodable? start t = none ↔
      ∀ s, CodePoint.surrogate s ∈ t → escapesByte s = true := by
  induction t with
  | nil => simp [unencodable?]
  | cons c t ih =>
    intro start
    cases c with
    | char c => simp [unencodable?, ih]
    | surrogate s =>
      by_cases hs : escapesByte s = true
      · simp [unencodable?, hs, ih]
      · simp [unencodable?, hs]

theorem nameFault?_eq_none_iff {t : Text} : nameFault? t = none ↔ t.IsNameable := by
  have hsplit : t.IsNameable ↔
      (∀ s, CodePoint.surrogate s ∈ t → escapesByte s = true) ∧ CodePoint.char '\x00' ∉ t := by
    constructor
    · exact fun h => ⟨fun s hs => h _ hs, fun hnull => h _ hnull rfl⟩
    · rintro ⟨hsurrogate, hnull⟩ (c | s) hmem
      · rintro rfl
        exact hnull hmem
      · exact hsurrogate s hmem
  rw [hsplit, ← @unencodable?_eq_none_iff t 0, nameFault?]
  cases unencodable? 0 t with
  | some error => simp
  | none => simp

theorem isNameable_append_iff {s t : Text} : (s ++ t).IsNameable ↔ s.IsNameable ∧ t.IsNameable :=
  List.forall_mem_append

theorem isNameable_join_iff {sep : Text} (hsep : sep.IsNameable) {texts : List Text} :
    (Text.join sep texts).IsNameable ↔ ∀ t ∈ texts, t.IsNameable := by
  induction texts with
  | nil => exact iff_of_true nofun nofun
  | cons t texts ih =>
    cases texts with
    | nil => rw [join, List.forall_mem_singleton]
    | cons next texts =>
      have hjoin : Text.join sep (t :: next :: texts) = t ++ sep ++ Text.join sep (next :: texts) := rfl
      rw [hjoin, isNameable_append_iff, isNameable_append_iff, and_iff_left hsep, ih,
        ← List.forall_mem_cons]

end Text

namespace FilePath

theorem isNameable_toText_iff {components : List Text} :
    (toText ⟨[Path.separator], components⟩).IsNameable ↔ ∀ c ∈ components, c.IsNameable := by
  have hseparator : Text.IsNameable [Path.separator] := by decide
  have htext : toText ⟨[Path.separator], components⟩ =
      [Path.separator] ++ Text.join [Path.separator] components := rfl
  rw [htext, Text.isNameable_append_iff, and_iff_right hseparator,
    Text.isNameable_join_iff hseparator]

/-- A component that cannot be named is neither skipped nor `..`. -/
theorem step_of_not_isNameable {c : Text} (h : ¬ c.IsNameable) (read : List Text) :
    Path.step true read c = c :: read := by
  refine Path.step_of_ne ?_ ?_ ?_
  all_goals
    rintro rfl
    exact h (by decide)

theorem isNameable_of_mem_step {c : Text} (hc : c.IsNameable) {read : List Text}
    (hread : ∀ d ∈ read, d.IsNameable) : ∀ d ∈ Path.step true read c, d.IsNameable := by
  obtain ⟨-, hstep⟩ | ⟨-, hstep⟩ | ⟨-, ⟨last, hlast, -⟩ | ⟨-, -, hstep⟩⟩ :=
    Path.step_cases true read c
  · rwa [hstep]
  · rw [hstep]
    exact List.forall_mem_cons.2 ⟨hc, hread⟩
  · rw [hlast] at hread
    exact (List.forall_mem_cons.1 hread).2
  · rw [hstep]
    exact nofun

theorem walk_eq_ok_iff {components q : List Text} :
    ∀ {read : List Text}, (∀ c ∈ read, c.IsNameable) →
      (walk read components = .ok q ↔
        (∀ c ∈ components, c.IsNameable) ∧ (components.foldl (Path.step true) read).reverse = q) := by
  induction components with
  | nil =>
    intro read _
    rw [walk, List.foldl_nil, Except.ok.injEq, and_iff_right nofun]
  | cons c components ih =>
    intro read hread
    rw [walk, List.foldl_cons, List.forall_mem_cons]
    by_cases hc : c.IsNameable
    · have hnext := isNameable_of_mem_step hc hread
      have hnone : nameFault? (toText ⟨[Path.separator], (Path.step true read c).reverse⟩) = none := by
        rw [Text.nameFault?_eq_none_iff, isNameable_toText_iff]
        exact fun d hd => hnext d (List.mem_reverse.1 hd)
      simp only [hnone]
      rw [ih hnext, and_iff_right hc]
    · -- the component stays, so the next path on the way has no name
      have hsome : nameFault? (toText ⟨[Path.separator], (Path.step true read c).reverse⟩) ≠ none := by
        rw [Ne, Text.nameFault?_eq_none_iff, isNameable_toText_iff, step_of_not_isNameable hc]
        exact fun h => hc (h c (List.mem_reverse.2 List.mem_cons_self))
      obtain ⟨fault, hfault⟩ := Option.ne_none_iff_exists'.1 hsome
      simp only [hfault]
      exact iff_of_false nofun fun h => hc h.1.1

/-- **A path can be resolved exactly if all components on the way to it can be named**, and then into
what the components say. -/
theorem resolve?_eq_ok_iff {directory p q : FilePath} :
    resolve? directory p = .ok q ↔
      (∀ c ∈ (directory.under p).components, c.IsNameable) ∧ resolve directory p = q := by
  rw [resolve?, map_eq_ok_iff]
  simp only [walk_eq_ok_iff (List.forall_mem_nil _)]
  constructor
  · rintro ⟨_, ⟨hnamed, rfl⟩, rfl⟩
    exact ⟨hnamed, rfl⟩
  · rintro ⟨hnamed, rfl⟩
    exact ⟨_, ⟨hnamed, rfl⟩, rfl⟩

/-- What a path is resolved into starts at the root. -/
theorem isAbsolute_resolve (directory p : FilePath) : (resolve directory p).isAbsolute = true := rfl

end FilePath

end CoverageLift
