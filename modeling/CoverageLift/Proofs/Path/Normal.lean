import CoverageLift.Path.Normal
import Mathlib.Data.List.DropRight

/-!
# Normal forms of paths

A normal form is made of the root of a path and its normal components. Both can be read off it again,
so **a normal form is its own normal form** (`normalise_normalise`), and paths have the same one
exactly when they have these two parts in common (`normalise_eq_iff`).

Where a path is read behind another one, its components may be replaced by its normal ones
(`readOn_eq_foldl`): a `..` cancels the same component then, also when that stands in the path in
front. So paths with the same normal form go on having the same one below any directory
(`normalise_join_congr`).
-/

namespace CoverageLift.Path

/-! ### Roots -/

/-- A path that does not start at the root adds nothing to the slashes in front of it. -/
theorem takeWhile_append_of_relative {t : Text} (h : isAbsolute t = false) (base : Text) :
    (base ++ t).takeWhile (· = separator) = base.takeWhile (· = separator) := by
  have ht : t.takeWhile (· = separator) = [] := by
    cases t with
    | nil => rfl
    | cons c t => simpa [isAbsolute] using h
  rw [List.takeWhile_append, ht, List.append_nil]
  split
  · next hlength => exact ((List.takeWhile_prefix _).eq_of_length hlength).symm
  · rfl

theorem root_append_of_relative {t : Text} (h : isAbsolute t = false) (base : Text) :
    root (base ++ t) = root base := by
  rw [root, takeWhile_append_of_relative h, root]

/-- A path has no root, one slash or two. -/
theorem root_cases (path : Text) :
    isAbsolute path = false ∧ root path = [] ∨
      isAbsolute path = true ∧ (root path = [separator] ∨ root path = [separator, separator]) := by
  cases path with
  | nil => exact .inl ⟨rfl, rfl⟩
  | cons c path =>
    by_cases hc : c = separator
    · subst hc
      refine .inr ⟨by simp [isAbsolute], ?_⟩
      rcases path with _ | ⟨d, _ | ⟨e, path⟩⟩
      · exact .inl rfl
      · by_cases hd : d = separator
        · simp [root, hd]
        · simp [root, hd]
      · by_cases hd : d = separator
        · by_cases he : e = separator
          · simp [root, hd, he]
          · simp [root, hd, he]
        · simp [root, hd]
    · exact .inl (by simp [isAbsolute, root, hc])

theorem isAbsolute_eq (path : Text) : isAbsolute path = !(root path).isEmpty := by
  obtain ⟨habsolute, hroot⟩ | ⟨habsolute, hroot | hroot⟩ := root_cases path
  all_goals rw [habsolute, hroot]; rfl

/-- The root of a path is the root of what it is put in front of. -/
theorem root_root_append {t : Text} (h : isAbsolute t = false) (path : Text) :
    root (root path ++ t) = root path := by
  rw [root_append_of_relative h]
  obtain ⟨-, hroot⟩ | ⟨-, hroot | hroot⟩ := root_cases path
  all_goals rw [hroot]; rfl

/-! ### Components -/

/-- A component that reading a path keeps. -/
def IsComponent (c : Text) : Prop := c ≠ [] ∧ c ≠ "." ∧ separator ∉ c

/-- The components read so far, in reverse, after those of a path. -/
def readOn (rooted : Bool) (read : List Text) (path : Text) : List Text :=
  (Text.splitOn separator path).foldl (step rooted) read

theorem normalComponents_eq (path : Text) :
    normalComponents path = (readOn (isAbsolute path) [] path).reverse := rfl

section Read

variable {rooted : Bool} {read : List Text}

/-- The empty component and `.` are skipped. -/
theorem step_of_skipped {c : Text} (h : c = [] ∨ c = ".") : step rooted read c = read := if_pos h

/-- What a component does: it is skipped, it is added, or it is `..` and takes the last one away, or
there is none that it could take away. -/
theorem step_cases (rooted : Bool) (read : List Text) (c : Text) :
    (c = [] ∨ c = ".") ∧ step rooted read c = read ∨
      (c ≠ [] ∧ c ≠ ".") ∧ step rooted read c = c :: read ∨
      c = parentComponent ∧ ((∃ last, read = last :: step rooted read c ∧ last ≠ parentComponent) ∨
        read = [] ∧ rooted = true ∧ step rooted read c = []) := by
  by_cases hskip : c = [] ∨ c = "."
  · exact .inl ⟨hskip, step_of_skipped hskip⟩
  · have hproper := not_or.1 hskip
    by_cases hparent : c = parentComponent
    · subst hparent
      refine .inr ?_
      cases read with
      | nil => cases rooted <;> simp [step, hproper]
      | cons last before =>
        by_cases hlast : last = parentComponent
        · simp [step, hproper, hlast]
        · simp [step, hskip, hlast]
    · exact .inr (.inl ⟨hproper, by simp [step, hskip, hparent]⟩)

/-- A component other than `..` is added. -/
theorem step_of_ne {c : Text} (hnil : c ≠ []) (hdot : c ≠ ".") (hparent : c ≠ parentComponent) :
    step rooted read c = c :: read := by
  simp [step, hnil, hdot, hparent]

/-- Behind a component that is no `..` itself, `..` takes it away. -/
theorem step_parent {last : Text} (h : last ≠ parentComponent) :
    step rooted (last :: read) parentComponent = read := by
  have hskip : ¬ (parentComponent = [] ∨ parentComponent = ".") := by decide
  simp [step, hskip, h]

/-- Reading keeps components only. -/
theorem isComponent_of_mem_foldl {components : List Text} (h : ∀ c ∈ components, separator ∉ c) :
    ∀ {read : List Text}, (∀ c ∈ read, IsComponent c) →
      ∀ c ∈ components.foldl (step rooted) read, IsComponent c := by
  induction components with
  | nil => exact fun hread => hread
  | cons first components ih =>
    obtain ⟨hfirst, hrest⟩ := List.forall_mem_cons.1 h
    intro read hread
    refine ih hrest ?_
    obtain ⟨-, hstep⟩ | ⟨hproper, hstep⟩ | ⟨-, ⟨last, hlast, -⟩ | ⟨-, -, hstep⟩⟩ :=
      step_cases rooted read first
    · rwa [hstep]
    · rw [hstep]
      exact List.forall_mem_cons.2 ⟨⟨hproper.1, hproper.2, hfirst⟩, hread⟩
    · rw [hlast] at hread
      exact (List.forall_mem_cons.1 hread).2
    · rw [hstep]
      exact fun c hc => absurd hc List.not_mem_nil

theorem isComponent_of_mem_readOn {path : Text} : ∀ c ∈ readOn rooted [] path, IsComponent c :=
  isComponent_of_mem_foldl (fun _ hc => Text.not_mem_of_mem_splitOn hc)
    fun _ hc => absurd hc List.not_mem_nil

theorem isComponent_of_mem_normalComponents {path c : Text} (h : c ∈ normalComponents path) :
    IsComponent c :=
  isComponent_of_mem_readOn c (List.mem_reverse.1 h)

@[simp] theorem readOn_nil : readOn rooted read [] = read :=
  @step_of_skipped rooted read _ (.inl rfl)

@[simp] theorem readOn_dot : readOn rooted read "." = read :=
  @step_of_skipped rooted read _ (.inr rfl)

/-- A path is read up to a slash and then on. -/
theorem readOn_append (a b : Text) :
    readOn rooted read (a ++ separator :: b) = readOn rooted (readOn rooted read a) b := by
  rw [readOn, Text.splitOn_append, List.foldl_append]
  rfl

@[simp] theorem readOn_cons_separator (path : Text) :
    readOn rooted read (separator :: path) = readOn rooted read path := by
  rw [← List.nil_append (separator :: path), readOn_append, readOn_nil]

/-- A root has no components. -/
theorem readOn_root_append (path t : Text) :
    readOn rooted read (root path ++ t) = readOn rooted read t := by
  obtain ⟨-, hroot⟩ | ⟨-, hroot | hroot⟩ := root_cases path
  all_goals simp [hroot]

/-- Joined components are read one after the other. -/
theorem readOn_join_components {components : List Text} (h : ∀ c ∈ components, IsComponent c) :
    readOn rooted read (Text.join [separator] components) = components.foldl (step rooted) read := by
  cases components with
  | nil => exact readOn_nil
  | cons c components =>
    rw [readOn, Text.splitOn_join (List.cons_ne_nil _ _) fun c hc => (h c hc).2.2]

end Read

/-! ### Normal components in the place of components -/

/-- One component more, behind components that were read from nothing: reading the result again does
what the component does. At a root, where `..` has nothing to take away, it must have nothing to take
away then either. -/
theorem foldl_step_step {inner rooted : Bool} {read front : List Text}
    (hroot : inner = true → step rooted read parentComponent = read)
    (hfront : ∀ c ∈ front, IsComponent c) (c : Text) :
    (step inner front c).reverse.foldl (step rooted) read =
      step rooted (front.reverse.foldl (step rooted) read) c := by
  obtain ⟨hskip, hstep⟩ | ⟨-, hstep⟩ | ⟨rfl, ⟨last, hlast, hne⟩ | ⟨rfl, hinner, hstep⟩⟩ :=
    step_cases inner front c
  · rw [hstep, step_of_skipped hskip]
  · rw [hstep, List.reverse_cons, List.foldl_append]
    rfl
  · -- the last component is added and taken away again
    generalize step inner front parentComponent = before at hlast
    subst hlast
    obtain ⟨hnil, hdot, -⟩ := hfront last List.mem_cons_self
    rw [List.reverse_cons, List.foldl_append, List.foldl_cons, List.foldl_nil,
      step_of_ne hnil hdot hne, step_parent hne]
  · rw [hstep]
    exact (hroot hinner).symm

/-- Components that were read from nothing stand for those that they were read from. -/
theorem foldl_step_foldl {inner rooted : Bool} {read : List Text}
    (hroot : inner = true → step rooted read parentComponent = read) {components : List Text}
    (h : ∀ c ∈ components, separator ∉ c) :
    ∀ {front : List Text}, (∀ c ∈ front, IsComponent c) →
      (components.foldl (step inner) front).reverse.foldl (step rooted) read =
        components.foldl (step rooted) (front.reverse.foldl (step rooted) read) := by
  induction components with
  | nil => exact fun _ => rfl
  | cons c components ih =>
    obtain ⟨hc, hrest⟩ := List.forall_mem_cons.1 h
    intro front hfront
    have hnext : ∀ d ∈ step inner front c, IsComponent d :=
      isComponent_of_mem_foldl (List.forall_mem_singleton.2 hc) hfront
    rw [List.foldl_cons, ih hrest hnext, foldl_step_step hroot hfront, List.foldl_cons]

/-- The components of a path may be replaced by its normal ones where the path is read. -/
theorem readOn_eq_foldl {rooted : Bool} {read : List Text} {path : Text}
    (hroot : isAbsolute path = true → step rooted read parentComponent = read) :
    readOn rooted read path = (normalComponents path).foldl (step rooted) read := by
  have hnone : ∀ c ∈ ([] : List Text), IsComponent c := fun c hc => absurd hc List.not_mem_nil
  exact (foldl_step_foldl hroot (fun _ hc => Text.not_mem_of_mem_splitOn hc) hnone).symm

/-! ### Reading a normal form -/

/-- Joined components do not start at the root. -/
theorem isAbsolute_join_components {components : List Text}
    (h : ∀ c ∈ components, IsComponent c) :
    isAbsolute (Text.join [separator] components) = false := by
  cases components with
  | nil => rfl
  | cons c components =>
    obtain ⟨hnil, -, hseparator⟩ := h c List.mem_cons_self
    obtain ⟨a, c, rfl⟩ := List.exists_cons_of_ne_nil hnil
    have ha : a ≠ separator := fun heq => hseparator (heq ▸ List.mem_cons_self)
    cases components with
    | nil => simp [Text.join, isAbsolute, ha]
    | cons next components => simp [Text.join, isAbsolute, ha]

/-- A normal form is a root with components, or the current directory. -/
theorem normalise_cases (path : Text) :
    root path ++ Text.join [separator] (normalComponents path) = [] ∧ normalise path = "." ∨
      normalise path = root path ++ Text.join [separator] (normalComponents path) := by
  rw [normalise]
  split
  · next h => exact .inl ⟨h, rfl⟩
  · exact .inr rfl

theorem root_normalise (path : Text) : root (normalise path) = root path := by
  obtain ⟨hnil, hnormal⟩ | hnormal := normalise_cases path
  · rw [hnormal, (List.append_eq_nil_iff.1 hnil).1]
    decide
  · rw [hnormal]
    exact root_root_append
      (isAbsolute_join_components fun _ hc => isComponent_of_mem_normalComponents hc) path

theorem isAbsolute_normalise (path : Text) : isAbsolute (normalise path) = isAbsolute path := by
  rw [isAbsolute_eq, root_normalise, ← isAbsolute_eq]

/-- The components of a normal form are the normal components. -/
theorem readOn_normalise (rooted : Bool) (read : List Text) (path : Text) :
    readOn rooted read (normalise path) = (normalComponents path).foldl (step rooted) read := by
  have hcomponents : ∀ c ∈ normalComponents path, IsComponent c :=
    fun _ hc => isComponent_of_mem_normalComponents hc
  obtain ⟨hnil, hnormal⟩ | hnormal := normalise_cases path
  · rw [hnormal, readOn_dot, ← readOn_join_components hcomponents,
      (List.append_eq_nil_iff.1 hnil).2, readOn_nil]
  · rw [hnormal, readOn_root_append, readOn_join_components hcomponents]

theorem normalComponents_normalise (path : Text) :
    normalComponents (normalise path) = normalComponents path := by
  rw [normalComponents_eq, isAbsolute_normalise, readOn_normalise, ← readOn_eq_foldl,
    ← normalComponents_eq]
  -- at the root nothing has been read
  intro habsolute
  rw [habsolute]
  rfl

/-- Paths have the same normal form when they have the same root and the same normal components. -/
theorem normalise_congr {a b : Text} (hroot : root a = root b)
    (hcomponents : normalComponents a = normalComponents b) : normalise a = normalise b := by
  rw [normalise, hroot, hcomponents, normalise]

theorem normalise_eq_iff {a b : Text} :
    normalise a = normalise b ↔ root a = root b ∧ normalComponents a = normalComponents b := by
  refine ⟨fun h => ⟨?_, ?_⟩, fun ⟨hroot, hcomponents⟩ => normalise_congr hroot hcomponents⟩
  · rw [← root_normalise, h, root_normalise]
  · rw [← normalComponents_normalise, h, normalComponents_normalise]

/-- A normal form is its own normal form. -/
theorem normalise_normalise (path : Text) : normalise (normalise path) = normalise path :=
  normalise_congr (root_normalise path) (normalComponents_normalise path)

/-! ### Joined paths -/

/-- A path that is joined to another one: it is absolute, or it stands behind the other one, with a
slash between them unless there is one or nothing in front. -/
theorem join_cases (base path : Text) :
    isAbsolute path = true ∧ join base path = path ∨
      isAbsolute path = false ∧
        (base = [] ∧ join base path = path ∨
          (∃ front, base = front ++ [separator] ∧ join base path = front ++ separator :: path) ∨
          (∃ front last, base = front ++ [last] ∧ last ≠ separator) ∧
            join base path = base ++ separator :: path) := by
  by_cases habsolute : isAbsolute path = true
  · exact .inl ⟨habsolute, if_pos habsolute⟩
  · refine .inr ⟨Bool.eq_false_iff.2 habsolute, ?_⟩
    rw [join, if_neg habsolute]
    rcases List.eq_nil_or_concat base with rfl | ⟨front, last, rfl⟩
    · exact .inl ⟨rfl, rfl⟩
    · refine .inr ?_
      by_cases hlast : last = separator
      · exact .inl ⟨front, by simp [hlast], by simp [hlast]⟩
      · exact .inr ⟨⟨front, last, by simp, hlast⟩, by simp [hlast]⟩

theorem join_of_isAbsolute {path : Text} (h : isAbsolute path = true) (base : Text) :
    join base path = path :=
  if_pos h

@[simp] theorem join_nil_left (path : Text) : join [] path = path := by
  simp [join]

/-- A path that is joined to another one keeps the root of that one. -/
theorem root_join {path : Text} (h : isAbsolute path = false) (base : Text) :
    root (join base path) = root base := by
  obtain ⟨habsolute, -⟩ | ⟨-, ⟨rfl, hjoin⟩ | ⟨front, rfl, hjoin⟩ | ⟨⟨front, last, rfl, hlast⟩, hjoin⟩⟩ :=
    join_cases base path
  · exact absurd habsolute (Bool.eq_false_iff.1 h)
  · rw [hjoin, ← List.nil_append path, root_append_of_relative h]
  · rw [hjoin, List.append_cons, root_append_of_relative h]
  · -- the last code point in front of the slash ends the root
    have hrelative : ∀ t, isAbsolute (last :: t) = false := fun t => by simp [isAbsolute, hlast]
    rw [hjoin, List.append_assoc, List.singleton_append, root_append_of_relative (hrelative _),
      root_append_of_relative (hrelative _)]

theorem isAbsolute_join (base path : Text) :
    isAbsolute (join base path) = (isAbsolute base || isAbsolute path) := by
  cases h : isAbsolute path with
  | false => rw [isAbsolute_eq, root_join h, ← isAbsolute_eq, Bool.or_false]
  | true => rw [join_of_isAbsolute h, h, Bool.or_true]

/-- A path that is joined to another one is read behind it. -/
theorem readOn_join {path : Text} (h : isAbsolute path = false) (rooted : Bool)
    (read : List Text) (base : Text) :
    readOn rooted read (join base path) = readOn rooted (readOn rooted read base) path := by
  obtain ⟨habsolute, -⟩ | ⟨-, ⟨rfl, hjoin⟩ | ⟨front, rfl, hjoin⟩ | ⟨-, hjoin⟩⟩ := join_cases base path
  · exact absurd habsolute (Bool.eq_false_iff.1 h)
  · rw [hjoin, readOn_nil]
  · rw [hjoin, readOn_append, readOn_append, readOn_nil]
  · rw [hjoin, readOn_append]

/-- Paths with the same normal form have the same one below a directory. -/
theorem normalise_join_congr {a b : Text} (h : normalise a = normalise b) (base : Text) :
    normalise (join base a) = normalise (join base b) := by
  obtain ⟨hroot, hcomponents⟩ := normalise_eq_iff.1 h
  have habsolute : isAbsolute a = isAbsolute b := by rw [isAbsolute_eq, hroot, ← isAbsolute_eq]
  cases ha : isAbsolute a with
  | true =>
    rw [join_of_isAbsolute ha, join_of_isAbsolute (habsolute ▸ ha), h]
  | false =>
    have hb : isAbsolute b = false := habsolute ▸ ha
    refine normalise_congr ?_ ?_
    · rw [root_join ha, root_join hb]
    · rw [normalComponents_eq, normalComponents_eq, isAbsolute_join, isAbsolute_join, habsolute,
        readOn_join ha, readOn_join hb, readOn_eq_foldl, hcomponents, ← readOn_eq_foldl]
      · exact fun h => absurd h (Bool.eq_false_iff.1 hb)
      · exact fun h => absurd h (Bool.eq_false_iff.1 ha)

/-! ### Directories -/

theorem isAbsolute_of_begins {a b : Text} (h : a <+: b) (hne : a ≠ []) :
    isAbsolute a = isAbsolute b := by
  obtain ⟨t, rfl⟩ := h
  obtain ⟨c, a, rfl⟩ := List.exists_cons_of_ne_nil hne
  rfl

theorem directory_eq (path : Text) :
    directory path =
      if (path.rdropWhile (· ≠ separator)).all (· = separator) then
        path.rdropWhile (· ≠ separator)
      else (path.rdropWhile (· ≠ separator)).rdropWhile (· = separator) := rfl

/-- The directory of an absolute path is absolute. -/
theorem isAbsolute_directory {path : Text} (h : isAbsolute path = true) :
    isAbsolute (directory path) = true := by
  rw [← h, directory_eq]
  split
  · refine isAbsolute_of_begins (List.rdropWhile_prefix _ _) fun hnil => ?_
    -- there is a slash, the first one
    cases path with
    | nil => cases h
    | cons c path =>
      have hc : c = separator := by simpa [isAbsolute] using h
      simpa [hc] using List.rdropWhile_eq_nil_iff.1 hnil c List.mem_cons_self
  · next hall =>
    refine isAbsolute_of_begins
      ((List.rdropWhile_prefix _ _).trans (List.rdropWhile_prefix _ _)) fun hnil => hall ?_
    exact List.all_eq_true.2 fun c hc => List.rdropWhile_eq_nil_iff.1 hnil c hc

end CoverageLift.Path
