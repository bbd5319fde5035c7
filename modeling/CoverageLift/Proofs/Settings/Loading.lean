import CoverageLift.FileTree
import CoverageLift.Proofs.Path.Names
import CoverageLift.Proofs.Settings.Documents

/-!
# Loading a settings file

A document is valid when it is empty or its pairs describe settings (`Settings.IsValid`). Loading asks
first whether a document counts as none, and false, zero, the empty text and the empty sequence do so
too (`Settings.PassesForEmpty`); they give the default settings. Behind that question stand three
more: a document that is no mapping is refused, a mapping that describes nothing is refused with its
issues, and of the settings that are described every relative path is taken from the directory of the
file. The last can fail where the file system has no name for a path on the way.

So **a document is loaded exactly if it stands for settings whose paths can be taken from there**, and
each way in which it is not loaded is accounted for (`Settings.load_document`).
-/

namespace CoverageLift.Settings

/-! ### Documents -/

/-- A document is valid, and these are its settings: it is empty, or its pairs describe them. -/
inductive IsValid : Yaml.Value → Settings → Prop
  | empty : IsValid (.atom (.scalar .null)) default
  | mapping {pairs : Pairs} {settings : Settings} (h : Describes pairs settings) :
      IsValid (.mapping pairs) settings

/-- A value that is neither null nor a mapping counts as an empty document. -/
inductive PassesForEmpty : Yaml.Value → Prop
  | false : PassesForEmpty (.atom (.scalar (.bool false)))
  | zero : PassesForEmpty (.atom (.scalar (.int 0)))
  | floatZero {x : Binary64} (h : x.isZero = true) : PassesForEmpty (.atom (.scalar (.float x)))
  | text : PassesForEmpty (.atom (.scalar (.str [])))
  | sequence : PassesForEmpty (.sequence [])

/-- A document stands for settings: it is valid, or it counts as an empty document. -/
def StandsFor (document : Yaml.Value) (settings : Settings) : Prop :=
  IsValid document settings ∨ PassesForEmpty document ∧ settings = default

variable {document : Yaml.Value} {settings : Settings}

theorem isNothing_iff :
    isNothing document = true ↔
      document = .atom (.scalar .null) ∨ PassesForEmpty document ∨ document = .mapping [] := by
  constructor
  · intro h
    cases document with
    | sequence items =>
      obtain rfl := List.isEmpty_iff.1 h
      exact .inr (.inl .sequence)
    | mapping pairs =>
      obtain rfl := List.isEmpty_iff.1 h
      exact .inr (.inr rfl)
    | atom a =>
      cases a with
      | timestamp t => cases h
      | scalar s =>
        cases s with
        | null => exact .inl rfl
        | bool b =>
          obtain rfl : b = false := by simpa [isNothing] using h
          exact .inr (.inl .false)
        | int n =>
          obtain rfl : n = 0 := of_decide_eq_true h
          exact .inr (.inl .zero)
        | float x => exact .inr (.inl (.floatZero h))
        | str t =>
          obtain rfl := List.isEmpty_iff.1 h
          exact .inr (.inl .text)
  · rintro (rfl | h | rfl)
    · rfl
    · cases h with
      | floatZero h => exact h
      | _ => rfl
    · rfl

theorem PassesForEmpty.not_isValid (h : PassesForEmpty document) : ¬ IsValid document settings := by
  rintro (_ | _)
  all_goals cases h

/-- What counts as none is valid, or passes for it, with the default settings. -/
theorem standsFor_of_isNothing (h : isNothing document = true) :
    StandsFor document settings ↔ settings = default := by
  obtain rfl | hempty | rfl := isNothing_iff.1 h
  · constructor
    · rintro (hvalid | ⟨-, rfl⟩)
      · cases hvalid
        rfl
      · rfl
    · rintro rfl
      exact .inl .empty
  · exact (or_iff_right hempty.not_isValid).trans (and_iff_right hempty)
  · constructor
    · rintro (hvalid | ⟨-, rfl⟩)
      · cases hvalid with
        | mapping hdescribes =>
          exact Except.ok.inj ((ofPairs_eq_ok_iff.2 hdescribes).symm.trans
            (ofPairs_eq_ok_iff.2 describes_nil))
      · rfl
    · rintro rfl
      exact .inl (.mapping describes_nil)

theorem ofDocument_eq_ok_iff : ofDocument document = .ok settings ↔ StandsFor document settings := by
  unfold ofDocument
  split
  · next hnothing =>
    rw [standsFor_of_isNothing hnothing, Except.ok.injEq, eq_comm]
  · next hsomething =>
    have hproper : StandsFor document settings ↔ IsValid document settings :=
      or_iff_left fun h => hsomething (isNothing_iff.2 (.inr (.inl h.1)))
    rw [hproper]
    split
    · rw [mapError_eq_ok_iff, ofPairs_eq_ok_iff]
      exact ⟨.mapping, fun | .mapping h => h⟩
    · next hmapping =>
      refine iff_of_false nofun ?_
      rintro (_ | _)
      · exact hsomething rfl
      · exact hmapping _ rfl

theorem StandsFor.unique {other : Settings} (h : StandsFor document settings)
    (hother : StandsFor document other) : settings = other :=
  Except.ok.inj ((ofDocument_eq_ok_iff.2 h).symm.trans (ofDocument_eq_ok_iff.2 hother))

/-- A document that stands for nothing is refused: a mapping with its issues, and any other value
because it is none. -/
theorem exists_fault_of_not_standsFor (h : ¬ ∃ settings, StandsFor document settings) :
    ∃ fault, ofDocument document = .error fault ∧
      (fault = .notMapping ↔ ∀ pairs, document ≠ .mapping pairs) := by
  unfold ofDocument
  split
  · next hnothing => exact absurd ⟨default, (standsFor_of_isNothing hnothing).2 rfl⟩ h
  · split
    · next pairs _ =>
      cases hpairs : ofPairs pairs with
      | ok settings => exact absurd ⟨settings, .inl (.mapping (ofPairs_eq_ok_iff.1 hpairs))⟩ h
      | error issues => exact ⟨_, rfl, iff_of_false nofun fun hnot => hnot pairs rfl⟩
    · next hmapping => exact ⟨_, rfl, iff_of_true rfl hmapping⟩

/-! ### Paths -/

/-- The path of the report or of the output is among the settings. -/
def HasPath (settings : Settings) (p : FilePath) : Prop :=
  settings.report = some p ∨ settings.output = some p

/-- The paths of the settings can be taken from the directory: all components on the way to a relative
one can be named. -/
def CanAnchor (directory : FilePath) (settings : Settings) : Prop :=
  ∀ p, settings.HasPath p → p.isAbsolute = false → ∀ c ∈ (directory.under p).components, c.IsNameable

/-- An absolute path, or what a relative one leads to from the directory. -/
def anchoredPath (directory p : FilePath) : FilePath :=
  if p.isAbsolute then p else FilePath.resolve directory p

/-- The settings with their relative paths taken from the directory. -/
def anchored (directory : FilePath) (settings : Settings) : Settings :=
  { settings with
    report := settings.report.map (anchoredPath directory)
    output := settings.output.map (anchoredPath directory) }

variable {directory : FilePath}

/-- Among the default settings there is no path. -/
theorem canAnchor_default : CanAnchor directory default := by
  rintro p (h | h)
  all_goals cases h

theorem isAbsolute_anchoredPath (p : FilePath) : (anchoredPath directory p).isAbsolute = true := by
  rw [anchoredPath]
  split
  · next h => exact h
  · exact FilePath.isAbsolute_resolve directory p

theorem isAbsolute_of_hasPath_anchored {p : FilePath} (h : (settings.anchored directory).HasPath p) :
    p.isAbsolute = true := by
  obtain h | h := h
  all_goals
    obtain ⟨_, -, rfl⟩ := Option.map_eq_some_iff.1 h
    exact isAbsolute_anchoredPath _

theorem anchorPath_eq_ok_iff {p q : Option FilePath} :
    anchorPath directory p = .ok q ↔
      (∀ x, p = some x → x.isAbsolute = false → ∀ c ∈ (directory.under x).components, c.IsNameable) ∧
        p.map (anchoredPath directory) = q := by
  cases p with
  | none => simp [anchorPath]
  | some x =>
    rw [anchorPath, Option.map_some, anchoredPath]
    cases hx : x.isAbsolute with
    | true => simp [hx]
    | false => simp [hx, map_eq_ok_iff, FilePath.resolve?_eq_ok_iff]

theorem anchor_eq_ok_iff {result : Settings} :
    anchor directory settings = .ok result ↔
      CanAnchor directory settings ∧ settings.anchored directory = result := by
  have hcan : CanAnchor directory settings ↔
      (∀ x, settings.report = some x → x.isAbsolute = false →
        ∀ c ∈ (directory.under x).components, c.IsNameable) ∧
      (∀ x, settings.output = some x → x.isAbsolute = false →
        ∀ c ∈ (directory.under x).components, c.IsNameable) := by
    simp only [CanAnchor, HasPath, or_imp, forall_and]
  rw [anchor, bind_eq_ok_iff, hcan]
  simp only [bind_eq_ok_iff, anchorPath_eq_ok_iff]
  constructor
  · rintro ⟨_, ⟨hreport, rfl⟩, _, ⟨houtput, rfl⟩, heq⟩
    exact ⟨⟨hreport, houtput⟩, Except.ok.inj heq⟩
  · rintro ⟨⟨hreport, houtput⟩, rfl⟩
    exact ⟨_, ⟨hreport, rfl⟩, _, ⟨houtput, rfl⟩, rfl⟩

/-! ### Files -/

section

variable {files : Files Id} {path : FilePath} {required : Bool}

/-- A file that is there gives what its document does. -/
theorem load_eq (hexists : files.doesExist path = .ok true)
    (hread : documentOf (files.bytes path) = .ok document) :
    load files path required =
      ((ofDocument document).mapError fun fault => SettingsError.refused (.document path fault)) >>=
        fun settings =>
          (anchor (FilePath.resolve files.directory path).parent settings).mapError .file := by
  have hload : load files path required = ofContents files.directory path (files.bytes path) := by
    simp only [load, bind, hexists]
    rfl
  rw [hload, ofContents, hread]
  rfl

/-- What is loaded is what the document stands for, with its paths taken from the directory of the
file. -/
theorem load_eq_ok_iff (hexists : files.doesExist path = .ok true)
    (hread : documentOf (files.bytes path) = .ok document) :
    load files path required = .ok settings ↔
      ∃ described, StandsFor document described ∧
        CanAnchor (FilePath.resolve files.directory path).parent described ∧
        described.anchored (FilePath.resolve files.directory path).parent = settings := by
  rw [load_eq hexists hread, bind_eq_ok_iff]
  simp only [mapError_eq_ok_iff, ofDocument_eq_ok_iff, anchor_eq_ok_iff]

theorem load_of_not_standsFor (hexists : files.doesExist path = .ok true)
    (hread : documentOf (files.bytes path) = .ok document)
    (h : ¬ ∃ described, StandsFor document described) :
    ∃ fault, load files path required = .error (.refused (.document path fault)) ∧
      (fault = .notMapping ↔ ∀ pairs, document ≠ .mapping pairs) := by
  obtain ⟨fault, hfault, hkind⟩ := exists_fault_of_not_standsFor h
  refine ⟨fault, ?_, hkind⟩
  rw [load_eq hexists hread, hfault]
  rfl

theorem load_of_not_canAnchor (hexists : files.doesExist path = .ok true)
    (hread : documentOf (files.bytes path) = .ok document) (h : StandsFor document settings)
    (hnot : ¬ CanAnchor (FilePath.resolve files.directory path).parent settings) :
    ∃ fault, load files path required = .error (.file fault) := by
  rw [load_eq hexists hread, ofDocument_eq_ok_iff.2 h]
  cases hanchor : anchor (FilePath.resolve files.directory path).parent settings with
  | ok result => exact absurd (anchor_eq_ok_iff.1 hanchor).1 hnot
  | error fault =>
    refine ⟨fault, ?_⟩
    show Except.mapError _ (anchor _ settings) = _
    rw [hanchor]
    rfl

/-- Exactly the valid documents are loaded, and the other ones are refused, if the document does not
pass for an empty one and all paths of a valid one can be taken from the directory of the file. Either
condition is needed: a document that passes for an empty one is loaded and not valid, and a path that
cannot be taken keeps a valid one from being loaded. -/
theorem loads_valid_iff (hexists : files.doesExist path = .ok true)
    (hread : documentOf (files.bytes path) = .ok document) :
    ((∃ settings, load files path required = .ok settings) ↔
          ∃ described, IsValid document described) ∧
        ((¬ ∃ described, IsValid document described) →
          ∃ fault, load files path required = .error (.refused fault)) ↔
      ¬ PassesForEmpty document ∧ ∀ described, IsValid document described →
        CanAnchor (FilePath.resolve files.directory path).parent described := by
  simp only [load_eq_ok_iff hexists hread]
  constructor
  · rintro ⟨hloads, -⟩
    refine ⟨fun hempty => ?_, fun described hvalid => ?_⟩
    · obtain ⟨described, hvalid⟩ :=
        hloads.1 ⟨_, default, .inr ⟨hempty, rfl⟩, canAnchor_default, rfl⟩
      exact hempty.not_isValid hvalid
    · obtain ⟨_, other, hother, hcan, -⟩ := hloads.2 ⟨described, hvalid⟩
      rwa [StandsFor.unique (.inl hvalid) hother]
  · rintro ⟨hproper, hcan⟩
    have hvalid {described : Settings} :
        StandsFor document described ↔ IsValid document described :=
      or_iff_left fun h => hproper h.1
    simp only [hvalid]
    refine ⟨⟨?_, ?_⟩, fun hnone => ?_⟩
    · rintro ⟨_, described, h, -, -⟩
      exact ⟨described, h⟩
    · rintro ⟨described, h⟩
      exact ⟨_, described, h, hcan described h, rfl⟩
    · obtain ⟨fault, hfault, -⟩ := @load_of_not_standsFor document files path required hexists hread
        fun ⟨described, h⟩ => hnone ⟨described, hvalid.1 h⟩
      exact ⟨_, hfault⟩

/-- **Loading a document.** It gives settings exactly when the document stands for some whose paths can
be taken from the directory of the file, and these with the paths taken from there, so all of them
absolute; it refuses a document that stands for nothing, and where a path cannot be taken it fails
with a fault of that path. So it accepts the valid documents and refuses the other ones exactly as
long as the document does not pass for an empty one and all paths of a valid one can be taken. -/
theorem load_document (hexists : files.doesExist path = .ok true)
    (hread : documentOf (files.bytes path) = .ok document) :
    let base := (FilePath.resolve files.directory path).parent
    let outcome : Except SettingsError Settings := load files path required
    (∀ settings, outcome = .ok settings ↔
      ∃ described, StandsFor document described ∧ CanAnchor base described ∧
        described.anchored base = settings) ∧
    ((¬ ∃ described, StandsFor document described) →
      ∃ fault, outcome = .error (.refused (.document path fault)) ∧
        (fault = .notMapping ↔ ∀ pairs, document ≠ .mapping pairs)) ∧
    (∀ described, StandsFor document described → ¬ CanAnchor base described →
      ∃ fault, outcome = .error (.file fault)) ∧
    (((∃ settings, outcome = .ok settings) ↔ ∃ described, IsValid document described) ∧
        ((¬ ∃ described, IsValid document described) → ∃ fault, outcome = .error (.refused fault)) ↔
      ¬ PassesForEmpty document ∧ ∀ described, IsValid document described → CanAnchor base described) ∧
    ∀ settings, outcome = .ok settings → ∀ p, settings.HasPath p → p.isAbsolute = true := by
  intro base outcome
  have hok {settings : Settings} : outcome = .ok settings ↔
      ∃ described, StandsFor document described ∧ CanAnchor base described ∧
        described.anchored base = settings := load_eq_ok_iff hexists hread
  refine ⟨fun settings => hok, load_of_not_standsFor hexists hread,
    fun described => load_of_not_canAnchor hexists hread, loads_valid_iff hexists hread, ?_⟩
  intro settings h p hp
  obtain ⟨described, -, -, rfl⟩ := hok.1 h
  exact isAbsolute_of_hasPath_anchored hp

end

/-- The files below the root where `sub/c.yaml` holds a text. -/
def settingsFiles (text : Text) : Files Id :=
  (⟨[(["sub"], .directory), (["sub", "c.yaml"], .file ((Utf8.encode text).toOption.getD []))]⟩ :
    FileTree).files ⟨[Path.separator], []⟩

/-- A report that is named relative to the file, and a switch that is off. -/
theorem load_document_of_report :
    let files := settingsFiles "report: ../r.json\ndiscovery: {sibling: off}\n"
    let path := FilePath.ofText "sub/c.yaml"
    let described : Settings :=
      ⟨some (FilePath.ofText "../r.json"), none, ⟨true, false, true⟩, true, .warning⟩
    files.doesExist path = .ok true ∧ ∃ document, documentOf (files.bytes path) = .ok document ∧
      StandsFor document described ∧
      load files path true = .ok { described with report := some (FilePath.ofText "/r.json") } := by
  intro files path described
  have hexists : files.doesExist path = .ok true := rfl
  have hdocument : ((documentOf (files.bytes path)).toOption.bind fun document =>
      (ofDocument document).toOption) = some described := by decide +kernel
  obtain ⟨document, hread, hdescribed⟩ := Option.bind_eq_some_iff.1 hdocument
  have hread := toOption_eq_some_iff.1 hread
  have hstands := ofDocument_eq_ok_iff.1 (toOption_eq_some_iff.1 hdescribed)
  obtain ⟨hok, -⟩ := @load_document document files path true hexists hread
  refine ⟨hexists, document, hread, hstands, (hok _).2 ⟨described, hstands, ?_, rfl⟩⟩
  rintro p (h | h) -
  · obtain rfl := Option.some.inj h
    decide
  · cases h

/-- The empty sequence is no valid document, and it is loaded: the default settings hold. -/
theorem load_empty_sequence :
    let files := settingsFiles "[]\n"
    let path := FilePath.ofText "sub/c.yaml"
    files.doesExist path = .ok true ∧ documentOf (files.bytes path) = .ok (.sequence []) ∧
      load files path true = .ok default ∧
      ¬ ((∃ settings, load files path true = .ok settings) ↔
        ∃ described, IsValid (.sequence []) described) := by
  refine ⟨rfl, rfl, rfl, fun h => ?_⟩
  obtain ⟨described, hvalid⟩ := h.1 ⟨default, rfl⟩
  cases hvalid

end CoverageLift.Settings
