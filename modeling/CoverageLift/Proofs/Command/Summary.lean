import CoverageLift.Proofs.Command.NamedMaps
import CoverageLift.Proofs.Remap.Effect

/-!
# The summary of a run

The summary counts the files of the report whose paths are gone after remapping. A path is gone when no
file is written at it and its file moved, or when it is a destination that is left out
(`mem_keys_remap_iff`). So a file that moves is not counted when its path is written again
(`replacedFiles`), and a file that does not move is counted when it is left out as an empty destination
(`emptiedFiles`). **The number of the summary is that of the files that move exactly when these are
equally many** (`summary_of_runRemap`).
-/

namespace CoverageLift

variable {atlas : Atlas Resolver} {enforceBounds : Bool} {report : Report}

/-! ### Files by what becomes of them -/

/-- The files that move. -/
def movingFiles (atlas : Atlas Resolver) (report : Report) : Report :=
  report.filter fun file => (destinationOf? atlas file).isSome

/-- The files that move and whose paths are written again, by themselves or by other files. -/
def replacedFiles (atlas : Atlas Resolver) (enforceBounds : Bool) (report : Report) : Report :=
  report.filter fun file => (destinationOf? atlas file).isSome ∧
    file.1 ∈ destinationsOf atlas report ∧ isHeld atlas enforceBounds report file.1

/-- The files that do not move and are left out as destinations that receive nothing. -/
def emptiedFiles (atlas : Atlas Resolver) (enforceBounds : Bool) (report : Report) : Report :=
  report.filter fun file => (destinationOf? atlas file).isNone ∧
    file.1 ∈ destinationsOf atlas report ∧ ¬ isHeld atlas enforceBounds report file.1

/-- A path of the report after remapping is a destination that is held, or else the path of a file that
stays. -/
theorem mem_keys_remap_iff (herror : (remap atlas enforceBounds report).error = none) (path : Text) :
    path ∈ OrderedMap.keys (remap atlas enforceBounds report).report ↔
      if path ∈ destinationsOf atlas report then isHeld atlas enforceBounds report path = true
      else path ∈ OrderedMap.keys (stayingOf atlas report) := by
  rw [report_remap, keys_applyWrites (nodup_keys_writesOf _ _ _) fun w hw => isHeld_of_mem_writesOf hw,
    keys_writesOf herror, keys_pendingOf]
  by_cases hdestination : path ∈ destinationsOf atlas report
  · simp [hdestination]
    tauto
  · simp [hdestination]

/-- A file of a report stays exactly when its path is among those of the files that stay. -/
theorem mem_keys_stayingOf_iff (hkeys : (OrderedMap.keys report).Nodup) {file : Text × Json}
    (hfile : file ∈ report) :
    file.1 ∈ OrderedMap.keys (stayingOf atlas report) ↔ (destinationOf? atlas file).isNone = true := by
  rw [stayingOf_eq_filter]
  constructor
  · intro h
    obtain ⟨other, hother, hpath⟩ := List.mem_map.1 h
    obtain ⟨hmem, hstays⟩ := List.mem_filter.1 hother
    have hsame : other.2 = file.2 := Option.some.inj <|
      (OrderedMap.get?_eq_some_of_mem hkeys (hpath ▸ hmem)).symm.trans
        (OrderedMap.get?_eq_some_of_mem hkeys hfile)
    rwa [← Prod.ext hpath hsame]
  · exact fun hstays => List.mem_map_of_mem (List.mem_filter.2 ⟨hfile, hstays⟩)

/-- Two pairs of properties that hold of every item equally often are counted equally often. -/
theorem length_filter_add_length_filter {α : Type} {p q r s : α → Bool} {items : List α}
    (h : ∀ a ∈ items, (p a).toNat + (q a).toNat = (r a).toNat + (s a).toNat) :
    (items.filter p).length + (items.filter q).length =
      (items.filter r).length + (items.filter s).length := by
  induction items with
  | nil => rfl
  | cons a items ih =>
    obtain ⟨ha, hitems⟩ := List.forall_mem_cons.1 h
    have hrest := ih hitems
    have hcons (t : α → Bool) : ((a :: items).filter t).length =
        (items.filter t).length + (t a).toNat := by
      rw [List.filter_cons]
      cases t a <;> simp
    rw [hcons, hcons, hcons, hcons]
    omega

/-- **What is counted**: the files that move, without those whose paths are written again, and the files
that are left out. -/
theorem movedCount_add_length (hkeys : (OrderedMap.keys report).Nodup)
    (herror : (remap atlas enforceBounds report).error = none) :
    Command.movedCount report (remap atlas enforceBounds report).report +
        (replacedFiles atlas enforceBounds report).length =
      (movingFiles atlas report).length + (emptiedFiles atlas enforceBounds report).length := by
  refine length_filter_add_length_filter fun file hfile => ?_
  have hleft := mem_keys_remap_iff herror file.1
  rw [mem_keys_stayingOf_iff hkeys hfile, ← OrderedMap.contains_iff] at hleft
  change (!OrderedMap.contains (remap atlas enforceBounds report).report file.1).toNat + _ = _
  by_cases hdestination : file.1 ∈ destinationsOf atlas report
  · rw [if_pos hdestination, ← Bool.eq_iff_iff] at hleft
    rw [hleft]
    cases isHeld atlas enforceBounds report file.1 <;> cases destinationOf? atlas file <;>
      simp [hdestination]
  · rw [if_neg hdestination, ← Bool.eq_iff_iff] at hleft
    rw [hleft]
    simp [hdestination]

namespace Command

variable {disk : Disk Id} {request : RemapRequest} {settings : Settings}

/-! ### The command -/

/-- The command remaps with the atlas that it comes to. -/
theorem ComesToRemapping.exists_runRemap_eq (h : ComesToRemapping disk request settings report atlas) :
    ∃ notices, runRemap disk request = finish disk (request.output <|> settings.output) report
      (Stage.after notices (remapStage settings report atlas)) settings.level := by
  obtain ⟨hloaded, ⟨path, hpath, hread⟩, hprepared⟩ := h
  have hrun := runRemap_of_load hloaded hpath
  rw [hread] at hrun
  exact ⟨_, hrun.trans (remapWith_of_ok hprepared)⟩

theorem finish_eq (disk : Disk Id) (output : Option FilePath) (report : Report)
    (stage : Stage (Atlas Resolver × Report)) (level : Level) :
    finish disk output report stage level =
      match stage.result with
      | .error reason => (⟨[], shownLog level stage.notices, some reason⟩ : Outcome)
      | .ok (atlas, after) =>
        match reportText after with
        | .error reason => ⟨[], shownLog level stage.notices, some reason⟩
        | .ok text =>
          match deliver (m := Id) disk output text with
          | .error reason => ⟨[], shownLog level stage.notices, some reason⟩
          | .ok written =>
            ⟨written, shownLog level stage.notices ++ [.line (summary report after atlas)], none⟩ := rfl

/-- A run that ends has remapped the report and says so at last. -/
theorem exists_of_finish {output : Option FilePath} {stage : Stage (Atlas Resolver × Report)}
    {level : Level} (h : (finish disk output report stage level : Outcome).stop = none) :
    ∃ atlas after, stage.result = .ok (atlas, after) ∧
      (finish disk output report stage level : Outcome).log =
        shownLog level stage.notices ++ [.line (summary report after atlas)] := by
  revert h
  rw [finish_eq]
  rcases stage.result with reason | ⟨atlas, after⟩
  · rintro ⟨⟩
  · dsimp only
    rcases reportText after with reason | text
    · rintro ⟨⟩
    · dsimp only
      rcases deliver (m := Id) disk output text with reason | written
      · rintro ⟨⟩
      · exact fun _ => ⟨atlas, after, rfl, rfl⟩

theorem result_remapStage_eq_ok_iff {other : Atlas Resolver} {after : Report} :
    (remapStage settings report atlas).result = .ok (other, after) ↔
      (remap atlas settings.enforceBounds report).error = none ∧ atlas = other ∧
        (remap atlas settings.enforceBounds report).report = after := by
  rw [remapStage]
  dsimp only
  rcases (remap atlas settings.enforceBounds report).error with _ | error
  · simp
  · simp

/-- **The number of the summary.** A run that ends has remapped a report with an atlas. The number that
it says, with the files that move and whose paths are written again, makes the files that move with
those that are left out. So it is the number of the files that move exactly when as many of them are
written again as other files are left out. -/
theorem summary_of_runRemap (h : (runRemap disk request : Outcome).stop = none) :
    ∃ settings report atlas, ComesToRemapping disk request settings report atlas ∧
      (remap atlas settings.enforceBounds report).error = none ∧
      ∃ log n, (runRemap disk request : Outcome).log = log ++ [.line (("Remapped " : Text) ++
          Text.ofNat n ++ (" of " : Text) ++ Text.ofNat report.length ++
          (" file(s) using " : Text) ++ Text.ofNat atlas.size ++ (" source map(s)." : Text))] ∧
        n + (replacedFiles atlas settings.enforceBounds report).length =
          (movingFiles atlas report).length +
            (emptiedFiles atlas settings.enforceBounds report).length ∧
        (n = (movingFiles atlas report).length ↔
          (replacedFiles atlas settings.enforceBounds report).length =
            (emptiedFiles atlas settings.enforceBounds report).length) := by
  obtain ⟨settings, report, atlas, hcomes⟩ | ⟨log, reason, hrun⟩ := comesToRemapping_or_stops disk request
  · obtain ⟨notices, hrun⟩ := hcomes.exists_runRemap_eq
    rw [hrun] at h
    obtain ⟨_, _, hresult, hlog⟩ := exists_of_finish h
    obtain ⟨herror, rfl, rfl⟩ := result_remapStage_eq_ok_iff.1 hresult
    obtain ⟨path, -, hread⟩ := hcomes.read
    have hcount := movedCount_add_length (nodup_keys_of_reportOf hread) herror
    refine ⟨settings, report, atlas, hcomes, herror, _, _, (congrArg Outcome.log hrun).trans hlog,
      hcount, ?_⟩
    omega
  · rw [hrun] at h
    cases h

/-- A run comes to one report and one atlas. -/
theorem ComesToRemapping.unique {settings' : Settings} {report' : Report} {atlas' : Atlas Resolver}
    (h : ComesToRemapping disk request settings report atlas)
    (h' : ComesToRemapping disk request settings' report' atlas') :
    settings' = settings ∧ report' = report ∧ atlas' = atlas := by
  obtain ⟨hloaded, ⟨path, hpath, hread⟩, hprepared⟩ := h
  obtain ⟨hloaded', ⟨path', hpath', hread'⟩, hprepared'⟩ := h'
  obtain rfl := Except.ok.inj (hloaded.symm.trans hloaded')
  obtain rfl := Option.some.inj (hpath.symm.trans hpath')
  obtain rfl := Except.ok.inj (hread.symm.trans hread')
  exact ⟨rfl, rfl, Except.ok.inj (hprepared'.symm.trans hprepared)⟩

/-- The command for the report `r.json` with the maps that are found. -/
def requestOfReport : RemapRequest :=
  ⟨some (FilePath.ofText "r.json"), none, defaultConfig, [], true⟩

/-- The coverage of a file with one statement and a map to one source. -/
def coverageWith (counts : OrderedMap Text Json) (source : Text) : Json :=
  let start : Json := .obj [("line", .int 1), ("column", .int 0)]
  .obj [("statementMap", .obj [("0", .obj [("start", start)])]), ("s", .obj counts),
    ("inputSourceMap", .obj [("version", .int 3), ("sources", .arr [.str source]),
      ("mappings", .str "AAAA")])]

/-- The report as the file `r.json`. -/
def reportDisk (report : Report) : Disk Id :=
  treeDisk ⟨[(["r.json"], .file ((Utf8.encode (Json.obj report).compact).toOption.getD []))]⟩

/-- A file without counts, whose destination is no coverage. -/
def emptiedReport : Report := [("a.js", coverageWith [] "b.ts"), ("b.ts", .int 5)]

/-- The destination is left out, and so it is counted with the file that moves to it. -/
theorem summary_of_runRemap_emptiedReport :
    let outcome : Outcome := runRemap (reportDisk emptiedReport) requestOfReport
    outcome.stop = none ∧ ∃ report atlas log,
      ComesToRemapping (reportDisk emptiedReport) requestOfReport Settings.default report atlas ∧
      (movingFiles atlas report).length = 1 ∧ (emptiedFiles atlas true report).length = 1 ∧
      outcome.log = log ++ [.line "Remapped 2 of 2 file(s) using 1 source map(s)."] := by
  intro outcome
  have hstop : outcome.stop = none := by decide +kernel
  obtain ⟨settings, report, atlas, hcomes, -, log, n, hlog, hcount, -⟩ := summary_of_runRemap hstop
  obtain ⟨report', atlas', hcomes', hcheck⟩ := exists_comesToRemapping_of_check
    (reportDisk emptiedReport) requestOfReport Settings.default (FilePath.ofText "r.json")
    (fun report atlas => decide (report.length = 2 ∧ atlas.size = 1 ∧
      (movingFiles atlas report).length = 1 ∧ (emptiedFiles atlas true report).length = 1 ∧
      (replacedFiles atlas true report).length = 0)) rfl rfl (by decide +kernel)
  obtain ⟨rfl, rfl, rfl⟩ := hcomes'.unique hcomes
  obtain ⟨hlength, hsize, hmoving, hemptied, hreplaced⟩ := of_decide_eq_true hcheck
  refine ⟨hstop, report, atlas, log, hcomes, hmoving, hemptied, ?_⟩
  have hn : n = 2 := by
    have hbounds : Settings.default.enforceBounds = true := rfl
    rw [hbounds, hreplaced, hmoving, hemptied] at hcount
    exact hcount
  rw [hlog, hn, hlength, hsize]
  rfl

/-- A file that moves to its own path, one that moves to the path of the third, and the third, which
moves away. -/
def chainReport : Report :=
  [("a.js", coverageWith [("0", .int 1)] "a.js"), ("b.js", coverageWith [("0", .int 1)] "c.js"),
    ("c.js", coverageWith [("0", .int 1)] "d.ts")]

/-- Three files move, but the paths of two of them are written again, and only one is counted. -/
theorem errorOutput_runRemap_chainReport :
    let outcome : Outcome := runRemap (reportDisk chainReport) requestOfReport
    outcome.stop = none ∧
      outcome.errorOutput = "Remapped 1 of 3 file(s) using 3 source map(s).\n" ∧
      ∃ report atlas,
        ComesToRemapping (reportDisk chainReport) requestOfReport Settings.default report atlas ∧
        (movingFiles atlas report).length = 3 := by
  intro outcome
  obtain ⟨report, atlas, hcomes, hcheck⟩ := exists_comesToRemapping_of_check
    (reportDisk chainReport) requestOfReport Settings.default (FilePath.ofText "r.json")
    (fun report atlas => decide ((movingFiles atlas report).length = 3)) rfl rfl (by decide +kernel)
  have hend : outcome.stop = none ∧
      outcome.errorOutput = "Remapped 1 of 3 file(s) using 3 source map(s).\n" := by
    decide +kernel
  exact ⟨hend.1, hend.2, report, atlas, hcomes, of_decide_eq_true hcheck⟩

end Command

end CoverageLift
