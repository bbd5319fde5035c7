import CoverageLift.Proofs.Command.Inputs
import CoverageLift.Proofs.Discovery.Registration
import CoverageLift.Proofs.Json.Members

/-!
# Maps that are named

A map that is named on the command line is the map of its file, whatever else there is to be found.
An accepted argument names one map (`Names`); registering an argument puts this map into the atlas, and
from that, by induction over the arguments, the atlas has for a path the map of the last argument for
it. Maps are looked for only where there is none by then. The command comes to remapping with that
atlas, or it stops before (`comesToRemapping_or_stops`); when it comes to it, **every path has the map
that the last argument for it names, and any other path the one that is found for it, or none**
(`lookup_of_comesToRemapping`).
-/

namespace CoverageLift.Command

/-! ### Arguments -/

/-- The path that a map is registered under: the name of a generated file if it is a key of the
report, or else its absolute path. -/
inductive IsKeyOf (directory : FilePath) (report : Report) (generated : Text) : Text → Prop
  | listed (h : generated ∈ OrderedMap.keys report) : IsKeyOf directory report generated generated
  | absolute {path : FilePath} (h : generated ∉ OrderedMap.keys report)
      (hpath : FilePath.resolve? directory (FilePath.ofText generated) = .ok path) :
      IsKeyOf directory report generated path.toText

/-- An argument is for a path: the path is the key of what stands in front of its last equals sign. -/
def IsFor (directory : FilePath) (report : Report) (arg key : Text) : Prop :=
  ∃ generated name, arg = generated ++ .char '=' :: name ∧ .char '=' ∉ name ∧
    IsKeyOf directory report generated key

/-- An argument is accepted, and this is its path and the map that its file holds. -/
inductive Names (files : Files Id) (report : Report) (arg : Text) : Text × Resolver → Prop
  | intro {generated name key text : Text} {resolver : Resolver}
      (harg : arg = generated ++ .char '=' :: name) (hlast : .char '=' ∉ name)
      (hgenerated : generated ≠ []) (hname : name ≠ [])
      (hkey : IsKeyOf files.directory report generated key)
      (htext : fileText (files.bytes (FilePath.ofText name)) = .ok text)
      (hresolver : Discovery.buildResolver (.value (.str text)) key = .ok resolver) :
      Names files report arg (key, resolver)

variable {files : Files Id} {report : Report} {atlas added : Atlas Resolver}
  {arg generated name key : Text} {map : Text × Resolver}

theorem Names.isFor (h : Names files report arg map) : IsFor files.directory report arg map.1 := by
  obtain ⟨harg, hlast, -, -, hkey, -, -⟩ := h
  exact ⟨_, _, harg, hlast, hkey⟩

theorem splitMap?_eq_some_iff :
    splitMap? arg = some (generated, name) ↔
      arg = generated ++ .char '=' :: name ∧ .char '=' ∉ name ∧ generated ≠ [] ∧ name ≠ [] := by
  rw [splitMap?, ← and_assoc, ← Text.cutLast?_eq_some_iff]
  rcases Text.cutLast? (.char '=') arg with _ | ⟨before, behind⟩
  · simp
  · simp only [Option.some.injEq, Prod.mk.injEq, Bool.or_eq_true, List.isEmpty_iff]
    split
    · next hempty =>
      refine iff_of_false (nomatch ·) ?_
      rintro ⟨⟨rfl, rfl⟩, hbefore, hbehind⟩
      exact hempty.elim hbefore hbehind
    · next hfull =>
      rw [not_or] at hfull
      simp only [Option.some.injEq, Prod.mk.injEq]
      refine ⟨?_, And.left⟩
      rintro ⟨rfl, rfl⟩
      exact ⟨⟨rfl, rfl⟩, hfull⟩

theorem mapKey_eq_ok_iff {directory : FilePath} :
    mapKey directory report generated = .ok key ↔ IsKeyOf directory report generated key := by
  rw [mapKey]
  by_cases h : generated ∈ OrderedMap.keys report
  · rw [if_pos ((OrderedMap.contains_iff _ _).2 h)]
    constructor
    · rintro ⟨⟩
      exact .listed h
    · rintro (_ | ⟨hnot, _⟩)
      · rfl
      · exact absurd h hnot
  · rw [if_neg (mt (OrderedMap.contains_iff _ _).1 h), map_eq_ok_iff]
    constructor
    · rintro ⟨path, hpath, rfl⟩
      exact .absolute h hpath
    · rintro (hlisted | ⟨_, hpath⟩)
      · exact absurd hlisted h
      · exact ⟨_, hpath, rfl⟩

/-- An argument is for one path only. -/
theorem IsFor.eq {directory : FilePath} {other : Text} (h : IsFor directory report arg key)
    (hother : IsFor directory report arg other) : key = other := by
  obtain ⟨generated, name, harg, hlast, hkey⟩ := h
  obtain ⟨generated', name', harg', hlast', hother⟩ := hother
  have hcut := (Text.cutLast?_eq_some_iff.2 ⟨harg, hlast⟩).symm.trans
    (Text.cutLast?_eq_some_iff.2 ⟨harg', hlast'⟩)
  obtain ⟨rfl, rfl⟩ := Prod.mk.inj (Option.some.inj hcut)
  exact Except.ok.inj ((mapKey_eq_ok_iff.2 hkey).symm.trans (mapKey_eq_ok_iff.2 hother))

/-! ### Registering -/

/-- A map is added when its file holds one. -/
theorem addMap_eq_ok_iff {text : Except TextFault Text} :
    addMap atlas key name text = .ok added ↔
      ∃ t resolver, text = .ok t ∧
        Discovery.buildResolver (.value (.str t)) key = .ok resolver ∧
        added = atlas.registerAll [(key, resolver)] := by
  rcases text with fault | t
  · constructor
    · intro h
      rcases fault with (_ | _ | _) | _ <;> cases h
    · rintro ⟨_, _, ⟨⟩, -, -⟩
  · rw [addMap]
    rcases hbuilt : Discovery.buildResolver (.value (.str t)) key with error | resolver
    · rw [Discovery.register_of_buildResolver_error hbuilt]
      constructor
      · intro h
        cases error <;> cases h
      · rintro ⟨_, _, ⟨⟩, hresolver, -⟩
        cases hbuilt.symm.trans hresolver
    · rw [Discovery.register_of_buildResolver_ok hbuilt]
      constructor
      · rintro ⟨⟩
        exact ⟨t, resolver, rfl, hbuilt, rfl⟩
      · rintro ⟨_, _, ⟨⟩, hresolver, rfl⟩
        cases hbuilt.symm.trans hresolver
        rfl

/-- **One argument** is registered when it names a map, and the map is put into the atlas. -/
theorem registerNamed_eq_ok_iff :
    (registerNamed files report atlas arg).result = .ok added ↔
      ∃ map, Names files report arg map ∧ added = atlas.registerAll [map] := by
  constructor
  · intro h
    rcases hsplit : splitMap? arg with _ | ⟨generated, name⟩
    · rw [registerNamed, hsplit] at h
      cases h
    · rcases hkey : mapKey files.directory report generated with fault | key
      · rw [registerNamed, hsplit] at h
        dsimp only at h
        rw [hkey] at h
        cases h
      · rw [result_registerNamed hsplit hkey] at h
        obtain ⟨text, resolver, htext, hresolver, rfl⟩ := addMap_eq_ok_iff.1 h
        obtain ⟨harg, hlast, hgenerated, hname⟩ := splitMap?_eq_some_iff.1 hsplit
        exact ⟨_, .intro harg hlast hgenerated hname (mapKey_eq_ok_iff.1 hkey) htext hresolver, rfl⟩
  · rintro ⟨_, ⟨harg, hlast, hgenerated, hname, hkey, htext, hresolver⟩, rfl⟩
    rw [result_registerNamed (splitMap?_eq_some_iff.2 ⟨harg, hlast, hgenerated, hname⟩)
      (mapKey_eq_ok_iff.2 hkey)]
    exact addMap_eq_ok_iff.2 ⟨_, _, htext, hresolver, rfl⟩

/-- **All arguments** are registered when each of them names a map, and the maps are put into the atlas
one after the other. -/
theorem registerAllNamed_eq_ok_iff {args : List Text} :
    ∀ {atlas}, (registerAllNamed files report atlas args).result = .ok added ↔
      ∃ named, List.Forall₂ (Names files report) args named ∧ added = atlas.registerAll named := by
  induction args with
  | nil =>
    intro atlas
    constructor
    · rintro ⟨⟩
      exact ⟨[], .nil, rfl⟩
    · rintro ⟨_, ⟨⟩, rfl⟩
      rfl
  | cons arg args ih =>
    intro atlas
    rw [result_registerAllNamed_cons]
    constructor
    · intro h
      split at h
      · cases h
      · next first hfirst =>
        obtain ⟨map, hmap, rfl⟩ := registerNamed_eq_ok_iff.1 hfirst
        obtain ⟨named, hnamed, rfl⟩ := ih.1 h
        exact ⟨map :: named, .cons hmap hnamed, rfl⟩
    · rintro ⟨_, _ | ⟨hmap, hnamed⟩, rfl⟩
      rw [registerNamed_eq_ok_iff.2 ⟨_, hmap, rfl⟩]
      exact ih.2 ⟨_, hnamed, rfl⟩

/-- The map of the last argument for a path stays. -/
theorem exists_get?_reverse_of_last {before behind : List Text} {named : List (Text × Resolver)}
    (h : List.Forall₂ (Names files report) (before ++ arg :: behind) named)
    (hfor : IsFor files.directory report arg key)
    (hlast : ∀ other ∈ behind, ¬ IsFor files.directory report other key) :
    ∃ resolver, Names files report arg (key, resolver) ∧
      OrderedMap.get? named.reverse key = some resolver := by
  obtain ⟨first, ⟨path, resolver⟩, rest, rfl, -, hmap, hrest⟩ := exists_of_forall₂_append_cons h
  obtain rfl := hmap.isFor.eq hfor
  refine ⟨resolver, hmap,
    OrderedMap.get?_eq_some_iff_append.2 ⟨rest.reverse, first.reverse, by simp, fun hmem => ?_⟩⟩
  obtain ⟨other, hother, hkey⟩ := List.mem_map.1 hmem
  obtain ⟨arg', harg', hnames⟩ := exists_left_of_mem hrest (List.mem_reverse.1 hother)
  exact hlast arg' harg' (hkey ▸ hnames.isFor)

/-- A path that no argument is for has no map among those that are named. -/
theorem get?_reverse_of_none {args : List Text} {named : List (Text × Resolver)}
    (h : List.Forall₂ (Names files report) args named)
    (hnone : ∀ arg ∈ args, ¬ IsFor files.directory report arg key) :
    OrderedMap.get? named.reverse key = none := by
  refine OrderedMap.get?_eq_none_iff.2 fun hmem => ?_
  obtain ⟨map, hmap, rfl⟩ := List.mem_map.1 hmem
  obtain ⟨arg, harg, hnames⟩ := exists_left_of_mem h (List.mem_reverse.1 hmap)
  exact hnone arg harg hnames.isFor

/-! ### Maps that are looked for -/

section Discovery

variable {switches : Discovery.Switches}

/-- A search that does not stop puts into the atlas what there is for the paths without a map. -/
theorem eq_registerAll_of_discoverMaps
    (h : (discoverMaps files switches report atlas).result = .ok added) :
    added = atlas.registerAll (Discovery.registrations files switches (withoutMap atlas report)) := by
  unfold discoverMaps at h
  obtain ⟨-, notices, hrun⟩ | ⟨_, _, _, -, -, -, notices, error, hrun⟩ :=
    Discovery.registerMaps_cases files switches atlas (withoutMap atlas report)
  · rw [hrun] at h
    exact (Except.ok.inj h).symm
  · rw [hrun] at h
    cases error with
    | search error => cases h
    | payload error => cases h

/-- A path that has a map keeps it, and another one gets what is found for it. -/
theorem lookup_of_discoverMaps (hkeys : (OrderedMap.keys report).Nodup)
    (h : (discoverMaps files switches report atlas).result = .ok added) (key : Text) :
    added.lookup (.text key) = (atlas.lookup (.text key)).or
      ((OrderedMap.get? report key).bind fun coverage =>
        Discovery.resolverOf? files switches (key, coverage)) := by
  have hpending : (OrderedMap.keys (withoutMap atlas report)).Nodup :=
    hkeys.sublist ((List.filter_sublist).map _)
  rw [eq_registerAll_of_discoverMaps h, Atlas.lookup_registerAll,
    Discovery.get?_registrations hpending]
  rcases hlookup : atlas.lookup (.text key) with _ | resolver
  · -- the path is among those that are searched for
    have hget : OrderedMap.get? (withoutMap atlas report) key = OrderedMap.get? report key := by
      refine OrderedMap.get?_filter ?_
      rintro ⟨path, coverage⟩ - rfl
      show (!(atlas.lookup (.text path)).isSome) = true
      rw [hlookup]
      rfl
    rw [hget, Option.or_none, Option.none_or]
  · have hnone : OrderedMap.get? (withoutMap atlas report) key = none := by
      refine OrderedMap.get?_eq_none_iff.2 fun hmem => ?_
      obtain ⟨⟨path, coverage⟩, hentry, rfl⟩ := List.mem_map.1 hmem
      have hwithout : (!(atlas.lookup (.text path)).isSome) = true := (List.mem_filter.1 hentry).2
      rw [hlookup] at hwithout
      cases hwithout
    rw [hnone]
    rfl

/-- A part and the one that follows lead to what the second does, if the first leads to anything. -/
theorem Stage.andThen_eq_ok_iff {α β : Type} {stage : Stage α} {next : α → Stage β} {b : β} :
    Stage.result (stage.andThen (m := Id) next) = .ok b ↔
      ∃ a, stage.result = .ok a ∧ (next a).result = .ok b := by
  rw [Stage.andThen]
  rcases stage.result with reason | a
  · constructor
    · rintro ⟨⟩
    · rintro ⟨_, ⟨⟩, -⟩
  · constructor
    · exact fun h => ⟨a, rfl, h⟩
    · rintro ⟨_, ⟨⟩, h⟩
      exact h

/-- The atlas that is prepared: for a path the last map that is named for it, and otherwise what is
found for it in the report. -/
theorem lookup_of_prepareAtlas {request : RemapRequest} {settings : Settings}
    (hkeys : (OrderedMap.keys report).Nodup)
    (h : (prepareAtlas files request settings report).result = .ok atlas) :
    ∃ named, List.Forall₂ (Names files report) request.maps named ∧
      ∀ key, atlas.lookup (.text key) = (OrderedMap.get? named.reverse key).or
        (if request.discover then
          (OrderedMap.get? report key).bind fun coverage =>
            Discovery.resolverOf? files settings.discovery (key, coverage)
        else none) := by
  obtain ⟨first, hfirst, hrest⟩ := Stage.andThen_eq_ok_iff.1 h
  obtain ⟨named, hnamed, rfl⟩ := registerAllNamed_eq_ok_iff.1 hfirst
  have hlookup : ∀ key, (Atlas.empty.registerAll named).lookup (.text key) =
      OrderedMap.get? named.reverse key := fun key =>
    (Atlas.lookup_registerAll key named Atlas.empty).trans Option.or_none
  refine ⟨named, hnamed, fun key => ?_⟩
  split at hrest
  · next hdiscover => rw [lookup_of_discoverMaps hkeys hrest, hlookup, if_pos hdiscover]
  · next hdiscover =>
    obtain rfl := Except.ok.inj hrest
    rw [hlookup, if_neg hdiscover, Option.or_none]

end Discovery

/-! ### The command -/

section Command

variable {disk : Disk Id} {request : RemapRequest} {settings : Settings}

/-- The command comes to remapping: it has read the settings and the report, and it has prepared the
atlas. -/
structure ComesToRemapping (disk : Disk Id) (request : RemapRequest) (settings : Settings)
    (report : Report) (atlas : Atlas Resolver) : Prop where
  loaded : Settings.load disk.toFiles (FilePath.ofText request.config)
    (request.config ≠ defaultConfig) = .ok settings
  read : ∃ path, (request.report <|> settings.report) = some path ∧
    reportOf path (disk.bytes path) = .ok report
  prepared : (prepareAtlas disk.toFiles request settings report).result = .ok atlas

/-- A report that is read has no path twice. -/
theorem nodup_keys_of_reportOf {path : FilePath} {contents : Except FileFault Bytes}
    (h : reportOf path contents = .ok report) : (OrderedMap.keys report).Nodup := by
  unfold reportOf at h
  split at h
  · cases h
  · cases h
  · cases h
  · split at h
    · cases h
    · cases h
    · next hread =>
      obtain rfl := Except.ok.inj h
      exact Json.nodup_keys_of_read hread
    · cases h

/-- The command remaps with the atlas that is prepared. -/
theorem remapWith_of_ok (h : (prepareAtlas disk.toFiles request settings report).result = .ok atlas) :
    remapWith disk request settings report =
      finish disk (request.output <|> settings.output) report
        (Stage.after (prepareAtlas disk.toFiles request settings report).notices
          (remapStage settings report atlas)) settings.level := by
  rw [remapWith]
  rcases hprepared : prepareAtlas (m := Id) disk.toFiles request settings report with ⟨notices, result⟩
  rw [hprepared] at h
  obtain rfl : result = .ok atlas := h
  rfl

/-- The command stops where the atlas is prepared. -/
theorem remapWith_of_error {reason : Stop}
    (h : (prepareAtlas disk.toFiles request settings report).result = .error reason) :
    remapWith disk request settings report =
      ⟨[], shownLog settings.level (prepareAtlas disk.toFiles request settings report).notices,
        some reason⟩ := by
  rw [remapWith]
  rcases hprepared : prepareAtlas (m := Id) disk.toFiles request settings report with ⟨notices, result⟩
  rw [hprepared] at h
  obtain rfl : result = .error reason := h
  rfl

/-- The command comes to remapping, or it stops before that. -/
theorem comesToRemapping_or_stops (disk : Disk Id) (request : RemapRequest) :
    (∃ settings report atlas, ComesToRemapping disk request settings report atlas) ∨
      ∃ log reason, runRemap disk request = (⟨[], log, some reason⟩ : Outcome) := by
  rcases hsettings : (Settings.load disk.toFiles (FilePath.ofText request.config)
      (request.config ≠ defaultConfig) : Except SettingsError Settings) with error | settings
  · refine .inr ⟨[], settingsStop error, ?_⟩
    rw [runRemap, hsettings]
    rfl
  · rcases hpath : (request.report <|> settings.report) with _ | path
    · refine .inr ⟨[], .misused .noReport, ?_⟩
      rw [runRemap, hsettings]
      simp only [bind, hpath]
      rfl
    · have hrun := runRemap_of_load hsettings hpath
      rcases hreport : reportOf path (disk.bytes path) with reason | report
      · rw [hreport] at hrun
        exact .inr ⟨[], reason, hrun⟩
      · rw [hreport] at hrun
        rcases hatlas : Stage.result (prepareAtlas (m := Id) disk.toFiles request settings report) with
          reason | atlas
        · exact .inr ⟨_, reason, hrun.trans (remapWith_of_error hatlas)⟩
        · exact .inl ⟨settings, report, atlas, hsettings, ⟨path, hpath, hreport⟩, hatlas⟩

/-- **Named maps win.** When the command comes to remapping, it has accepted every argument that names a
map, and it remaps with an atlas in which a path has the map of the last argument for it. Any path that
no argument is for has the map that is found for it, if it is in the report and maps are looked for, or
else none. -/
theorem lookup_of_comesToRemapping {atlas : Atlas Resolver}
    (h : ComesToRemapping disk request settings report atlas) :
    (∃ notices, runRemap disk request =
      finish disk (request.output <|> settings.output) report
        (Stage.after notices (remapStage settings report atlas)) settings.level) ∧
    (∀ arg ∈ request.maps, ∃ map, Names disk.toFiles report arg map) ∧
    (∀ before arg behind path, request.maps = before ++ arg :: behind →
      IsFor disk.directory report arg path →
      (∀ other ∈ behind, ¬ IsFor disk.directory report other path) →
      ∃ resolver, Names disk.toFiles report arg (path, resolver) ∧
        atlas.lookup (.text path) = some resolver) ∧
    ∀ path, (∀ arg ∈ request.maps, ¬ IsFor disk.directory report arg path) →
      atlas.lookup (.text path) =
        if request.discover then
          (OrderedMap.get? report path).bind fun coverage =>
            Discovery.resolverOf? disk.toFiles settings.discovery (path, coverage)
        else none := by
  obtain ⟨hloaded, ⟨path, hpath, hread⟩, hprepared⟩ := h
  obtain ⟨named, hnamed, hlookup⟩ := lookup_of_prepareAtlas (nodup_keys_of_reportOf hread) hprepared
  refine ⟨?_, fun arg harg => ?_, ?_, fun path hnone => ?_⟩
  · have hrun := runRemap_of_load hloaded hpath
    rw [hread] at hrun
    exact ⟨_, hrun.trans (remapWith_of_ok hprepared)⟩
  · obtain ⟨map, -, hmap⟩ := exists_right_of_mem hnamed harg
    exact ⟨map, hmap⟩
  · intro before arg behind path hmaps hfor hlast
    obtain ⟨resolver, hmap, hget⟩ := exists_get?_reverse_of_last (hmaps ▸ hnamed) hfor hlast
    refine ⟨resolver, hmap, ?_⟩
    rw [hlookup, hget]
    rfl
  · rw [hlookup, get?_reverse_of_none hnamed hnone, Option.none_or]

/-- What a check finds of a report that is read and of the atlas that is prepared for it. -/
theorem exists_comesToRemapping_of_check (disk : Disk Id) (request : RemapRequest)
    (settings : Settings) (path : FilePath) (p : Report → Atlas Resolver → Bool)
    (hload : Settings.load disk.toFiles (FilePath.ofText request.config)
      (request.config ≠ defaultConfig) = .ok settings)
    (hpath : (request.report <|> settings.report) = some path)
    (hcheck : ((reportOf path (disk.bytes path)).toOption.any fun report =>
      (prepareAtlas (m := Id) disk.toFiles request settings report).result.toOption.any
        (p report)) = true) :
    ∃ report atlas, ComesToRemapping disk request settings report atlas ∧ p report atlas = true := by
  obtain ⟨report, hreport, hcheck⟩ := (Option.any_eq_true _ _).1 hcheck
  obtain ⟨atlas, hatlas, hcheck⟩ := (Option.any_eq_true _ _).1 hcheck
  exact ⟨report, atlas, ⟨hload, ⟨path, hpath, toOption_eq_some_iff.1 hreport⟩,
    toOption_eq_some_iff.1 hatlas⟩, hcheck⟩

/-- A file with the text of an object. -/
def objectFile (fields : OrderedMap Text Json) : FileNode :=
  .file ((Utf8.encode (Json.obj fields).indented).toOption.getD [])

/-- A report of two files that both have a map in it, and two map files. -/
def namedTree : FileTree :=
  ⟨[(["r.json"], objectFile
      [("a.js", Discovery.mappedCoverage), ("b.js", Discovery.mappedCoverage)]),
    (["x.map"], objectFile [("version", .int 3), ("sources", .arr [.str "x.ts"]), ("mappings", .str "")]),
    (["y.map"], objectFile
      [("version", .int 3), ("sources", .arr [.str "y.ts"]), ("mappings", .str "")])]⟩

/-- The command with two maps for one of the files. -/
def requestOfMaps : RemapRequest :=
  ⟨some (FilePath.ofText "r.json"), none, defaultConfig, ["a.js=x.map", "a.js=y.map"], true⟩

/-- The command comes to remapping there, with a map for both files. -/
theorem exists_comesToRemapping_namedTree :
    ∃ report atlas, ComesToRemapping (treeDisk namedTree) requestOfMaps Settings.default report atlas ∧
      OrderedMap.keys report = (["a.js", "b.js"] : List Text) ∧
      ∃ found, atlas.lookup (.text "b.js") = some found := by
  obtain ⟨report, atlas, hcomes, hcheck⟩ := exists_comesToRemapping_of_check
    (treeDisk namedTree) requestOfMaps Settings.default (FilePath.ofText "r.json")
    (fun report atlas => decide (OrderedMap.keys report = (["a.js", "b.js"] : List Text)) &&
      (atlas.lookup (.text "b.js")).isSome) rfl rfl (by decide +kernel)
  rw [Bool.and_eq_true, decide_eq_true_iff] at hcheck
  exact ⟨report, atlas, hcomes, hcheck.1, Option.isSome_iff_exists.1 hcheck.2⟩

/-- The second of two maps that are named for a file, and the map that is found for another file. -/
theorem lookup_of_comesToRemapping_namedTree :
    ∃ report atlas, ComesToRemapping (treeDisk namedTree) requestOfMaps Settings.default report atlas ∧
      (∃ resolver, Names (treeDisk namedTree).toFiles report "a.js=y.map" ("a.js", resolver) ∧
        atlas.lookup (.text "a.js") = some resolver) ∧
      ∃ found, atlas.lookup (.text "b.js") = some found ∧
        ((OrderedMap.get? report "b.js").bind fun coverage =>
          Discovery.resolverOf? (treeDisk namedTree).toFiles Settings.defaultSwitches
            ("b.js", coverage)) = some found := by
  obtain ⟨report, atlas, hcomes, hkeys, found, hb⟩ := exists_comesToRemapping_namedTree
  obtain ⟨-, -, hnamed, hfound⟩ := lookup_of_comesToRemapping hcomes
  have hkey : ("a.js" : Text) ∈ OrderedMap.keys report := hkeys ▸ List.mem_cons_self
  have hfor : ∀ arg ∈ requestOfMaps.maps, IsFor (treeDisk namedTree).directory report arg "a.js" := by
    refine List.forall_mem_cons.2 ⟨?_, List.forall_mem_singleton.2 ?_⟩
    · exact ⟨"a.js", "x.map", rfl, by decide, .listed hkey⟩
    · exact ⟨"a.js", "y.map", rfl, by decide, .listed hkey⟩
  refine ⟨report, atlas, hcomes, ?_, found, hb, ?_⟩
  · exact hnamed ["a.js=x.map"] "a.js=y.map" [] "a.js" rfl (hfor _ (by decide)) nofun
  · have hother := hfound "b.js" fun arg harg hother =>
      absurd ((hfor arg harg).eq hother) (by decide)
    exact hother.symm.trans hb

end Command

end CoverageLift.Command
