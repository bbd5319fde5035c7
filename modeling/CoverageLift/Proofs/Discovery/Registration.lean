import CoverageLift.Proofs.Discovery.Survival

/-!
# What a run of discovery does to an atlas

A file has a payload (`HasPayload`): the map that is embedded in its coverage, or else the text that a
search for the file finds. It has a map when its payload describes one (`HasMap`), and this map is all
that a run keeps of it. **A run that reaches the end returns the files that have a map, gives each of
them its own map, and leaves every other path as it was** (`registerMaps_effect`).
-/

namespace CoverageLift.Discovery

variable {files : Files Id} {switches : Switches} {atlas : Atlas Resolver} {entry : Text × Json}
  {report : Report} {v : Json} {payload : Payload} {resolver : Resolver}

/-! ### The payload of a file -/

/-- A value is embedded in a coverage as its map. -/
structure Embeds (switches : Switches) (coverage v : Json) : Prop where
  switched : switches.embedded = true
  /-- The coverage is an object, and the value is its field. -/
  field : ∃ fields, coverage = .obj fields ∧
    OrderedMap.get? fields ("inputSourceMap" : Text) = some v
  truthy : v.isTruthy = true

/-- A file of a report has a payload: the map in its coverage, or else the text that is found for it. -/
inductive HasPayload (files : Files Id) (switches : Switches) (entry : Text × Json) : Payload → Prop
  | embedded {v : Json} (h : Embeds switches entry.2 v) : HasPayload files switches entry (.value v)
  | found {found : Found} {t : Text} (hembedded : ∀ v, ¬ Embeds switches entry.2 v)
      (hswitches : switches.inline = true ∨ switches.sibling = true)
      (hload : load files switches (FilePath.ofText entry.1) = .ok found)
      (htext : found.map = some t) : HasPayload files switches entry (.value (.str t))

/-- A file of a report has a map: the one that its payload describes. -/
def HasMap (files : Files Id) (switches : Switches) (entry : Text × Json) (map : SourceMap) : Prop :=
  ∃ payload, HasPayload files switches entry payload ∧ SourceMap.ofPayload payload entry.1 = .ok map

theorem get?_fieldsOrEmpty_eq_some_iff {coverage : Json} {name : Text} :
    OrderedMap.get? coverage.fieldsOrEmpty name = some v ↔
      ∃ fields, coverage = .obj fields ∧ OrderedMap.get? fields name = some v := by
  constructor
  · intro h
    cases coverage with
    | obj fields => exact ⟨fields, rfl, h⟩
    | _ => cases h
  · rintro ⟨fields, rfl, h⟩
    exact h

theorem embeddedMap?_eq_some_iff {coverage : Json} :
    embeddedMap? switches coverage = some v ↔ Embeds switches coverage v := by
  rw [embeddedMap?]
  constructor
  · intro h
    split at h
    · next hswitched =>
      split at h
      · next w hfield =>
        split at h
        · next htruthy =>
          obtain rfl := Option.some.inj h
          exact ⟨hswitched, get?_fieldsOrEmpty_eq_some_iff.1 hfield, htruthy⟩
        · cases h
      · cases h
    · cases h
  · rintro ⟨hswitched, hfield, htruthy⟩
    rw [if_pos hswitched, get?_fieldsOrEmpty_eq_some_iff.2 hfield]
    exact if_pos htruthy

theorem embeddedMap?_eq_none_iff {coverage : Json} :
    embeddedMap? switches coverage = none ↔ ∀ v, ¬ Embeds switches coverage v := by
  simp only [Option.eq_none_iff_forall_ne_some, Ne, embeddedMap?_eq_some_iff]

theorem payloadOf_eq_ok_some_iff :
    payloadOf files switches entry = .ok (some payload) ↔ HasPayload files switches entry payload := by
  constructor
  · intro h
    rw [payloadOf] at h
    split at h
    · next v hembedded =>
      obtain rfl := Option.some.inj (Except.ok.inj h)
      exact .embedded (embeddedMap?_eq_some_iff.1 hembedded)
    · next hembedded =>
      split at h
      · next hswitches =>
        split at h
        · cases h
        · next found hload =>
          obtain ⟨t, htext, rfl⟩ := Option.map_eq_some_iff.1 (Except.ok.inj h)
          exact .found (embeddedMap?_eq_none_iff.1 hembedded) (Bool.or_eq_true_iff.1 hswitches)
            hload htext
      · cases h
  · rintro (hembedded | ⟨hembedded, hswitches, hload, htext⟩)
    · rw [payloadOf, embeddedMap?_eq_some_iff.2 hembedded]
    · rw [payloadOf, embeddedMap?_eq_none_iff.2 hembedded]
      dsimp only
      rw [if_pos (Bool.or_eq_true_iff.2 hswitches), hload]
      exact congrArg (fun text => Except.ok (text.map fun t => Payload.value (.str t))) htext

/-- The resolver for a file is its map. -/
theorem resolverOf?_eq_some_iff :
    resolverOf? files switches entry = some resolver ↔
      ∃ map, HasMap files switches entry map ∧ resolver = .ofSourceMap map := by
  rw [resolverOf?, Option.bind_eq_some_iff]
  simp only [Option.join_eq_some_iff, toOption_eq_some_iff, payloadOf_eq_ok_some_iff, buildResolver,
    map_eq_ok_iff]
  constructor
  · rintro ⟨payload, hpayload, map, hmap, rfl⟩
    exact ⟨map, ⟨payload, hpayload, hmap⟩, rfl⟩
  · rintro ⟨map, ⟨payload, hpayload, hmap⟩, rfl⟩
    exact ⟨payload, hpayload, map, hmap, rfl⟩

/-! ### What is registered -/

/-- The paths that are registered stand in the order of the report. -/
theorem keys_registrations (files : Files Id) (switches : Switches) (report : Report) :
    OrderedMap.keys (registrations files switches report) =
      OrderedMap.keys (report.filter fun entry => (resolverOf? files switches entry).isSome) := by
  rw [registrations]
  induction report with
  | nil => rfl
  | cons entry report ih =>
    rw [List.filterMap_cons, List.filter_cons]
    rcases resolverOf? files switches entry with _ | resolver
    · exact ih
    · exact congrArg (List.cons entry.1) ih

/-- A path is registered when a file with this path has a map. -/
theorem mem_keys_registrations_iff {path : Text} :
    path ∈ OrderedMap.keys (registrations files switches report) ↔
      ∃ coverage map, (path, coverage) ∈ report ∧ HasMap files switches (path, coverage) map := by
  rw [keys_registrations]
  simp only [OrderedMap.keys, List.mem_map, List.mem_filter, Option.isSome_iff_exists,
    resolverOf?_eq_some_iff]
  constructor
  · rintro ⟨⟨_, coverage⟩, ⟨hmem, -, map, hmap, -⟩, rfl⟩
    exact ⟨coverage, map, hmem, hmap⟩
  · rintro ⟨coverage, map, hmem, hmap⟩
    exact ⟨_, ⟨hmem, _, map, hmap, rfl⟩, rfl⟩

/-- What is registered for a path of a report. -/
theorem get?_registrations (hkeys : (OrderedMap.keys report).Nodup) (key : Text) :
    OrderedMap.get? (registrations files switches report).reverse key =
      (OrderedMap.get? report key).bind fun coverage =>
        resolverOf? files switches (key, coverage) := by
  have hnodup : (OrderedMap.keys (registrations files switches report)).Nodup := by
    rw [keys_registrations]
    exact hkeys.sublist (List.filter_sublist.map _)
  rw [OrderedMap.get?_eq_of_perm hnodup (List.reverse_perm _)]
  exact OrderedMap.get?_filterMap (fun path coverage => resolverOf? files switches (path, coverage))
    hkeys key

/-- **The effect of a run that reaches the end.** The paths that it returns are those of the report,
in its order, that have a map. Such a path is then looked up with its own map, and any other path as
before, whatever its payload is. -/
theorem registerMaps_effect (hkeys : (OrderedMap.keys report).Nodup)
    (hend : (registerMaps files switches atlas report).error = none) :
    let run := registerMaps files switches atlas report
    run.paths.Sublist (OrderedMap.keys report) ∧
      (∀ path, path ∈ run.paths ↔
        ∃ coverage map, (path, coverage) ∈ report ∧ HasMap files switches (path, coverage) map) ∧
      (∀ path coverage map, (path, coverage) ∈ report → HasMap files switches (path, coverage) map →
        ∀ spelling : GeneratedPath, spelling.key = path →
          run.atlas.lookup spelling = some (.ofSourceMap map)) ∧
      ∀ spelling : GeneratedPath, spelling.key ∉ run.paths →
        run.atlas.lookup spelling = atlas.lookup spelling := by
  intro run
  obtain ⟨-, notices, hrun⟩ | ⟨_, _, _, -, -, -, _, _, hrun⟩ :=
    registerMaps_cases files switches atlas report
  · have hpaths : run.paths = OrderedMap.keys (registrations files switches report) :=
      congrArg Registered.paths hrun
    -- an atlas sees of a spelling only its key
    have hlookup (spelling : GeneratedPath) : run.atlas.lookup spelling =
        (OrderedMap.get? (registrations files switches report).reverse spelling.key).or
          (atlas.lookup spelling) := by
      rw [congrArg Registered.atlas hrun]
      exact Atlas.lookup_registerAll spelling.key _ atlas
    rw [hpaths]
    refine ⟨?_, fun path => mem_keys_registrations_iff, ?_, fun spelling hnot => ?_⟩
    · rw [keys_registrations]
      exact List.filter_sublist.map _
    · rintro _ coverage map hmem hmap spelling rfl
      rw [hlookup, get?_registrations hkeys, OrderedMap.get?_eq_some_of_mem hkeys hmem,
        Option.bind_some, resolverOf?_eq_some_iff.2 ⟨map, hmap, rfl⟩, Option.some_or]
    · have hnone : OrderedMap.get? (registrations files switches report).reverse spelling.key =
          none := by
        refine OrderedMap.get?_eq_none_iff.2 fun hmem => hnot ?_
        rwa [OrderedMap.keys, List.map_reverse, List.mem_reverse] at hmem
      rw [hlookup, hnone, Option.none_or]
  · cases hend.symm.trans (congrArg Registered.error hrun)

/-- A file with a map beside it. -/
def siblingTree : FileTree :=
  ⟨[(["c.js"], .file []),
    (["c.js.map"], .file ((Utf8.encode
      "\x7b\"version\": 3, \"sources\": [\"c.ts\"], \"mappings\": \"\"\x7d").toOption.getD []))]⟩

/-- A file that is not there, one with a map beside it, one with a malformed map in its coverage, and
one with a map in its coverage. -/
def mixedReport : Report :=
  [("d.js", .null), ("c.js", .obj []), ("b.js", .obj [("inputSourceMap", .int 1)]),
    ("a.js", mappedCoverage)]

/-- A malformed map behind one that is registered does not touch the earlier map of its path. -/
theorem registerMaps_effect_mixedReport :
    let files := siblingTree.files ⟨[Path.separator], []⟩
    let earlier := Resolver.ofTable ["b.ts"] [] []
    let run := registerMaps files ⟨true, true, true⟩ (Atlas.empty.registerAll [("b.js", earlier)])
      mixedReport
    run.error = none ∧ run.paths = (["c.js", "a.js"] : List Text) ∧
      (∃ coverage map, (("c.js" : Text), coverage) ∈ mixedReport ∧
        HasMap files ⟨true, true, true⟩ ("c.js", coverage) map ∧
        run.atlas.lookup (.file (FilePath.ofText "c.js")) = some (.ofSourceMap map)) ∧
      run.atlas.lookup (.text "b.js") = some earlier := by
  intro files earlier run
  have hend : run.error = none := by decide +kernel
  have hpaths : run.paths = (["c.js", "a.js"] : List Text) := by decide +kernel
  obtain ⟨-, hmem, hlookup, hothers⟩ := registerMaps_effect (by decide) hend
  obtain ⟨coverage, map, hentry, hmap⟩ := (hmem "c.js").1 (hpaths ▸ List.mem_cons_self)
  refine ⟨hend, hpaths, ⟨coverage, map, hentry, hmap, ?_⟩, ?_⟩
  · exact hlookup _ coverage map hentry hmap _ (by decide)
  · have hnot : ("b.js" : Text) ∉ run.paths := hpaths ▸ by decide
    exact (hothers (.text "b.js") hnot).trans rfl

end CoverageLift.Discovery
