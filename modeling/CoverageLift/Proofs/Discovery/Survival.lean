import CoverageLift.Discovery.Register
import CoverageLift.FileTree
import CoverageLift.Proofs.Discovery.Search
import CoverageLift.Proofs.SourceMap.Refusal

/-!
# Registering the maps of a report

Registering goes from file to file. **One file** (`registerMaps_cons_of_not_stops`) is registered or
passed over, and nothing else of it matters for the files behind it; or it stops the run
(`registerMaps_cons_of_stops`). From this, by induction over the report, a run is known up to the
first file that stops it, and **a run reaches the end exactly when no file stops it**
(`error_registerMaps_eq_none_iff`).
-/

namespace CoverageLift

/-- The atlas with maps put into it one after the other. -/
def Atlas.registerAll {ρ : Type} (atlas : Atlas ρ) (maps : List (Text × ρ)) : Atlas ρ :=
  ⟨maps.foldl (fun entries map => OrderedMap.insert entries map.1 map.2) atlas.entries⟩

theorem Atlas.registerAll_append {ρ : Type} (atlas : Atlas ρ) (maps more : List (Text × ρ)) :
    atlas.registerAll (maps ++ more) = (atlas.registerAll maps).registerAll more := by
  rw [registerAll, List.foldl_append]
  rfl

/-- A path has the last map that is put in under it, or else the one that it had before. -/
theorem Atlas.lookup_registerAll {ρ : Type} (key : Text) (maps : List (Text × ρ)) :
    ∀ atlas : Atlas ρ, (atlas.registerAll maps).lookup (.text key) =
      (OrderedMap.get? maps.reverse key).or (atlas.lookup (.text key)) := by
  induction maps with
  | nil => exact fun _ => rfl
  | cons map maps ih =>
    intro atlas
    have hone : (atlas.registerAll [map]).lookup (.text key) =
        (OrderedMap.get? [map] key).or (atlas.lookup (.text key)) := by
      refine (OrderedMap.get?_insert atlas.entries map.1 key map.2).trans ?_
      rw [OrderedMap.get?_cons]
      split <;> rfl
    rw [← List.singleton_append, registerAll_append, ih, hone, List.reverse_append,
      OrderedMap.get?_append, Option.or_assoc]
    rfl

namespace Discovery

variable {files : Files Id} {switches : Switches} {atlas : Atlas Resolver} {entry : Text × Json}
  {rest report : Report}

/-! ### One file -/

/-- The payload for a file of a report, if there is one: its embedded map, or else what a search
finds. -/
def payloadOf (files : Files Id) (switches : Switches) (entry : Text × Json) :
    Except SearchError (Option Payload) :=
  match embeddedMap? switches entry.2 with
  | some v => .ok (some (.value v))
  | none =>
    if switches.inline || switches.sibling then
      match load files switches (FilePath.ofText entry.1) with
      | .error error => .error error
      | .ok found => .ok (found.map.map fun t => .value (.str t))
    else .ok none

/-- The resolver for a file of a report, if there is a payload for it that describes one. -/
def resolverOf? (files : Files Id) (switches : Switches) (entry : Text × Json) : Option Resolver :=
  (payloadOf files switches entry).toOption.join.bind fun payload =>
    (buildResolver payload entry.1).toOption

/-- What is registered for the files of a report. -/
def registrations (files : Files Id) (switches : Switches) (report : Report) :
    List (Text × Resolver) :=
  report.filterMap fun entry => (resolverOf? files switches entry).map (entry.1, ·)

/-- A file stops the run: it has no embedded map and the search fails, or its payload has an integer
that is too long. -/
inductive Stops (files : Files Id) (switches : Switches) (entry : Text × Json) : Prop
  | search {error : SearchError} (hembedded : embeddedMap? switches entry.2 = none)
      (hswitches : (switches.inline || switches.sibling) = true)
      (hfails : SearchFails files switches (FilePath.ofText entry.1) error)
  | payload {payload : Payload} (hpayload : payloadOf files switches entry = .ok (some payload))
      (hlong : payload.HasLongInteger)

theorem candidate_cases (files : Files Id) (switches : Switches) (entry : Text × Json) :
    (∃ error, payloadOf files switches entry = .error error ∧
        candidate files switches entry.1 entry.2 = .error error) ∨
      ∃ payload notices, payloadOf files switches entry = .ok payload ∧
        candidate files switches entry.1 entry.2 = .ok (payload, notices) := by
  have hcandidate : candidate files switches entry.1 entry.2 =
      match embeddedMap? switches entry.2 with
      | some v => .ok (some (.value v), [])
      | none =>
        if switches.inline || switches.sibling then
          match load files switches (FilePath.ofText entry.1) with
          | .error error => .error error
          | .ok found => .ok (found.map.map fun t => .value (.str t), found.notices)
        else .ok (none, []) := by
    rw [candidate]
    rcases embeddedMap? switches entry.2 with _ | v
    · dsimp only
      split <;> rfl
    · rfl
  rw [hcandidate, payloadOf]
  rcases embeddedMap? switches entry.2 with _ | v
  · dsimp only
    split
    · rcases load files switches (FilePath.ofText entry.1) with error | found
      · exact .inl ⟨error, rfl, rfl⟩
      · exact .inr ⟨_, _, rfl, rfl⟩
    · exact .inr ⟨_, _, rfl, rfl⟩
  · exact .inr ⟨_, _, rfl, rfl⟩

theorem payloadOf_eq_error_iff {error : SearchError} :
    payloadOf files switches entry = .error error ↔
      embeddedMap? switches entry.2 = none ∧ (switches.inline || switches.sibling) = true ∧
        SearchFails files switches (FilePath.ofText entry.1) error := by
  rw [← load_eq_error_iff, payloadOf]
  rcases embeddedMap? switches entry.2 with _ | v
  · rw [and_iff_right rfl]
    dsimp only
    split
    · next hswitches =>
      rw [and_iff_right hswitches]
      rcases load files switches (FilePath.ofText entry.1) with other | found
      · exact ⟨fun h => congrArg _ (Except.error.inj h), fun h => congrArg _ (Except.error.inj h)⟩
      · exact iff_of_false (nomatch ·) (nomatch ·)
    · next hswitches => exact iff_of_false (nomatch ·) fun h => hswitches h.1
  · exact iff_of_false (nomatch ·) fun h => nomatch h.1

theorem registerMaps_cons (files : Files Id) (switches : Switches) (atlas : Atlas Resolver)
    (entry : Text × Json) (rest : Report) :
    registerMaps files switches atlas (entry :: rest) =
      match candidate files switches entry.1 entry.2 with
      | .error error => ⟨atlas, [], [], some (.search error)⟩
      | .ok (none, notices) =>
        Registered.after notices [] (registerMaps files switches atlas rest)
      | .ok (some payload, notices) =>
        match atlas.register (.text entry.1) (buildResolver payload) with
        | .ok registered =>
          Registered.after (notices ++ [.registered entry.1 (atlas.contains (.text entry.1))])
            [entry.1] (registerMaps files switches registered rest)
        | .error (.malformed fault) =>
          Registered.after (notices ++ [.mapMalformed entry.1 fault]) []
            (registerMaps files switches atlas rest)
        | .error error => ⟨atlas, [], notices, some (.payload error)⟩ := rfl

/-- A resolver is built or its payload is malformed, unless the payload has an integer that is too
long. -/
theorem buildResolver_cases (payload : Payload) (path : Text) :
    ¬ payload.HasLongInteger ∧ ((∃ resolver, buildResolver payload path = .ok resolver) ∨
        ∃ fault, buildResolver payload path = .error (.malformed fault)) ∨
      payload.HasLongInteger ∧ ∃ error, buildResolver payload path = .error error ∧
        ∀ fault, error ≠ .malformed fault := by
  rw [buildResolver]
  by_cases hlong : payload.HasLongInteger
  · refine .inr ⟨hlong, ?_⟩
    have hnot : ¬ SourceMap.Reported (SourceMap.ofPayload payload path) :=
      fun h => SourceMap.reported_ofPayload_iff.1 h hlong
    rcases hbuilt : SourceMap.ofPayload payload path with error | map
    · exact ⟨error, rfl, fun fault h => hnot (.inr ⟨fault, h ▸ hbuilt⟩)⟩
    · exact absurd (.inl ⟨map, hbuilt⟩) hnot
  · refine .inl ⟨hlong, ?_⟩
    obtain ⟨map, hbuilt⟩ | ⟨fault, hbuilt⟩ := SourceMap.reported_ofPayload_iff.2 hlong
    · exact .inl ⟨_, by rw [hbuilt]; rfl⟩
    · exact .inr ⟨fault, by rw [hbuilt]; rfl⟩

theorem register_of_buildResolver_ok {payload : Payload} {path : Text} {resolver : Resolver}
    (h : buildResolver payload path = .ok resolver) :
    atlas.register (.text path) (buildResolver payload) =
      .ok (atlas.registerAll [(path, resolver)]) := by
  rw [Atlas.register, GeneratedPath.key, h]
  rfl

theorem register_of_buildResolver_error {payload : Payload} {path : Text} {error : PayloadError}
    (h : buildResolver payload path = .error error) :
    atlas.register (.text path) (buildResolver payload) = .error error := by
  rw [Atlas.register, GeneratedPath.key, h]
  rfl

/-- A file that stops the run leaves the atlas as it was. -/
theorem registerMaps_cons_of_stops (h : Stops files switches entry) :
    ∃ notices error,
      registerMaps files switches atlas (entry :: rest) = ⟨atlas, [], notices, some error⟩ := by
  rw [registerMaps_cons]
  obtain ⟨error, hpayload, hcandidate⟩ | ⟨found, notices, hfound, hcandidate⟩ :=
    candidate_cases files switches entry
  · rw [hcandidate]
    exact ⟨_, _, rfl⟩
  · rw [hcandidate]
    obtain ⟨hembedded, hswitches, hfails⟩ | ⟨hpayload, hlong⟩ := h
    · exact nomatch hfound.symm.trans (payloadOf_eq_error_iff.2 ⟨hembedded, hswitches, hfails⟩)
    · obtain rfl := Except.ok.inj (hfound.symm.trans hpayload)
      obtain ⟨hshort, -⟩ | ⟨-, error, herror, hother⟩ := buildResolver_cases _ entry.1
      · exact absurd hlong hshort
      · dsimp only
        rw [register_of_buildResolver_error herror]
        cases error with
        | malformed fault => exact absurd rfl (hother fault)
        | _ => exact ⟨_, _, rfl⟩

/-- Any other file is registered or passed over, and the run goes on. -/
theorem registerMaps_cons_of_not_stops (atlas : Atlas Resolver) (rest : Report)
    (h : ¬ Stops files switches entry) :
    ∃ notices, registerMaps files switches atlas (entry :: rest) =
      Registered.after notices ((registrations files switches [entry]).map Prod.fst)
        (registerMaps files switches (atlas.registerAll (registrations files switches [entry]))
          rest) := by
  have hpassed (hnone : resolverOf? files switches entry = none) :
      registrations files switches [entry] = [] := by
    rw [registrations, List.filterMap_cons, hnone]
    rfl
  rw [registerMaps_cons]
  obtain ⟨error, hpayload, -⟩ | ⟨found, notices, hfound, hcandidate⟩ :=
    candidate_cases files switches entry
  · obtain ⟨hembedded, hswitches, hfails⟩ := payloadOf_eq_error_iff.1 hpayload
    exact absurd (.search hembedded hswitches hfails) h
  · rw [hcandidate]
    rcases found with _ | payload
    · rw [hpassed (by rw [resolverOf?, hfound]; rfl)]
      exact ⟨notices, rfl⟩
    · obtain ⟨-, ⟨resolver, hbuilt⟩ | ⟨fault, hbuilt⟩⟩ | ⟨hlong, -⟩ :=
        buildResolver_cases payload entry.1
      · have hone : registrations files switches [entry] = [(entry.1, resolver)] := by
          have hresolver : resolverOf? files switches entry = some resolver := by
            rw [resolverOf?, hfound]
            exact congrArg Except.toOption hbuilt
          rw [registrations, List.filterMap_cons, hresolver]
          rfl
        dsimp only
        rw [register_of_buildResolver_ok hbuilt, hone]
        exact ⟨_, rfl⟩
      · have hnone : resolverOf? files switches entry = none := by
          rw [resolverOf?, hfound]
          exact congrArg Except.toOption hbuilt
        dsimp only
        rw [register_of_buildResolver_error hbuilt, hpassed hnone]
        exact ⟨_, rfl⟩
      · exact absurd (.payload hfound hlong) h

/-! ### A run -/

theorem Registered.after_after (notices notices' : List Notice) (paths paths' : List Text)
    (r : Registered) :
    Registered.after notices paths (Registered.after notices' paths' r) =
      Registered.after (notices ++ notices') (paths ++ paths') r := by
  rw [Registered.after, Registered.after, Registered.after, List.append_assoc, List.append_assoc]

/-- Files that do not stop a run are all registered or passed over, and the run goes on behind
them. -/
theorem registerMaps_append (behind : Report) {before : Report}
    (h : ∀ entry ∈ before, ¬ Stops files switches entry) :
    ∀ atlas, ∃ notices, registerMaps files switches atlas (before ++ behind) =
      Registered.after notices ((registrations files switches before).map Prod.fst)
        (registerMaps files switches (atlas.registerAll (registrations files switches before))
          behind) := by
  induction before with
  | nil => exact fun _ => ⟨[], rfl⟩
  | cons entry before ih =>
    intro atlas
    obtain ⟨hentry, hbefore⟩ := List.forall_mem_cons.1 h
    have hsplit : registrations files switches (entry :: before) =
        registrations files switches [entry] ++ registrations files switches before := by
      rw [registrations, registrations, registrations, ← List.filterMap_append]
      rfl
    obtain ⟨notices, hstep⟩ := registerMaps_cons_of_not_stops atlas (before ++ behind) hentry
    obtain ⟨notices', hrun⟩ :=
      ih hbefore (atlas.registerAll (registrations files switches [entry]))
    refine ⟨notices ++ notices', ?_⟩
    rw [List.cons_append, hstep, hrun, Registered.after_after, ← Atlas.registerAll_append, hsplit,
      List.map_append]

/-- A report that holds a file that stops the run holds a first one. -/
theorem exists_first_stop (h : ¬ ∀ entry ∈ report, ¬ Stops files switches entry) :
    ∃ before entry behind, report = before ++ entry :: behind ∧
      (∀ entry ∈ before, ¬ Stops files switches entry) ∧ Stops files switches entry := by
  induction report with
  | nil => exact absurd (fun entry hentry => absurd hentry List.not_mem_nil) h
  | cons entry report ih =>
    by_cases hentry : Stops files switches entry
    · exact ⟨[], entry, report, rfl, fun _ hmem => absurd hmem List.not_mem_nil, hentry⟩
    · obtain ⟨before, stop, behind, rfl, hbefore, hstop⟩ :=
        ih fun hrest => h (List.forall_mem_cons.2 ⟨hentry, hrest⟩)
      exact ⟨entry :: before, stop, behind, rfl, List.forall_mem_cons.2 ⟨hentry, hbefore⟩, hstop⟩

/-- A run reaches the end, or it ends at the first file that stops it. -/
theorem registerMaps_cases (files : Files Id) (switches : Switches) (atlas : Atlas Resolver)
    (report : Report) :
    ((∀ entry ∈ report, ¬ Stops files switches entry) ∧ ∃ notices,
        registerMaps files switches atlas report =
          ⟨atlas.registerAll (registrations files switches report),
            (registrations files switches report).map Prod.fst, notices, none⟩) ∨
      ∃ before entry behind, report = before ++ entry :: behind ∧
        (∀ entry ∈ before, ¬ Stops files switches entry) ∧ Stops files switches entry ∧
        ∃ notices error, registerMaps files switches atlas report =
          ⟨atlas.registerAll (registrations files switches before),
            (registrations files switches before).map Prod.fst, notices, some error⟩ := by
  by_cases h : ∀ entry ∈ report, ¬ Stops files switches entry
  · obtain ⟨notices, hrun⟩ := registerMaps_append [] h atlas
    rw [List.append_nil] at hrun
    refine .inl ⟨h, notices ++ [], ?_⟩
    rw [hrun, registerMaps]
    change Registered.after notices _ ⟨_, [], [], none⟩ = _
    rw [Registered.after, List.append_nil ((registrations files switches report).map _)]
  · obtain ⟨before, entry, behind, rfl, hbefore, hentry⟩ := exists_first_stop h
    obtain ⟨notices, hrun⟩ := registerMaps_append (entry :: behind) hbefore atlas
    obtain ⟨notices', error, hstop⟩ := registerMaps_cons_of_stops hentry
    refine .inr ⟨before, entry, behind, rfl, hbefore, hentry, notices ++ notices', error, ?_⟩
    rw [hrun, hstop, Registered.after, List.append_nil]

/-- **A run reaches the end exactly when no file stops it**, and it deals with all files in front of
the first one that does: those with a payload that describes a map are registered, in the order of
the report, and the others are passed over. -/
theorem error_registerMaps_eq_none_iff (files : Files Id) (switches : Switches)
    (atlas : Atlas Resolver) (report : Report) :
    ((registerMaps files switches atlas report).error = none ↔
      ∀ entry ∈ report, ¬ Stops files switches entry) ∧
    ∃ before behind, report = before ++ behind ∧
      (∀ entry ∈ before, ¬ Stops files switches entry) ∧
      (∀ entry ∈ behind.head?, Stops files switches entry) ∧
      (registerMaps files switches atlas report).paths =
        (registrations files switches before).map Prod.fst ∧
      (registerMaps files switches atlas report).atlas =
        atlas.registerAll (registrations files switches before) := by
  obtain ⟨h, notices, hrun⟩ |
      ⟨before, entry, behind, hreport, hbefore, hentry, notices, error, hrun⟩ :=
    registerMaps_cases files switches atlas report
  · rw [hrun]
    refine ⟨iff_of_true rfl h, report, [], (List.append_nil _).symm, h, ?_, rfl, rfl⟩
    exact fun entry hmem => nomatch hmem
  · rw [hrun]
    refine ⟨iff_of_false (nomatch ·) fun h => ?_, before, entry :: behind, hreport, hbefore, ?_, rfl,
      rfl⟩
    · exact h entry (hreport ▸ List.mem_append_right _ List.mem_cons_self) hentry
    · rintro _ ⟨⟩
      exact hentry

/-- A file whose inline map is not ASCII. -/
def foreignTree : FileTree :=
  ⟨[(["a.js"],
    .file ((Utf8.encode "//# sourceMappingURL=data:;base64,\u00e9").toOption.getD []))]⟩

/-- The coverage of a file with a map. -/
def mappedCoverage : Json :=
  .obj [("inputSourceMap", .obj [("version", .int 3), ("sources", .arr []), ("mappings", .str "")])]

/-- Data that are not ASCII stop the run in front of a file that would be registered. -/
theorem error_registerMaps_foreignTree :
    let run := registerMaps (foreignTree.files ⟨[Path.separator], []⟩) ⟨true, true, true⟩ Atlas.empty
    (run [("a.js", .obj []), ("b.js", mappedCoverage)]).error = some (.search .notAscii) ∧
      (run [("a.js", .obj []), ("b.js", mappedCoverage)]).paths = [] ∧
      (run [("b.js", mappedCoverage)]).paths = [("b.js" : Text)] :=
  ⟨rfl, rfl, rfl⟩

end Discovery

end CoverageLift
