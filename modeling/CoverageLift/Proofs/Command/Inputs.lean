import CoverageLift.Command.Remap
import CoverageLift.FileTree
import CoverageLift.Proofs.Discovery.Survival

/-!
# The files that the command reads

Before it remaps anything the command reads the report and the maps that are named on the command
line. A file of them is **illegible** when its bytes are no text, or when the text has an integer
that is too long to be read or shown; the command has no message of its own for such a file. Reading
goes from file to file, and each file is used, refused with a message, or illegible (`Reading`). From
this, by induction over the arguments, **reading fails without a message because of the contents of a
file exactly when it comes to an illegible one** (`runRemap_inputs`).
-/

namespace CoverageLift.Command

/-! ### How reading may end -/

/-- Failures because of the contents of a file. -/
inductive Failure.OfContents : Failure → Prop
  | encoding (error : Utf8.DecodeError) : OfContents (.encoding error)
  | payload (error : PayloadError) : OfContents (.payload error)

/-- Stops because of an argument: it names no map, or a path that no file can have. -/
inductive Stop.OfArgument : Stop → Prop
  | badMap (arg : Text) : OfArgument (.misused (.badMap arg))
  | file (fault : FileFault) : OfArgument (.failed (.file fault))

/-- The phrases of the messages about files that are read. -/
def inputPhrases : List String :=
  ["Failed to read", "is not valid JSON", "must be a mapping", "Malformed source map"]

/-- The message of the command about a file that it reads: it begins with one of the phrases, or has
one behind a space. -/
inductive IsInputMessage : Text → Prop
  | front (phrase : String) (h : phrase ∈ inputPhrases) (rest : Text) :
      IsInputMessage ((phrase : Text) ++ rest)
  | inside (phrase : String) (h : phrase ∈ inputPhrases) (before rest : Text) :
      IsInputMessage (before ++ .char ' ' :: ((phrase : Text) ++ rest))

/-- Reading has led to a value, or it has stopped: with a message, because of an argument, or because
of contents that are illegible. The last it does exactly when they are. -/
inductive Reading {α : Type} (illegible : Prop) : Except Stop α → Prop
  | value (a : α) (h : ¬ illegible) : Reading illegible (.ok a)
  | refused {message : Text} (h : ¬ illegible) (hmessage : IsInputMessage message) :
      Reading illegible (.error (.refused message))
  | argument {reason : Stop} (h : ¬ illegible) (hreason : reason.OfArgument) :
      Reading illegible (.error reason)
  | illegible {failure : Failure} (h : illegible) (hfailure : failure.OfContents) :
      Reading illegible (.error (.failed failure))

/-- Contents that are no text, or a text that is `long`. -/
inductive Illegible (long : Text → Prop) : Except FileFault Bytes → Prop
  | encoding {bytes : Bytes} {error : Utf8.DecodeError} (hdecode : Utf8.decode bytes = .error error) :
      Illegible long (.ok bytes)
  | integer {bytes : Bytes} {text : Text} (hdecode : Utf8.decode bytes = .ok text)
      (hlong : long (Text.unifyNewlines text)) : Illegible long (.ok bytes)

/-- The reader of a report comes to an integer that is too long. -/
def ReadsLongInteger (text : Text) : Prop := ∃ digits, Json.read text = .error (.longInteger digits)

/-- The map that a text describes has an integer that is too long. -/
def DescribesLongInteger (text : Text) : Prop := (Payload.value (.str text)).HasLongInteger

/-- A message that begins with a phrase and goes on in three parts. -/
theorem isInputMessage_of_head {head : String} (phrase rest : String) (h : phrase ∈ inputPhrases)
    (hhead : head = phrase ++ rest) (first second third : Text) :
    IsInputMessage ((head : Text) ++ first ++ second ++ third) := by
  rw [hhead, Text.ofString_append, List.append_assoc, List.append_assoc, List.append_assoc]
  exact .front phrase h _

/-- A message that has a phrase in one of its parts. -/
theorem isInputMessage_of_piece {piece : String} (phrase rest : String) (h : phrase ∈ inputPhrases)
    (hpiece : piece = " " ++ (phrase ++ rest)) (before behind : Text) :
    IsInputMessage (before ++ (piece : Text) ++ behind) := by
  rw [hpiece, Text.ofString_append, Text.ofString_append, List.append_assoc, List.append_assoc,
    List.append_assoc]
  exact .inside phrase h before _

theorem isInputMessage_of_noMapping :
    IsInputMessage "Coverage report must be a mapping of file paths." := by
  have hmessage := @isInputMessage_of_piece " must be a mapping of file paths." "must be a mapping"
    " of file paths." (by decide) rfl "Coverage report" []
  rwa [List.append_nil, ← Text.ofString_append] at hmessage

section Cases

variable {long : Text → Prop} {bytes : Bytes} {text : Text}

theorem illegible_of_decode (hdecode : Utf8.decode bytes = .ok text) :
    Illegible long (.ok bytes) ↔ long (Text.unifyNewlines text) := by
  constructor
  · rintro (h | ⟨h, hlong⟩)
    · exact nomatch hdecode.symm.trans h
    · exact Except.ok.inj (hdecode.symm.trans h) ▸ hlong
  · exact .integer hdecode

end Cases

namespace Reading

variable {α β : Type} {p q : Prop} {result : Except Stop α}

theorem congr (h : Reading p result) (hiff : p ↔ q) : Reading q result := propext hiff ▸ h

theorem map (h : Reading p result) (f : α → β) : Reading p (result.map f) := by
  cases h with
  | value a h => exact .value (f a) h
  | refused h hmessage => exact .refused h hmessage
  | argument h hreason => exact .argument h hreason
  | illegible h hfailure => exact .illegible h hfailure

/-- Reading fails because of contents exactly when they are illegible. -/
theorem failed_iff (h : Reading p result) :
    (∃ failure, result = .error (.failed failure) ∧ failure.OfContents) ↔ p := by
  cases h with
  | value a h => exact iff_of_false (fun ⟨_, heq, _⟩ => nomatch heq) h
  | refused h _ => exact iff_of_false (fun ⟨_, heq, _⟩ => nomatch heq) h
  | argument h hreason =>
    refine iff_of_false ?_ h
    rintro ⟨failure, heq, hfailure⟩
    obtain rfl := Except.error.inj heq
    cases hreason
    cases hfailure
  | illegible h hfailure => exact iff_of_true ⟨_, rfl, hfailure⟩ h

/-- Reading that comes to nothing illegible leads to a value or stops for a reason that is told. -/
theorem cases_of_not (h : Reading p result) (hp : ¬ p) :
    (∃ a, result = .ok a) ∨
      (∃ message, result = .error (.refused message) ∧ IsInputMessage message) ∨
      ∃ reason, result = .error reason ∧ reason.OfArgument := by
  cases h with
  | value a _ => exact .inl ⟨a, rfl⟩
  | refused _ hmessage => exact .inr (.inl ⟨_, rfl, hmessage⟩)
  | argument _ hreason => exact .inr (.inr ⟨_, rfl, hreason⟩)
  | illegible h _ => exact absurd h hp

end Reading

/-! ### The report -/

/-- A report is used, refused or illegible. -/
theorem reading_reportOf (path : FilePath) (contents : Except FileFault Bytes) :
    Reading (Illegible ReadsLongInteger contents) (reportOf path contents) := by
  rcases contents with fault | bytes
  · cases fault with
    | system fault name =>
      exact .refused nofun
        (isInputMessage_of_head "Failed to read" " report " (by decide) rfl _ _ _)
    | _ => exact .argument nofun (.file _)
  · rw [reportOf, fileText]
    rcases hdecode : Utf8.decode bytes with error | text
    · exact .illegible (.encoding hdecode) (.encoding error)
    · refine .congr ?_ (illegible_of_decode hdecode).symm
      dsimp only
      rcases hread : Json.read (Text.unifyNewlines text) with error | v
      · cases error with
        | longInteger digits => exact .illegible ⟨digits, hread⟩ (.payload _)
        | malformed problem line column index =>
          exact .refused (fun ⟨_, h⟩ => nomatch hread.symm.trans h)
            (isInputMessage_of_piece "is not valid JSON" ": " (by decide) rfl _ _)
      · have hshort : ¬ ReadsLongInteger (Text.unifyNewlines text) :=
          fun ⟨_, h⟩ => nomatch hread.symm.trans h
        cases v with
        | obj report => exact .value report hshort
        | _ => exact .refused hshort isInputMessage_of_noMapping

/-! ### The maps that are named -/

/-- A map file is used, refused or illegible. -/
theorem reading_addMap (atlas : Atlas Resolver) (key name : Text)
    (contents : Except FileFault Bytes) :
    Reading (Illegible DescribesLongInteger contents) (addMap atlas key name (fileText contents)) := by
  rcases contents with fault | bytes
  · cases fault with
    | system fault name =>
      exact .refused nofun
        (isInputMessage_of_head "Failed to read" " source map " (by decide) rfl _ _ _)
    | _ => exact .argument nofun (.file _)
  · rw [fileText]
    rcases hdecode : Utf8.decode bytes with error | text
    · exact .illegible (.encoding hdecode) (.encoding error)
    · refine .congr ?_ (illegible_of_decode hdecode).symm
      rw [addMap]
      obtain ⟨hshort, ⟨resolver, hbuilt⟩ | ⟨fault, hbuilt⟩⟩ | ⟨hlong, error, hbuilt, hnot⟩ :=
        Discovery.buildResolver_cases (.value (.str (Text.unifyNewlines text))) key
      · rw [Discovery.register_of_buildResolver_ok hbuilt]
        exact .value _ hshort
      · rw [Discovery.register_of_buildResolver_error hbuilt]
        exact .refused hshort
          (isInputMessage_of_head "Malformed source map" " " (by decide) rfl _ _ _)
      · rw [Discovery.register_of_buildResolver_error hbuilt]
        cases error with
        | malformed fault => exact absurd rfl (hnot fault)
        | _ => exact .illegible hlong (.payload _)

section Named

variable {files : Files Id} {report : Report} {atlas : Atlas Resolver}

/-- An argument names a map file that is illegible. -/
def IllegibleArgument (files : Files Id) (report : Report) (arg : Text) : Prop :=
  ∃ generated name key, splitMap? arg = some (generated, name) ∧
    mapKey files.directory report generated = .ok key ∧
    Illegible DescribesLongInteger (files.bytes (FilePath.ofText name))

/-- An argument that can be split is registered with the contents of its map file. -/
theorem result_registerNamed {arg generated name key : Text}
    (hsplit : splitMap? arg = some (generated, name))
    (hkey : mapKey files.directory report generated = .ok key) :
    (registerNamed files report atlas arg).result =
      addMap atlas key name (fileText (files.bytes (FilePath.ofText name))) := by
  rw [registerNamed, hsplit]
  dsimp only
  rw [hkey]
  show (addedStage atlas key (addMap atlas key name (fileText _))).result = _
  rcases addMap atlas key name (fileText (files.bytes (FilePath.ofText name))) with reason | added
  · rfl
  · rfl

/-- What registering one named map leads to. -/
theorem reading_registerNamed (files : Files Id) (report : Report) (atlas : Atlas Resolver)
    (arg : Text) :
    Reading (IllegibleArgument files report arg) (registerNamed files report atlas arg).result := by
  rcases hsplit : splitMap? arg with _ | ⟨generated, name⟩
  · rw [registerNamed, hsplit]
    refine .argument ?_ (.badMap arg)
    rintro ⟨_, _, _, h, _⟩
    exact nomatch hsplit.symm.trans h
  · rcases hkey : mapKey files.directory report generated with fault | key
    · rw [registerNamed, hsplit]
      dsimp only
      rw [hkey]
      refine .argument ?_ (.file fault)
      rintro ⟨_, _, _, h, hkey', _⟩
      obtain ⟨rfl, rfl⟩ := Prod.mk.inj (Option.some.inj (hsplit.symm.trans h))
      exact nomatch hkey.symm.trans hkey'
    · have hiff : IllegibleArgument files report arg ↔
          Illegible DescribesLongInteger (files.bytes (FilePath.ofText name)) := by
        constructor
        · rintro ⟨_, _, _, h, _, hillegible⟩
          obtain ⟨rfl, rfl⟩ := Prod.mk.inj (Option.some.inj (hsplit.symm.trans h))
          exact hillegible
        · exact fun h => ⟨_, _, _, hsplit, hkey, h⟩
      refine .congr ?_ hiff.symm
      rw [result_registerNamed hsplit hkey]
      exact reading_addMap atlas key name (files.bytes (FilePath.ofText name))

theorem result_registerAllNamed_cons (files : Files Id) (report : Report) (atlas : Atlas Resolver)
    (arg : Text) (rest : List Text) :
    (registerAllNamed files report atlas (arg :: rest)).result =
      match (registerNamed files report atlas arg).result with
      | .error reason => .error reason
      | .ok added => (registerAllNamed files report added rest).result := by
  rw [registerAllNamed]
  show Stage.result (Stage.andThen (m := Id) (registerNamed (m := Id) files report atlas arg) _) = _
  rw [Stage.andThen]
  rcases Stage.result (registerNamed (m := Id) files report atlas arg) with reason | added <;> rfl

/-- The command comes to an argument that names an illegible map file: it has registered the maps of
all arguments before it. -/
def ComesToIllegible (files : Files Id) (report : Report) (atlas : Atlas Resolver)
    (args : List Text) : Prop :=
  ∃ before arg behind added, args = before ++ arg :: behind ∧
    (registerAllNamed files report atlas before).result = .ok added ∧
    IllegibleArgument files report arg

/-- The command comes to an illegible file at once, or behind an argument that it has registered. -/
theorem comesToIllegible_cons_iff {arg : Text} {rest : List Text} :
    ComesToIllegible files report atlas (arg :: rest) ↔
      IllegibleArgument files report arg ∨
        ∃ added, (registerNamed files report atlas arg).result = .ok added ∧
          ComesToIllegible files report added rest := by
  constructor
  · rintro ⟨before, arg', behind, added, heq, hbefore, hillegible⟩
    cases before with
    | nil =>
      obtain ⟨rfl, -⟩ := List.cons.inj heq
      exact .inl hillegible
    | cons first before =>
      obtain ⟨rfl, rfl⟩ := List.cons.inj heq
      rw [result_registerAllNamed_cons] at hbefore
      split at hbefore
      · cases hbefore
      · next added' hfirst =>
        exact .inr ⟨added', hfirst, before, arg', behind, added, rfl, hbefore, hillegible⟩
  · rintro (hillegible | ⟨added', hfirst, before, arg', behind, added, rfl, hbefore, hillegible⟩)
    · exact ⟨[], arg, rest, atlas, rfl, rfl, hillegible⟩
    · refine ⟨arg :: before, arg', behind, added, rfl, ?_, hillegible⟩
      rw [result_registerAllNamed_cons, hfirst]
      exact hbefore

/-- What registering all named maps leads to. -/
theorem reading_registerAllNamed (files : Files Id) (report : Report) (args : List Text) :
    ∀ atlas, Reading (ComesToIllegible files report atlas args)
      (registerAllNamed files report atlas args).result := by
  induction args with
  | nil =>
    intro atlas
    refine .value atlas ?_
    rintro ⟨before, arg, behind, _, heq, -⟩
    exact List.append_ne_nil_of_right_ne_nil before (List.cons_ne_nil arg behind) heq.symm
  | cons arg rest ih =>
    intro atlas
    have hfirst := reading_registerNamed files report atlas arg
    rw [result_registerAllNamed_cons]
    rcases hresult : (registerNamed files report atlas arg).result with reason | added
    · -- no argument behind this one is looked at
      rw [hresult] at hfirst
      refine .congr hfirst (comesToIllegible_cons_iff.trans (or_iff_left ?_)).symm
      rintro ⟨_, hadded, _⟩
      exact nomatch hresult.symm.trans hadded
    · rw [hresult] at hfirst
      cases hfirst with
      | value _ hlegible =>
        refine .congr (ih added) (comesToIllegible_cons_iff.trans ⟨?_, ?_⟩).symm
        · rintro (h | ⟨added', hadded, h⟩)
          · exact absurd h hlegible
          · exact Except.ok.inj (hresult.symm.trans hadded) ▸ h
        · exact fun h => .inr ⟨added, hresult, h⟩

end Named

/-! ### All inputs -/

/-- Reads the report and then the maps that are named. -/
def inputs (files : Files Id) (path : FilePath) (maps : List Text) :
    Stage (Report × Atlas Resolver) :=
  match reportOf path (files.bytes path) with
  | .error reason => .stop reason
  | .ok report =>
    let named : Stage (Atlas Resolver) := registerAllNamed files report Atlas.empty maps
    ⟨named.notices, named.result.map (Prod.mk report)⟩

/-- The report is illegible, or the command comes to a named map that is. -/
def IllegibleInput (files : Files Id) (path : FilePath) (maps : List Text) : Prop :=
  Illegible ReadsLongInteger (files.bytes path) ∨
    ∃ report, reportOf path (files.bytes path) = .ok report ∧
      ComesToIllegible files report Atlas.empty maps

/-- What reading all inputs leads to. -/
theorem reading_inputs (files : Files Id) (path : FilePath) (maps : List Text) :
    Reading (IllegibleInput files path maps) (inputs files path maps).result := by
  have hreport := reading_reportOf path (files.bytes path)
  rw [inputs]
  rcases hresult : reportOf path (files.bytes path) with reason | report
  · rw [hresult] at hreport
    have hfirst : IllegibleInput files path maps ↔ Illegible ReadsLongInteger (files.bytes path) := by
      refine or_iff_left ?_
      rintro ⟨_, h, _⟩
      exact nomatch hresult.symm.trans h
    exact .congr (hreport.map (·, Atlas.empty)) hfirst.symm
  · rw [hresult] at hreport
    cases hreport with
    | value _ hlegible =>
      refine .congr ((reading_registerAllNamed files report maps Atlas.empty).map (Prod.mk report)) ?_
      refine (Iff.symm ?_).trans (or_iff_right hlegible).symm
      constructor
      · rintro ⟨_, h, hcomes⟩
        exact Except.ok.inj (hresult.symm.trans h) ▸ hcomes
      · exact fun h => ⟨report, hresult, h⟩

/-! ### The command -/

section Command

variable {disk : Disk Id} {request : RemapRequest} {settings : Settings} {path : FilePath}

/-- The command reads the report when it has the settings. -/
theorem runRemap_of_load
    (hsettings : Settings.load disk.toFiles (FilePath.ofText request.config)
      (request.config ≠ defaultConfig) = .ok settings)
    (hpath : (request.report <|> settings.report) = some path) :
    runRemap disk request =
      match reportOf path (disk.bytes path) with
      | .error reason => Outcome.stopped reason
      | .ok report => remapWith disk request settings report := by
  rw [runRemap, hsettings]
  simp only [bind, hpath]
  rfl

/-- The command reads its inputs first: it stops where reading does, and otherwise it carries on with
the report. -/
theorem runRemap_eq
    (hsettings : Settings.load disk.toFiles (FilePath.ofText request.config)
      (request.config ≠ defaultConfig) = .ok settings)
    (hpath : (request.report <|> settings.report) = some path) :
    runRemap disk request =
      match (inputs disk.toFiles path request.maps).result with
      | .error reason =>
        ⟨[], shownLog settings.level (inputs disk.toFiles path request.maps).notices, some reason⟩
      | .ok (report, _) => remapWith disk request settings report := by
  rw [runRemap_of_load hsettings hpath, inputs]
  rcases reportOf path (disk.bytes path) with reason | report
  · rfl
  · dsimp only
    rcases hnamed : registerAllNamed (m := Id) disk.toFiles report Atlas.empty request.maps with
      ⟨notices, reason | atlas⟩
    · have hprepared : prepareAtlas (m := Id) disk.toFiles request settings report =
          (⟨notices, .error reason⟩ : Stage (Atlas Resolver)) := by
        rw [prepareAtlas, hnamed]
        rfl
      rw [remapWith, hprepared]
      rfl
    · rfl

/-- The message about a file is seen on standard error, with its phrase. -/
theorem IsInputMessage.exists_phrase {message : Text} (h : IsInputMessage message)
    (log : List LogEntry) :
    ∃ phrase ∈ inputPhrases,
      (phrase : Text) <:+: Outcome.errorOutput ⟨[], log, some (.refused message)⟩ := by
  have hplain : ∀ phrase ∈ inputPhrases, CodePoint.char '\x1b' ∉ (phrase : Text) := by decide
  -- control sequences are left out in front of the phrase and behind it
  have hshown : ∃ phrase ∈ inputPhrases, (phrase : Text) <:+: message.withoutControls := by
    cases h with
    | front phrase hphrase rest =>
      rw [Text.withoutControls_append (hplain phrase hphrase)]
      exact ⟨phrase, hphrase, (List.prefix_append _ _).isInfix⟩
    | inside phrase hphrase before rest =>
      obtain ⟨shown, hshown⟩ := Text.exists_withoutControls_append before ((phrase : Text) ++ rest)
      rw [hshown, Text.withoutControls_append (hplain phrase hphrase)]
      exact ⟨phrase, hphrase, shown ++ [.char ' '], rest.withoutControls, by simp⟩
  obtain ⟨phrase, hphrase, before, behind, heq⟩ := hshown
  refine ⟨phrase, hphrase, ?_⟩
  rw [Outcome.errorOutput, List.flatMap_append, List.flatMap_singleton, ← heq, Outcome.endLine]
  simp only [Outcome.escapeSurrogates_append, Outcome.escapeSurrogates_ofString, List.append_assoc]
  rw [← List.append_assoc]
  exact List.infix_append' _ _ _

/-- **Reading the inputs.** The command fails in reading its inputs because of the contents of a file
exactly when it comes to one that is illegible. In any other case it carries on with the report, or
it stops with status 1 and a message of its own on standard error, or an argument is to blame. -/
theorem runRemap_inputs
    (hsettings : Settings.load disk.toFiles (FilePath.ofText request.config)
      (request.config ≠ defaultConfig) = .ok settings)
    (hpath : (request.report <|> settings.report) = some path) :
    let reading := inputs disk.toFiles path request.maps
    let outcome : Outcome := runRemap disk request
    ((∃ failure, reading.result = .error (.failed failure) ∧ failure.OfContents) ↔
      IllegibleInput disk.toFiles path request.maps) ∧
    (∀ reason, reading.result = .error reason → outcome.stop = some reason) ∧
    (¬ IllegibleInput disk.toFiles path request.maps →
      (∃ report atlas, reading.result = .ok (report, atlas) ∧
        outcome = remapWith disk request settings report) ∨
      (∃ message, reading.result = .error (.refused message) ∧ outcome.status = 1 ∧
        ∃ phrase ∈ inputPhrases, (phrase : Text) <:+: outcome.errorOutput) ∨
      ∃ reason, reading.result = .error reason ∧ reason.OfArgument) := by
  intro reading outcome
  have hreading : Reading _ reading.result := reading_inputs disk.toFiles path request.maps
  have hrun := runRemap_eq hsettings hpath
  have hstop (reason : Stop) (h : reading.result = .error reason) :
      outcome = ⟨[], shownLog settings.level reading.notices, some reason⟩ := by
    rwa [show (inputs disk.toFiles path request.maps).result = _ from h] at hrun
  refine ⟨hreading.failed_iff, fun reason h => congrArg Outcome.stop (hstop reason h),
    fun hlegible => ?_⟩
  obtain ⟨⟨report, atlas⟩, h⟩ | ⟨message, h, hmessage⟩ | hargument := hreading.cases_of_not hlegible
  · refine .inl ⟨report, atlas, h, ?_⟩
    rwa [show (inputs disk.toFiles path request.maps).result = _ from h] at hrun
  · refine .inr (.inl ⟨message, h, ?_, ?_⟩)
    · rw [hstop _ h]
      rfl
    · rw [hstop _ h]
      exact hmessage.exists_phrase _
  · exact .inr (.inr hargument)

/-- A file tree as a disk on which nothing is kept. -/
def treeDisk (tree : FileTree) : Disk Id :=
  { tree.files ⟨[Path.separator], []⟩ with save := fun _ _ => .ok () }

/-- The command for the report `r.json` with the map `a.map` of the file `a.js`. -/
def requestOfFiles : RemapRequest :=
  ⟨some (FilePath.ofText "r.json"), none, defaultConfig, ["a.js=a.map"], false⟩

/-- A report that is read, and a map that is no JSON. -/
theorem runRemap_inputs_of_open_brace :
    let disk := treeDisk ⟨[(["r.json"], .file [0x7b, 0x7d]), (["a.map"], .file [0x7b])]⟩
    let outcome : Outcome := runRemap disk requestOfFiles
    ¬ IllegibleInput disk.toFiles (FilePath.ofText "r.json") requestOfFiles.maps ∧
      outcome.status = 1 ∧ ∃ phrase ∈ inputPhrases, (phrase : Text) <:+: outcome.errorOutput := by
  intro disk outcome
  obtain ⟨hfailed, -, hlegible⟩ := @runRemap_inputs disk requestOfFiles Settings.default
    (FilePath.ofText "r.json") rfl rfl
  have hread : ∃ message, (inputs disk.toFiles (FilePath.ofText "r.json") requestOfFiles.maps).result =
      .error (.refused message) := ⟨_, rfl⟩
  obtain ⟨message, hread⟩ := hread
  have hnot : ¬ IllegibleInput disk.toFiles (FilePath.ofText "r.json") requestOfFiles.maps := by
    rw [← hfailed]
    rintro ⟨failure, heq, -⟩
    cases hread.symm.trans heq
  refine ⟨hnot, ?_⟩
  obtain ⟨report, atlas, heq, -⟩ | ⟨_, -, hrefused⟩ | ⟨reason, heq, hreason⟩ := hlegible hnot
  · cases hread.symm.trans heq
  · exact hrefused
  · cases hread.symm.trans heq
    cases hreason

/-- With a report of one byte that is no text the command neither carries on nor stops with a message
of its own: it fails with the error of the decoder, and nothing is on standard error before that. -/
theorem runRemap_of_stray_byte :
    let disk := treeDisk ⟨[(["r.json"], .file [0xff])]⟩
    let outcome : Outcome := runRemap disk { requestOfFiles with maps := [] }
    (∃ error, (inputs disk.toFiles (FilePath.ofText "r.json") []).result =
        .error (.failed (.encoding error))) ∧
      ¬ ((∃ read, (inputs disk.toFiles (FilePath.ofText "r.json") []).result = .ok read) ∨
        ∃ message, outcome.stop = some (.refused message)) ∧
      outcome.errorOutput = [] := by
  refine ⟨⟨_, rfl⟩, ?_, rfl⟩
  rintro (⟨read, h⟩ | ⟨message, h⟩)
  · exact nomatch h
  · exact nomatch h

end Command

end CoverageLift.Command
