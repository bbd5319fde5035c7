import CoverageLift.Discovery.Extract

/-!
# How a search fails

Most of what can be wrong with a map is reported, and then the map counts as absent. A search fails
for four reasons only, each of them about a name or about the data of a URL: the path of the generated
file can name no file, the data of an inline map are said to be base64 and are not ASCII, the name of
a map file is too long, or the path of the generated file has no last component to which `.map` could
be added. **A search fails exactly in these cases** (`load_eq_error_iff`).
-/

namespace CoverageLift

/-- A test fails only where the file system finds the name too long. -/
theorem FileKind.test_eq_error_iff {wanted : FileKind → Bool} {asked : Except FileFault FileKind}
    {fault : FileFault} :
    FileKind.test wanted asked = .error fault ↔
      ∃ name, asked = .error (.system .nameTooLong name) ∧ fault = .system .nameTooLong name := by
  unfold FileKind.test
  split
  · exact ⟨fun h => (nomatch h), fun ⟨_, h, _⟩ => (nomatch h)⟩
  · next name =>
    constructor
    · exact fun h => ⟨name, rfl, (Except.error.inj h).symm⟩
    · rintro ⟨_, heq, rfl⟩
      exact congrArg _ (Except.error.inj heq)
  · next other hother =>
    refine ⟨fun h => (nomatch h), fun ⟨name, heq, _⟩ => ?_⟩
    exact absurd (Except.error.inj heq) (hother name)

namespace Discovery

variable {files : Files Id} {switches : Switches} {generated path : FilePath} {text data : Text}
  {error : SearchError}

/-! ### What a search consults -/

/-- The text of a generated file, if its bytes can be had. -/
def generatedText? (files : Files Id) (generated : FilePath) : Option Text :=
  (files.bytes generated).toOption.map fun bytes => Text.unifyNewlines (Utf8.decodeLossy bytes)

/-- The map file for a text: the one that its comment names, or else the one beside the generated
file. -/
def mapPath? (text : Text) (generated : FilePath) : Option FilePath :=
  match MapComment.lastUrl? text with
  | some url =>
    if Text.startsWith dataScheme url || SourcePath.hasScheme url then none
    else some (generated.parent.under (FilePath.ofText (Percent.decode url)))
  | none => generated.withSuffix? ".map"

/-- The data of a URL are said to be base64 and are not ASCII. -/
def IsForeign (data : Text) : Prop :=
  ∃ header body, data = header ++ .char ',' :: body ∧ .char ',' ∉ header ∧
    base64Mark <:+ header ∧ ∃ c ∈ body, c.isAscii = false

/-- What makes the search fail in the text of a generated file. -/
inductive ExtractFails (files : Files Id) (switches : Switches) (text : Text)
    (generated : FilePath) : SearchError → Prop
  /-- The comment holds a map whose data are foreign. -/
  | data {data : Text} (hinline : switches.inline = true)
      (hcomment : MapComment.lastUrl? text = some (dataScheme ++ data)) (hforeign : IsForeign data) :
      ExtractFails files switches text generated .notAscii
  /-- The name of the map file is too long. -/
  | tooLong {path : FilePath} {name : Text} (hsibling : switches.sibling = true)
      (hpath : mapPath? text generated = some path)
      (hlong : files.kind path = .error (.system .nameTooLong name)) :
      ExtractFails files switches text generated (.file (.system .nameTooLong name))
  /-- There is no comment, and the path of the generated file has no last component. -/
  | nameless (hsibling : switches.sibling = true) (hcomment : MapComment.lastUrl? text = none)
      (hname : generated.withSuffix? ".map" = none) :
      ExtractFails files switches text generated (.emptyName generated)

/-- What makes a search fail. -/
inductive SearchFails (files : Files Id) (switches : Switches) (generated : FilePath) :
    SearchError → Prop
  /-- The path of the generated file can name no file. -/
  | unusable {fault : FileFault} (hbytes : files.bytes generated = .error fault)
      (hfault : ∀ system name, fault ≠ .system system name) :
      SearchFails files switches generated (.file fault)
  /-- The search fails in the text of the generated file. -/
  | text {text : Text} {error : SearchError} (htext : generatedText? files generated = some text)
      (hfails : ExtractFails files switches text generated error) :
      SearchFails files switches generated error

/-! ### The parts of a search -/

theorem decodeBase64_eq_error_iff {body : Text} :
    decodeBase64 body = .error error ↔ (∃ c ∈ body, c.isAscii = false) ∧ error = .notAscii := by
  rw [← Base64.decode_eq_notAscii_iff, decodeBase64]
  split
  · next hdecode => simp [hdecode, eq_comm]
  · next fault hfault hdecode =>
    refine iff_of_false (nomatch ·) fun ⟨h, _⟩ => hfault ?_
    exact Except.error.inj (hdecode.symm.trans h)
  · next bytes hdecode =>
    split
    · exact iff_of_false (nomatch ·) fun ⟨h, _⟩ => nomatch hdecode.symm.trans h
    · exact iff_of_false (nomatch ·) fun ⟨h, _⟩ => nomatch hdecode.symm.trans h

theorem decodeData_eq_error_iff :
    decodeData data = .error error ↔ IsForeign data ∧ error = .notAscii := by
  rw [decodeData]
  split
  · next hcut =>
    refine iff_of_false (nomatch ·) ?_
    rintro ⟨⟨header, body, heq, hheader, -⟩, -⟩
    exact nomatch hcut.symm.trans (Text.cutFirst?_eq_some_iff.2 ⟨heq, hheader⟩)
  · next header body hcut =>
    have hforeign : IsForeign data ↔ base64Mark <:+ header ∧ ∃ c ∈ body, c.isAscii = false := by
      constructor
      · rintro ⟨header', body', heq, hheader, hrest⟩
        obtain ⟨rfl, rfl⟩ := Prod.mk.inj
          (Option.some.inj (hcut.symm.trans (Text.cutFirst?_eq_some_iff.2 ⟨heq, hheader⟩)))
        exact hrest
      · obtain ⟨heq, hheader⟩ := Text.cutFirst?_eq_some_iff.1 hcut
        exact fun hrest => ⟨header, body, heq, hheader, hrest⟩
    rw [hforeign]
    split
    · next hmark => rw [decodeBase64_eq_error_iff, and_iff_right (Text.endsWith_iff.1 hmark)]
    · next hmark => exact iff_of_false (nomatch ·) fun h => hmark (Text.endsWith_iff.2 h.1.1)

/-- A map file that can be tested is read, or it is absent. -/
theorem mapFileText_eq_error_iff :
    mapFileText files path = .error error ↔
      ∃ name, files.kind path = .error (.system .nameTooLong name) ∧
        error = .file (.system .nameTooLong name) := by
  have htest {fault : FileFault} : files.isRegular path = .error fault ↔
      ∃ name, files.kind path = .error (.system .nameTooLong name) ∧
        fault = .system .nameTooLong name :=
    FileKind.test_eq_error_iff
  have hfile : mapFileText files path =
      match files.isRegular path with
      | .error fault => .error (.file fault)
      | .ok false => .ok Found.nothing
      | .ok true =>
        match files.text path with
        | .error fault => .ok ⟨none, [.mapUnreadable path.toText fault]⟩
        | .ok text => .ok ⟨some text, []⟩ := rfl
  have hsucceeds {found : Found} {regular : Bool} (hregular : files.isRegular path = .ok regular)
      (hfound : mapFileText files path = .ok found) :
      mapFileText files path = .error error ↔
        ∃ name, files.kind path = .error (.system .nameTooLong name) ∧
          error = .file (.system .nameTooLong name) := by
    refine iff_of_false (fun h => nomatch hfound.symm.trans h) ?_
    rintro ⟨name, hkind, -⟩
    exact nomatch hregular.symm.trans (htest.2 ⟨name, hkind, rfl⟩)
  rcases hregular : files.isRegular path with fault | regular
  · rw [hfile, hregular]
    obtain ⟨name, hkind, rfl⟩ := htest.1 hregular
    constructor
    · exact fun h => ⟨name, hkind, (Except.error.inj h).symm⟩
    · rintro ⟨name', hkind', rfl⟩
      obtain rfl := FileFault.system.inj (Except.error.inj (hkind.symm.trans hkind')) |>.2
      rfl
  · rcases regular with _ | _
    · exact hsucceeds hregular (by rw [hfile, hregular])
    · rcases htext : files.text path with fault | text
      · exact hsucceeds hregular (by rw [hfile, hregular]; dsimp only; rw [htext])
      · exact hsucceeds hregular (by rw [hfile, hregular]; dsimp only; rw [htext])

theorem followUrl_eq_error_iff {url : Text} :
    followUrl files switches generated url = .error error ↔
      (∃ data, url = dataScheme ++ data ∧ switches.inline = true ∧ IsForeign data ∧
          error = .notAscii) ∨
        Text.startsWith dataScheme url = false ∧ SourcePath.hasScheme url = false ∧
          switches.sibling = true ∧
          mapFileText files (generated.parent.under (FilePath.ofText (Percent.decode url))) =
            .error error := by
  rw [followUrl]
  rcases hdata : Text.after? dataScheme url with _ | data
  · have hstarts : Text.startsWith dataScheme url = false := by rw [Text.startsWith, hdata]; rfl
    have hno : ¬ ∃ data, url = dataScheme ++ data ∧ switches.inline = true ∧ IsForeign data ∧
        error = .notAscii := by
      rintro ⟨data, hurl, -⟩
      rw [Text.after?_eq_some_iff.2 hurl] at hdata
      cases hdata
    rw [or_iff_right hno, and_iff_right hstarts]
    dsimp only
    split
    · next hoff =>
      constructor
      · intro h
        cases h
      · rintro ⟨hscheme, hsibling, -⟩
        rw [hscheme, hsibling] at hoff
        cases hoff
    · next hon =>
      rw [Bool.not_eq_true, Bool.or_eq_false_iff, Bool.not_eq_false'] at hon
      rw [and_iff_right hon.2, and_iff_right hon.1]
  · have hurl := Text.after?_eq_some_iff.1 hdata
    have hstarts : Text.startsWith dataScheme url = true := by rw [Text.startsWith, hdata]; rfl
    have hsame : (∃ data, url = dataScheme ++ data ∧ switches.inline = true ∧ IsForeign data ∧
        error = .notAscii) ↔ switches.inline = true ∧ IsForeign data ∧ error = .notAscii := by
      constructor
      · rintro ⟨data', hurl', h⟩
        obtain rfl := List.append_cancel_left (hurl.symm.trans hurl')
        exact h
      · exact fun h => ⟨data, hurl, h⟩
    rw [or_iff_left fun h => Bool.noConfusion (hstarts.symm.trans h.1), hsame,
      ← decodeData_eq_error_iff]
    change (if switches.inline then decodeData data else .ok Found.nothing) = .error error ↔ _
    split
    · next hinline => rw [and_iff_right hinline]
    · next hinline =>
      constructor
      · intro h
        cases h
      · exact fun h => absurd h.1 hinline

theorem extract_eq_error_iff :
    extract files switches text generated = .error error ↔
      ExtractFails files switches text generated error := by
  rw [extract]
  rcases hcomment : MapComment.lastUrl? text with _ | url
  · -- without a comment the map is looked for beside the generated file
    have hpath : mapPath? text generated = generated.withSuffix? ".map" := by
      rw [mapPath?, hcomment]
    dsimp only
    split
    · next hsibling =>
      rcases hname : generated.withSuffix? ".map" with _ | path
      · constructor
        · intro h
          obtain rfl := Except.error.inj h
          exact .nameless hsibling hcomment hname
        · rintro (⟨_, h, _⟩ | ⟨_, h, _⟩ | _)
          · exact nomatch hcomment.symm.trans h
          · exact nomatch (hpath.trans hname).symm.trans h
          · rfl
      · rw [mapFileText_eq_error_iff]
        constructor
        · rintro ⟨name, hlong, rfl⟩
          exact .tooLong hsibling (hpath.trans hname) hlong
        · rintro (⟨_, h, _⟩ | ⟨_, h, hlong⟩ | ⟨_, _, h⟩)
          · exact nomatch hcomment.symm.trans h
          · obtain rfl := Option.some.inj ((hpath.trans hname).symm.trans h)
            exact ⟨_, hlong, rfl⟩
          · exact nomatch hname.symm.trans h
    · next hsibling =>
      refine iff_of_false (nomatch ·) ?_
      rintro (⟨_, h, _⟩ | ⟨h, _, _⟩ | ⟨h, _, _⟩)
      · exact nomatch hcomment.symm.trans h
      · exact hsibling h
      · exact hsibling h
  · rw [followUrl_eq_error_iff, mapFileText_eq_error_iff]
    constructor
    · rintro (⟨data, rfl, hinline, hforeign, rfl⟩ | ⟨hdata, hscheme, hsibling, name, hlong, rfl⟩)
      · exact .data hinline hcomment hforeign
      · refine .tooLong hsibling ?_ hlong
        rw [mapPath?, hcomment]
        dsimp only
        rw [hdata, hscheme]
        rfl
    · rintro (⟨hinline, h, hforeign⟩ | ⟨hsibling, hpath, hlong⟩ | ⟨_, h, _⟩)
      · exact .inl ⟨_, Option.some.inj (hcomment.symm.trans h), hinline, hforeign, rfl⟩
      · rw [mapPath?, hcomment] at hpath
        dsimp only at hpath
        split at hpath
        · cases hpath
        · next hplain =>
          rw [Bool.not_eq_true, Bool.or_eq_false_iff] at hplain
          obtain rfl := Option.some.inj hpath
          exact .inr ⟨hplain.1, hplain.2, hsibling, _, hlong, rfl⟩
      · exact nomatch hcomment.symm.trans h

theorem load_eq (files : Files Id) (switches : Switches) (generated : FilePath) :
    load files switches generated =
      match files.bytes generated with
      | .error (.system fault name) =>
        .ok ⟨none, [.generatedUnreadable generated.toText (.system fault name)]⟩
      | .error fault => .error (.file fault)
      | .ok bytes =>
        extract files switches (Text.unifyNewlines (Utf8.decodeLossy bytes)) generated := rfl

/-- **A search fails exactly in the four cases.** -/
theorem load_eq_error_iff :
    load files switches generated = .error error ↔ SearchFails files switches generated error := by
  rw [load_eq]
  rcases hbytes : files.bytes generated with fault | bytes
  · have hnone : generatedText? files generated = none := by
      rw [generatedText?, hbytes]
      rfl
    have hsearch : SearchFails files switches generated error ↔
        (∀ system name, fault ≠ .system system name) ∧ error = .file fault := by
      constructor
      · rintro (⟨h, hfault⟩ | ⟨h, _⟩)
        · obtain rfl := Except.error.inj (hbytes.symm.trans h)
          exact ⟨hfault, rfl⟩
        · rw [hnone] at h
          cases h
      · rintro ⟨hfault, rfl⟩
        exact .unusable hbytes hfault
    rw [hsearch]
    cases fault with
    | system fault name =>
      constructor
      · intro h
        cases h
      · exact fun h => absurd rfl (h.1 fault name)
    | _ =>
      constructor
      · intro h
        refine ⟨?_, (Except.error.inj h).symm⟩
        rintro _ _ ⟨⟩
      · exact fun h => congrArg _ h.2.symm
  · have htext : generatedText? files generated =
        some (Text.unifyNewlines (Utf8.decodeLossy bytes)) := by
      rw [generatedText?, hbytes]
      rfl
    dsimp only
    rw [extract_eq_error_iff]
    constructor
    · exact .text htext
    · rintro (⟨h, _⟩ | ⟨h, hfails⟩)
      · have hcontra : Except.ok bytes = Except.error _ := hbytes.symm.trans h
        cases hcontra
      · obtain rfl := Option.some.inj (htext.symm.trans h)
        exact hfails

end Discovery

end CoverageLift
