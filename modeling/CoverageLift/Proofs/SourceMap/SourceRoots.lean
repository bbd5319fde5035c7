import CoverageLift.Proofs.Path.Normal
import CoverageLift.SourceMap.SourcePath

/-!
# Sources below their root

A source without a scheme is joined to what stands in front of it (`withoutFileScheme_underRoot`):
the root, which loses its last slashes when it is a URL, and the scheme of local files when it has
that one. Joining neither makes a URL nor undoes one (`hasScheme_join`), so whether a relative source
becomes a URL is decided by its root alone.

A URL that is used as a root ends in a place or in nothing but slashes. With a place behind its scheme,
sources are found below it, wherever the generated file lies. With slashes only, as in `scheme:///`,
the slashes of the mark itself are taken off, the scheme becomes a directory and the source lies beside
the generated file. So **a URL keeps its sources apart from the generated file exactly when it is not
bare** (`resolve_of_url_root`).
-/

namespace CoverageLift.SourcePath

open CoverageLift.Path (separator)

/-! ### Schemes -/

/-- Whether a text is the scheme of a URL. -/
def isScheme (t : Text) : Bool :=
  match t with
  | first :: rest => first.isLetter && rest.all isSchemePart
  | [] => false

/-- What follows the scheme of a URL. -/
def schemeMark : Text := "://"

/-- The scheme of a URL. -/
def scheme (url : Text) : Text := url.takeWhile isSchemePart

theorem schemeMark_eq : schemeMark = [.char ':', separator, separator] := rfl

theorem append_schemeMark_append (s behind : Text) :
    s ++ schemeMark ++ behind = (s ++ [.char ':']) ++ separator :: separator :: behind := by
  simp [schemeMark_eq]

theorem isSchemePart_of_mem {s : Text} (hs : isScheme s = true) {c : CodePoint} (hc : c ∈ s) :
    isSchemePart c = true := by
  cases s with
  | nil => cases hs
  | cons first rest =>
    obtain ⟨hfirst, hrest⟩ := Bool.and_eq_true_iff.1 hs
    rcases List.mem_cons.1 hc with rfl | hc
    · simp [isSchemePart, hfirst]
    · exact List.all_eq_true.1 hrest c hc

theorem separator_not_mem_of_isScheme {s : Text} (hs : isScheme s = true) : separator ∉ s :=
  fun hmem => absurd (isSchemePart_of_mem hs hmem) (by decide)

theorem isAbsolute_append_of_isScheme {s : Text} (hs : isScheme s = true) (t : Text) :
    Path.isAbsolute (s ++ t) = false := by
  cases s with
  | nil => cases hs
  | cons first s =>
    have hne : first ≠ separator :=
      fun heq => separator_not_mem_of_isScheme hs (heq ▸ List.mem_cons_self)
    simp [Path.isAbsolute, hne]

/-- The scheme of a URL is what stands in front of its mark. -/
theorem scheme_eq_of_begins {s t : Text} (hs : isScheme s = true) (h : s ++ schemeMark <+: t) :
    scheme t = s := by
  obtain ⟨rest, rfl⟩ := h
  rw [scheme, List.append_assoc, List.takeWhile_append_of_pos fun _ => isSchemePart_of_mem hs,
    schemeMark_eq, List.cons_append, List.takeWhile_cons_of_neg (by decide), List.append_nil]

/-- A URL begins with a scheme and its mark. -/
theorem hasScheme_iff {t : Text} :
    hasScheme t = true ↔ ∃ s, isScheme s = true ∧ s ++ schemeMark <+: t := by
  refine ⟨fun h => ?_, ?_⟩
  · cases t with
    | nil => cases h
    | cons first rest =>
      obtain ⟨hfirst, hmark⟩ := Bool.and_eq_true_iff.1 h
      obtain ⟨behind, hbehind⟩ := Text.startsWith_iff.1 hmark
      refine ⟨first :: rest.takeWhile isSchemePart, ?_, behind, ?_⟩
      · rw [isScheme, hfirst, Bool.true_and, List.all_takeWhile]
      · rw [List.append_assoc, schemeMark, hbehind, List.cons_append,
          List.takeWhile_append_dropWhile]
  · rintro ⟨s, hs, behind, rfl⟩
    cases s with
    | nil => cases hs
    | cons first rest =>
      obtain ⟨hfirst, hrest⟩ := Bool.and_eq_true_iff.1 hs
      have hdrop : (rest ++ schemeMark ++ behind).dropWhile isSchemePart = schemeMark ++ behind := by
        rw [List.append_assoc, List.dropWhile_append_of_pos fun c => List.all_eq_true.1 hrest c,
          schemeMark_eq, List.cons_append, List.dropWhile_cons_of_neg (by decide)]
      rw [List.cons_append, List.cons_append, hasScheme, hfirst, hdrop, Bool.true_and]
      exact Text.startsWith_iff.2 (List.prefix_append _ _)

/-- A URL begins with its own scheme. -/
theorem hasScheme_iff_scheme {t : Text} :
    hasScheme t = true ↔ isScheme (scheme t) = true ∧ scheme t ++ schemeMark <+: t := by
  refine ⟨fun h => ?_, fun ⟨hs, hbegins⟩ => hasScheme_iff.2 ⟨_, hs, hbegins⟩⟩
  obtain ⟨s, hs, hbegins⟩ := hasScheme_iff.1 h
  rw [scheme_eq_of_begins hs hbegins]
  exact ⟨hs, hbegins⟩

/-! ### URLs and joined paths -/

/-- The mark of a URL is its first slash with another one behind it. -/
theorem schemeMark_prefix_iff {s before behind : Text} (hs : separator ∉ s)
    (hbefore : separator ∉ before) :
    s ++ schemeMark <+: before ++ separator :: behind ↔
      before = s ++ [.char ':'] ∧ Path.isAbsolute behind = true := by
  have hcolon : separator ∉ s ++ [.char ':'] := by
    rw [List.mem_append, not_or]
    exact ⟨hs, by decide⟩
  refine ⟨?_, ?_⟩
  · rintro ⟨rest, heq⟩
    rw [append_schemeMark_append] at heq
    have hcut : Text.cutFirst? separator (before ++ separator :: behind) =
        some (s ++ [.char ':'], separator :: rest) :=
      Text.cutFirst?_eq_some_iff.2 ⟨heq.symm, hcolon⟩
    rw [Text.cutFirst?_eq_some_iff.2 ⟨rfl, hbefore⟩] at hcut
    obtain ⟨rfl, rfl⟩ := Prod.mk.inj (Option.some.inj hcut)
    exact ⟨rfl, by simp [Path.isAbsolute]⟩
  · rintro ⟨rfl, habsolute⟩
    cases behind with
    | nil => cases habsolute
    | cons c behind =>
      obtain rfl : c = separator := by simpa [Path.isAbsolute] using habsolute
      exact ⟨behind, append_schemeMark_append s behind⟩

/-- Joining keeps what stands in front of a slash. -/
theorem join_append_cons {path : Text} (h : Path.isAbsolute path = false) (before behind : Text) :
    Path.join (before ++ separator :: behind) path =
      before ++ separator :: Path.join behind path := by
  rcases List.eq_nil_or_concat behind with rfl | ⟨front, last, rfl⟩
  · simp [Path.join, h]
  · by_cases hlast : last = separator
    · simp [Path.join, h, hlast, List.getLast?_cons]
    · simp [Path.join, h, hlast, List.getLast?_cons]

/-- A path joined to another one begins with a mark only if that one does. -/
theorem schemeMark_prefix_join_iff {s base path : Text} (hs : separator ∉ s) (hbase : base ≠ [])
    (hpath : Path.isAbsolute path = false) :
    s ++ schemeMark <+: Path.join base path ↔ s ++ schemeMark <+: base := by
  by_cases hmem : separator ∈ base
  · obtain ⟨before, behind, rfl, hbefore⟩ := List.eq_append_cons_of_mem hmem
    rw [join_append_cons hpath, schemeMark_prefix_iff hs hbefore, schemeMark_prefix_iff hs hbefore,
      Path.isAbsolute_join, hpath, Bool.or_false]
  · -- the only slash that could begin the end of the mark is the one in between
    have hjoin : Path.join base path = base ++ separator :: path := by
      obtain ⟨habsolute, -⟩ | ⟨-, ⟨hnil, -⟩ | ⟨front, rfl, -⟩ | ⟨-, hjoin⟩⟩ := Path.join_cases base path
      · exact absurd habsolute (Bool.eq_false_iff.1 hpath)
      · exact absurd hnil hbase
      · exact absurd (List.mem_append_right front List.mem_cons_self) hmem
      · exact hjoin
    rw [hjoin, schemeMark_prefix_iff hs hmem, hpath]
    refine iff_of_false (fun h => nomatch h.2) fun h => hmem (h.subset ?_)
    rw [schemeMark_eq]
    exact List.mem_append_right s (List.mem_cons_of_mem _ List.mem_cons_self)

/-- Joining a path neither makes a URL nor undoes one. -/
theorem hasScheme_join {base path : Text} (hbase : base ≠ [])
    (hpath : Path.isAbsolute path = false) : hasScheme (Path.join base path) = hasScheme base := by
  rw [Bool.eq_iff_iff, hasScheme_iff, hasScheme_iff]
  refine exists_congr fun s => and_congr_right fun hs => ?_
  exact schemeMark_prefix_join_iff (separator_not_mem_of_isScheme hs) hbase hpath

/-! ### The scheme of local files -/

/-- The name of the scheme of local files. -/
def fileSchemeName : Text := "file"

theorem fileScheme_eq : fileScheme = fileSchemeName ++ schemeMark := rfl

theorem withoutFileScheme_append (t : Text) : withoutFileScheme (fileScheme ++ t) = t := by
  rw [withoutFileScheme, Text.after?_eq_some_iff.2 rfl]
  rfl

theorem withoutFileScheme_of_not_local {t : Text} (h : ¬ fileScheme <+: t) :
    withoutFileScheme t = t := by
  rw [withoutFileScheme]
  cases hafter : Text.after? fileScheme t with
  | none => rfl
  | some rest => exact absurd ⟨rest, (Text.after?_eq_some_iff.1 hafter).symm⟩ h

/-- A text that begins with the scheme of local files is a URL with that scheme. -/
theorem scheme_of_local {t : Text} (h : fileScheme <+: t) :
    hasScheme t = true ∧ scheme t = fileSchemeName := by
  have hscheme : isScheme fileSchemeName = true := by decide
  exact ⟨hasScheme_iff.2 ⟨_, hscheme, h⟩, scheme_eq_of_begins hscheme h⟩

theorem withoutFileScheme_of_not_hasScheme {t : Text} (h : hasScheme t = false) :
    withoutFileScheme t = t := by
  refine withoutFileScheme_of_not_local fun hbegins => ?_
  rw [(scheme_of_local hbegins).1] at h
  cases h

/-- The scheme of local files is taken off in front of a joined path. -/
theorem withoutFileScheme_join {base path : Text} (hbase : base ≠ [])
    (hpath : Path.isAbsolute path = false) :
    withoutFileScheme (Path.join base path) = Path.join (withoutFileScheme base) path := by
  by_cases hbegins : fileScheme <+: base
  · obtain ⟨rest, rfl⟩ := hbegins
    have hsplit : ∀ t, fileScheme ++ t = ("file:" : Text) ++ separator :: ([] ++ separator :: t) :=
      fun _ => rfl
    rw [hsplit, join_append_cons hpath, join_append_cons hpath, ← hsplit, ← hsplit,
      withoutFileScheme_append, withoutFileScheme_append]
  · rw [withoutFileScheme_of_not_local hbegins, withoutFileScheme_of_not_local]
    rwa [fileScheme_eq, schemeMark_prefix_join_iff (by decide) hbase hpath]

/-! ### What stands in front of a source -/

/-- What stands in front of a source without a scheme: the root, without its last slashes when it is
a URL, and without the scheme of local files. -/
def front (root : Option Text) : Text :=
  match root with
  | none => []
  | some root =>
    withoutFileScheme (if hasScheme root then root.rdropWhile (· = separator) else root)

/-- A URL does not consist of slashes. -/
theorem rdropWhile_ne_nil {root : Text} (h : hasScheme root = true) :
    root.rdropWhile (· = separator) ≠ [] := by
  intro hnil
  obtain ⟨hscheme, hbegins⟩ := hasScheme_iff_scheme.1 h
  rw [List.rdropWhile_eq_nil_iff] at hnil
  have hcolon := hnil (.char ':') (hbegins.subset (List.mem_append_right _ List.mem_cons_self))
  exact absurd hcolon (by decide)

/-- A path is joined to what is left of another one without its last slashes by a slash. -/
theorem join_rdropWhile {base path : Text} (hbase : base.rdropWhile (· = separator) ≠ [])
    (hpath : Path.isAbsolute path = false) :
    Path.join (base.rdropWhile (· = separator)) path =
      base.rdropWhile (· = separator) ++ separator :: path := by
  obtain ⟨habsolute, -⟩ | ⟨-, ⟨hnil, -⟩ | ⟨before, hend, -⟩ | ⟨-, hjoin⟩⟩ :=
    Path.join_cases (base.rdropWhile (· = separator)) path
  · exact absurd habsolute (Bool.eq_false_iff.1 hpath)
  · exact absurd hnil hbase
  · have hlast := List.rdropWhile_last_not (· = separator) base hbase
    simp [hend] at hlast
  · exact hjoin

/-- A source below a root is joined to it, or to what is left of it when it is a URL. -/
theorem underRoot_some {root source : Text} (hroot : root ≠ []) (hsource : hasScheme source = false)
    (hrelative : Path.isAbsolute source = false) :
    underRoot (some root) source =
      Path.join (if hasScheme root then root.rdropWhile (· = separator) else root) source := by
  have hnil : root.isEmpty = false := by simpa using hroot
  rw [underRoot, hnil, hsource, hrelative]
  by_cases hurl : hasScheme root = true
  · rw [if_pos hurl, if_pos hurl, join_rdropWhile (rdropWhile_ne_nil hurl) hrelative]
    exact (List.append_cons _ _ _).symm
  · rw [if_neg hurl, if_neg hurl]
    rfl

/-- A source without a scheme is joined to what stands in front of it. -/
theorem withoutFileScheme_underRoot {source : Text} (hsource : hasScheme source = false)
    (root : Option Text) :
    withoutFileScheme (underRoot root source) = Path.join (front root) source := by
  by_cases habsolute : Path.isAbsolute source = true
  · have hunder : underRoot root source = source := by
      cases root with
      | none => rfl
      | some root => exact if_pos (by simp [habsolute])
    rw [hunder, withoutFileScheme_of_not_hasScheme hsource, Path.join_of_isAbsolute habsolute]
  · have hrelative := Bool.eq_false_iff.2 habsolute
    rcases root with _ | root
    · exact (withoutFileScheme_of_not_hasScheme hsource).trans (Path.join_nil_left source).symm
    · by_cases hroot : root = []
      · subst hroot
        exact (withoutFileScheme_of_not_hasScheme hsource).trans (Path.join_nil_left source).symm
      · rw [underRoot_some hroot hsource hrelative, front, withoutFileScheme_join _ hrelative]
        split
        · next hurl => exact rdropWhile_ne_nil hurl
        · exact hroot

/-! ### Resolving -/

/-- A source is resolved to the URL that it names, or to the normal form of the path that it names
below the directory of the generated file. -/
theorem resolve_eq (generated : Text) (root : Option Text) (source : Text) :
    resolve generated root source =
      if hasScheme (withoutFileScheme (underRoot root source)) then
        withoutFileScheme (underRoot root source)
      else Path.normalise
        (Path.join (Path.directory generated) (withoutFileScheme (underRoot root source))) := by
  rw [resolve]
  dsimp only
  split
  · rfl
  · split
    · next habsolute => rw [Path.join_of_isAbsolute habsolute]
    · split
      · next hempty => rw [List.isEmpty_iff.1 hempty, Path.join_nil_left]
      · rfl

/-- An absolute path is no URL. -/
theorem hasScheme_of_isAbsolute {path : Text} (h : Path.isAbsolute path = true) :
    hasScheme path = false := by
  cases path with
  | nil => rfl
  | cons c path =>
    have hc : c = separator := by simpa [Path.isAbsolute] using h
    rw [hc]
    rfl

/-- Joined components are no URL, since behind the first slash of its mark there would be an empty
one. -/
theorem hasScheme_join_components {components : List Text}
    (h : ∀ c ∈ components, Path.IsComponent c) :
    hasScheme (Text.join [separator] components) = false := by
  by_cases hnil : components = []
  · rw [hnil]
    rfl
  · refine Bool.eq_false_iff.2 fun hurl => ?_
    obtain ⟨s, -, behind, heq⟩ := hasScheme_iff.1 hurl
    have hpieces := Text.splitOn_join hnil fun c hc => (h c hc).2.2
    rw [← heq, append_schemeMark_append, Text.splitOn_append, ← List.nil_append (separator :: behind),
      Text.splitOn_append] at hpieces
    have hmem : ([] : Text) ∈ components := by
      rw [← hpieces]
      exact List.mem_append_right _ (List.mem_append_left _ List.mem_cons_self)
    exact absurd rfl (h [] hmem).1

/-- A normal form is no URL. -/
theorem hasScheme_normalise (path : Text) : hasScheme (Path.normalise path) = false := by
  obtain ⟨habsolute, hroot⟩ | ⟨habsolute, -⟩ := Path.root_cases path
  · obtain ⟨-, hnormal⟩ | hnormal := Path.normalise_cases path
    · rw [hnormal]
      decide
    · rw [hnormal, hroot, List.nil_append]
      exact hasScheme_join_components fun _ hc => Path.isComponent_of_mem_normalComponents hc
  · exact hasScheme_of_isAbsolute ((Path.isAbsolute_normalise path).trans habsolute)

/-- What a source is resolved to is a URL when the source names one. -/
theorem hasScheme_resolve (generated : Text) (root : Option Text) (source : Text) :
    hasScheme (resolve generated root source) =
      hasScheme (withoutFileScheme (underRoot root source)) := by
  rw [resolve_eq]
  split
  · rfl
  · next h => rw [hasScheme_normalise, Bool.eq_false_iff.2 h]

/-- How a source without a scheme is resolved. -/
theorem resolve_of_not_hasScheme {source : Text} (hsource : hasScheme source = false)
    (generated : Text) (root : Option Text) :
    resolve generated root source =
      if hasScheme (Path.join (front root) source) then Path.join (front root) source
      else Path.normalise (Path.join (Path.directory generated) (Path.join (front root) source)) := by
  rw [resolve_eq, withoutFileScheme_underRoot hsource]

/-! ### Roots that are URLs -/

/-- Whether a URL has nothing but slashes behind its scheme. -/
def isBare (url : Text) : Bool :=
  (url.drop (scheme url ++ schemeMark).length).all (· = separator)

theorem isBare_append {s : Text} (hs : isScheme s = true) (behind : Text) :
    isBare (s ++ schemeMark ++ behind) = behind.all (· = separator) := by
  rw [isBare, scheme_eq_of_begins hs (List.prefix_append _ _), List.drop_left]

/-- Of a bare URL its scheme and the colon are left without its last slashes. -/
theorem rdropWhile_of_isBare {root : Text} (h : hasScheme root = true) (hbare : isBare root = true) :
    root.rdropWhile (· = separator) = scheme root ++ [.char ':'] := by
  obtain ⟨hs, behind, hroot⟩ := hasScheme_iff_scheme.1 h
  generalize scheme root = s at hs hroot
  subst hroot
  rw [isBare_append hs, List.all_eq_true] at hbare
  have hslashes : ∀ c ∈ separator :: separator :: behind, decide (c = separator) = true := by
    simpa using hbare
  rw [append_schemeMark_append, List.rdropWhile, List.reverse_append,
    List.dropWhile_append_of_pos fun c hc => hslashes c (List.mem_reverse.1 hc)]
  exact List.rdropWhile_concat_neg _ _ _ (by decide)

/-- A URL that is not bare is still one without its last slashes. -/
theorem scheme_prefix_rdropWhile {root : Text} (h : hasScheme root = true)
    (hbare : isBare root = false) :
    scheme root ++ schemeMark <+: root.rdropWhile (· = separator) := by
  obtain ⟨hs, behind, hroot⟩ := hasScheme_iff_scheme.1 h
  generalize scheme root = s at hs hroot
  subst hroot
  rw [isBare_append hs, List.all_eq_false] at hbare
  obtain ⟨c, hc, hne⟩ := hbare
  have hkept : behind.reverse.dropWhile (· = separator) ≠ [] := fun hnil =>
    hne (List.dropWhile_eq_nil_iff.1 hnil c (List.mem_reverse.2 hc))
  rw [List.rdropWhile, List.reverse_append, List.dropWhile_append, if_neg (by simpa using hkept),
    List.reverse_append, List.reverse_reverse]
  exact List.prefix_append _ _

/-- Whether a root is still a URL without its last slashes. -/
theorem hasScheme_rdropWhile {root : Text} (h : hasScheme root = true) :
    hasScheme (root.rdropWhile (· = separator)) = !isBare root := by
  have hs := (hasScheme_iff_scheme.1 h).1
  cases hbare : isBare root with
  | true =>
    rw [rdropWhile_of_isBare h hbare]
    refine Bool.eq_false_iff.2 fun hurl => ?_
    obtain ⟨s, -, hbegins⟩ := hasScheme_iff.1 hurl
    have hmem : separator ∈ scheme root ++ [.char ':'] :=
      hbegins.subset (List.mem_append_right _ (List.mem_cons_of_mem _ List.mem_cons_self))
    rcases List.mem_append.1 hmem with hmem | hmem
    · exact separator_not_mem_of_isScheme hs hmem
    · exact absurd hmem (by decide)
  | false => exact hasScheme_iff.2 ⟨_, hs, scheme_prefix_rdropWhile h hbare⟩

/-- What stands in front of the sources of a root that is a URL, but for local files. -/
theorem front_url {root : Text} (h : hasScheme root = true) (hfile : scheme root ≠ fileSchemeName) :
    front (some root) = root.rdropWhile (· = separator) := by
  rw [front, if_pos h, withoutFileScheme_of_not_local]
  exact fun hbegins =>
    hfile (scheme_of_local (hbegins.trans (List.rdropWhile_prefix _ _))).2

/-- Where a source lies below a URL. -/
theorem resolve_below_url {root source : Text} (hroot : hasScheme root = true)
    (hfile : scheme root ≠ fileSchemeName) (hsource : hasScheme source = false)
    (hrelative : Path.isAbsolute source = false) (generated : Text) :
    resolve generated (some root) source =
      if isBare root then
        Path.normalise (Path.join (Path.directory generated)
          (scheme root ++ [.char ':'] ++ separator :: source))
      else root.rdropWhile (· = separator) ++ separator :: source := by
  have hne := rdropWhile_ne_nil hroot
  rw [resolve_of_not_hasScheme hsource, front_url hroot hfile, hasScheme_join hne hrelative,
    hasScheme_rdropWhile hroot, join_rdropWhile hne hrelative]
  cases hbare : isBare root with
  | true => rw [rdropWhile_of_isBare hroot hbare]; rfl
  | false => rfl

/-- **A URL keeps its sources apart from the generated file exactly when it is not bare**: then every
source without a scheme that is not absolute is resolved to a URL with the scheme of the root, the
same one wherever the generated file lies. Below a bare URL a source becomes no URL and moves with the
generated file. -/
theorem resolve_of_url_root {root source : Text} (hroot : hasScheme root = true)
    (hfile : scheme root ≠ fileSchemeName) (hsource : hasScheme source = false)
    (hrelative : Path.isAbsolute source = false) :
    ((∀ generated, hasScheme (resolve generated (some root) source) = true ∧
        scheme root ++ schemeMark <+: resolve generated (some root) source) ↔
      isBare root = false) ∧
    ((∀ generated generated', resolve generated (some root) source =
        resolve generated' (some root) source) ↔ isBare root = false) ∧
    ∀ generated, resolve generated (some root) source =
      if isBare root then
        Path.normalise (Path.join (Path.directory generated)
          (scheme root ++ [.char ':'] ++ separator :: source))
      else root.rdropWhile (· = separator) ++ separator :: source := by
  have hs := (hasScheme_iff_scheme.1 hroot).1
  have hvalue := resolve_below_url hroot hfile hsource hrelative
  refine ⟨⟨fun h => ?_, fun hbare generated => ?_⟩, ⟨fun h => ?_, fun hbare generated generated' => ?_⟩,
    hvalue⟩
  · -- a normal form is no URL
    refine Bool.eq_false_iff.2 fun hbare => ?_
    have hurl := (h []).1
    rw [hvalue, if_pos hbare, hasScheme_normalise] at hurl
    cases hurl
  · have hbegins : scheme root ++ schemeMark <+: resolve generated (some root) source := by
      rw [hvalue, hbare]
      exact (scheme_prefix_rdropWhile hroot hbare).trans (List.prefix_append _ _)
    exact ⟨hasScheme_iff.2 ⟨_, hs, hbegins⟩, hbegins⟩
  · -- the directory of a file at the root is absolute, and a bare name has none
    refine Bool.eq_false_iff.2 fun hbare => ?_
    have hsame := congrArg Path.isAbsolute (h [separator] [])
    rw [hvalue, hvalue, if_pos hbare, if_pos hbare, Path.isAbsolute_normalise,
      Path.isAbsolute_normalise, Path.isAbsolute_join, Path.isAbsolute_join, List.append_assoc,
      isAbsolute_append_of_isScheme hs] at hsame
    exact absurd hsame (by decide)
  · rw [hvalue, hvalue, hbare]
    rfl

/-- A root with a place and slashes at its end, with a source that is not in normal form. -/
theorem resolve_of_url_root_with_place :
    hasScheme "webpack://app//" = true ∧ isBare "webpack://app//" = false ∧
      ∀ generated, resolve generated (some "webpack://app//") "./src/../a.ts" =
        "webpack://app/./src/../a.ts" := by
  have hroot : hasScheme "webpack://app//" = true := by decide
  have hsource : hasScheme "./src/../a.ts" = false := by decide
  obtain ⟨-, -, hvalue⟩ := resolve_of_url_root hroot (by decide) hsource (by decide)
  exact ⟨hroot, by decide, hvalue⟩

/-- A bare root: its source is a path, and another one for each directory of the generated file. -/
theorem source_of_bare_root_moves :
    hasScheme "webpack:///" = true ∧ scheme "webpack:///" ≠ fileSchemeName ∧
      hasScheme "a.ts" = false ∧ Path.isAbsolute "a.ts" = false ∧
      resolve "/out/a.js" (some "webpack:///") "a.ts" = "/out/webpack:/a.ts" ∧
      resolve "/b/a.js" (some "webpack:///") "a.ts" = "/b/webpack:/a.ts" ∧
      hasScheme (resolve "/out/a.js" (some "webpack:///") "a.ts") = false := by
  decide

end CoverageLift.SourcePath
