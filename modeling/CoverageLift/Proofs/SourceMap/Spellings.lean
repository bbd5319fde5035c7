import CoverageLift.Coverage.Remap
import CoverageLift.Proofs.SourceMap.Legality
import CoverageLift.Proofs.SourceMap.SourceRoots
import Mathlib.Data.List.Nodup

/-!
# Spellings of a source

A path can be spelled in many ways, and the path that a source is resolved to is none of them but the
normal form: normalising changes nothing about it, and resolving it again gives it back. Sources
without a scheme may be normalised before they are resolved (`resolve_congr`), whatever root and
directory stand in front of them.

So all spellings of a path are one path afterwards. **A map lists it once, and a map with spellings
of one path only moves the coverage of its file there** (`resolve_canonical`).
-/

namespace CoverageLift

namespace SourcePath

variable {generated source other path : Text} {root : Option Text}

/-! ### Resolved paths -/

/-- A source that names no URL is resolved to the normal form of its path. -/
theorem resolve_of_path (h : hasScheme (resolve generated root source) = false) :
    resolve generated root source = Path.normalise
      (Path.join (Path.directory generated) (withoutFileScheme (underRoot root source))) := by
  rw [hasScheme_resolve] at h
  rw [resolve_eq, h]
  rfl

/-- A resolved path is in normal form. -/
theorem normalise_resolve (h : hasScheme (resolve generated root source) = false) :
    Path.normalise (resolve generated root source) = resolve generated root source := by
  rw [resolve_of_path h, Path.normalise_normalise]

/-- The sources of a file with an absolute path have absolute paths. -/
theorem isAbsolute_resolve (h : hasScheme (resolve generated root source) = false)
    (hgenerated : Path.isAbsolute generated = true) :
    Path.isAbsolute (resolve generated root source) = true := by
  rw [resolve_of_path h, Path.isAbsolute_normalise, Path.isAbsolute_join,
    Path.isAbsolute_directory hgenerated, Bool.true_or]

/-- An absolute path is resolved to its normal form, whatever the file and the root are. -/
theorem resolve_of_isAbsolute (h : Path.isAbsolute path = true) (generated : Text)
    (root : Option Text) : resolve generated root path = Path.normalise path := by
  have hscheme := hasScheme_of_isAbsolute h
  rw [resolve_of_not_hasScheme hscheme, Path.join_of_isAbsolute h, hscheme,
    Path.join_of_isAbsolute h]
  rfl

/-- What stands in front of two sources makes URLs of both or of none. -/
theorem hasScheme_join_front (hsource : hasScheme source = false) (hother : hasScheme other = false)
    (habsolute : Path.isAbsolute other = Path.isAbsolute source) :
    hasScheme (Path.join (front root) other) = hasScheme (Path.join (front root) source) := by
  cases hrelative : Path.isAbsolute source with
  | true =>
    rw [Path.join_of_isAbsolute hrelative, Path.join_of_isAbsolute (habsolute.trans hrelative),
      hsource, hother]
  | false =>
    by_cases hfront : front root = []
    · rw [hfront, Path.join_nil_left, Path.join_nil_left, hsource, hother]
    · rw [hasScheme_join hfront hrelative, hasScheme_join hfront (habsolute.trans hrelative)]

/-- Sources with the same normal form are resolved to the same path. -/
theorem resolve_congr (hpath : hasScheme (resolve generated root source) = false)
    (hsource : hasScheme source = false) (hother : hasScheme other = false)
    (h : Path.normalise other = Path.normalise source) :
    resolve generated root other = resolve generated root source := by
  have habsolute : Path.isAbsolute other = Path.isAbsolute source := by
    rw [← Path.isAbsolute_normalise, h, Path.isAbsolute_normalise]
  rw [hasScheme_resolve, withoutFileScheme_underRoot hsource] at hpath
  rw [resolve_of_not_hasScheme hother, resolve_of_not_hasScheme hsource,
    hasScheme_join_front hsource hother habsolute, hpath, if_neg Bool.false_ne_true,
    if_neg Bool.false_ne_true]
  exact Path.normalise_join_congr (Path.normalise_join_congr h _) _

/-! ### Listed paths -/

/-- Whether a source of a map of the file `generated` names `path`, however it is spelled: what it
names below its root, taken from the directory of the file, has the normal form `path`. -/
def Spells (generated : Text) (root : Option Text) (source path : Text) : Prop :=
  hasScheme (withoutFileScheme (underRoot root source)) = false ∧
    Path.normalise
      (Path.join (Path.directory generated) (withoutFileScheme (underRoot root source))) = path

instance : Decidable (Spells generated root source path) := inferInstanceAs (Decidable (_ ∧ _))

theorem resolve_of_spells (h : Spells generated root source path) :
    resolve generated root source = path := by
  rw [resolve_eq, h.1, ← h.2]
  rfl

theorem spells_of_resolve (h : hasScheme (resolve generated root source) = false) :
    Spells generated root source (resolve generated root source) :=
  ⟨(hasScheme_resolve _ _ _).symm.trans h, (resolve_of_path h).symm⟩

end SourcePath

namespace SourceMap

variable {document : SourceMapDocument} {generated path : Text} {map : SourceMap}

theorem nodup_eraseDups : ∀ items : List Text, items.eraseDups.Nodup
  | [] => List.nodup_nil
  | item :: items => by
    rw [List.eraseDups_cons, List.nodup_cons]
    refine ⟨?_, nodup_eraseDups _⟩
    simp
termination_by items => items.length
decreasing_by exact Nat.lt_succ_of_le (List.length_filter_le _ _)

/-- The listed paths are those that the sources of the document are resolved to. -/
theorem mem_knownSources_iff (h : ofDocument document generated = .ok map) :
    path ∈ map.knownSources ↔ ∃ source, some source ∈ document.sources ∧
      SourcePath.resolve generated document.sourceRoot source = path := by
  rw [mem_knownSources, (exists_of_ofDocument h).1]
  simp [List.mem_map]

/-- A path that is spelled in a map is listed there, and only once. -/
theorem count_knownSources (h : ofDocument document generated = .ok map)
    (hspelled : ∃ source, some source ∈ document.sources ∧
      SourcePath.Spells generated document.sourceRoot source path) :
    map.knownSources.count path = 1 := by
  obtain ⟨source, hsource, hspells⟩ := hspelled
  exact List.count_eq_one_of_mem (nodup_eraseDups _)
    ((mem_knownSources_iff h).2 ⟨source, hsource, SourcePath.resolve_of_spells hspells⟩)

/-- A map with spellings of one path only lists that path only. -/
theorem knownSources_eq_singleton (h : ofDocument document generated = .ok map)
    (hspelled : ∃ source, some source ∈ document.sources ∧
      SourcePath.Spells generated document.sourceRoot source path)
    (hall : ∀ source, some source ∈ document.sources →
      SourcePath.Spells generated document.sourceRoot source path) :
    map.knownSources = [path] := by
  have hlisted : ∀ known ∈ map.knownSources, known = path := by
    intro known hknown
    obtain ⟨source, hsource, rfl⟩ := (mem_knownSources_iff h).1 hknown
    exact SourcePath.resolve_of_spells (hall source hsource)
  rw [List.eq_replicate_of_mem hlisted, ← List.count_eq_length.2 fun _ hknown =>
    (hlisted _ hknown).symm, count_knownSources h hspelled]
  rfl

end SourceMap

namespace SourcePath

/-- **Resolved paths are canonical**: a path that a source is resolved to is in normal form, it is
absolute when that of the file is, and if it is absolute it is resolved to itself, for every file and
root. Sources with the same normal form spell the same path, whatever spells a path is resolved to
it, and a map lists it once; a file whose map spells one path only moves there. -/
theorem resolve_canonical {generated source : Text} {root : Option Text}
    (hpath : hasScheme (resolve generated root source) = false) :
    Path.normalise (resolve generated root source) = resolve generated root source ∧
      (Path.isAbsolute generated = true →
        Path.isAbsolute (resolve generated root source) = true) ∧
      (Path.isAbsolute (resolve generated root source) = true → ∀ generated' root',
        resolve generated' root' (resolve generated root source) =
          resolve generated root source) ∧
      (∀ other, hasScheme source = false → hasScheme other = false →
        Path.normalise other = Path.normalise source →
          Spells generated root other (resolve generated root source)) ∧
      ∀ generated',
        (∀ root' other, Spells generated' root' other (resolve generated root source) →
          resolve generated' root' other = resolve generated root source) ∧
        ∀ document map, SourceMap.ofDocument document generated' = .ok map →
          (∃ other, some other ∈ document.sources ∧
            Spells generated' document.sourceRoot other (resolve generated root source)) →
          map.knownSources.count (resolve generated root source) = 1 ∧
            ((∀ other, some other ∈ document.sources →
              Spells generated' document.sourceRoot other (resolve generated root source)) →
              ∀ atlas path fields, atlas.lookup (.text path) = some (Resolver.ofSourceMap map) →
                disposition atlas path (.obj fields) = .moves (resolve generated root source)
                  ⟨path, fields, Resolver.ofSourceMap map⟩) := by
  refine ⟨normalise_resolve hpath, isAbsolute_resolve hpath, ?_, ?_, fun generated' => ⟨?_, ?_⟩⟩
  · intro habsolute generated' root'
    rw [resolve_of_isAbsolute habsolute, normalise_resolve hpath]
  · intro other hsource hother h
    have hresolve := resolve_congr hpath hsource hother h
    rw [← hresolve] at hpath ⊢
    exact spells_of_resolve hpath
  · exact fun _ _ => resolve_of_spells
  · intro document map hmap hspelled
    refine ⟨SourceMap.count_knownSources hmap hspelled, ?_⟩
    intro hall atlas path fields hlookup
    have honly : (Resolver.ofSourceMap map).onlySource? = some (resolve generated root source) := by
      rw [Resolver.onlySource?, Resolver.ofSourceMap,
        SourceMap.knownSources_eq_singleton hmap hspelled hall]
    simp [disposition, hlookup, honly]

/-- Three spellings of one path in a list of sources: below a root, with components that go away
again, and as the URL of a local file. -/
theorem resolve_canonical_of_three_spellings :
    let generated : Text := "/out/b/../a.js"
    let document : SourceMapDocument := ⟨3, [some "./x/../a.ts", none, some "a.ts",
      some "file:///src/a.ts"], "", some "..//src", none⟩
    let r := resolve generated (some "..//src") "./x/../a.ts"
    hasScheme r = false ∧ r = "/src/a.ts" ∧ Path.isAbsolute r = true ∧
      resolve "b.js" (some "webpack://p") r = r ∧
      ∃ map, SourceMap.ofDocument document generated = .ok map ∧
        map.knownSources.count r = 1 ∧
        disposition ⟨[(generated, Resolver.ofSourceMap map)]⟩ generated (.obj []) =
          .moves r ⟨generated, [], Resolver.ofSourceMap map⟩ := by
  intro generated document r
  have hpath : hasScheme r = false := by decide
  obtain ⟨-, habsolute, hagain, -, hspelled⟩ := resolve_canonical hpath
  have hr : Path.isAbsolute r = true := habsolute (by decide)
  have hall : ∀ other, some other ∈ document.sources →
      Spells generated document.sourceRoot other r := by
    have hsources : ∀ source ∈ document.sources, ∀ other ∈ source,
        Spells generated document.sourceRoot other r := by decide
    exact fun other hother => hsources _ hother other rfl
  obtain ⟨hcount, hmoves⟩ := (hspelled generated).2 document _ rfl
    ⟨"a.ts", by decide, hall _ (by decide)⟩
  exact ⟨hpath, by decide, hr, hagain hr _ _, _, rfl, hcount, hmoves hall _ _ _ rfl⟩

end SourcePath

end CoverageLift
