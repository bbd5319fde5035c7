import CoverageLift.Proofs.Remap.Batches

/-!
# Remapping again

A report is **at rest** under an atlas when none of its files moves, and then remapping leaves it as
it is, down to the order of its files (`remap_of_isAtRest`). What remapping leaves are files that
stayed and destinations, so it brings a report to rest unless a destination moves on
(`isAtRest_remap`). In a settled atlas, where no map leads to a path from which another map leads
away, **remapping again changes nothing** (`remap_remap_of_isSettled`).
-/

namespace CoverageLift

/-- No map leads on: the only source of a map has no map with an only source. -/
def Atlas.IsSettled (atlas : Atlas Resolver) : Prop :=
  ∀ path resolver destination, atlas.lookup path = some resolver →
    resolver.onlySource? = some destination →
      (atlas.lookup (.text destination)).bind Resolver.onlySource? = none

/-- No file of the report moves. -/
def Report.IsAtRest (atlas : Atlas Resolver) (report : Report) : Prop :=
  ∀ file ∈ report, destinationOf? atlas file = none

variable {atlas : Atlas Resolver} {enforceBounds : Bool} {report : Report}

/-- What is at rest stays, and there is no destination. -/
theorem Report.IsAtRest.stayingOf (h : report.IsAtRest atlas) :
    CoverageLift.stayingOf atlas report = report := by
  rw [stayingOf_eq_filter, List.filter_eq_self]
  exact fun file hfile => Option.isNone_iff_eq_none.2 (h file hfile)

theorem Report.IsAtRest.pendingOf (h : report.IsAtRest atlas) :
    CoverageLift.pendingOf atlas report = [] := by
  rw [← List.map_eq_nil_iff (f := Prod.fst)]
  show OrderedMap.keys _ = []
  rw [keys_pendingOf, destinationsOf, List.filterMap_eq_nil_iff.2 h]
  rfl

/-- Remapping leaves a report at rest as it is and does not fail. -/
theorem remap_of_isAtRest (h : report.IsAtRest atlas) :
    remap atlas enforceBounds report = ⟨report, bundleNotices atlas report, none⟩ := by
  rw [remap, h.pendingOf, h.stayingOf, assembleAll, List.append_nil]

/-- Remapping brings a report to rest when no destination moves on. -/
theorem isAtRest_remap (h : ∀ destination ∈ destinationsOf atlas report,
      (atlas.lookup (.text destination)).bind Resolver.onlySource? = none) :
    (remap atlas enforceBounds report).report.IsAtRest atlas := by
  intro file hfile
  refine Option.eq_none_iff_forall_ne_some.2 fun destination => ?_
  refine destinationOf?_ne_of_mem_remap (fun other hother => ?_) hfile
  rw [h other hother]
  exact nofun

/-- In a settled atlas no destination moves on. -/
theorem Atlas.IsSettled.onlySource?_eq_none (h : atlas.IsSettled) {destination : Text}
    (hdestination : destination ∈ destinationsOf atlas report) :
    (atlas.lookup (.text destination)).bind Resolver.onlySource? = none := by
  obtain ⟨file, -, hmoves⟩ := List.mem_filterMap.1 (List.mem_eraseDups.1 hdestination)
  obtain ⟨resolver, hlookup, honly⟩ := Option.bind_eq_some_iff.1 (onlySource?_of_destinationOf? hmoves)
  exact h _ _ _ hlookup honly

/-- **Remapping again changes nothing** in a settled atlas, whatever the report holds: it succeeds and
returns the files as they are, in the same order. This is so with the bounds of lines enforced in
either run or not, and also for what is left of a report on which the first run failed. -/
theorem remap_remap_of_isSettled (h : atlas.IsSettled) (first again : Bool) (report : Report) :
    let once := (remap atlas first report).report
    (remap atlas again once).report = once ∧ (remap atlas again once).error = none := by
  intro once
  have hrest : once.IsAtRest atlas := isAtRest_remap fun _ hmem => h.onlySource?_eq_none hmem
  rw [remap_of_isAtRest hrest]
  exact ⟨rfl, rfl⟩

/-- A destination with coverage and a map of two sources, one that was no coverage and receives nothing,
one that is new, a bundle and a value that is no coverage although its path has a map. -/
theorem remap_remap_of_isSettled_of_bundles :
    let bundle : Resolver := .ofTable ["a.ts", "b.ts"] [] []
    let atlas : Atlas Resolver := ⟨[("a.js", .copyOf "a.ts"), ("b.js", .copyOf "b.ts"),
      ("c.js", .copyOf "c.ts"), ("d.js", .copyOf "c.ts"), ("a.ts", bundle), ("e.js", bundle)]⟩
    let report : Report := [("c.js", .obj (statementsOn [("0", 3)])),
      ("a.js", .obj (statementsOn [("0", 1)])), ("a.ts", .obj (statementsOn [("0", 2)])),
      ("b.ts", .int 5), ("b.js", .obj []), ("e.js", .obj []), ("d.js", .null)]
    let once := (remap atlas true report).report
    atlas.IsSettled ∧ OrderedMap.keys once = ["a.ts", "e.js", "d.js", "c.ts"] ∧
      (remap atlas true once).report = once ∧ (remap atlas true once).error = none := by
  intro bundle atlas report once
  have hentries : ∀ entry ∈ atlas.entries,
      (entry.2.onlySource?.bind fun d => atlas.lookup (.text d)).bind Resolver.onlySource? = none := by
    decide
  have hsettled : atlas.IsSettled := by
    intro path resolver destination hlookup honly
    have hentry := hentries _ (OrderedMap.mem_of_get?_eq_some hlookup)
    rwa [honly, Option.bind_some] at hentry
  exact ⟨hsettled, rfl, remap_remap_of_isSettled hsettled true true report⟩

end CoverageLift
