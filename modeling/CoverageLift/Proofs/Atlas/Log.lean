import CoverageLift.Discovery.Register
import Mathlib.Data.List.TakeWhile
import CoverageLift.Proofs.Success

/-!
# Atlases and the logs of their operations

Callers register maps, remove all of them and ask for single ones, in any order, and a registration
may be rejected. The **log** is the list of what they did, and it alone says what the atlas answers:
the map of a path is that of the last accepted registration under its key behind the last clearing
(`latest?`), however the path was spelled.

One operation keeps an atlas at its log (`Records.perform`) and answers what the log says
(`Records.answer_eq`). From this, by induction over the operations, **every atlas stands at its log**
(`records_after`), and so do all the answers on the way.
-/

namespace CoverageLift

namespace Atlas

variable {ρ ε : Type}

/-! ### Operations -/

/-- What callers do with an atlas. -/
inductive Operation (ρ ε : Type)
  | register (path : GeneratedPath) (build : Text → Except ε ρ)
  | clear
  | lookup (path : GeneratedPath)
  | contains (path : GeneratedPath)
  | containsValue (v : Json)

/-- What an atlas answers. -/
inductive Answer (ρ ε : Type)
  | registered
  | rejected (error : ε)
  | cleared
  | found (map : Option ρ)
  | holds (b : Bool)

/-- The atlas and its answer after one operation. -/
def perform (atlas : Atlas ρ) : Operation ρ ε → Atlas ρ × Answer ρ ε
  | .register path build =>
    match atlas.register path build with
    | .ok registered => (registered, .registered)
    | .error error => (atlas, .rejected error)
  | .clear => (atlas.clear, .cleared)
  | .lookup path => (atlas, .found (atlas.lookup path))
  | .contains path => (atlas, .holds (atlas.contains path))
  | .containsValue v => (atlas, .holds (atlas.containsValue v))

/-- The atlas and its answers after a list of operations. -/
def run (atlas : Atlas ρ) : List (Operation ρ ε) → Atlas ρ × List (Answer ρ ε)
  | [] => (atlas, [])
  | op :: rest =>
    let (performed, answer) := atlas.perform op
    let (last, answers) := performed.run rest
    (last, answer :: answers)

/-- The atlas that a log leads to. -/
def after (log : List (Operation ρ ε)) : Atlas ρ := (run empty log).1

/-! ### What a log says -/

/-- Whether an operation removes all maps. -/
def Operation.clears : Operation ρ ε → Bool
  | clear => true
  | _ => false

/-- The map that an operation puts under a key, if it is an accepted registration under it. -/
def Operation.accepted? (key : Text) : Operation ρ ε → Option ρ
  | register path build => if path.key = key then (build key).toOption else none
  | _ => none

/-- The map of the last accepted registration under a key behind the last clearing. -/
def latest? (key : Text) (log : List (Operation ρ ε)) : Option ρ :=
  (log.reverse.takeWhile fun op => !op.clears).findSome? (Operation.accepted? key)

/-- What the log says that an operation behind it is answered. -/
def answer (log : List (Operation ρ ε)) : Operation ρ ε → Answer ρ ε
  | .register path build =>
    match build path.key with
    | .ok _ => .registered
    | .error error => .rejected error
  | .clear => .cleared
  | .lookup path => .found (latest? path.key log)
  | .contains path => .holds (latest? path.key log).isSome
  | .containsValue (.str t) => .holds (latest? t log).isSome
  | .containsValue _ => .holds false

theorem accepted?_eq_some_iff {key : Text} {op : Operation ρ ε} {map : ρ} :
    op.accepted? key = some map ↔
      ∃ path build, op = .register path build ∧ path.key = key ∧ build key = .ok map := by
  cases op with
  | register path build =>
    rw [Operation.accepted?]
    split
    · next hkey =>
      rw [toOption_eq_some_iff]
      refine ⟨fun h => ⟨path, build, rfl, hkey, h⟩, ?_⟩
      rintro ⟨_, _, heq, _, hbuild⟩
      obtain ⟨rfl, rfl⟩ := Operation.register.inj heq
      exact hbuild
    · next hkey =>
      refine iff_of_false (nomatch ·) ?_
      rintro ⟨_, _, heq, h, _⟩
      obtain ⟨rfl, rfl⟩ := Operation.register.inj heq
      exact hkey h
  | _ => exact iff_of_false (nomatch ·) fun ⟨_, _, h, _⟩ => nomatch h

/-- The latest map of a key is that of an accepted registration behind which nothing was removed and
no other registration under the key was accepted. -/
theorem latest?_eq_some_iff {key : Text} {log : List (Operation ρ ε)} {map : ρ} :
    latest? key log = some map ↔
      ∃ before path build behind, log = before ++ .register path build :: behind ∧
        path.key = key ∧ build key = .ok map ∧
        ∀ op ∈ behind, op.clears = false ∧ op.accepted? key = none := by
  rw [latest?, List.findSome?_eq_some_iff]
  constructor
  · rintro ⟨newer, op, older, hsplit, haccepted, hnone⟩
    obtain ⟨path, build, rfl, hkey, hbuild⟩ := accepted?_eq_some_iff.1 haccepted
    have hlog : log.reverse = _ ++ log.reverse.dropWhile fun op => !op.clears :=
      List.takeWhile_append_dropWhile.symm
    rw [hsplit, List.reverse_eq_iff, List.append_assoc, List.cons_append, List.reverse_append,
      List.reverse_cons, List.append_assoc, List.singleton_append] at hlog
    refine ⟨_, path, build, newer.reverse, hlog, hkey, hbuild, fun op hop => ?_⟩
    rw [List.mem_reverse] at hop
    have hkept : op ∈ log.reverse.takeWhile fun op => !op.clears :=
      hsplit ▸ List.mem_append_left _ hop
    exact ⟨by simpa using List.mem_takeWhile_imp hkept, hnone op hop⟩
  · rintro ⟨before, path, build, behind, rfl, hkey, hbuild, hbehind⟩
    refine ⟨behind.reverse, .register path build, before.reverse.takeWhile fun op => !op.clears, ?_,
      accepted?_eq_some_iff.2 ⟨path, build, rfl, hkey, hbuild⟩,
      fun op hop => (hbehind op (List.mem_reverse.1 hop)).2⟩
    rw [List.reverse_append, List.reverse_cons, List.append_assoc, List.singleton_append,
      List.takeWhile_append_of_pos, List.takeWhile_cons_of_pos rfl]
    exact fun op hop => by simp [(hbehind op (List.mem_reverse.1 hop)).1]

theorem latest?_append_clear (key : Text) (log : List (Operation ρ ε)) :
    latest? key (log ++ [.clear]) = none := by
  rw [latest?, List.reverse_append, List.reverse_singleton, List.singleton_append]
  rfl

/-- An operation that does not clear leaves the latest map of a key unless it puts one there. -/
theorem latest?_append {op : Operation ρ ε} (h : op.clears = false) (key : Text)
    (log : List (Operation ρ ε)) :
    latest? key (log ++ [op]) = (op.accepted? key).or (latest? key log) := by
  rw [latest?, List.reverse_append, List.reverse_singleton, List.singleton_append,
    List.takeWhile_cons_of_pos (by rw [h]; rfl), List.findSome?_cons]
  cases op.accepted? key <;> rfl

/-! ### An atlas at its log -/

/-- An atlas stands at a log: it has the latest map of each key, and no key twice. -/
structure Records (log : List (Operation ρ ε)) (atlas : Atlas ρ) : Prop where
  nodup : (OrderedMap.keys atlas.entries).Nodup
  lookup : ∀ path, atlas.lookup path = latest? path.key log

namespace Records

variable {log : List (Operation ρ ε)} {atlas : Atlas ρ}

theorem empty : Records ([] : List (Operation ρ ε)) (empty : Atlas ρ) :=
  ⟨List.nodup_nil, fun _ => rfl⟩

/-- An operation that puts nothing anywhere leaves an atlas at its log. -/
theorem append_of_unaccepted (h : Records log atlas) {op : Operation ρ ε} (hclears : op.clears = false)
    (hnone : ∀ key, op.accepted? key = none) : Records (log ++ [op]) atlas where
  nodup := h.nodup
  lookup path := by rw [latest?_append hclears, hnone, h.lookup, Option.none_or]

/-- One operation leads an atlas from its log to the log with that operation. -/
theorem perform (h : Records log atlas) (op : Operation ρ ε) :
    Records (log ++ [op]) (atlas.perform op).1 := by
  cases op with
  | register path build =>
    rw [Atlas.perform, Atlas.register]
    rcases hbuild : build path.key with error | map
    · refine h.append_of_unaccepted rfl fun key => ?_
      rw [Operation.accepted?]
      split
      · next hkey => rw [← hkey, hbuild]; rfl
      · rfl
    · refine ⟨OrderedMap.nodup_keys_insert h.nodup _ _, fun other => ?_⟩
      rw [latest?_append rfl, ← h.lookup, Operation.accepted?]
      show OrderedMap.get? (OrderedMap.insert atlas.entries path.key map) other.key = _
      rw [OrderedMap.get?_insert]
      split
      · next hkey => rw [← hkey, hbuild]; rfl
      · rfl
  | clear => exact ⟨List.nodup_nil, fun path => (latest?_append_clear path.key log).symm⟩
  | lookup | contains | containsValue => exact h.append_of_unaccepted rfl fun _ => rfl

/-- An atlas answers what its log says. -/
theorem answer_eq (h : Records log atlas) (op : Operation ρ ε) :
    (atlas.perform op).2 = answer log op := by
  cases op with
  | register path build =>
    rw [Atlas.perform, Atlas.register, answer]
    cases build path.key <;> rfl
  | clear => rfl
  | lookup path => exact congrArg Answer.found (h.lookup path)
  | contains path => exact congrArg (Answer.holds ·.isSome) (h.lookup path)
  | containsValue v =>
    cases v with
    | str t => exact congrArg (Answer.holds ·.isSome) (h.lookup (.text t))
    | _ => rfl

/-- A list of operations leads an atlas from its log to the log with those operations. -/
theorem run (ops : List (Operation ρ ε)) :
    ∀ {log : List (Operation ρ ε)} {atlas : Atlas ρ}, Records log atlas →
      Records (log ++ ops) (atlas.run ops).1 := by
  induction ops with
  | nil => exact fun {log} _ h => (List.append_nil log).symm ▸ h
  | cons op ops ih =>
    intro log atlas h
    rw [List.append_cons]
    exact ih (h.perform op)

/-- The answers to a list of operations are what the log says before each of them. -/
theorem getElem?_answers (op : Operation ρ ε) (behind before : List (Operation ρ ε)) :
    ∀ {log : List (Operation ρ ε)} {atlas : Atlas ρ}, Records log atlas →
      (atlas.run (before ++ op :: behind)).2[before.length]? = some (answer (log ++ before) op) := by
  induction before with
  | nil =>
    intro log atlas h
    rw [List.append_nil]
    exact congrArg some (h.answer_eq op)
  | cons first before ih =>
    intro log atlas h
    rw [List.append_cons log]
    exact ih (h.perform first)

end Records

/-- Every atlas stands at its log. -/
theorem records_after (log : List (Operation ρ ε)) : Records log (after log) :=
  Records.empty.run log

/-- A path is listed exactly when it has a map. -/
theorem mem_paths_iff (atlas : Atlas ρ) (t : Text) :
    t ∈ atlas.paths ↔ (atlas.lookup (.text t)).isSome = true := by
  rw [paths, Text.mem_sort, ← OrderedMap.contains_iff]
  rfl

theorem containsValue_iff (atlas : Atlas ρ) (v : Json) :
    atlas.containsValue v = true ↔
      ∃ t, v = .str t ∧ (atlas.lookup (.text t)).isSome = true := by
  cases v with
  | str t => exact ⟨fun h => ⟨t, rfl, h⟩, fun ⟨_, heq, h⟩ => Json.str.inj heq ▸ h⟩
  | _ => exact iff_of_false Bool.false_ne_true fun ⟨_, h, _⟩ => nomatch h

/-- **An atlas is a map in which the last write wins.** Whatever has been done with it, a path has
the map of the last accepted registration under its key behind the last clearing, and all answers on
the way were given from the log so far. A rejected registration leaves the atlas as it was. A value
is contained when it is a path with a map, and the listed paths are those with a map, in strictly
ascending order and as many as the atlas counts. -/
theorem after_last_write_wins (log : List (Operation ρ ε)) :
    (∀ path map, (after log).lookup path = some map ↔
      ∃ before path' build behind, log = before ++ .register path' build :: behind ∧
        path'.key = path.key ∧ build path.key = .ok map ∧
        ∀ op ∈ behind, op.clears = false ∧ op.accepted? path.key = none) ∧
    (∀ before op behind, log = before ++ op :: behind →
      (run empty log).2[before.length]? = some (answer before op)) ∧
    (∀ path (build : Text → Except ε ρ) error, build path.key = .error error →
      (after log).perform (.register path build) = (after log, .rejected error)) ∧
    (∀ path, (after log).contains path = ((after log).lookup path).isSome) ∧
    (∀ v, (after log).containsValue v = true ↔
      ∃ t, v = .str t ∧ ((after log).lookup (.text t)).isSome = true) ∧
    (after log).paths.Pairwise (· < ·) ∧
    (∀ t, t ∈ (after log).paths ↔ ((after log).lookup (.text t)).isSome = true) ∧
    (after log).size = (after log).paths.length := by
  have hrecords := records_after log
  refine ⟨fun path map => ?_, ?_, fun path build error herror => ?_, fun _ => rfl,
    containsValue_iff _, Text.pairwise_sort hrecords.nodup, mem_paths_iff _, ?_⟩
  · rw [hrecords.lookup, latest?_eq_some_iff]
  · rintro before op behind rfl
    exact Records.empty.getElem?_answers op behind before
  · rw [perform, register, herror]
    rfl
  · rw [paths, Text.length_sort, OrderedMap.keys, List.length_map]
    rfl

/-- Three registrations of one path, which is spelled in two ways: the first is removed, the second is
replaced and what would replace the third is no map. -/
theorem after_last_write_wins_of_spellings :
    let build (v : Json) (path : Text) : Except PayloadError (List Text) :=
      (SourceMap.ofPayload (.value v) path).map SourceMap.knownSources
    let document (source : Text) : Json :=
      .obj [("version", .int 3), ("sources", .arr [.str source]), ("mappings", .str "AAAA")]
    let log : List (Operation (List Text) PayloadError) :=
      [.register (.text "dist/a.js") (build (document "first.ts")), .clear,
        .register (.file (FilePath.ofText "dist//./a.js")) (build (document "second.ts")),
        .register (.text "dist/a.js") (build (document "third.ts"))]
    (after log).lookup (.file (FilePath.ofText "./dist/a.js")) = some [("dist/third.ts" : Text)] ∧
      (after log).contains (.text "./dist/a.js") = false ∧
      (after log).containsValue (.int 3) = false ∧
      (after log).perform (.register (.text "dist/a.js") (build .null)) =
        (after log, .rejected (.malformed .notObject)) ∧
      ("dist/a.js" : Text) ∈ (after log).paths ∧ (after log).paths.length = 1 := by
  intro build document log
  obtain ⟨hlookup, -, hrejected, hcontains, hvalue, -, hpaths, hsize⟩ := after_last_write_wins log
  refine ⟨(hlookup _ _).2 ⟨log.take 3, .text "dist/a.js", build (document "third.ts"), [], rfl, rfl,
    rfl, fun _ h => nomatch h⟩, ?_, ?_, hrejected _ _ _ rfl, (hpaths _).2 rfl, hsize.symm⟩
  · exact (hcontains _).trans rfl
  · exact Bool.eq_false_iff.2 fun h => nomatch (hvalue _).1 h

end Atlas

end CoverageLift
