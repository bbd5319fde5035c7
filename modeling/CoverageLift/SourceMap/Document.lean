import CoverageLift.Json.Lenient

/-!
# Source map documents

The members of a source map document that matter here, checked and converted. Three of them are
required; two have a second name, which counts when the first is absent. Unknown members are
ignored, but for a key that is no text. All issues are reported, in the order in which the members are
listed here.
-/

namespace CoverageLift

/-- The checked members of a source map document. -/
structure SourceMapDocument where
  version : Int
  sources : List (Option Text)
  mappings : Text
  sourceRoot : Option Text
  /-- The contents of the sources, as far as they are given. -/
  contents : Option (List (Option Text))
  deriving DecidableEq

namespace SourceMapDocument

/-- The member under the first of its names that is there, with that name. -/
def member? (fields : OrderedMap Text Json) (names : List Text) : Option (Text × Json) :=
  names.findSome? fun name => (OrderedMap.get? fields name).map fun v => (name, v)

/-- A required member. -/
def required {α : Type} (fields : OrderedMap Text Json) (key : Text)
    (check : Json → Checked α) : Checked α :=
  match OrderedMap.get? fields key with
  | none => .error [⟨[key], .missing⟩]
  | some v => Checked.under key (check v)

/-- A member that may be absent or null, reported under the name that it has. -/
def optional {α : Type} (fields : OrderedMap Text Json) (names : List Text)
    (check : Json → Checked α) : Checked (Option α) :=
  match member? fields names with
  | none => .ok none
  | some (_, .null) => .ok none
  | some (name, v) => (Checked.under name (check v)).map some

/-- A check of a value as a whole. -/
def whole {α : Type} (check : Json → Except IssueKind α) (v : Json) : Checked α :=
  (check v).mapError fun kind => [⟨[], kind⟩]

/-- A list of texts and nulls. -/
def texts (v : Json) : Checked (List (Option Text)) :=
  match Lenient.list v with
  | .error kind => .error [⟨[], kind⟩]
  | .ok items => Checked.list (Lenient.optional Lenient.text) 0 items

/-- A list that is present holds anything; null is no list. -/
def anyList (fields : OrderedMap Text Json) (key : Text) : Checked Unit :=
  match OrderedMap.get? fields key with
  | none => .ok ()
  | some v => Checked.located key ((Lenient.list v).map fun _ => ())

/-- The document that the members of an object describe. -/
def ofFields (fields : OrderedMap Text Json) : Checked SourceMapDocument :=
  let version := required fields "version" (whole Lenient.int)
  let sources := required fields "sources" texts
  let mappings := required fields "mappings" (whole Lenient.text)
  let names := anyList fields "names"
  let file := optional fields ["file"] (whole Lenient.text)
  let root := optional fields ["sourceRoot", "source_root"] (whole Lenient.text)
  let contents := optional fields ["sourcesContent", "sources_content"] texts
  let all := version.both (sources.both (mappings.both (names.both (file.both (root.both contents)))))
  (Checked.keyed (OrderedMap.keys fields) all).map
    fun (version, sources, mappings, _, _, sourceRoot, contents) =>
      { version, sources, mappings, sourceRoot, contents }

end SourceMapDocument

end CoverageLift
