import CoverageLift.Text.Digits

/-!
# Validation issues

Checking a document collects every issue: where it lies, as the path of keys and indices that leads
there, and what kind it is. The kinds have stable codes.
-/

namespace CoverageLift

/-- What is wrong with a part of a document. -/
inductive IssueKind
  | missing
  | intType
  | intParsing
  | intFromFloat
  | intParsingSize
  | finiteNumber
  | stringType
  | stringUnicode
  | listType
  | boolType
  | boolParsing
  | pathType
  | modelType
  | extraForbidden
  | invalidKey
  | valueError
  deriving DecidableEq, Repr

/-- The code of a kind of issue. -/
def IssueKind.code : IssueKind → Text
  | missing => "missing"
  | intType => "int_type"
  | intParsing => "int_parsing"
  | intFromFloat => "int_from_float"
  | intParsingSize => "int_parsing_size"
  | finiteNumber => "finite_number"
  | stringType => "string_type"
  | stringUnicode => "string_unicode"
  | listType => "list_type"
  | boolType => "bool_type"
  | boolParsing => "bool_parsing"
  | pathType => "path_type"
  | modelType => "model_type"
  | extraForbidden => "extra_forbidden"
  | invalidKey => "invalid_key"
  | valueError => "value_error"

/-- A fault of a document at the end of a path of keys and indices. -/
structure Issue where
  location : List Text
  kind : IssueKind
  deriving DecidableEq, Repr

/-- The checked parts of a document: values, or the issues of all parts together. -/
abbrev Checked (α : Type) := Except (List Issue) α

namespace Checked

/-- The value of a part that stands at `key`. -/
def located (key : Text) {α : Type} (outcome : Except IssueKind α) : Checked α :=
  outcome.mapError fun kind => [⟨[key], kind⟩]

/-- The part with `key` in front of the locations of its issues. -/
def under (key : Text) {α : Type} (part : Checked α) : Checked α :=
  part.mapError fun issues => issues.map fun issue => { issue with location := key :: issue.location }

/-- Two parts together; the issues of both are kept. -/
def both {α β : Type} : Checked α → Checked β → Checked (α × β)
  | .ok a, .ok b => .ok (a, b)
  | .ok _, .error issues => .error issues
  | .error issues, .ok _ => .error issues
  | .error first, .error second => .error (first ++ second)

/-- A part that is an object with these keys. A key with a lone surrogate makes the object unreadable
as a whole, and that is the only issue then. -/
def keyed {α : Type} (keys : List Text) (part : Checked α) : Checked α :=
  if keys.any Text.hasSurrogate then .error [⟨[], .stringUnicode⟩] else part

/-- The items of a list, each checked by itself and located by its index. -/
def list {α β : Type} (check : α → Except IssueKind β) : (index : Nat) → List α → Checked (List β)
  | _, [] => .ok []
  | index, a :: rest =>
    (both (located (Text.ofNat index) (check a)) (list check (index + 1) rest)).map fun (b, bs) => b :: bs

end Checked

/-- The message that a document of the given kind has issues. -/
def issueCount (document : Text) (issues : List Issue) : Text :=
  Text.ofNat issues.length
    ++ (if issues.length = 1 then (" validation error for " : Text) else " validation errors for ")
    ++ document

end CoverageLift
