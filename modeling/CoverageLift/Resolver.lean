import CoverageLift.SourceMap.Basic

/-!
# Resolvers

Remapping asks a resolver three things: where a generated position comes from, which sources it
knows, and how many lines a source has. A source map is one resolver; a table of known positions is
another. A resolver may fail. Most kinds of failure mean that it cannot answer for that position;
the remaining kind is a fault of the resolver itself.
-/

namespace CoverageLift

/-- Kinds of failure of a resolver. -/
inductive FailureKind
  | invalidValue
  | wrongType
  | badIndex
  | missingKey
  | internal
  deriving DecidableEq, Repr

/-- A failure of a resolver. -/
structure ResolverFailure where
  kind : FailureKind
  message : Text
  deriving DecidableEq, Repr

/-- Whether a failure only means that the position has no answer. -/
def ResolverFailure.isRecoverable (f : ResolverFailure) : Bool := f.kind ≠ .internal

/-- What answers for the positions of one generated file. -/
structure Resolver where
  /-- Where a generated line (from one) and column (from zero) come from. -/
  resolve : Int → Int → Except ResolverFailure (Option Position)
  /-- The paths of the known sources, each one once. -/
  knownSources : List Text
  /-- The number of lines of a source, if it is known. -/
  lastLine : Text → Option Int

namespace Resolver

/-- A source map as a resolver. It never fails. -/
def ofSourceMap (map : SourceMap) : Resolver where
  resolve line column := .ok (map.resolve line column)
  knownSources := map.knownSources
  lastLine source := (map.lastLine source).map Int.ofNat

/-- A resolver that knows the answers for single positions. -/
def ofTable (sources : List Text) (points : OrderedMap (Int × Int) (Except ResolverFailure Position))
    (lastLines : OrderedMap Text Int) : Resolver where
  resolve line column :=
    match OrderedMap.get? points (line, column) with
    | none => .ok none
    | some answer => answer.map some
  knownSources := sources.eraseDups
  lastLine := OrderedMap.get? lastLines

/-- The only source that a resolver knows, if it is the only one. -/
def onlySource? (r : Resolver) : Option Text :=
  match r.knownSources with
  | [source] => some source
  | _ => none

end Resolver

end CoverageLift
