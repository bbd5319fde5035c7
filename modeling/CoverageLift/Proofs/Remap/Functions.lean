import CoverageLift.Proofs.Remap.Anchors
import CoverageLift.Proofs.Remap.Members

/-!
# Declarations and bodies of functions

A function has two ranges, and each of them may be missing, null or malformed by itself. Their parts
are not the same. The **declaration** decides whether the function is kept: it is the member `decl`,
and the member `loc` stands in for it only when `decl` is missing or null (`DeclaredAt`). The
**body** is `loc`, and the declaration stands in for it whenever `loc` cannot be lifted or has been
taken for the declaration (`BodyAt`). What is written and what the function is told by are these two
ranges (`liftFunction_ofFunction`).
-/

namespace CoverageLift

/-- An object whose members have the types that those of a function must have, as far as they are
given. -/
structure IsFunctionWith (raw : Json) (fields : OrderedMap Text Json) : Prop where
  object : raw = .obj fields
  plainKeys : ∀ key ∈ OrderedMap.keys fields, Text.hasSurrogate key = false
  name : ∀ v, IsGiven fields "name" v → ∃ t, v = .str t
  line : ∀ v, IsGiven fields "line" v → ∃ n, Lenient.int v = .ok n
  skip : ∀ v, IsGiven fields "skip" v → ∃ b, Lenient.bool v = .ok b

/-- The range that the declaration of a function is lifted to: that of `decl` if this is given, and
that of `loc` otherwise. -/
inductive DeclaredAt (lift : Range → Option Range) (fields : OrderedMap Text Json)
    (range : Range) : Prop
  | decl {v : Json} : IsGiven fields "decl" v → liftedRange? lift v = some range →
      DeclaredAt lift fields range
  | loc {v : Json} : (∀ decl, ¬ IsGiven fields "decl" decl) → IsGiven fields "loc" v →
      liftedRange? lift v = some range → DeclaredAt lift fields range

/-- The range of `loc` is lifted, and it is not that of the declaration. -/
def HasBody (lift : Range → Option Range) (fields : OrderedMap Text Json) (body : Range) : Prop :=
  (∃ decl, IsGiven fields "decl" decl) ∧
    ∃ loc, IsGiven fields "loc" loc ∧ liftedRange? lift loc = some body

/-- The range that the body of a function is lifted to: its own, or that of the declaration. -/
inductive BodyAt (lift : Range → Option Range) (fields : OrderedMap Text Json)
    (declaration : Range) : Range → Prop
  | own {body : Range} : HasBody lift fields body → BodyAt lift fields declaration body
  | declaration : (¬ ∃ body, HasBody lift fields body) → BodyAt lift fields declaration declaration

/-- A value whose start and end are those of a range. -/
def StandsAt (v : Json) (range : Range) : Prop :=
  OrderedMap.get? v.fieldsOrEmpty ("start" : Text) = some range.start.toJson ∧
    OrderedMap.get? v.fieldsOrEmpty ("end" : Text) = some range.stopOrStart.toJson

/-- What a function becomes whose declaration and body are known. -/
structure FunctionAt (fields : OrderedMap Text Json) (declaration body : Range)
    (kept : OrderedMap Text Json) : Prop where
  decl : ∀ decl, IsGiven fields "decl" decl →
    ∃ v, OrderedMap.get? kept ("decl" : Text) = some v ∧ StandsAt v declaration
  loc : ∃ v, OrderedMap.get? kept ("loc" : Text) = some v ∧ StandsAt v body
  line : OrderedMap.get? kept ("line" : Text) =
    (OrderedMap.get? fields ("line" : Text)).map fun _ => .int declaration.start.line

variable {lift : Range → Option Range} {raw : Json} {fields : OrderedMap Text Json}
  {declaration body : Range}

/-! ### The members of a function -/

theorem converts_iff {α : Type} {key : Text} {convert : Json → Except IssueKind α} :
    converts fields key convert = true ↔ ∀ v, IsGiven fields key v → ∃ a, convert v = .ok a := by
  rw [converts]
  split
  · next h => exact iff_of_true rfl fun v hv => absurd hv (present?_eq_none_iff.1 h v)
  · next v h =>
    have hgiven := present?_eq_some_iff.1 h
    have hok : (convert v).isOk = true ↔ ∃ a, convert v = .ok a := by
      cases convert v <;> simp [Except.isOk, Except.toBool]
    rw [hok]
    refine ⟨fun hconverts w hw => ?_, fun hall => hall v hgiven⟩
    obtain rfl := Option.some.inj (hgiven.1.symm.trans hw.1)
    exact hconverts

theorem isFunction_iff : isFunction fields = true ↔ IsFunctionWith (.obj fields) fields := by
  have htext : ∀ v : Json, (∃ t, Lenient.text v = .ok t) ↔ ∃ t, v = .str t := by
    intro v
    cases v <;> simp [Lenient.text]
  have hkeys : hasPlainKeys fields = true ↔
      ∀ key ∈ OrderedMap.keys fields, Text.hasSurrogate key = false := by
    simp [hasPlainKeys]
  simp only [isFunction, Bool.and_eq_true, hkeys, converts_iff, htext]
  exact ⟨fun ⟨⟨⟨hplain, hname⟩, hline⟩, hskip⟩ => ⟨rfl, hplain, hname, hline, hskip⟩,
    fun h => ⟨⟨⟨h.plainKeys, h.name⟩, h.line⟩, h.skip⟩⟩

/-! ### The two ranges -/

/-- The range of `loc`, lifted. -/
theorem bind_loc_eq_some_iff {range : Range} :
    ((present? fields "loc").bind Range.ofJson?).bind lift = some range ↔
      ∃ loc, IsGiven fields "loc" loc ∧ liftedRange? lift loc = some range := by
  rw [Option.bind_assoc, Option.bind_eq_some_iff]
  exact exists_congr fun _ => and_congr_left fun _ => present?_eq_some_iff

/-- The range of the declaration, lifted. -/
theorem bind_declaredRange?_eq_some_iff :
    (declaredRange? fields).bind lift = some declaration ↔ DeclaredAt lift fields declaration := by
  rw [declaredRange?]
  cases hdecl : present? fields "decl" with
  | some decl =>
    have hgiven := present?_eq_some_iff.1 hdecl
    refine ⟨fun h => .decl hgiven h, ?_⟩
    rintro (⟨hgiven', h⟩ | ⟨hnot, -, -⟩)
    · obtain rfl := Option.some.inj (hgiven.1.symm.trans hgiven'.1)
      exact h
    · exact absurd hgiven (hnot decl)
  | none =>
    have hnot := present?_eq_none_iff.1 hdecl
    refine bind_loc_eq_some_iff.trans ⟨fun ⟨v, hv, h⟩ => .loc hnot hv h, ?_⟩
    rintro (⟨hgiven, -⟩ | ⟨-, hv, h⟩)
    · exact absurd hgiven (hnot _)
    · exact ⟨_, hv, h⟩

/-- The range of the body, lifted, if it is not that of the declaration. -/
def ownBody? (lift : Range → Option Range) (fields : OrderedMap Text Json) : Option Range :=
  if (present? fields "decl").isSome then
    ((present? fields "loc").bind Range.ofJson?).bind lift else none

theorem ownBody?_eq_some_iff : ownBody? lift fields = some body ↔ HasBody lift fields body := by
  have hdecl : (present? fields "decl").isSome = true ↔ ∃ decl, IsGiven fields "decl" decl := by
    rw [Option.isSome_iff_exists]
    exact exists_congr fun _ => present?_eq_some_iff
  rw [ownBody?, Option.ite_none_right_eq_some, hdecl, bind_loc_eq_some_iff, HasBody]

theorem bodyAt_ownBody? :
    BodyAt lift fields declaration ((ownBody? lift fields).getD declaration) := by
  cases h : ownBody? lift fields with
  | some body => exact .own (ownBody?_eq_some_iff.1 h)
  | none =>
    exact .declaration fun ⟨body, hbody⟩ => nomatch h.symm.trans (ownBody?_eq_some_iff.2 hbody)

/-! ### Lifting -/

theorem standsAt_atRange (v : Json) (range : Range) : StandsAt (atRange v range) range := by
  refine ⟨?_, ?_⟩
  · rw [atRange, Json.fieldsOrEmpty, OrderedMap.get?_insert, if_neg (by decide),
      OrderedMap.get?_insert, if_pos rfl]
  · rw [atRange, Json.fieldsOrEmpty, OrderedMap.get?_insert, if_pos rfl]

theorem functionAt_functionObject :
    FunctionAt fields declaration body (functionObject fields declaration body).fieldsOrEmpty := by
  refine ⟨fun decl hdecl => ?_, ?_, ?_⟩
  · rw [get?_functionObject, if_neg (by decide), if_neg (by decide), if_pos rfl,
      present?_eq_some_iff.2 hdecl]
    exact ⟨_, rfl, standsAt_atRange decl declaration⟩
  · rw [get?_functionObject, if_neg (by decide), if_pos rfl]
    exact ⟨_, rfl, standsAt_atRange _ body⟩
  · rw [get?_functionObject, if_pos rfl]

/-- Nothing but a function is lifted. -/
theorem liftFunction_of_not_isFunctionWith (h : ¬ ∃ fields, IsFunctionWith raw fields) :
    liftFunction (RangeMap.ofFunction lift) raw = .ok none := by
  cases raw with
  | obj fields =>
    have hfunction : isFunction fields = false :=
      Bool.eq_false_iff.2 fun hfunction => h ⟨fields, isFunction_iff.1 hfunction⟩
    rw [liftFunction, hfunction]
    rfl
  | _ => rfl

/-- A function is lifted when its declaration is. -/
theorem liftFunction_of_isFunctionWith (h : IsFunctionWith raw fields) :
    liftFunction (RangeMap.ofFunction lift) raw =
      .ok (((declaredRange? fields).bind lift).map fun declaration =>
        let body := (ownBody? lift fields).getD declaration
        ⟨functionObject fields declaration body, .function declaration.key body.key⟩) := by
  obtain rfl := h.object
  have hdeclared := @RangeMap.ofFunction_range? lift (declaredRange? fields)
  rw [liftFunction, isFunction_iff.2 h]
  refine bind_eq_ok_iff.2 ⟨_, hdeclared, ?_⟩
  cases (declaredRange? fields).bind lift with
  | none => rfl
  | some declaration =>
    rw [ownBody?]
    dsimp only
    split
    · exact bind_eq_ok_iff.2 ⟨_, RangeMap.ofFunction_range? _, rfl⟩
    · rfl

/-- **How a function is lifted**, by a way to lift ranges that never fails. It is kept exactly when
it is an object with the members of a function and its declaration is lifted; a usable body does not
help when the declaration is given and cannot be lifted. Then a declaration that is given stands
where it was lifted to, the body stands where it was lifted to if it has a range of its own and
where the declaration stands in every other case, and a line is that where the declaration begins.
The function is told by these two ranges. -/
theorem liftFunction_ofFunction (lift : Range → Option Range) (raw : Json) :
    ∃ answer, liftFunction (RangeMap.ofFunction lift) raw = .ok answer ∧
      (answer.isSome = true ↔ ∃ fields declaration, IsFunctionWith raw fields ∧
        DeclaredAt lift fields declaration) ∧
      ∀ m, answer = some m → ∃ fields declaration body kept, IsFunctionWith raw fields ∧
        DeclaredAt lift fields declaration ∧ BodyAt lift fields declaration body ∧
        m.location = .obj kept ∧ FunctionAt fields declaration body kept ∧
        m.identity = .function declaration.key body.key := by
  by_cases h : ∃ fields, IsFunctionWith raw fields
  · obtain ⟨fields, h⟩ := h
    refine ⟨_, liftFunction_of_isFunctionWith h, ?_, ?_⟩
    · rw [Option.isSome_map, Option.isSome_iff_exists]
      refine ⟨fun ⟨declaration, hdeclared⟩ =>
        ⟨fields, declaration, h, bind_declaredRange?_eq_some_iff.1 hdeclared⟩, ?_⟩
      rintro ⟨other, declaration, hother, hdeclared⟩
      obtain rfl := Json.obj.inj (h.object.symm.trans hother.object)
      exact ⟨declaration, bind_declaredRange?_eq_some_iff.2 hdeclared⟩
    · intro m hm
      obtain ⟨declaration, hdeclared, rfl⟩ := Option.map_eq_some_iff.1 hm
      exact ⟨fields, declaration, _, _, h, bind_declaredRange?_eq_some_iff.1 hdeclared,
        bodyAt_ownBody?, rfl, functionAt_functionObject, rfl⟩
  · refine ⟨none, liftFunction_of_not_isFunctionWith h, ?_, fun _ hm => nomatch hm⟩
    exact ⟨fun hsome => (nomatch hsome), fun ⟨fields, _, hfunction, _⟩ =>
      absurd ⟨fields, hfunction⟩ h⟩

/-- A body without a usable start, and a line that is no number of the source. -/
example :
    let point : Json := .obj [("line", .int 4), ("column", .int 0)]
    let lift := fun (r : Range) => some { r with start := Point.plain 7 2, stop := none }
    (liftFunction (RangeMap.ofFunction lift) (.obj [("decl", .obj [("start", point)]),
        ("line", .null), ("loc", .obj [("end", point)])])).map (·.map (·.location)) =
      let lifted : Json := .obj [("line", .int 7), ("column", .int 2)]
      .ok (some (.obj [("decl", .obj [("start", lifted), ("end", lifted)]), ("line", .int 7),
        ("loc", .obj [("end", lifted), ("start", lifted)])])) := by
  rfl

end CoverageLift
