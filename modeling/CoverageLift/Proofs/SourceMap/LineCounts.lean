import CoverageLift.Proofs.SourceMap.Legality
import Mathlib.Data.List.DropRight

/-!
# Line counts

The lines of a content are counted by cutting it at its line ends, after the white space at its end has
been taken off (`Trims`). A text has one line more than `LF`s (`length_lines`), and trimming goes well
with another spelling of the line ends (`WithReturns.trimEnd`), so a count sees neither that spelling nor
white space at the end (`Respells.countLines_eq`). A content belongs to the source in the same place of
the list (`HoldsAt`), and of several contents of one path the last one counts (`lastContent?_cases`).
Together: **a path has a line count exactly when a content belongs to it, and it is the count of the last
one** (`lastLine_counts`).
-/

namespace CoverageLift

/-! ### Lines of a text -/

namespace Text

theorem length_linesFrom (t : Text) :
    ∀ line, (linesFrom line t).length = count (.char '\n') t + 1 := by
  induction t with
  | nil => exact fun _ => rfl
  | cons c rest ih =>
    intro line
    rw [linesFrom, count, List.count_cons]
    split
    · next hline => rw [List.length_cons, ih, count, hline, beq_self_eq_true, if_pos rfl]
    · next hother =>
      rw [if_neg (mt eq_of_beq hother), Nat.add_zero]
      split
      · exact ih line
      · exact ih (c :: line)

/-- A text has one line more than `LF`s. -/
theorem length_lines (t : Text) : (lines t).length = count (.char '\n') t + 1 := length_linesFrom t []

/-- The second text is the first one with some of its `LF`s written as `CR LF`. -/
inductive WithReturns : Text → Text → Prop
  | nil : WithReturns [] []
  | keep (c : CodePoint) {t t' : Text} (h : WithReturns t t') : WithReturns (c :: t) (c :: t')
  | crlf {t t' : Text} (h : WithReturns t t') :
      WithReturns (.char '\n' :: t) (.char '\r' :: .char '\n' :: t')

variable {t t' : Text} {inClass : CodePoint → Bool}

theorem WithReturns.count_eq (h : WithReturns t t') :
    count (.char '\n') t' = count (.char '\n') t := by
  unfold count
  induction h with
  | nil => rfl
  | keep c h ih => rw [List.count_cons, List.count_cons, ih]
  | crlf h ih =>
    rw [List.count_cons_of_ne (by decide), List.count_cons_self, List.count_cons_self, ih]

theorem WithReturns.eq_nil_iff (h : WithReturns t t') : t' = [] ↔ t = [] := by
  cases h with
  | nil => exact Iff.rfl
  | _ => exact iff_of_false (List.cons_ne_nil _ _) (List.cons_ne_nil _ _)

/-- What is left of a text depends on whether anything is left behind its first code point. -/
theorem trimEnd_cons (c : CodePoint) (t : Text) :
    trimEnd inClass (c :: t) =
      if trimEnd inClass t = [] ∧ inClass c = true then [] else c :: trimEnd inClass t := by
  rw [trimEnd, trimEnd, List.reverse_cons, List.dropWhile_append]
  rcases hrest : t.reverse.dropWhile inClass with _ | ⟨d, rest⟩
  · by_cases hc : inClass c = true
    · simp [hc]
    · simp [hc]
  · simp

/-- Code points of the class behind a text do not matter. -/
theorem trimEnd_append {behind : Text} (h : ∀ c ∈ behind, inClass c = true) (t : Text) :
    trimEnd inClass (t ++ behind) = trimEnd inClass t := by
  rw [trimEnd, List.reverse_append, List.dropWhile_append_of_pos]
  · rfl
  · exact fun c hc => h c (List.mem_reverse.1 hc)

/-- What is left of a text when as many code points of a class as possible are taken from its end. -/
structure Trims (inClass : CodePoint → Bool) (t kept : Text) : Prop where
  behind : ∃ behind, t = kept ++ behind ∧ ∀ c ∈ behind, inClass c = true
  last : ∀ c ∈ kept.getLast?, inClass c = false

/-- Trimming leaves what is left, and nothing else is. -/
theorem trims_iff {kept : Text} : Trims inClass t kept ↔ kept = trimEnd inClass t := by
  have hdrop (t : Text) : trimEnd inClass t = t.rdropWhile inClass := rfl
  constructor
  · rintro ⟨⟨behind, rfl, hbehind⟩, hlast⟩
    rw [trimEnd_append hbehind, hdrop, eq_comm, List.rdropWhile_eq_self_iff]
    intro hne
    rw [hlast _ (List.getLast?_eq_some_getLast hne)]
    exact Bool.false_ne_true
  · rintro rfl
    refine ⟨⟨t.rtakeWhile inClass, List.rdropWhile_append_rtakeWhile.symm, fun c hc => ?_⟩,
      fun c hc => ?_⟩
    · exact List.mem_rtakeWhile_imp hc
    · obtain ⟨hne, rfl⟩ := List.mem_getLast?_eq_getLast hc
      exact Bool.of_not_eq_true (List.rdropWhile_last_not inClass t hne)

/-- A spelling of the line ends is one of what is left, when both parts of a line end are trimmed. -/
theorem WithReturns.trimEnd (hline : inClass (.char '\n') = true) (hreturn : inClass (.char '\r') = true)
    (h : WithReturns t t') : WithReturns (trimEnd inClass t) (Text.trimEnd inClass t') := by
  induction h with
  | nil => exact .nil
  | @keep c t t' h ih =>
    simp only [trimEnd_cons, ih.eq_nil_iff]
    split
    · exact .nil
    · exact .keep c ih
  | @crlf t t' h ih =>
    simp only [trimEnd_cons, ih.eq_nil_iff, hline, hreturn, and_true]
    by_cases hgone : Text.trimEnd inClass t = []
    · simpa [hgone] using WithReturns.nil
    · simpa [hgone] using WithReturns.crlf ih

end Text

namespace SourceMap

/-- The second content is the first one with some of its `LF`s written as `CR LF` and with white space
behind it. -/
def Respells (content content' : Text) : Prop :=
  ∃ t blanks, Text.WithReturns content t ∧ (∀ c ∈ blanks, CodePoint.isBlank c = true) ∧
    content' = t ++ blanks

theorem countLines_eq (content : Text) :
    countLines content = 1 + Text.count (.char '\n') (Text.trimEnd CodePoint.isBlank content) := by
  rw [countLines, Text.length_lines, Nat.add_comm]

/-- A count does not see how a content is spelled. -/
theorem Respells.countLines_eq {content content' : Text} (h : Respells content content') :
    countLines content' = countLines content := by
  obtain ⟨t, blanks, hreturns, hblanks, rfl⟩ := h
  rw [SourceMap.countLines_eq, SourceMap.countLines_eq, Text.trimEnd_append hblanks,
    (hreturns.trimEnd (by decide) (by decide)).count_eq]

/-! ### Contents of a path -/

/-- A content stands in the place of a source with the path. -/
def HoldsAt (sources contents : List (Option Text)) (path : Text) (i : Nat) (content : Text) : Prop :=
  sources[i]? = some (some path) ∧ contents[i]? = some (some content)

/-- The last content of a path. -/
def lastContent? (path : Text) : (sources contents : List (Option Text)) → Option Text
  | source :: sources, content :: contents =>
    (lastContent? path sources contents).or (if source = some path then content else none)
  | _, _ => none

/-- The line count of a path is that of its last content. -/
theorem get?_countContents (path : Text) (sources : List (Option Text)) :
    ∀ contents counts, OrderedMap.get? (countContents sources contents counts) path =
      ((lastContent? path sources contents).map countLines).or (OrderedMap.get? counts path) := by
  induction sources with
  | nil => exact fun _ _ => rfl
  | cons source sources ih =>
    intro contents counts
    rcases contents with _ | ⟨content, contents⟩
    · rfl
    · rw [lastContent?, Option.map_or, Option.or_assoc]
      refine (ih contents _).trans (congrArg _ ?_)
      match source, content with
      | none, _ => rfl
      | some known, none =>
        rw [ite_self]
        rfl
      | some known, some content =>
        dsimp only
        rw [OrderedMap.get?_insert]
        by_cases hknown : known = path
        · rw [if_pos hknown, if_pos (congrArg some hknown)]
          rfl
        · rw [if_neg hknown, if_neg (mt Option.some.inj hknown)]
          rfl

/-- The last content stands in the last place where there is one. -/
theorem lastContent?_cases (path : Text) (sources : List (Option Text)) :
    ∀ contents,
      (lastContent? path sources contents = none ∧
        ∀ i content, ¬ HoldsAt sources contents path i content) ∨
      ∃ i content, lastContent? path sources contents = some content ∧
        HoldsAt sources contents path i content ∧
        ∀ j other, HoldsAt sources contents path j other → j ≤ i := by
  induction sources with
  | nil => exact fun _ => .inl ⟨rfl, fun i content h => nomatch h.1⟩
  | cons source sources ih =>
    rintro (_ | ⟨content, contents⟩)
    · exact .inl ⟨rfl, fun i content h => nomatch h.2⟩
    · rw [lastContent?]
      obtain ⟨hnone, hrest⟩ | ⟨i, last, hsome, hholds, hlast⟩ := ih contents
      · -- only the first place can have a content
        have hfirst {i : Nat} {other : Text}
            (h : HoldsAt (source :: sources) (content :: contents) path i other) :
            i = 0 ∧ source = some path ∧ content = some other := by
          rcases i with _ | i
          · exact ⟨rfl, Option.some.inj h.1, Option.some.inj h.2⟩
          · exact absurd h (hrest i other)
        rw [hnone, Option.none_or]
        rcases hcontent : (if source = some path then content else none) with _ | other
        · refine .inl ⟨rfl, fun i other h => ?_⟩
          obtain ⟨-, hsource, hother⟩ := hfirst h
          rw [if_pos hsource, hother] at hcontent
          cases hcontent
        · split at hcontent
          · next hsource =>
            subst hsource hcontent
            exact .inr ⟨0, other, rfl, ⟨rfl, rfl⟩, fun j _ h => (hfirst h).1.le⟩
          · cases hcontent
      · refine .inr ⟨i + 1, last, by rw [hsome, Option.some_or], hholds, ?_⟩
        rintro (_ | j) other h
        · exact Nat.zero_le _
        · exact Nat.succ_le_succ (hlast j other h)

/-- Contents that are spelled in another way are counted like the others. -/
theorem countContents_of_respells {contents contents' : List (Option Text)}
    (h : List.Forall₂ (Option.Rel Respells) contents contents') :
    ∀ sources counts, countContents sources contents' counts =
      countContents sources contents counts := by
  induction h with
  | nil => exact fun _ _ => rfl
  | cons hcontent _ ih =>
    rintro (_ | ⟨source, sources⟩) counts
    · rfl
    · cases hcontent with
      | @some content content' hrespells =>
        rcases source with _ | path
        · exact ih sources counts
        · have hrest := ih sources (OrderedMap.insert counts path (countLines content'))
          exact hrest.trans (by rw [hrespells.countLines_eq, countContents])
      | none =>
        rcases source with _ | path
        · exact ih sources counts
        · exact ih sources counts

/-! ### Line counts of a map -/

variable {payload : Payload} {document : SourceMapDocument} {generated path : Text} {map : SourceMap}

/-- A document gives a content for a path in this place of its lists. -/
structure IsContent (document : SourceMapDocument) (generated path : Text) (i : Nat) (content : Text) :
    Prop where
  source : ∃ name, document.sources[i]? = some (some name) ∧
    SourcePath.resolve generated document.sourceRoot name = path
  content : (document.contents.getD [])[i]? = some (some content)

theorem isContent_iff {i : Nat} {content : Text} :
    IsContent document generated path i content ↔
      HoldsAt (document.sources.map (·.map (SourcePath.resolve generated document.sourceRoot)))
        (document.contents.getD []) path i content := by
  rw [HoldsAt, List.getElem?_map, Option.map_eq_some_iff]
  constructor
  · rintro ⟨⟨name, hname, rfl⟩, hcontent⟩
    exact ⟨⟨some name, hname, rfl⟩, hcontent⟩
  · rintro ⟨⟨source, hsource, hpath⟩, hcontent⟩
    obtain ⟨name, rfl, hname⟩ := Option.map_eq_some_iff.1 hpath
    exact ⟨⟨name, hsource, hname⟩, hcontent⟩

/-- A path has no content and no line count, or it has a last content and the line count of it. -/
theorem lastLine_cases (h : ofDocument document generated = .ok map) (path : Text) :
    (map.lastLine path = none ∧ ∀ i content, ¬ IsContent document generated path i content) ∨
      ∃ i content,
        map.lastLine path =
          some (1 + Text.count (.char '\n') (Text.trimEnd CodePoint.isBlank content)) ∧
        IsContent document generated path i content ∧
        ∀ j other, IsContent document generated path j other → j ≤ i := by
  simp only [isContent_iff, ← countLines_eq]
  rw [lastLine, lastLines_of_ofDocument h, get?_countContents, OrderedMap.get?_nil, Option.or_none,
    (exists_of_ofDocument h).1]
  obtain ⟨hnone, hempty⟩ | ⟨i, content, hsome, hholds⟩ := lastContent?_cases path
    (document.sources.map (·.map (SourcePath.resolve generated document.sourceRoot)))
    (document.contents.getD [])
  · exact .inl ⟨congrArg _ hnone, hempty⟩
  · exact .inr ⟨i, content, congrArg _ hsome, hholds⟩

/-- A place has one content. -/
theorem IsContent.eq {i : Nat} {content other : Text}
    (h : IsContent document generated path i content)
    (hother : IsContent document generated path i other) : content = other :=
  Option.some.inj (Option.some.inj (h.content.symm.trans hother.content))

/-- **A path has a line count exactly when there is a content for it**, and it is one more than the
number of `LF`s in the last of them, without the white space at its end. So the spelling of the line
ends and white space behind the contents change nothing about a map. -/
theorem lastLine_counts (h : ofPayload payload generated = .ok map) :
    ∃ document, payload.document? = some document ∧
      (∀ path, (map.lastLine path).isSome ↔ ∃ i content, IsContent document generated path i content) ∧
      (∀ path n, map.lastLine path = some n ↔
        ∃ i content kept, IsContent document generated path i content ∧
          (∀ j other, IsContent document generated path j other → j ≤ i) ∧
          Text.Trims CodePoint.isBlank content kept ∧ n = 1 + Text.count (.char '\n') kept) ∧
      ∀ contents, List.Forall₂ (Option.Rel Respells) (document.contents.getD []) contents →
        ofDocument { document with contents := some contents } generated = .ok map := by
  obtain ⟨document, hdocument, hmap⟩ := exists_document h
  refine ⟨document, hdocument, fun path => ?_, fun path n => ?_, fun contents hrespells => ?_⟩
  · obtain ⟨hnone, hempty⟩ | ⟨i, content, hsome, hcontent, -⟩ := lastLine_cases hmap path
    · rw [hnone]
      exact iff_of_false (nomatch ·) fun ⟨i, content, hcontent⟩ => hempty i content hcontent
    · rw [hsome]
      exact iff_of_true rfl ⟨i, content, hcontent⟩
  · obtain ⟨hnone, hempty⟩ | ⟨i, content, hsome, hcontent, hlast⟩ := lastLine_cases hmap path
    · rw [hnone]
      exact iff_of_false (nomatch ·) fun ⟨i, content, _, hcontent, _⟩ => hempty i content hcontent
    · rw [hsome, Option.some.injEq]
      constructor
      · rintro rfl
        exact ⟨i, content, _, hcontent, hlast, Text.trims_iff.2 rfl, rfl⟩
      · rintro ⟨j, other, kept, hother, hgreatest, htrims, rfl⟩
        obtain rfl := Text.trims_iff.1 htrims
        obtain rfl := Nat.le_antisymm (hlast j other hother) (hgreatest i content hcontent)
        rw [hcontent.eq hother]
  · rw [ofDocument] at hmap ⊢
    dsimp only [Option.getD_some]
    rwa [countContents_of_respells hrespells]

/-- A document with two spellings of one path, one source without a path and two without a content. -/
def twiceSpelled : SourceMapDocument where
  version := 3
  sources := [some "a.ts", none, some "./a.ts", some "b.ts", some "c.ts"]
  mappings := ""
  sourceRoot := none
  contents := some [some "", some "", some "1\n2\n", none]

/-- The last content of the path counts, also with other line ends and with white space behind it. -/
theorem lastLine_counts_of_twiceSpelled :
    ∃ payload map, ofPayload payload "a.js" = .ok map ∧ payload.document? = some twiceSpelled ∧
      map.lastLine "a.ts" = some 2 ∧ (∀ i content, ¬ IsContent twiceSpelled "a.js" "b.ts" i content) ∧
      ofDocument { twiceSpelled with
        contents := some [some "\n \n", some "", some "1\r\n2\r\n \n", none] } "a.js" = .ok map := by
  let payload : Payload := .value (.obj [("version", .int 3), ("mappings", .str ""),
    ("sources", .arr [.str "a.ts", .null, .str "./a.ts", .str "b.ts", .str "c.ts"]),
    ("sourcesContent", .arr [.str "", .str "", .str "1\n2\n", .null])])
  have hmap : ofPayload payload "a.js" = .ok _ := rfl
  obtain ⟨document, hdocument, hknown, hcount, hrespells⟩ := lastLine_counts hmap
  obtain rfl : twiceSpelled = document := Option.some.inj hdocument
  refine ⟨_, _, hmap, hdocument, (hcount "a.ts" 2).2 ⟨2, "1\n2\n", "1\n2", ?_, ?_,
    ⟨⟨"\n", rfl, by decide⟩, by decide⟩, by decide⟩, fun i content hother => ?_, hrespells _ ?_⟩
  · exact ⟨⟨"./a.ts", rfl, rfl⟩, rfl⟩
  · rintro (_ | _ | _ | _ | j) other hother
    · decide
    · decide
    · decide
    · cases hother.content
    · cases hother.content
  · cases (hknown "b.ts").2 ⟨i, content, hother⟩
  · refine .cons (.some ⟨"", "\n \n", .nil, by decide, rfl⟩) (.cons (.some ⟨"", "", .nil, by decide, rfl⟩)
      (.cons (.some ⟨"1\r\n2\r\n", " \n", ?_, by decide, rfl⟩) (.cons .none .nil)))
    exact .keep _ (.crlf (.keep _ (.crlf .nil)))

end SourceMap

end CoverageLift
