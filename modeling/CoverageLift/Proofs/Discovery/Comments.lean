import CoverageLift.Discovery.Extract
import CoverageLift.FileTree
import CoverageLift.Proofs.Text.Encodings
import Mathlib.Data.List.TakeWhile

/-!
# The last comment of a file

A comment that may name a map is given by a grammar here (`IsComment`): a label, a URL and gaps that
fill the line up to its end. The search takes the last place where a comment begins; a reader that
goes through the text from left to right (`Scan`) skips every comment that it finds. **The two come
to the same URL** (`lastUrl?_of_scan`), as no comment begins inside another one: the label of the
second would have to begin in the URL of the first, where no gap is, and between the gap behind that
URL and the end of the line there is no room for the rest of a label.

So whatever stands in a file, a comment at its end is found (`lastUrl?_append_comment`), and if it
holds a map, as base64 or as percent escapes, the map is recovered code point by code point.
-/

namespace CoverageLift

/-! ### Longest runs -/

namespace Text

variable {p : CodePoint → Bool} {run rest t : Text}

/-- A run that the rest does not go on with is the longest one. -/
theorem takeWhile_append_of_stop (hrun : ∀ c ∈ run, p c = true)
    (hrest : ∀ c ∈ rest.head?, p c = false) : (run ++ rest).takeWhile p = run := by
  rw [List.takeWhile_append_of_pos hrun]
  cases rest with
  | nil => exact List.append_nil run
  | cons c rest => rw [List.takeWhile_cons, hrest c rfl]; exact List.append_nil run

theorem dropWhile_append_of_stop (hrun : ∀ c ∈ run, p c = true)
    (hrest : ∀ c ∈ rest.head?, p c = false) : (run ++ rest).dropWhile p = rest := by
  rw [List.dropWhile_append_of_pos hrun]
  cases rest with
  | nil => rfl
  | cons c rest => rw [List.dropWhile_cons, hrest c rfl]; rfl

/-- A text is its longest run and a rest that does not go on with it. -/
theorem exists_run (p : CodePoint → Bool) (t : Text) :
    ∃ run rest, t = run ++ rest ∧ t.takeWhile p = run ∧ t.dropWhile p = rest ∧
      (∀ c ∈ run, p c = true) ∧ ∀ c ∈ rest.head?, p c = false := by
  refine ⟨_, _, List.takeWhile_append_dropWhile.symm, rfl, rfl, fun c => List.mem_takeWhile_imp,
    fun c hc => ?_⟩
  have hstop := List.head?_dropWhile_not p t
  rw [hc] at hstop
  exact hstop

end Text

namespace MapComment

variable {t url rest label gap trail comment : Text} {found : Option Text}

/-! ### The grammar of a comment -/

/-- The name in front of a URL. -/
def name : Text := "sourceMappingURL="

/-- A text of gaps. -/
def IsGaps (t : Text) : Prop := ∀ c ∈ t, isGap c = true

/-- A text that begins where a line ends. -/
def BeginsAtLineEnd (t : Text) : Prop := ∀ c ∈ t.head?, c = .char '\n'

/-- What stands in front of a URL: a mark, a gap and the name. -/
inductive IsLabel : Text → Prop
  | intro {mark : CodePoint} {gap : Text} (hmark : mark = .char '#' ∨ mark = .char '@')
      (hne : gap ≠ []) (hgap : IsGaps gap) : IsLabel (mark :: (gap ++ name))

/-- A comment with the URL `url` in front of `rest`. -/
inductive IsComment (rest : Text) : (comment url : Text) → Prop
  /-- A line comment. -/
  | line {label url trail : Text} (hlabel : IsLabel label) (hne : url ≠ [])
      (hurl : ∀ c ∈ url, isLineUrlPart c = true) (htrail : IsGaps trail)
      (hrest : BeginsAtLineEnd rest) :
      IsComment rest (.char '/' :: .char '/' :: (label ++ (url ++ trail))) url
  /-- A block comment. -/
  | block {label url gap trail : Text} (hlabel : IsLabel label) (hne : url ≠ [])
      (hurl : ∀ c ∈ url, isBlockUrlPart c = true) (hgap : IsGaps gap) (htrail : IsGaps trail)
      (hrest : BeginsAtLineEnd rest) :
      IsComment rest
        (.char '/' :: .char '*' :: (label ++ (url ++ (gap ++ (("*/" : Text) ++ trail))))) url

theorem isBlank_of_isGap {c : CodePoint} (h : isGap c = true) : c.isBlank = true := by
  rw [isGap, Bool.or_eq_true, decide_eq_true_eq, decide_eq_true_eq] at h
  rcases h with rfl | rfl <;> rfl

theorem isBlank_of_isLineUrlPart {c : CodePoint} (h : isLineUrlPart c = true) :
    c.isBlank = false := by
  simp only [isLineUrlPart, Bool.and_eq_true, Bool.not_eq_true'] at h
  exact h.1.1.1

theorem isBlank_of_isBlockUrlPart {c : CodePoint} (h : isBlockUrlPart c = true) :
    c.isBlank = false := by
  simp only [isBlockUrlPart, Bool.and_eq_true, Bool.not_eq_true'] at h
  exact h.1

theorem isLineUrlPart_of_isBlank {c : CodePoint} (h : c.isBlank = true) :
    isLineUrlPart c = false := by
  rw [isLineUrlPart, h]
  rfl

theorem isBlockUrlPart_of_isBlank {c : CodePoint} (h : c.isBlank = true) :
    isBlockUrlPart c = false := by
  rw [isBlockUrlPart, h]
  rfl

/-- No gap stands at the end of a line. -/
theorem BeginsAtLineEnd.isGap (h : BeginsAtLineEnd rest) :
    ∀ c ∈ rest.head?, isGap c = false := by
  intro c hc
  obtain rfl := h c hc
  rfl

theorem isBlank_of_mem_head?_gap (hne : gap ≠ []) (hgap : IsGaps gap) :
    ∀ c ∈ (gap ++ rest).head?, c.isBlank = true := by
  obtain ⟨g, gap, rfl⟩ := List.exists_cons_of_ne_nil hne
  rintro _ ⟨⟩
  exact isBlank_of_isGap (hgap _ List.mem_cons_self)

/-- Gaps up to the end of a line are blank. -/
theorem isBlank_of_mem_head?_trail (htrail : IsGaps trail) (hrest : BeginsAtLineEnd rest) :
    ∀ c ∈ (trail ++ rest).head?, c.isBlank = true := by
  by_cases hne : trail = []
  · subst hne
    intro c hc
    obtain rfl := hrest c hc
    rfl
  · exact isBlank_of_mem_head?_gap hne htrail

theorem isGap_of_mem_head?_name : ∀ c ∈ (name ++ rest).head?, isGap c = false := by
  intro c hc
  obtain rfl : .char 's' = c := Option.some.inj hc
  rfl

theorem eq_of_mem_head?_close : ∀ c ∈ (("*/" : Text) ++ rest).head?, c = .char '*' :=
  fun _ hc => (Option.some.inj hc).symm

theorem isGap_of_mem_head?_close : ∀ c ∈ (("*/" : Text) ++ rest).head?, isGap c = false := by
  intro c hc
  obtain rfl := eq_of_mem_head?_close c hc
  rfl

theorem endsLine_iff :
    endsLine t = true ↔ ∃ trail rest, t = trail ++ rest ∧ IsGaps trail ∧ BeginsAtLineEnd rest := by
  constructor
  · intro h
    obtain ⟨trail, rest, ht, -, hdrop, htrail, -⟩ := Text.exists_run isGap t
    refine ⟨trail, rest, ht, htrail, fun c hc => ?_⟩
    rw [endsLine, hdrop] at h
    rcases rest with _ | ⟨d, rest⟩
    · cases hc
    · obtain rfl := Option.some.inj hc
      exact of_decide_eq_true h
  · rintro ⟨trail, rest, rfl, htrail, hrest⟩
    rw [endsLine, Text.dropWhile_append_of_stop htrail hrest.isGap]
    rcases rest with _ | ⟨d, rest⟩
    · rfl
    · exact decide_eq_true (hrest d rfl)

theorem afterName?_eq_some_iff :
    afterName? t = some rest ↔ ∃ label, IsLabel label ∧ t = label ++ rest := by
  constructor
  · intro h
    rcases t with _ | ⟨mark, _ | ⟨g, behind⟩⟩
    · cases h
    · cases h
    · rw [afterName?] at h
      split at h
      · next hmark =>
        obtain ⟨gap, tail, rfl, -, hdrop, hgap, -⟩ := Text.exists_run isGap behind
        rw [hdrop, Text.after?_eq_some_iff] at h
        subst h
        refine ⟨mark :: (g :: gap ++ name),
          .intro hmark.1 (List.cons_ne_nil _ _) (List.forall_mem_cons.2 ⟨hmark.2, hgap⟩), ?_⟩
        simp [name]
      · cases h
  · rintro ⟨_, ⟨hmark, hne, hgap⟩, rfl⟩
    next mark gap =>
    obtain ⟨g, gap, rfl⟩ := List.exists_cons_of_ne_nil hne
    obtain ⟨hg, hgap⟩ := List.forall_mem_cons.1 hgap
    have hdrop : (gap ++ (name ++ rest)).dropWhile isGap = name ++ rest :=
      Text.dropWhile_append_of_stop hgap isGap_of_mem_head?_name
    rw [List.cons_append, List.cons_append, List.cons_append, List.append_assoc, afterName?,
      if_pos ⟨hmark, hg⟩, hdrop]
    exact Text.after?_eq_some_iff.2 rfl

theorem takeUrl?_eq_some_iff {isPart : CodePoint → Bool} :
    takeUrl? isPart t = some (url, rest) ↔
      t = url ++ rest ∧ url ≠ [] ∧ (∀ c ∈ url, isPart c = true) ∧
        ∀ c ∈ rest.head?, isPart c = false := by
  constructor
  · intro h
    obtain ⟨run, tail, ht, htake, hdrop, hrun, htail⟩ := Text.exists_run isPart t
    rw [takeUrl?, htake, hdrop] at h
    split at h
    · cases h
    · next hne =>
      obtain ⟨rfl, rfl⟩ := Prod.mk.inj (Option.some.inj h)
      exact ⟨ht, hne, hrun, htail⟩
  · rintro ⟨rfl, hne, hurl, hrest⟩
    rw [takeUrl?, Text.takeWhile_append_of_stop hurl hrest,
      Text.dropWhile_append_of_stop hurl hrest]
    obtain ⟨c, url, rfl⟩ := List.exists_cons_of_ne_nil hne
    rfl

theorem lineUrl?_eq_some_iff :
    lineUrl? t = some url ↔ ∃ label trail rest, t = label ++ (url ++ (trail ++ rest)) ∧
      IsLabel label ∧ url ≠ [] ∧ (∀ c ∈ url, isLineUrlPart c = true) ∧ IsGaps trail ∧
      BeginsAtLineEnd rest := by
  constructor
  · intro hcomment
    obtain ⟨tail, htail, hbehind⟩ := Option.bind_eq_some_iff.1 hcomment
    obtain ⟨label, hlabel, rfl⟩ := afterName?_eq_some_iff.1 htail
    obtain ⟨⟨url', behind⟩, htake, hlast⟩ := Option.bind_eq_some_iff.1 hbehind
    obtain ⟨rfl, hne, hurl, -⟩ := takeUrl?_eq_some_iff.1 htake
    obtain ⟨hend, ⟨⟩⟩ := Option.ite_none_right_eq_some.1 hlast
    obtain ⟨trail, rest, rfl, htrail, hrest⟩ := endsLine_iff.1 hend
    exact ⟨label, trail, rest, rfl, hlabel, hne, hurl, htrail, hrest⟩
  · rintro ⟨label, trail, rest, rfl, hlabel, hne, hurl, htrail, hrest⟩
    have htake : takeUrl? isLineUrlPart (url ++ (trail ++ rest)) = some (url, trail ++ rest) :=
      takeUrl?_eq_some_iff.2 ⟨rfl, hne, hurl, fun c hc =>
        isLineUrlPart_of_isBlank (isBlank_of_mem_head?_trail htrail hrest c hc)⟩
    have hend : endsLine (trail ++ rest) = true :=
      endsLine_iff.2 ⟨trail, rest, rfl, htrail, hrest⟩
    exact Option.bind_eq_some_iff.2 ⟨_, afterName?_eq_some_iff.2 ⟨label, hlabel, rfl⟩,
      Option.bind_eq_some_iff.2 ⟨_, htake, if_pos hend⟩⟩

theorem blockUrl?_eq_some_iff :
    blockUrl? t = some url ↔ ∃ label gap trail rest,
      t = label ++ (url ++ (gap ++ (("*/" : Text) ++ (trail ++ rest)))) ∧ IsLabel label ∧ url ≠ [] ∧
        (∀ c ∈ url, isBlockUrlPart c = true) ∧ IsGaps gap ∧ IsGaps trail ∧
        BeginsAtLineEnd rest := by
  constructor
  · intro hcomment
    obtain ⟨tail, htail, hbehind⟩ := Option.bind_eq_some_iff.1 hcomment
    obtain ⟨label, hlabel, rfl⟩ := afterName?_eq_some_iff.1 htail
    obtain ⟨⟨url', closed⟩, htake, hclosed⟩ := Option.bind_eq_some_iff.1 hbehind
    obtain ⟨rfl, hne, hurl, -⟩ := takeUrl?_eq_some_iff.1 htake
    obtain ⟨gap, closing, rfl, -, hdrop, hgap, -⟩ := Text.exists_run isGap closed
    obtain ⟨behind, hclosing, hlast⟩ := Option.bind_eq_some_iff.1 hclosed
    rw [hdrop, Text.after?_eq_some_iff] at hclosing
    subst hclosing
    obtain ⟨hend, ⟨⟩⟩ := Option.ite_none_right_eq_some.1 hlast
    obtain ⟨trail, rest, rfl, htrail, hrest⟩ := endsLine_iff.1 hend
    exact ⟨label, gap, trail, rest, rfl, hlabel, hne, hurl, hgap, htrail, hrest⟩
  · rintro ⟨label, gap, trail, rest, rfl, hlabel, hne, hurl, hgap, htrail, hrest⟩
    have htake : takeUrl? isBlockUrlPart (url ++ (gap ++ (("*/" : Text) ++ (trail ++ rest)))) =
        some (url, gap ++ (("*/" : Text) ++ (trail ++ rest))) := by
      refine takeUrl?_eq_some_iff.2 ⟨rfl, hne, hurl, fun c hc => ?_⟩
      by_cases hnil : gap = []
      · subst hnil
        obtain rfl := eq_of_mem_head?_close c hc
        rfl
      · exact isBlockUrlPart_of_isBlank (isBlank_of_mem_head?_gap hnil hgap c hc)
    have hdrop : (gap ++ (("*/" : Text) ++ (trail ++ rest))).dropWhile isGap =
        ("*/" : Text) ++ (trail ++ rest) :=
      Text.dropWhile_append_of_stop hgap isGap_of_mem_head?_close
    have hend : endsLine (trail ++ rest) = true :=
      endsLine_iff.2 ⟨trail, rest, rfl, htrail, hrest⟩
    refine Option.bind_eq_some_iff.2 ⟨_, afterName?_eq_some_iff.2 ⟨label, hlabel, rfl⟩,
      Option.bind_eq_some_iff.2 ⟨_, htake, Option.bind_eq_some_iff.2 ⟨trail ++ rest, ?_,
        if_pos hend⟩⟩⟩
    rw [hdrop]
    exact Text.after?_eq_some_iff.2 rfl

theorem urlAt?_eq_some_iff :
    urlAt? t = some url ↔ ∃ comment rest, IsComment rest comment url ∧ t = comment ++ rest := by
  constructor
  · intro h
    unfold urlAt? at h
    split at h
    · obtain ⟨label, trail, rest, rfl, hlabel, hne, hurl, htrail, hrest⟩ := lineUrl?_eq_some_iff.1 h
      exact ⟨_, rest, .line hlabel hne hurl htrail hrest, by simp⟩
    · obtain ⟨label, gap, trail, rest, rfl, hlabel, hne, hurl, hgap, htrail, hrest⟩ :=
        blockUrl?_eq_some_iff.1 h
      exact ⟨_, rest, .block hlabel hne hurl hgap htrail hrest, by simp⟩
    · cases h
  · rintro ⟨_, rest, ⟨hlabel, hne, hurl, htrail, hrest⟩ | ⟨hlabel, hne, hurl, hgap, htrail, hrest⟩,
      rfl⟩
    · exact lineUrl?_eq_some_iff.2 ⟨_, _, rest, by simp, hlabel, hne, hurl, htrail, hrest⟩
    · exact blockUrl?_eq_some_iff.2 ⟨_, _, _, rest, by simp, hlabel, hne, hurl, hgap, htrail, hrest⟩

/-! ### Where no comment begins -/

/-- What follows the first word of a text and the gap behind it: in front of a comment, the name. -/
def afterWord (t : Text) : Text := (t.dropWhile fun c => !c.isBlank).dropWhile isGap

theorem afterWord_append_of_word {word : Text} (h : ∀ c ∈ word, c.isBlank = false) :
    afterWord (word ++ rest) = afterWord rest := by
  rw [afterWord, List.dropWhile_append_of_pos fun c hc => by rw [h c hc]; rfl, afterWord]

/-- A word ends at a blank. -/
theorem afterWord_append_of_gaps (hgap : IsGaps gap) (hblank : ∀ c ∈ (gap ++ rest).head?, c.isBlank)
    (hrest : ∀ c ∈ rest.head?, isGap c = false) : afterWord (gap ++ rest) = rest := by
  have hstart : ((gap ++ rest).dropWhile fun c => !c.isBlank) = gap ++ rest :=
    @Text.dropWhile_append_of_stop _ [] _ (fun _ hc => nomatch hc) fun c hc => by
      rw [hblank c hc]
      rfl
  rw [afterWord, hstart, Text.dropWhile_append_of_stop hgap hrest]

theorem not_name_prefix (h : ∀ c ∈ t.head?, c ≠ .char 's') : ¬ name <+: t := by
  rintro ⟨rest, rfl⟩
  exact h _ rfl rfl

/-- A label ends the first word of a text, and its name is what follows. -/
theorem afterWord_label {opening : CodePoint} (hopening : opening.isBlank = false)
    (h : IsLabel label) : afterWord (.char '/' :: opening :: (label ++ rest)) = name ++ rest := by
  obtain ⟨hmark, hne, hgap⟩ := h
  next mark gap =>
  have hword : ∀ c ∈ [.char '/', opening, mark], c.isBlank = false := by
    refine List.forall_mem_cons.2 ⟨rfl, List.forall_mem_cons.2 ⟨hopening,
      List.forall_mem_singleton.2 ?_⟩⟩
    rcases hmark with rfl | rfl <;> rfl
  have hafter : afterWord ([.char '/', opening, mark] ++ (gap ++ (name ++ rest))) =
      afterWord (gap ++ (name ++ rest)) :=
    afterWord_append_of_word hword
  rw [List.cons_append, List.append_assoc]
  exact hafter.trans
    (afterWord_append_of_gaps hgap (isBlank_of_mem_head?_gap hne hgap) isGap_of_mem_head?_name)

theorem name_prefix_afterWord (h : urlAt? t = some url) : name <+: afterWord t := by
  obtain ⟨_, rest, ⟨hlabel⟩ | ⟨hlabel⟩, rfl⟩ := urlAt?_eq_some_iff.1 h
  · rw [List.cons_append, List.cons_append, List.append_assoc, afterWord_label rfl hlabel]
    exact List.prefix_append _ _
  · rw [List.cons_append, List.cons_append, List.append_assoc, afterWord_label rfl hlabel]
    exact List.prefix_append _ _

/-- A comment begins with a slash. -/
theorem urlAt?_of_ne {c : CodePoint} (h : c ≠ .char '/') : urlAt? (c :: t) = none := by
  rcases hurl : urlAt? (c :: t) with _ | url
  · rfl
  · obtain ⟨_, rest, ⟨-⟩ | ⟨-⟩, heq⟩ := urlAt?_eq_some_iff.1 hurl
    · exact absurd (List.cons.inj heq).1 h
    · exact absurd (List.cons.inj heq).1 h

theorem lastUrlFrom_append_of_not_mem {front : Text} (h : .char '/' ∉ front) :
    lastUrlFrom found (front ++ rest) = lastUrlFrom found rest := by
  induction front with
  | nil => rfl
  | cons c front ih =>
    obtain ⟨hc, hfront⟩ := List.ne_and_not_mem_of_not_mem_cons h
    rw [List.cons_append, lastUrlFrom, urlAt?_of_ne (Ne.symm hc), Option.none_or, ih hfront]

/-- No comment begins in a word that no name follows. -/
theorem lastUrlFrom_append_of_word {word : Text} (hword : ∀ c ∈ word, c.isBlank = false)
    (h : ¬ name <+: afterWord rest) :
    lastUrlFrom found (word ++ rest) = lastUrlFrom found rest := by
  induction word with
  | nil => rfl
  | cons c word ih =>
    -- the name of a comment that began here would stand behind the word
    have hnone : urlAt? (c :: word ++ rest) = none := by
      rcases hurl : urlAt? (c :: word ++ rest) with _ | url
      · rfl
      · exact absurd (afterWord_append_of_word hword ▸ name_prefix_afterWord hurl) h
    rw [List.cons_append, lastUrlFrom, ← List.cons_append, hnone, Option.none_or,
      ih fun d hd => hword d (List.mem_cons_of_mem _ hd)]

/-- Between a word and the end of its line there is no name. -/
theorem not_name_prefix_of_lineEnd (htrail : IsGaps trail) (hrest : BeginsAtLineEnd rest) :
    ¬ name <+: afterWord (trail ++ rest) := by
  rw [afterWord_append_of_gaps htrail (isBlank_of_mem_head?_trail htrail hrest) hrest.isGap]
  refine not_name_prefix fun c hc => ?_
  rw [hrest c hc]
  decide

/-- Nor is there one in front of the end of a block comment. -/
theorem not_name_prefix_of_close (hgap : IsGaps gap) (htrail : IsGaps trail)
    (hrest : BeginsAtLineEnd rest) :
    ¬ name <+: afterWord (gap ++ (("*/" : Text) ++ (trail ++ rest))) := by
  by_cases hne : gap = []
  · rw [hne, List.nil_append, afterWord_append_of_word (by decide)]
    exact not_name_prefix_of_lineEnd htrail hrest
  · rw [afterWord_append_of_gaps hgap (isBlank_of_mem_head?_gap hne hgap) isGap_of_mem_head?_close]
    refine not_name_prefix fun c hc => ?_
    rw [eq_of_mem_head?_close c hc]
    decide

theorem not_mem_of_isGaps (h : IsGaps gap) : .char '/' ∉ gap := fun hmem =>
  nomatch h _ hmem

theorem not_mem_of_isLabel (h : IsLabel label) : .char '/' ∉ label := by
  obtain ⟨hmark, -, hgap⟩ := h
  simp only [List.mem_cons, List.mem_append, not_or]
  refine ⟨?_, not_mem_of_isGaps hgap, by decide⟩
  rcases hmark with rfl | rfl <;> decide

/-- A slash and a label do not begin a comment. -/
theorem urlAt?_slash_label (h : IsLabel label) : urlAt? (.char '/' :: (label ++ rest)) = none := by
  obtain ⟨rfl | rfl, -, -⟩ := h <;> rfl

/-- **No comment begins inside another one**, so the next one begins behind it. -/
theorem lastUrlFrom_comment (h : IsComment rest comment url) :
    lastUrlFrom found (comment ++ rest) = lastUrlFrom (some url) rest := by
  have hurl := urlAt?_eq_some_iff.2 ⟨comment, rest, h, rfl⟩
  rcases h with ⟨hlabel, hne, hparts, htrail, hrest⟩ |
    ⟨hlabel, hne, hparts, hgap, htrail, hrest⟩
  · next label trail =>
    rw [List.cons_append] at hurl ⊢
    -- behind the first slash: the second one with the label, the URL, the gap
    rw [lastUrlFrom, hurl, Option.some_or, List.cons_append, List.append_assoc, lastUrlFrom,
      urlAt?_slash_label hlabel, Option.none_or,
      lastUrlFrom_append_of_not_mem (not_mem_of_isLabel hlabel), List.append_assoc,
      lastUrlFrom_append_of_word (fun c hc => isBlank_of_isLineUrlPart (hparts c hc))
        (not_name_prefix_of_lineEnd htrail hrest),
      lastUrlFrom_append_of_not_mem (not_mem_of_isGaps htrail)]
  · next label gap trail =>
    rw [List.cons_append] at hurl ⊢
    -- behind the slash: the asterisk, the label, the URL, the gap, the end of the block, the gap
    rw [lastUrlFrom, hurl, Option.some_or, List.cons_append, lastUrlFrom,
      urlAt?_of_ne (by decide), Option.none_or]
    simp only [List.append_assoc]
    rw [lastUrlFrom_append_of_not_mem (not_mem_of_isLabel hlabel),
      lastUrlFrom_append_of_word (fun c hc => isBlank_of_isBlockUrlPart (hparts c hc))
        (not_name_prefix_of_close hgap htrail hrest),
      lastUrlFrom_append_of_not_mem (not_mem_of_isGaps hgap),
      lastUrlFrom_append_of_word (by decide) (not_name_prefix_of_lineEnd htrail hrest),
      lastUrlFrom_append_of_not_mem (not_mem_of_isGaps htrail)]

/-! ### The last one -/

theorem lastUrlFrom_eq (t : Text) : lastUrlFrom found t = (lastUrl? t).or found := by
  induction t generalizing found with
  | nil => rfl
  | cons c t ih =>
    have hlast : lastUrl? (c :: t) = (lastUrl? t).or ((urlAt? (c :: t)).or none) := ih
    rw [lastUrlFrom, ih, hlast, Option.or_none, Option.or_assoc]

/-- What stands in front of a text does not take its last comment away. -/
theorem lastUrl?_append (front : Text) (h : lastUrl? t = some url) :
    lastUrl? (front ++ t) = some url := by
  have hall : ∀ found, lastUrlFrom found (front ++ t) = some url := by
    induction front with
    | nil => exact fun found => by rw [List.nil_append, lastUrlFrom_eq, h, Option.some_or]
    | cons c front ih => exact fun found => ih _
  exact hall none

/-- **A comment with no other one behind it is the last one**, whatever stands in front of it. -/
theorem lastUrl?_append_comment (front : Text) (h : IsComment rest comment url)
    (hrest : lastUrl? rest = none) : lastUrl? (front ++ (comment ++ rest)) = some url := by
  refine lastUrl?_append front ?_
  rw [lastUrl?, lastUrlFrom_comment h, lastUrlFrom_eq, hrest, Option.none_or]

/-- The URLs of the comments of a text from left to right, each looked for behind the one before. -/
inductive Scan : (t : Text) → (urls : List Text) → Prop
  | nil : Scan [] []
  /-- No comment begins here. -/
  | skip {c : CodePoint} {rest : Text} {urls : List Text}
      (hnone : ∀ comment url behind, IsComment behind comment url → c :: rest ≠ comment ++ behind)
      (hscan : Scan rest urls) : Scan (c :: rest) urls
  /-- A comment begins here. -/
  | comment {rest comment url : Text} {urls : List Text} (hcomment : IsComment rest comment url)
      (hscan : Scan rest urls) : Scan (comment ++ rest) (url :: urls)

theorem exists_scan (t : Text) : ∃ urls, Scan t urls := by
  induction hn : t.length using Nat.strongRecOn generalizing t with
  | _ n ih =>
    subst hn
    rcases t with _ | ⟨c, rest⟩
    · exact ⟨[], .nil⟩
    rcases hurl : urlAt? (c :: rest) with _ | url
    · obtain ⟨urls, hscan⟩ := ih rest.length (Nat.lt_succ_self _) rest rfl
      refine ⟨urls, .skip (fun comment url behind hcomment heq => ?_) hscan⟩
      exact nomatch hurl.symm.trans (urlAt?_eq_some_iff.2 ⟨comment, behind, hcomment, heq⟩)
    · obtain ⟨comment, behind, hcomment, heq⟩ := urlAt?_eq_some_iff.1 hurl
      have hlength : behind.length < (c :: rest).length := by
        rw [heq, List.length_append]
        exact Nat.lt_add_of_pos_left (by cases hcomment <;> exact Nat.succ_pos _)
      obtain ⟨urls, hscan⟩ := ih behind.length hlength behind rfl
      exact ⟨url :: urls, heq ▸ .comment hcomment hscan⟩

theorem lastUrlFrom_of_scan {urls : List Text} (h : Scan t urls) :
    lastUrlFrom found t = urls.getLast?.or found := by
  induction h generalizing found with
  | nil => rfl
  | @skip c rest urls hnone hscan ih =>
    have hurl : urlAt? (c :: rest) = none := by
      rcases hurl : urlAt? (c :: rest) with _ | url
      · rfl
      · obtain ⟨comment, behind, hcomment, heq⟩ := urlAt?_eq_some_iff.1 hurl
        exact absurd heq (hnone comment url behind hcomment)
    rw [lastUrlFrom, hurl, Option.none_or, ih]
  | comment hcomment hscan ih =>
    rw [lastUrlFrom_comment hcomment, ih, List.getLast?_cons, Option.some_or]
    cases List.getLast? _ <;> rfl

/-- **A reader that goes from left to right and over every comment it finds comes to the same last
URL**, and there is such a reading. -/
theorem lastUrl?_of_scan (t : Text) :
    (∃ urls, Scan t urls) ∧ ∀ urls, Scan t urls → lastUrl? t = urls.getLast? :=
  ⟨exists_scan t, fun _ h => (lastUrlFrom_of_scan h).trans (Option.or_none)⟩

/-! ### Comments on a line of their own -/

/-- The rest of a line that is a comment with the URL `url`. -/
def lineWith (url : Text) : Text := ("//# sourceMappingURL=" : Text) ++ url

theorem isComment_lineWith (hne : url ≠ []) (hurl : ∀ c ∈ url, isLineUrlPart c = true) :
    IsComment ("\n" : Text) (lineWith url) url := by
  have hlabel : IsLabel (.char '#' :: ([.char ' '] ++ name)) :=
    .intro (.inl rfl) (List.cons_ne_nil _ _) (List.forall_mem_singleton.2 rfl)
  have hcomment : IsComment ("\n" : Text) (lineWith (url ++ [])) url :=
    .line hlabel hne hurl (fun _ hc => nomatch hc) fun _ hc => (Option.some.inj hc).symm
  rwa [List.append_nil] at hcomment

end MapComment

namespace Discovery

variable {m : Type → Type} [Monad m] {files : Files m} {switches : Switches} {generated : FilePath}
  {p header body : Text} {bytes : Bytes}

/-! ### Maps in a comment -/

theorem decodeData_base64 (hheader : .char ',' ∉ header) (hmark : base64Mark <:+ header)
    (h : Utf8.encode p = .ok bytes) :
    decodeData (header ++ .char ',' :: Base64.encode bytes) = .ok ⟨some p, []⟩ := by
  have hcut : Text.cutFirst? (.char ',') (header ++ .char ',' :: Base64.encode bytes) =
      some (header, Base64.encode bytes) :=
    Text.cutFirst?_eq_some_iff.2 ⟨rfl, hheader⟩
  simp only [decodeData, hcut, if_pos (Text.endsWith_iff.2 hmark), decodeBase64,
    Base64.decode_encode_bytes, Utf8.decode_of_encode h]

theorem decodeData_percent (hheader : .char ',' ∉ header) (hmark : ¬ base64Mark <:+ header)
    (h : Utf8.encode p = .ok bytes) :
    decodeData (header ++ .char ',' :: Percent.encode bytes) = .ok ⟨some p, []⟩ := by
  have hcut : Text.cutFirst? (.char ',') (header ++ .char ',' :: Percent.encode bytes) =
      some (header, Percent.encode bytes) :=
    Text.cutFirst?_eq_some_iff.2 ⟨rfl, hheader⟩
  have hplain : ¬ Text.endsWith base64Mark header = true := fun hend =>
    hmark (Text.endsWith_iff.1 hend)
  simp only [decodeData, hcut, if_neg hplain, Percent.decode_encode_of_encode h]

/-- A data URL in the last line is the one that is read, whatever stands in front of it. -/
theorem extract_append_data (hinline : switches.inline = true) (front : Text)
    (hheader : ∀ c ∈ header, MapComment.isLineUrlPart c = true)
    (hbody : ∀ c ∈ body, MapComment.isLineUrlPart c = true) :
    extract files switches
        (front ++ (MapComment.lineWith (dataScheme ++ (header ++ [.char ','])) ++ body ++
          ("\n" : Text))) generated =
      pure (decodeData (header ++ .char ',' :: body)) := by
  have hurl : ∀ c ∈ dataScheme ++ (header ++ .char ',' :: body),
      MapComment.isLineUrlPart c = true :=
    List.forall_mem_append.2 ⟨by decide,
      List.forall_mem_append.2 ⟨hheader, List.forall_mem_cons.2 ⟨rfl, hbody⟩⟩⟩
  have hcomment := MapComment.isComment_lineWith
    (List.append_ne_nil_of_left_ne_nil (by decide) _) hurl
  have hlast := MapComment.lastUrl?_append_comment front hcomment rfl
  have hline : MapComment.lineWith (dataScheme ++ (header ++ [.char ','])) ++ body =
      MapComment.lineWith (dataScheme ++ (header ++ .char ',' :: body)) := by
    simp only [MapComment.lineWith, List.append_assoc, List.singleton_append]
  rw [hline, extract, hlast]
  change followUrl files switches generated (dataScheme ++ _) = _
  rw [followUrl, Text.after?_eq_some_iff.2 rfl]
  exact congrArg pure (if_pos hinline)

/-- **The map in the last comment is recovered code point by code point**, whatever stands in front
of the comment: broken comments, other maps, a line that is not finished. Any text without lone
surrogates can be such a map, and its bytes can be written as base64 or as percent escapes. -/
theorem extract_inline_map (files : Files m) (switches : Switches)
    (hinline : switches.inline = true) (front : Text) (hp : p.hasSurrogate = false)
    (generated : FilePath) :
    ∃ bytes, Utf8.encode p = .ok bytes ∧
      extract files switches
        (front ++ (("//# sourceMappingURL=data:application/json;base64," : Text) ++
          Base64.encode bytes ++ ("\n" : Text))) generated = pure (.ok ⟨some p, []⟩) ∧
      extract files switches
        (front ++ (("//# sourceMappingURL=data:application/json," : Text) ++
          Percent.encode bytes ++ ("\n" : Text))) generated = pure (.ok ⟨some p, []⟩) := by
  obtain ⟨bytes, hbytes⟩ := (Utf8.exists_encodeFrom_iff 0).2 hp
  refine ⟨bytes, hbytes, ?base64, ?percent⟩
  case base64 =>
    have hstart : ("//# sourceMappingURL=data:application/json;base64," : Text) =
        MapComment.lineWith
          (dataScheme ++ (("application/json;base64" : Text) ++ [.char ','])) := by
      simp [Text.ofString, MapComment.lineWith, dataScheme]
    rw [hstart, extract_append_data hinline front (by decide)
      (Base64.forall_mem_encode (by decide) rfl)]
    rw [decodeData_base64 (by decide) (by decide) hbytes]
  case percent =>
    have hstart : ("//# sourceMappingURL=data:application/json," : Text) =
        MapComment.lineWith (dataScheme ++ (("application/json" : Text) ++ [.char ','])) := by
      simp [Text.ofString, MapComment.lineWith, dataScheme]
    rw [hstart, extract_append_data hinline front (by decide)
      (Percent.forall_mem_encode rfl (by decide))]
    rw [decodeData_percent (by decide) (by decide) hbytes]

/-- A map is found behind a comment that was begun and breaks off in a slash. -/
theorem extract_inline_map_of_unfinished :
    let files := (⟨[]⟩ : FileTree).files ⟨[Path.separator], []⟩
    let front : Text := "//# sourceMappingURL=a.map\n/*# sourceMappingURL=/"
    let path := FilePath.ofText "a.js"
    extract files ⟨true, true, true⟩
        (front ++ ("//# sourceMappingURL=data:application/json;base64,w6k=\n" : Text)) path =
          pure (.ok ⟨some "\u00e9", []⟩) ∧
      extract files ⟨true, true, true⟩
        (front ++ ("//# sourceMappingURL=data:application/json,%C3%A9\n" : Text)) path =
          pure (.ok ⟨some "\u00e9", []⟩) := by
  intro files front path
  have hp : ("\u00e9" : Text).hasSurrogate = false := rfl
  have hbytes : Utf8.encode "\u00e9" = .ok [0xC3, 0xA9] := rfl
  obtain ⟨bytes, heq, hbase64, hpercent⟩ :=
    extract_inline_map files ⟨true, true, true⟩ rfl front hp path
  obtain rfl := Except.ok.inj (heq.symm.trans hbytes)
  have hbody64 : Base64.encode [0xC3, 0xA9] = ("w6k=" : Text) := by decide +kernel
  have hbody : Percent.encode [0xC3, 0xA9] = ("%C3%A9" : Text) := by decide +kernel
  have hline64 : ("//# sourceMappingURL=data:application/json;base64," : Text) ++
      Base64.encode [0xC3, 0xA9] ++ ("\n" : Text) =
        ("//# sourceMappingURL=data:application/json;base64,w6k=\n" : Text) := by
    rw [hbody64, ← Text.ofString_append, ← Text.ofString_append]
    rfl
  have hline : ("//# sourceMappingURL=data:application/json," : Text) ++
      Percent.encode [0xC3, 0xA9] ++ ("\n" : Text) =
        ("//# sourceMappingURL=data:application/json,%C3%A9\n" : Text) := by
    rw [hbody, ← Text.ofString_append, ← Text.ofString_append]
    rfl
  exact ⟨hline64 ▸ hbase64, hline ▸ hpercent⟩

end Discovery

end CoverageLift
