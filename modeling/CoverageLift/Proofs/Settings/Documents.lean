import CoverageLift.Settings
import CoverageLift.Proofs.Success

/-!
# Documents that describe settings

What a document must be like to describe settings can be said without the checks
(`Settings.Describes`): it has known keys only, and so have its sections; and what stands under a key
stands for a value of its kind, while a key that is left out stands for its default. Checking goes on
after an issue, to collect all of them, and **succeeds exactly for those documents, with the settings
that they describe** (`Settings.ofPairs_eq_ok_iff`).

Every check has a lemma of its own that says what it accepts, and a section is a few members and the
keys that it knows, so the lemma about a section is put together from those.
-/

namespace CoverageLift

/-- Where one item at most passes the test, searching finds that one. -/
theorem find?_eq_some_iff_of_unique {α : Type} {p : α → Bool} {items : List α} {a : α}
    (h : ∀ b ∈ items, p b → ∀ c ∈ items, p c → b = c) :
    items.find? p = some a ↔ a ∈ items ∧ p a := by
  refine ⟨fun hfind => ⟨List.mem_of_find?_eq_some hfind, List.find?_some hfind⟩, fun ⟨hmem, ha⟩ => ?_⟩
  obtain ⟨found, hfound⟩ := Option.isSome_iff_exists.1 (List.find?_isSome.2 ⟨a, hmem, ha⟩)
  rw [hfound, h found (List.mem_of_find?_eq_some hfound) (List.find?_some hfound) a hmem ha]

/-! ### Collected issues -/

namespace Checked

variable {α β : Type} {x : Checked α} {y : Checked β} {a : α} {b : β}

theorem both_eq_ok_iff : x.both y = .ok (a, b) ↔ x = .ok a ∧ y = .ok b := by
  cases x <;> cases y <;> simp [both]

theorem under_eq_ok_iff {key : Text} : x.under key = .ok a ↔ x = .ok a := mapError_eq_ok_iff

theorem keyed_eq_ok_iff {keys : List Text} :
    x.keyed keys = .ok a ↔ (∀ key ∈ keys, key.hasSurrogate = false) ∧ x = .ok a := by
  rw [keyed]
  split
  · next hsurrogate =>
    refine iff_of_false nofun fun h => ?_
    obtain ⟨key, hkey, hlone⟩ := List.any_eq_true.1 hsurrogate
    rw [h.1 key hkey] at hlone
    cases hlone
  · next hnone =>
    exact (and_iff_right fun key hkey => Bool.eq_false_iff.2 fun hlone =>
      hnone (List.any_eq_true.2 ⟨key, hkey, hlone⟩)).symm

end Checked

namespace Settings

/-! ### Values -/

/-- A value stands for a switch: a truth value, a number that is zero or one, or one of the words for
the two, in any case. -/
inductive IsSwitch : Yaml.Value → Bool → Prop
  | bool (b : Bool) : IsSwitch (.atom (.scalar (.bool b))) b
  | zero : IsSwitch (.atom (.scalar (.int 0))) false
  | one : IsSwitch (.atom (.scalar (.int 1))) true
  | floatZero {x : Binary64} (h : x.toInt? = some 0) : IsSwitch (.atom (.scalar (.float x))) false
  | floatOne {x : Binary64} (h : x.toInt? = some 1) : IsSwitch (.atom (.scalar (.float x))) true
  | word {t : Text} {b : Bool} (h : (t.map Lenient.lower, b) ∈ Lenient.switchWords) :
      IsSwitch (.atom (.scalar (.str t))) b

/-- A value stands for a path, or for none. -/
inductive IsPath : Yaml.Value → Option FilePath → Prop
  | null : IsPath (.atom (.scalar .null)) none
  | text (t : Text) : IsPath (.atom (.scalar (.str t))) (some (FilePath.ofText t))

/-- A value stands for a level: it is the name of the level, in any case and with white space around
it. -/
inductive IsLevel : Yaml.Value → Level → Prop
  | name {t : Text} {level : Level}
      (h : (Text.trim CodePoint.isBlank t).map CodePoint.capital = level.name) :
      IsLevel (.atom (.scalar (.str t))) level

theorem boolOfInt?_eq_some_iff {n : Int} {b : Bool} :
    Lenient.boolOfInt? n = some b ↔ n = 0 ∧ b = false ∨ n = 1 ∧ b = true := by
  rw [Lenient.boolOfInt?]
  split
  · next h => simp [h, eq_comm]
  · next h0 =>
    split
    · next h => simp [h, eq_comm]
    · next h1 => simp [h0, h1]

/-- Zero and one are small enough to be read off a floating point number. -/
theorem intOfFloat_eq_ok_iff {x : Binary64} {n : Int} (hn : n = 0 ∨ n = 1) :
    Lenient.intOfFloat x = .ok n ↔ x.toInt? = some n := by
  have hbound : -Lenient.wordBound < n ∧ n < Lenient.wordBound := by
    rcases hn with rfl | rfl <;> decide
  cases x with
  | nan => exact iff_of_false nofun nofun
  | infinite negative => exact iff_of_false nofun nofun
  | finite negative significand exponent =>
    rw [Lenient.intOfFloat]
    cases hint : (Binary64.finite negative significand exponent).toInt? with
    | none => simp
    | some m =>
      simp only [Option.some.injEq]
      split
      · simp
      · next hnot =>
        refine iff_of_false nofun ?_
        rintro rfl
        exact hnot hbound

theorem boolOfScalar_int_eq_ok_iff {n : Int} {b : Bool} :
    Lenient.boolOfScalar (.int n) = .ok b ↔ Lenient.boolOfInt? n = some b := by
  rw [Lenient.boolOfScalar]
  cases Lenient.boolOfInt? n with
  | none => simp only [reduceCtorEq, iff_false]; split <;> nofun
  | some c => simp

theorem boolOfScalar_float_eq_ok_iff {x : Binary64} {b : Bool} :
    Lenient.boolOfScalar (.float x) = .ok b ↔
      ∃ n, Lenient.intOfFloat x = .ok n ∧ Lenient.boolOfInt? n = some b := by
  rw [Lenient.boolOfScalar]
  cases Lenient.intOfFloat x with
  | error kind => simp
  | ok n =>
    cases hb : Lenient.boolOfInt? n with
    | none => simp [hb]
    | some c => simp [hb]

theorem boolOfScalar_str_eq_ok_iff {t : Text} {b : Bool} :
    Lenient.boolOfScalar (.str t) = .ok b ↔ (t.map Lenient.lower, b) ∈ Lenient.switchWords := by
  -- no word stands for two truth values
  have hunique : ∀ word ∈ Lenient.switchWords, ∀ word' ∈ Lenient.switchWords, word.1 = word'.1 →
      word = word' := by decide
  have hfind {word : Text × Bool} :
      (Lenient.switchWords.find? fun word => word.1 = t.map Lenient.lower) = some word ↔
        word ∈ Lenient.switchWords ∧ word.1 = t.map Lenient.lower := by
    rw [find?_eq_some_iff_of_unique, decide_eq_true_eq]
    exact fun word hword h word' hword' h' =>
      hunique word hword word' hword' ((of_decide_eq_true h).trans (of_decide_eq_true h').symm)
  rw [Lenient.boolOfScalar]
  cases hfound : Lenient.switchWords.find? fun word => word.1 = t.map Lenient.lower with
  | none =>
    refine iff_of_false nofun fun hmem => ?_
    rw [hfind.2 ⟨hmem, rfl⟩] at hfound
    cases hfound
  | some word =>
    obtain ⟨hword, heq⟩ := hfind.1 hfound
    constructor
    · intro h
      obtain rfl := Except.ok.inj h
      rwa [← heq]
    · intro hmem
      rw [hunique word hword _ hmem heq]

theorem switch_eq_ok_iff {v : Yaml.Value} {b : Bool} : switch v = .ok b ↔ IsSwitch v b := by
  cases v with
  | sequence items => exact iff_of_false nofun nofun
  | mapping pairs => exact iff_of_false nofun nofun
  | atom a =>
    cases a with
    | timestamp t => exact iff_of_false nofun nofun
    | scalar s =>
      rw [switch, mapError_eq_ok_iff]
      cases s with
      | null => exact iff_of_false nofun nofun
      | bool c => exact ⟨fun h => Except.ok.inj h ▸ .bool c, fun | .bool _ => rfl⟩
      | int n =>
        rw [boolOfScalar_int_eq_ok_iff, boolOfInt?_eq_some_iff]
        constructor
        · rintro (⟨rfl, rfl⟩ | ⟨rfl, rfl⟩)
          · exact .zero
          · exact .one
        · rintro (_ | _)
          · exact .inl ⟨rfl, rfl⟩
          · exact .inr ⟨rfl, rfl⟩
      | float x =>
        rw [boolOfScalar_float_eq_ok_iff]
        constructor
        · rintro ⟨n, hn, hb⟩
          obtain ⟨rfl, rfl⟩ | ⟨rfl, rfl⟩ := boolOfInt?_eq_some_iff.1 hb
          · exact .floatZero ((intOfFloat_eq_ok_iff (.inl rfl)).1 hn)
          · exact .floatOne ((intOfFloat_eq_ok_iff (.inr rfl)).1 hn)
        · rintro (_ | _ | _ | h | h)
          · exact ⟨0, (intOfFloat_eq_ok_iff (.inl rfl)).2 h, rfl⟩
          · exact ⟨1, (intOfFloat_eq_ok_iff (.inr rfl)).2 h, rfl⟩
      | str t =>
        rw [boolOfScalar_str_eq_ok_iff]
        exact ⟨.word, fun | .word h => h⟩

theorem path_eq_ok_iff {v : Yaml.Value} {p : Option FilePath} : path v = .ok p ↔ IsPath v p := by
  constructor
  · intro h
    unfold path at h
    split at h
    · obtain rfl := Except.ok.inj h
      exact .null
    · obtain rfl := Except.ok.inj h
      exact .text _
    · cases h
  · rintro (_ | _) <;> rfl

theorem ofText?_eq_some_iff {t : Text} {level : Level} :
    Level.ofText? t = some level ↔
      (Text.trim CodePoint.isBlank t).map CodePoint.capital = level.name := by
  have hall : level ∈ Level.all := by cases level <;> decide
  have hunique : ∀ a ∈ Level.all, ∀ b ∈ Level.all, a.name = b.name → a = b := by decide
  rw [Level.ofText?, find?_eq_some_iff_of_unique, decide_eq_true_eq, and_iff_right hall, eq_comm]
  exact fun a ha h b hb h' =>
    hunique a ha b hb ((of_decide_eq_true h).trans (of_decide_eq_true h').symm)

theorem levelOf_eq_ok_iff {v : Yaml.Value} {level : Level} : levelOf v = .ok level ↔ IsLevel v level := by
  constructor
  · intro h
    unfold levelOf at h
    split at h
    · split at h
      · next hlevel =>
        obtain rfl := Except.ok.inj h
        exact .name (ofText?_eq_some_iff.1 hlevel)
      · cases h
    · cases h
  · rintro ⟨h⟩
    rw [levelOf, ofText?_eq_some_iff.2 h]

/-! ### Keys -/

/-- All keys of a mapping are among the known ones. -/
def HasOnly (known : List Text) (pairs : Pairs) : Prop :=
  ∀ pair ∈ pairs, ∃ key ∈ known, pair.1 = .scalar (.str key)

/-- What a key of a mapping stands for: what its value stands for, or the default if the key is left
out. -/
inductive Member {α : Type} (Stands : Yaml.Value → α → Prop) (default : α) (pairs : Pairs)
    (key : Text) : α → Prop
  | omitted (h : member? pairs key = none) : Member Stands default pairs key default
  | given {v : Yaml.Value} {a : α} (h : member? pairs key = some v) (hv : Stands v a) :
      Member Stands default pairs key a

theorem keyIssue?_eq_none_iff {known : List Text} {key : Yaml.Atom} :
    keyIssue? known key = none ↔ ∃ t ∈ known, key = .scalar (.str t) := by
  unfold keyIssue?
  split
  · next t => simp
  · next hkey =>
    refine iff_of_false nofun ?_
    rintro ⟨t, -, rfl⟩
    exact hkey t rfl

theorem onlyKeys_eq_ok_iff {known : List Text} {pairs : Pairs} {u : Unit} :
    onlyKeys known pairs = .ok u ↔ HasOnly known pairs := by
  have hnone : (pairs.filterMap fun pair => keyIssue? known pair.1) = [] ↔ HasOnly known pairs := by
    rw [List.filterMap_eq_nil_iff]
    exact forall₂_congr fun _ _ => keyIssue?_eq_none_iff
  rw [← hnone, onlyKeys]
  split
  · next h => simp [h]
  · next h => exact iff_of_false nofun h

/-- A mapping with known keys is read as a whole, since no known key has a lone surrogate. -/
theorem hasSurrogate_of_mem_textKeys {known : List Text} {pairs : Pairs}
    (hknown : ∀ key ∈ known, key.hasSurrogate = false) (h : HasOnly known pairs) :
    ∀ key ∈ textKeys pairs, key.hasSurrogate = false := by
  intro key hkey
  obtain ⟨pair, hpair, heq⟩ := List.mem_filterMap.1 hkey
  obtain ⟨t, ht, hatom⟩ := h pair hpair
  rw [hatom] at heq
  obtain rfl := Option.some.inj heq
  exact hknown t ht

theorem member_eq_ok_iff {α : Type} {Stands : Yaml.Value → α → Prop} {check : Yaml.Value → Checked α}
    (hcheck : ∀ {v a}, check v = .ok a ↔ Stands v a) {pairs : Pairs} {key : Text} {default a : α} :
    member pairs key default check = .ok a ↔ Member Stands default pairs key a := by
  rw [member]
  constructor
  · intro h
    split at h
    · next hkey =>
      obtain rfl := Except.ok.inj h
      exact .omitted hkey
    · next hkey => exact .given hkey (hcheck.1 (Checked.under_eq_ok_iff.1 h))
  · rintro (hkey | ⟨hkey, hv⟩)
    · rw [hkey]
    · rw [hkey]
      exact Checked.under_eq_ok_iff.2 (hcheck.2 hv)

/-! ### Sections -/

/-- A value is a section: a mapping that stands for something. -/
inductive IsSection {α : Type} (Stands : Pairs → α → Prop) : Yaml.Value → α → Prop
  | mapping {pairs : Pairs} {a : α} (h : Stands pairs a) : IsSection Stands (.mapping pairs) a

/-- A section describes the switches of discovery. -/
structure DescribesDiscovery (pairs : Pairs) (switches : Discovery.Switches) : Prop where
  keys : HasOnly ["inline", "sibling", "embedded"] pairs
  inline : Member IsSwitch defaultSwitches.inline pairs "inline" switches.inline
  sibling : Member IsSwitch defaultSwitches.sibling pairs "sibling" switches.sibling
  embedded : Member IsSwitch defaultSwitches.embedded pairs "embedded" switches.embedded

/-- A section describes whether ranges must lie in the lines of their source. -/
structure DescribesRemap (pairs : Pairs) (enforceBounds : Bool) : Prop where
  keys : HasOnly ["enforce_line_bounds"] pairs
  bounds : Member IsSwitch default.enforceBounds pairs "enforce_line_bounds" enforceBounds

/-- A section describes the level of the notices that are shown. -/
structure DescribesLogging (pairs : Pairs) (level : Level) : Prop where
  keys : HasOnly ["level"] pairs
  level : Member IsLevel default.level pairs "level" level

/-- The pairs of a document describe settings. -/
structure Describes (pairs : Pairs) (settings : Settings) : Prop where
  keys : HasOnly ["report", "output", "discovery", "remap", "logging"] pairs
  report : Member IsPath default.report pairs "report" settings.report
  output : Member IsPath default.output pairs "output" settings.output
  discovery : Member (IsSection DescribesDiscovery) default.discovery pairs "discovery"
    settings.discovery
  remap : Member (IsSection DescribesRemap) default.enforceBounds pairs "remap" settings.enforceBounds
  logging : Member (IsSection DescribesLogging) default.level pairs "logging" settings.level

theorem inSection_eq_ok_iff {α : Type} {Stands : Pairs → α → Prop} {check : Pairs → Checked α}
    (hcheck : ∀ {pairs a}, check pairs = .ok a ↔ Stands pairs a) {v : Yaml.Value} {a : α} :
    inSection check v = .ok a ↔ IsSection Stands v a := by
  constructor
  · intro h
    unfold inSection at h
    split at h
    · exact .mapping (hcheck.1 h)
    · cases h
  · rintro ⟨h⟩
    exact hcheck.2 h

theorem discoveryOf_eq_ok_iff {pairs : Pairs} {switches : Discovery.Switches} :
    discoveryOf pairs = .ok switches ↔ DescribesDiscovery pairs switches := by
  simp only [discoveryOf, map_eq_ok_iff, Checked.keyed_eq_ok_iff, Prod.exists,
    Checked.both_eq_ok_iff, member_eq_ok_iff switch_eq_ok_iff, onlyKeys_eq_ok_iff]
  constructor
  · rintro ⟨inline, sibling, embedded, ⟨⟩, ⟨-, hinline, hsibling, hembedded, hkeys⟩, rfl⟩
    exact ⟨hkeys, hinline, hsibling, hembedded⟩
  · rintro ⟨hkeys, hinline, hsibling, hembedded⟩
    exact ⟨_, _, _, (), ⟨hasSurrogate_of_mem_textKeys (by decide) hkeys, hinline, hsibling,
      hembedded, hkeys⟩, rfl⟩

theorem remapOf_eq_ok_iff {pairs : Pairs} {enforceBounds : Bool} :
    remapOf pairs = .ok enforceBounds ↔ DescribesRemap pairs enforceBounds := by
  simp only [remapOf, map_eq_ok_iff, Checked.keyed_eq_ok_iff, Prod.exists,
    Checked.both_eq_ok_iff, member_eq_ok_iff switch_eq_ok_iff, onlyKeys_eq_ok_iff]
  constructor
  · rintro ⟨bounds, ⟨⟩, ⟨-, hbounds, hkeys⟩, rfl⟩
    exact ⟨hkeys, hbounds⟩
  · rintro ⟨hkeys, hbounds⟩
    exact ⟨_, (), ⟨hasSurrogate_of_mem_textKeys (by decide) hkeys, hbounds, hkeys⟩, rfl⟩

theorem loggingOf_eq_ok_iff {pairs : Pairs} {level : Level} :
    loggingOf pairs = .ok level ↔ DescribesLogging pairs level := by
  simp only [loggingOf, map_eq_ok_iff, Checked.keyed_eq_ok_iff, Prod.exists,
    Checked.both_eq_ok_iff, member_eq_ok_iff levelOf_eq_ok_iff, onlyKeys_eq_ok_iff]
  constructor
  · rintro ⟨level, ⟨⟩, ⟨-, hlevel, hkeys⟩, rfl⟩
    exact ⟨hkeys, hlevel⟩
  · rintro ⟨hkeys, hlevel⟩
    exact ⟨_, (), ⟨hasSurrogate_of_mem_textKeys (by decide) hkeys, hlevel, hkeys⟩, rfl⟩

/-- **Checking succeeds for the mappings that describe settings**, with those settings. -/
theorem ofPairs_eq_ok_iff {pairs : Pairs} {settings : Settings} :
    ofPairs pairs = .ok settings ↔ Describes pairs settings := by
  simp only [ofPairs, map_eq_ok_iff, Checked.keyed_eq_ok_iff, Prod.exists,
    Checked.both_eq_ok_iff, member_eq_ok_iff path_eq_ok_iff,
    member_eq_ok_iff (inSection_eq_ok_iff discoveryOf_eq_ok_iff),
    member_eq_ok_iff (inSection_eq_ok_iff remapOf_eq_ok_iff),
    member_eq_ok_iff (inSection_eq_ok_iff loggingOf_eq_ok_iff), onlyKeys_eq_ok_iff]
  constructor
  · rintro ⟨report, output, discovery, bounds, level, ⟨⟩,
      ⟨-, hreport, houtput, hdiscovery, hbounds, hlevel, hkeys⟩, rfl⟩
    exact ⟨hkeys, hreport, houtput, hdiscovery, hbounds, hlevel⟩
  · rintro ⟨hkeys, hreport, houtput, hdiscovery, hbounds, hlevel⟩
    exact ⟨_, _, _, _, _, (), ⟨hasSurrogate_of_mem_textKeys (by decide) hkeys, hreport, houtput,
      hdiscovery, hbounds, hlevel, hkeys⟩, rfl⟩

/-- A document without pairs describes the settings that hold by default. -/
theorem describes_nil : Describes [] default where
  keys := nofun
  report := .omitted rfl
  output := .omitted rfl
  discovery := .omitted rfl
  remap := .omitted rfl
  logging := .omitted rfl

end Settings

end CoverageLift
