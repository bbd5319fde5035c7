import CoverageLift.Proofs.Arena.Takeover

/-!
# Leaving out an entry

When an entry is left out, the entries after it get the ids that they got with it, or they do not.
A folded entry left nothing behind, so it is never missed. An entry that was added leaves its id
vacant, and that id matters at two kinds of later steps only: an entry was folded into it, or an
entry takes it over. If there is such a step, then the first one must be of both kinds, so that the
id goes to the same entry again; its contributor must then have no other entry of that identity,
because entries of one contributor are not folded into each other. All of this shows in the course
that has the entry (`Undisturbed`).
-/

namespace CoverageLift

/-- No step gets another id when the id `t` is left vacant before. -/
def Undisturbed (t : Text) (alone : Prop) : List Step → Prop
  | [] => True
  | s :: later =>
    (s.target = t ∧ s.TakesOver t alone ∧ ∀ r ∈ later, r.number = s.number → r.target ≠ t) ∨
      (s.target ≠ t ∧ ¬ s.TakesOver t alone ∧ Undisturbed t alone later)

namespace Moment

variable {t : Text} {m : Moment} {other : Turn} {item : Text × Entry}

/-- From a moment on when the id is in both tables, all entries get the same ids exactly when no
entry of contributor `q` is folded into it. -/
theorem Filled.targets_eq_iff {p q : Nat} :
    ∀ {events : List Event} {m : Moment} {other : Turn}, Filled t p q m other → m.number ≠ p →
      p ∉ events.filterMap Event.opened? →
      ((({ m with turn := other } : Moment).steps events).map Step.target =
          (m.steps events).map Step.target ↔
        ∀ s ∈ m.steps events, s.number = q → s.target ≠ t) := by
  intro events
  induction events with
  | nil => exact fun _ _ _ => ⟨fun _ _ hs => absurd hs List.not_mem_nil, fun _ => rfl⟩
  | cons event events ih =>
    intro m other h hp hopened
    cases event with
    | opens number listed =>
      obtain ⟨hnumber, hopened⟩ := not_or.1 (mt List.mem_cons.2 hopened)
      exact ih (h.opens number listed) (Ne.symm hnumber) hopened
    | places item =>
      rw [steps_places, steps_places, List.map_cons, List.map_cons, List.cons.injEq,
        List.forall_mem_cons]
      -- both tables keep the id, so only the owner's number can tell the two entries apart
      have hhead : other.target m.number item = m.turn.target m.number item ↔
          (m.number = q → m.turn.target m.number item ≠ t) := h.target_eq_iff hp
      constructor
      · rintro ⟨heq, htail⟩
        exact ⟨hhead.1 heq, (ih (h.places heq) hp hopened).1 htail⟩
      · rintro ⟨hne, hlater⟩
        have heq := hhead.2 hne
        exact ⟨heq, (ih (h.places heq) hp hopened).2 hlater⟩

/-- From a moment on when the id is vacant, all entries get the same ids exactly when the steps are
undisturbed. -/
theorem Vacant.targets_eq_iff {identity : Identity} {k : Nat} {alone : Prop} :
    ∀ {events : List Event} {m : Moment} {other : Turn}, Vacant t identity k m other →
      k ∉ events.filterMap Event.opened? →
      (alone ↔ OrderedMap.get? other.arena.owners identity = none ∧
        ∀ s ∈ m.steps events, s.number = k → s.identity ≠ identity) →
      ((({ m with turn := other } : Moment).steps events).map Step.target =
          (m.steps events).map Step.target ↔
        Undisturbed t alone (m.steps events)) := by
  intro events
  induction events with
  | nil => exact fun _ _ _ => ⟨fun _ => trivial, fun _ => rfl⟩
  | cons event events ih =>
    intro m other h hopened halone
    cases event with
    | opens number listed =>
      obtain ⟨-, hopened⟩ := not_or.1 (mt List.mem_cons.2 hopened)
      exact ih (h.opens number listed) hopened halone
    | places item =>
      have hopened : k ∉ events.filterMap Event.opened? := hopened
      have htakes : other.target m.number item = t ↔ (⟨m, item⟩ : Step).TakesOver t alone := by
        rw [h.target_eq_self_iff]
        refine Step.takesOver_congr fun htarget => ?_
        -- the turn of contributor `k` is over, so nothing more is added to its entries
        have hk := h.number_ne htarget
        rw [halone]
        refine (and_iff_left fun s hs hnumber => ?_).symm
        rcases number_mem_of_mem_steps hs with heq | hmem
        · exact absurd (heq.symm.trans hnumber) hk
        · exact absurd (hnumber ▸ hmem) hopened
      rw [steps_places, steps_places, List.map_cons, List.map_cons, List.cons.injEq, Undisturbed]
      by_cases htarget : m.turn.target m.number item = t
      · -- the entry was folded into the id
        constructor
        · rintro ⟨heq, htail⟩
          have htarget' := heq.trans htarget
          have hfilled := h.fill htarget htarget'
          exact .inl ⟨htarget, htakes.1 htarget',
            (hfilled.targets_eq_iff (h.number_ne htarget) hopened).1 htail⟩
        · rintro (⟨-, htakesOver, hlater⟩ | ⟨hne, -⟩)
          · have htarget' := htakes.2 htakesOver
            have hfilled := h.fill htarget htarget'
            exact ⟨htarget'.trans htarget.symm,
              (hfilled.targets_eq_iff (h.number_ne htarget) hopened).2 hlater⟩
          · exact absurd htarget hne
      · by_cases htarget' : other.target m.number item = t
        · -- another entry gets the id
          constructor
          · rintro ⟨heq, -⟩
            exact absurd (heq.symm.trans htarget') htarget
          · rintro (⟨heq, -⟩ | ⟨-, hnot, -⟩)
            · exact absurd heq htarget
            · exact absurd (htakes.1 htarget') hnot
        · have heq : other.target m.number item = m.turn.target m.number item :=
            h.agree.target_eq ⟨fun heq => absurd heq htarget', fun heq => absurd heq htarget⟩
          have hrest := ih (h.places htarget htarget') hopened (by
            rw [halone, steps_places, List.forall_mem_cons, h.owners_place_eq_none_iff htarget,
              and_assoc]
            rfl)
          constructor
          · rintro ⟨-, htail⟩
            exact .inr ⟨htarget, fun htakesOver => htarget' (htakes.2 htakesOver), hrest.1 htail⟩
          · rintro (⟨htarget'', -⟩ | ⟨-, -, hlater⟩)
            · exact absurd htarget'' htarget
            · exact ⟨heq, hrest.2 hlater⟩

/-- **Leaving out a step** changes no later id exactly when its entry was folded or the later steps
are undisturbed. -/
theorem Sound.targets_eq_iff {done : List Step} {events : List Event} (h : Sound done m)
    (hlisted : item.1 ∈ m.listed)
    (hdone : ∀ s ∈ done, s.number ∉ events.filterMap Event.opened?)
    (hnumber : m.number ∉ events.filterMap Event.opened?) :
    (m.steps events).map Step.target = ((m.next (.places item)).steps events).map Step.target ↔
      m.turn.folds m.number item = true ∨
        Undisturbed (m.turn.target m.number item)
          (∀ s ∈ done ++ (m.next (.places item)).steps events,
            s.number = m.number → s.identity ≠ item.2.identity)
          ((m.next (.places item)).steps events) := by
  cases hfolds : m.turn.folds m.number item with
  | true =>
    obtain ⟨owner, howner, hother, hfilled⟩ := h.filled hlisted hfolds
    obtain ⟨r, hr, hcontributor, -, -⟩ := h.exists_step howner
    have hopened := hdone r hr
    rw [hcontributor] at hopened
    refine iff_of_true ((hfilled.targets_eq_iff hother.symm hopened).2 fun s hs heq => ?_) (.inl rfl)
    -- the owner's contributor has no more steps
    rcases number_mem_of_mem_steps hs with hnumber | hmem
    · exact absurd (heq.symm.trans hnumber) hother
    · exact absurd (heq ▸ hmem) hopened
  | false =>
    -- without the entry its identity has an owner only if its contributor had another one
    have halone : (∀ s ∈ done ++ (m.next (.places item)).steps events,
          s.number = m.number → s.identity ≠ item.2.identity) ↔
        OrderedMap.get? m.turn.arena.owners item.2.identity = none ∧
          ∀ s ∈ (m.next (.places item)).steps events,
            s.number = m.number → s.identity ≠ item.2.identity := by
      rw [List.forall_mem_append]
      refine and_congr_left fun _ => ⟨fun hnot => ?_, fun hnone s hs _ hidentity => ?_⟩
      · rw [Option.eq_none_iff_forall_ne_some]
        intro owner howner
        obtain ⟨s, hs, hcontributor, hidentity, -⟩ := h.exists_step howner
        exact hnot s hs (hcontributor.trans (Turn.folds_eq_false_iff.1 hfolds owner howner))
          hidentity
      · have howned := h.owned s hs
        rw [hidentity, hnone] at howned
        cases howned
    refine ((h.vacant hlisted hfolds).targets_eq_iff hnumber halone).trans ?_
    exact (or_iff_right Bool.false_ne_true).symm

/-- Which entries are placed does not depend on where the entries before them went. -/
theorem map_item_steps (events : List Event) :
    ∀ {m m' : Moment}, m'.number = m.number →
      (m'.steps events).map (fun s => (s.number, s.item)) =
        (m.steps events).map (fun s => (s.number, s.item)) := by
  induction events with
  | nil => exact fun _ => rfl
  | cons event events ih =>
    intro m m' hnumber
    cases event with
    | opens number listed => exact ih rfl
    | places item =>
      rw [steps_places, steps_places, List.map_cons, List.map_cons, List.cons.injEq]
      exact ⟨congrArg (fun number => (number, item)) hnumber, ih hnumber⟩

end Moment

/-- Steps of the same entries record the same when they have the same targets. -/
theorem map_record_eq_iff {later : List Step} :
    ∀ {later' : List Step},
      later'.map (fun s => (s.number, s.item)) = later.map (fun s => (s.number, s.item)) →
        (later'.map Step.record = later.map Step.record ↔
          later'.map Step.target = later.map Step.target) := by
  induction later with
  | nil =>
    intro later' h
    rw [List.map_eq_nil_iff.1 h]
    exact iff_of_true rfl rfl
  | cons s later ih =>
    intro later' h
    obtain ⟨s', later', rfl⟩ := List.exists_cons_of_ne_nil (l := later') (by rintro rfl; cases h)
    rw [List.map_cons, List.map_cons, List.cons.injEq, Prod.mk.injEq] at h
    obtain ⟨⟨hnumber, hitem⟩, htail⟩ := h
    rw [List.map_cons, List.map_cons, List.map_cons, List.map_cons, List.cons.injEq,
      List.cons.injEq, ih htail]
    refine and_congr_left fun _ => ?_
    rw [Step.record, Step.record, hnumber, hitem, Prod.mk.injEq, Prod.mk.injEq]
    exact ⟨fun h => h.2.2, fun h => ⟨rfl, rfl, h⟩⟩

/-! ### The entry that is left out -/

/-- A contributor's entries without one, whose id it still lists. -/
def Contribution.drop (c : Contribution) (id : Text) : Contribution :=
  { c with entries := OrderedMap.erase c.entries id }

/-- Leaving out the contributor's entry of that id does not disturb the steps after it. -/
def Harmless (steps : List Step) (number : Nat) (id : Text) : Prop :=
  ∀ {earlier s later}, steps = earlier ++ s :: later → s.number = number → s.item.1 = id →
    s.folds = true ∨
      Undisturbed s.target (∀ r ∈ earlier ++ later, r.number = number → r.identity ≠ s.identity)
        later

/-- A course that places an entry once. -/
theorem harmless_iff {earlier later : List Step} {s : Step}
    (hearlier : ∀ r ∈ earlier, ¬ (r.number = s.number ∧ r.item.1 = s.item.1))
    (hlater : ∀ r ∈ later, ¬ (r.number = s.number ∧ r.item.1 = s.item.1)) :
    Harmless (earlier ++ s :: later) s.number s.item.1 ↔
      s.folds = true ∨
        Undisturbed s.target
          (∀ r ∈ earlier ++ later, r.number = s.number → r.identity ≠ s.identity) later := by
  constructor
  · intro h
    exact h rfl rfl rfl
  · intro h earlier' s' later' heq hnumber hid
    obtain ⟨rfl, rfl, rfl⟩ := (List.append_cons_inj_of_notMem
      (fun hmem => hearlier s' hmem ⟨hnumber, hid⟩)
      (fun hmem => hlater s' hmem ⟨hnumber, hid⟩)).1 heq
    exact h

/-- The records without the one of a step that is left out. -/
theorem filter_records {earlier later : List Step} {s : Step}
    (hearlier : ∀ r ∈ earlier, ¬ (r.number = s.number ∧ r.item.1 = s.item.1))
    (hlater : ∀ r ∈ later, ¬ (r.number = s.number ∧ r.item.1 = s.item.1)) :
    ((earlier ++ s :: later).map Step.record).filter
        (fun r => ¬ (r.1 = s.number ∧ r.2.1 = s.item.1)) =
      earlier.map Step.record ++ later.map Step.record := by
  have hkeep : ∀ l : List Step, (∀ r ∈ l, ¬ (r.number = s.number ∧ r.item.1 = s.item.1)) →
      (l.map Step.record).filter (fun r => ¬ (r.1 = s.number ∧ r.2.1 = s.item.1)) =
        l.map Step.record := by
    intro l hl
    refine List.filter_eq_self.2 fun r hr => ?_
    obtain ⟨step, hstep, rfl⟩ := List.mem_map.1 hr
    exact decide_eq_true (hl step hstep)
  rw [List.map_append, List.map_cons, List.filter_append, hkeep earlier hearlier,
    List.filter_cons_of_neg (by simp [Step.record]), hkeep later hlater]

/-- Leaving out a step changes no other record exactly when it is harmless. -/
theorem Moment.Sound.records_eq_iff {earlier : List Step} {m : Moment} {item : Text × Entry}
    {events : List Event} (h : m.Sound earlier) (hlisted : item.1 ∈ m.listed)
    (hnumbers : ∀ s ∈ earlier, s.number ∉ events.filterMap Event.opened?)
    (hnumber : m.number ∉ events.filterMap Event.opened?)
    (hearlier : ∀ r ∈ earlier, ¬ (r.number = m.number ∧ r.item.1 = item.1))
    (hlater : ∀ r ∈ (m.next (.places item)).steps events,
      ¬ (r.number = m.number ∧ r.item.1 = item.1)) :
    (earlier ++ m.steps events).map Step.record =
        ((earlier ++ ⟨m, item⟩ :: (m.next (.places item)).steps events).map Step.record).filter
          (fun r => ¬ (r.1 = m.number ∧ r.2.1 = item.1)) ↔
      Harmless (earlier ++ ⟨m, item⟩ :: (m.next (.places item)).steps events) m.number item.1 := by
  have hfilter := @filter_records earlier _ ⟨m, item⟩ hearlier hlater
  have hharmless := @harmless_iff earlier _ ⟨m, item⟩ hearlier hlater
  refine Iff.trans ?_ hharmless.symm
  refine Iff.trans ?_ (h.targets_eq_iff hlisted hnumbers hnumber)
  have hitems : (m.steps events).map (fun s => (s.number, s.item)) =
      ((m.next (.places item)).steps events).map fun s => (s.number, s.item) :=
    Moment.map_item_steps events rfl
  rw [← map_record_eq_iff hitems, List.map_append]
  exact ⟨fun heq => List.append_cancel_left (heq.trans hfilter),
    fun heq => (congrArg (earlier.map Step.record ++ ·) heq).trans hfilter.symm⟩

section Drop

variable {pre post : List (Contribution × Nat)} {c : Contribution} {number : Nat}

/-- An entry that has been dropped already is harmless. -/
theorem records_drop_of_not_mem (hnumbers : ((pre ++ (c, number) :: post).map Prod.snd).Nodup)
    {id : Text} (hid : id ∉ OrderedMap.keys c.entries) :
    (stepsOf (pre ++ (c.drop id, number) :: post)).map Step.record =
        ((stepsOf (pre ++ (c, number) :: post)).map Step.record).filter
          (fun r => ¬ (r.1 = number ∧ r.2.1 = id)) ∧
      Harmless (stepsOf (pre ++ (c, number) :: post)) number id := by
  have hdrop : c.drop id = c := by rw [Contribution.drop, OrderedMap.erase_eq_self hid]
  have hnone : ∀ s ∈ stepsOf (pre ++ (c, number) :: post),
      ¬ (s.number = number ∧ s.item.1 = id) := by
    rintro s hs ⟨hnumber, rfl⟩
    obtain ⟨call, hcall, hsnd, hitem⟩ := exists_call_of_mem_steps hs
    have heq : call = (c, number) := List.inj_on_of_nodup_map hnumbers hcall
      (List.mem_append_right _ List.mem_cons_self) (hsnd.symm.trans hnumber)
    rw [heq] at hitem
    exact hid (List.mem_map_of_mem hitem)
  constructor
  · rw [hdrop, eq_comm, List.filter_eq_self]
    intro r hr
    obtain ⟨s, hs, rfl⟩ := List.mem_map.1 hr
    exact decide_eq_true (hnone s hs)
  · intro earlier s later heq hnumber hsid
    refine absurd ⟨hnumber, hsid⟩ (hnone s ?_)
    rw [heq]
    exact List.mem_append_right _ List.mem_cons_self

/-- **Leaving out an entry** of one contributor changes no other id, its own and those of later
contributors, exactly when it is harmless. -/
theorem records_drop_iff (hnumbers : ((pre ++ (c, number) :: post).map Prod.snd).Nodup)
    (hids : (OrderedMap.keys c.entries).Nodup) (hlisted : OrderedMap.keys c.entries ⊆ c.listed)
    (id : Text) :
    (stepsOf (pre ++ (c.drop id, number) :: post)).map Step.record =
        ((stepsOf (pre ++ (c, number) :: post)).map Step.record).filter
          (fun r => ¬ (r.1 = number ∧ r.2.1 = id)) ↔
      Harmless (stepsOf (pre ++ (c, number) :: post)) number id := by
  by_cases hid : id ∈ OrderedMap.keys c.entries
  swap
  · obtain ⟨hrecords, hharmless⟩ := records_drop_of_not_mem hnumbers hid
    exact iff_of_true hrecords hharmless
  obtain ⟨⟨id, entry⟩, hitem, rfl⟩ := List.mem_map.1 hid
  obtain ⟨before, behind, hentries⟩ := List.append_of_mem hitem
  rw [hentries, OrderedMap.keys, List.map_append, List.map_cons, List.nodup_middle,
    List.nodup_cons, List.mem_append, not_or] at hids
  obtain ⟨⟨hbefore, hbehind⟩, -⟩ := hids
  rw [List.map_append, List.map_cons, List.nodup_middle, List.nodup_cons, List.mem_append,
    not_or] at hnumbers
  obtain ⟨⟨hpre, hpost⟩, hothers⟩ := hnumbers
  -- the course up to the entry, and what follows it
  let head := eventsOf pre ++ (.opens number c.listed :: before.map .places)
  let rest := behind.map Event.places ++ eventsOf post
  let m := Moment.first.after head
  have hwith : stepsOf (pre ++ (c, number) :: post) =
      Moment.first.steps head ++ ⟨m, (id, entry)⟩ :: (m.next (.places (id, entry))).steps rest := by
    have hevents : eventsOf (pre ++ (c, number) :: post) = head ++ .places (id, entry) :: rest := by
      simp [head, rest, eventsOf_append, eventsOf_cons, hentries]
    rw [stepsOf, hevents]
    exact Moment.steps_append head _ _
  have hwithout : stepsOf (pre ++ (c.drop id, number) :: post) =
      Moment.first.steps head ++ m.steps rest := by
    have hevents : eventsOf (pre ++ (c.drop id, number) :: post) = head ++ rest := by
      simp [head, rest, eventsOf_append, eventsOf_cons, Contribution.drop, hentries,
        OrderedMap.erase_append_cons hbefore hbehind]
    rw [stepsOf, hevents]
    exact Moment.steps_append head _ _
  obtain ⟨hnumber, hlist⟩ : m.number = number ∧ m.listed = c.listed := by
    simp only [m, head, Moment.after_append, Moment.after_cons, Moment.after_places]
    exact ⟨rfl, rfl⟩
  have hopened : rest.filterMap Event.opened? = post.map Prod.snd := by
    rw [List.filterMap_append, opened_places, opened_eventsOf, List.nil_append]
  -- who is placed before the entry, and who behind it
  have hearlier : ∀ s ∈ Moment.first.steps head,
      s.number ∈ pre.map Prod.snd ∨ s.number = number ∧ s.item ∈ before := by
    intro s hs
    rw [Moment.steps_append, List.mem_append] at hs
    rcases hs with hs | hs
    · obtain ⟨call, hcall, hsnd, -⟩ := exists_call_of_mem_steps hs
      exact .inl (hsnd ▸ List.mem_map_of_mem hcall)
    · exact .inr (Moment.number_eq_of_mem_steps_places hs)
  have hlater : ∀ s ∈ (m.next (.places (id, entry))).steps rest,
      s.item ∈ behind ∨ s.number ∈ post.map Prod.snd := by
    intro s hs
    rw [Moment.steps_append, List.mem_append] at hs
    rcases hs with hs | hs
    · exact .inl (Moment.number_eq_of_mem_steps_places hs).2
    · obtain ⟨call, hcall, hsnd, -⟩ := exists_call_of_mem_steps hs
      exact .inr (hsnd ▸ List.mem_map_of_mem hcall)
  have hsound : m.Sound (Moment.first.steps head) := Moment.sound_first.after head
  have hmain := @Moment.Sound.records_eq_iff _ m (id, entry) rest hsound
  rw [hwith, hwithout]
  simp only [hnumber, hlist, hopened] at hmain
  refine hmain (hlisted hid) (fun s hs hmem => ?_) hpost (fun s hs => ?_) fun s hs => ?_
  · rcases hearlier s hs with hpre' | ⟨heq, -⟩
    · exact List.disjoint_of_nodup_append hothers hpre' hmem
    · exact hpost (heq ▸ hmem)
  · rintro ⟨heq, rfl⟩
    rcases hearlier s hs with hpre' | ⟨-, hitem⟩
    · exact hpre (heq ▸ hpre')
    · exact hbefore (List.mem_map.2 ⟨_, hitem, rfl⟩)
  · rintro ⟨heq, rfl⟩
    rcases hlater s hs with hitem | hpost'
    · exact hbehind (List.mem_map.2 ⟨_, hitem, rfl⟩)
    · exact hpost (heq ▸ hpost')

end Drop

end CoverageLift
