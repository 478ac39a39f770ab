import OfflineSupply.Proofs.Command.Launch
import OfflineSupply.Proofs.Stage.Balance

/-!
# Stages are ended as they were begun

Performing outlines writes two entries to the log for each stage that is entered, one when it begins
and one when it ends, and none for any other stage.  The entries are those of its announcements in the
order of time.  A failure makes no difference to this: it only decides which stages are entered, and
leaves its outline alone.  The open stages are afterwards what they were before, so the path that is
written at the end of a stage is the one that leads to it.
-/

namespace OfflineSupply.Stage

/-! ## What is written to the log -/

variable {host : Host} {s s' s'' : Session} {n : Nat} {outline : Outline} {outlines : List Outline}
  {enters enters' leads : List Nat → Place → Prop}

/-- An entry of the log tells an announcement when some stages are open around all. -/
def Tells (host : Host) (around : List String) : Announcement → LogEntry → Prop
  | .begins _ place, entry =>
    entry = { severity := .info, topic := .stages, message := "# " ++ place.stage.name }
  | .ends _ place, entry =>
    ∃ late : Session, entry =
      { severity := .debug, topic := .stages
        message := "Finished " ++ pathText (around ++ place.path) ++ " in " ++
          host.stopwatch late ++ "s" }

theorem tells_numbered_iff {around : List String} {a : Announcement} {entry : LogEntry} :
    Tells host around (a.numbered n) entry ↔ Tells host around a entry := by
  cases a <;> exact Iff.rfl

theorem tells_inside_iff {around : List String} {name : String} {a : Announcement}
    {entry : LogEntry} :
    Tells host around (a.inside name) entry ↔ Tells host (around ++ [name]) a entry := by
  cases a with
  | begins way place => exact Iff.rfl
  | ends way place =>
    simp only [Announcement.inside, Tells, Place.path, Place.inside, List.append_assoc,
      List.cons_append, List.nil_append]

/-- The log tells of all stages that are entered, in the order of time. -/
def Told (host : Host) (enters : List Nat → Place → Prop) (s s' : Session) : Prop :=
  ∃ order entries, Ordered enters order ∧ List.Forall₂ (Tells host s.stages) order entries ∧
    s'.log = s.log ++ entries

theorem Told.congr (h : Told host enters s s')
    (hsame : ∀ way place, enters' way place ↔ enters way place) : Told host enters' s s' := by
  obtain ⟨order, entries, hordered, hentries⟩ := h
  exact ⟨order, entries, hordered.congr hsame, hentries⟩

theorem told_nil (h : ∀ way place, ¬ enters way place) : Told host enters s s :=
  ⟨[], [], ordered_nil h, .nil, (List.append_nil _).symm⟩

theorem Told.cons (h : Told host enters s s') (hstages : s'.stages = s.stages)
    (hmore : Told host enters' s' s'')
    (hlater : ∀ way place, enters' way place → ∃ i rest, way = (n + 1 + i) :: rest) :
    Told host (fun way place ↦ (∃ rest, way = n :: rest ∧ enters rest place) ∨ enters' way place)
      s s'' := by
  obtain ⟨order, entries, hordered, htold, hlog⟩ := h
  obtain ⟨order', entries', hordered', htold', hlog'⟩ := hmore
  refine ⟨_, entries ++ entries', hordered.cons hordered' hlater, ?_, ?_⟩
  · apply List.rel_append
    · rw [List.forall₂_map_left_iff]
      exact htold.imp fun _ _ ↦ tells_numbered_iff.mpr
    · rwa [hstages] at htold'
  · rw [hlog', hlog, List.append_assoc]

/-- A stage writes an entry before and one after all that is written below it. -/
theorem Told.enclosed
    (h : Told host (Enters (LeadsInto 0 outline.children)) (begun outline.name s) s')
    (hstages : s'.stages = (begun outline.name s).stages) :
    Told host (Enters outline.Leads) s (ended host s') := by
  obtain ⟨order, entries, hordered, htold, hlog⟩ := h
  have hbelow : List.Forall₂ (Tells host s.stages) (order.map (·.inside outline.name)) entries := by
    rw [List.forall₂_map_left_iff]
    exact htold.imp fun _ _ ↦ tells_inside_iff.mpr
  refine ⟨_, _, hordered.enclosed, .cons rfl (List.rel_append hbelow (.cons ⟨s', rfl⟩ .nil)), ?_⟩
  change s'.log ++ [_] = _
  rw [hlog, hstages]
  simp [begun, Session.addLog, Place.path]

/-! ## What an outline does -/

/-- Outlines were performed: they end in the failure that one of their stages raises if some stage
gives up, the open stages are what they were, and the log tells of all stages that were entered. -/
structure Performed (host : Host) (leads : List Nat → Place → Prop) (s : Session)
    (result : Except Failure Unit) (s' : Session) : Prop where
  ok_iff : result = .ok () ↔ ¬ SomeGivesUp leads
  error_iff : ∀ e, result = .error e ↔ ∃ way, Raises leads way e
  stages : s'.stages = s.stages
  told : Told host (Enters leads) s s'

variable {result : Except Failure Unit} {e : Failure}

theorem Performed.not_raises (h : Performed host leads s (.ok ()) s') (way : List Nat) (e : Failure) :
    ¬ Raises leads way e := by
  intro hraises
  have hfailed := (h.error_iff e).mpr ⟨way, hraises⟩
  simp at hfailed

theorem performed_nil : Performed host (LeadsInto n []) s (.ok ()) s where
  ok_iff := by simp [SomeGivesUp, not_leadsInto_nil]
  error_iff := by simp [Raises, Reaches, not_leadsInto_nil]
  stages := rfl
  told := told_nil fun _ _ henters ↦ not_leadsInto_nil henters.1

theorem Performed.first_ok (h : Performed host outline.Leads s (.ok ()) s')
    (hmore : Performed host (LeadsInto (n + 1) outlines) s' result s'') :
    Performed host (LeadsInto n (outline :: outlines)) s result s'' := by
  have hnone : ¬ SomeGivesUp outline.Leads := h.ok_iff.mp rfl
  refine ⟨?_, ?_, hmore.stages.trans h.stages, ?_⟩
  · rw [hmore.ok_iff, someGivesUp_cons_iff, or_iff_right hnone]
  · simp [hmore.error_iff, raises_cons_iff, hnone, h.not_raises]
  · have htold := h.told.cons h.stages hmore.told fun _ _ henters ↦
      exists_eq_cons_of_inOneOf henters.1
    apply htold.congr
    intro way place
    simp only [Enters, reaches_cons_iff partingOrder_leftOf, hnone, not_false_eq_true, true_and]

theorem Performed.first_error (h : Performed host outline.Leads s (.error e) s') :
    Performed host (LeadsInto n (outline :: outlines)) s (.error e) s' := by
  have hsome : SomeGivesUp outline.Leads := by
    by_contra hnone
    have hdone := h.ok_iff.mpr hnone
    simp at hdone
  refine ⟨?_, ?_, h.stages, ?_⟩
  · simp [someGivesUp_cons_iff, hsome]
  · simp [h.error_iff, raises_cons_iff, hsome]
  · have hnothing : Told host (fun _ _ ↦ False) s' s' := told_nil fun _ _ ↦ id
    have htold := Told.cons (n := n) h.told h.stages hnothing fun _ _ ↦ False.elim
    apply htold.congr
    intro way place
    simp only [Enters, reaches_cons_iff partingOrder_leftOf, hsome, not_true_eq_false, false_and]

/-- A stage gives up behind those below it, and only if none of them did. -/
theorem Performed.enclosed (outline : Outline)
    (h : Performed host (LeadsInto 0 outline.children) (begun outline.name s) result s') :
    Performed host outline.Leads s
      (result >>= fun _ ↦ if outline.givesUp then .error (.stage outline.name) else .ok ())
      (ended host s') := by
  refine ⟨?_, ?_, ?_, h.told.enclosed h.stages⟩
  · rw [someGivesUp_outline_iff, not_or, ← h.ok_iff]
    cases result with
    | error e => simp [bind, Except.bind]
    | ok done => cases outline.givesUp <;> simp [bind, Except.bind]
  · intro e
    simp only [raises_outline_iff, exists_or, exists_eq_left, ← h.error_iff, ← h.ok_iff]
    cases result with
    | error e => simp [bind, Except.bind]
    | ok done => cases outline.givesUp <;> simp [bind, Except.bind, eq_comm]
  · change s'.stages.dropLast = s.stages
    rw [h.stages]
    exact List.dropLast_concat

mutual

-- The session is general: a stage hands on one in which it is open, and an outline the one in which
-- those before it ended.
theorem Outline.ensures_perform (host : Host) (s : Session) (outline : Outline) :
    Action.Ensures host s outline.perform (Performed host outline.Leads s) := by
  match outline with
  | .stage name children givesUp =>
    unfold Outline.perform
    rw [ensures_within]
    apply (ensures_performAll host (begun name s) 0 children).bind
    · intro _ s' hbelow
      have hperformed := Performed.enclosed (.stage name children givesUp) hbelow
      cases givesUp <;> exact hperformed
    · intro e s' hbelow
      exact Performed.enclosed (.stage name children givesUp) hbelow

theorem ensures_performAll (host : Host) (s : Session) (n : Nat) (outlines : List Outline) :
    Action.Ensures host s (performAll outlines) (Performed host (LeadsInto n outlines) s) := by
  match outlines with
  | [] =>
    unfold performAll
    exact performed_nil
  | outline :: outlines =>
    unfold performAll
    apply (outline.ensures_perform host s).bind
    · intro _ s' hfirst
      exact (ensures_performAll host s' (n + 1) outlines).mono fun _ _ ↦ hfirst.first_ok
    · intro e s' hfirst
      exact hfirst.first_error

end

/-- The failures that come from one outline. -/
def failuresOf : Except Failure Unit → List Failure
  | .ok _ => []
  | .error e => [e]

theorem Performed.enumerates (h : Performed host outline.Leads s result s') :
    Enumerates (Raises outline.Leads) (failuresOf result) := by
  cases result with
  | ok done => exact ⟨[], .nil, by simp [h.not_raises], rfl⟩
  | error e =>
    obtain ⟨way, hraises⟩ := (h.error_iff e).mp rfl
    refine ⟨[(way, e)], List.pairwise_singleton .., ?_, rfl⟩
    intro way' e'
    rw [List.mem_singleton, Prod.mk.injEq]
    constructor
    · rintro ⟨rfl, rfl⟩
      exact hraises
    · intro hraises'
      exact hraises'.unique hraises

/-- Each outline is performed whatever those before it did. -/
theorem ensures_performEach (host : Host) (s : Session) (n : Nat) (outlines : List Outline) :
    Action.Ensures host s (performEach outlines) fun r s' ↦
      (∃ failures, r = .ok failures ∧
        Enumerates (InOneOf n outlines fun outline ↦ Raises outline.Leads) failures) ∧
      s'.stages = s.stages ∧
      Told host (InOneOf n outlines fun outline ↦ Enters outline.Leads) s s' := by
  induction outlines generalizing n s with
  | nil =>
    have hnone {α : Type} {way : List Nat} {value : α} {inPart : Outline → List Nat → α → Prop} :
        ¬ InOneOf n [] inPart way value := by
      simp [InOneOf]
    exact ⟨⟨[], rfl, [], .nil, by simp [hnone], rfl⟩, rfl, told_nil fun _ _ ↦ hnone⟩
  | cons outline outlines ih =>
    unfold performEach
    rw [Action.ensures_bind, Action.ensures_attempt]
    apply (outline.ensures_perform host s).mono
    intro result s' hfirst
    apply (ih s' (n + 1)).bind
    · rintro failures s'' ⟨⟨failures', hsame, hfailures⟩, hstages, htold⟩
      obtain rfl := Except.ok.inj hsame
      refine ⟨⟨_, rfl, ?_⟩, hstages.trans hfirst.stages, ?_⟩
      · have hall : Enumerates (InOneOf n (outline :: outlines) fun outline ↦ Raises outline.Leads)
            (failuresOf result ++ failures) := by
          refine Enumerates.cons ?_ hfailures
          exact hfirst.enumerates
        cases result <;> exact hall
      · have hall := hfirst.told.cons hfirst.stages htold fun _ _ ↦ exists_eq_cons_of_inOneOf
        exact hall.congr fun _ _ ↦ inOneOf_cons_iff
    · rintro e s'' ⟨⟨failures, hfailed, -⟩, -⟩
      simp at hfailed

theorem session_performEach_cons (host : Host) (s : Session) (outline : Outline)
    (outlines : List Outline) :
    ((performEach (outline :: outlines)).run host s).2 =
      ((performEach outlines).run host (outline.perform.run host s).2).2 := by
  rw [performEach, Action.run_bind]
  change (((performEach outlines >>= _).run host (outline.perform.run host s).2).2 = _)
  rw [Action.run_bind]
  rcases (performEach outlines).run host (outline.perform.run host s).2 with ⟨_ | _, s'⟩ <;> rfl

/-- What is performed after some outlines begins in the session that they end in. -/
theorem session_performEach_append (host : Host) (s : Session) (first rest : List Outline) :
    ((performEach (first ++ rest)).run host s).2 =
      ((performEach rest).run host ((performEach first).run host s).2).2 := by
  induction first generalizing s with
  | nil => rfl
  | cons outline first ih =>
    rw [List.cons_append, session_performEach_cons, session_performEach_cons, ih]

example (host : Host) (s : Session) :
    ((performEach [.stage "a" [.stage "b" [] true, .stage "c" [] false] false,
      .stage "d" [] true]).run host s).1 = .ok [.stage "b", .stage "d"] := rfl

end OfflineSupply.Stage
