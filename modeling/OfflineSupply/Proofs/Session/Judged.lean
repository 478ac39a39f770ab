import OfflineSupply.Proofs.Manifest.Reading
import OfflineSupply.Proofs.Session.Frame
import OfflineSupply.Proofs.Session.Returns

/-!
# Runs that are judged

Two things are told of a result: which value it is, if it is one, and when the work breaks off, that
is, when it is a failure that the user is not told about.  A composed action gives what its second
part gives for what the first one gave, and the work breaks off in it when it does so in one of
them.  The second part only matters if the first one returns; what the host answers to it may then
be chosen for that one run.
-/

namespace OfflineSupply

variable {α β ι : Type}

/-- The result is one of these values, and the work breaks off on this condition. -/
structure Judged (r : Except Failure α) (gives : α → Prop) (breaks : Prop) : Prop where
  ok_iff (value : α) : r = .ok value ↔ gives value
  error_iff : (∃ e, r = .error e ∧ e.isReported = false) ↔ breaks

namespace Judged

variable {r : Except Failure α} {gives gives' : α → Prop} {breaks breaks' : Prop}

theorem congr (h : Judged r gives breaks) (hgives : ∀ value, gives value ↔ gives' value)
    (hbreaks : breaks ↔ breaks') : Judged r gives' breaks' :=
  ⟨fun value ↦ (h.ok_iff value).trans (hgives value), h.error_iff.trans hbreaks⟩

theorem ok (value : α) : Judged (.ok value) (value = ·) False :=
  ⟨fun _ ↦ by rw [Except.ok.injEq], by simp⟩

/-- A failure that the user is told about. -/
theorem reported {e : Failure} (h : e.isReported = true) :
    Judged (.error e : Except Failure α) (fun _ ↦ False) False := by
  refine ⟨by simp, ?_⟩
  simp [h]

/-- A failure that the user is not told about. -/
theorem unreported {e : Failure} (h : e.isReported = false) :
    Judged (.error e : Except Failure α) (fun _ ↦ False) True := by
  refine ⟨by simp, ?_⟩
  simp [h]

theorem map {f : α → β} (h : Judged r gives breaks) :
    Judged (r.map f) (fun value ↦ ∃ x, gives x ∧ f x = value) breaks := by
  constructor
  · intro value
    simp only [map_eq_ok_iff, h.ok_iff]
  · simp only [map_eq_error_iff, h.error_iff]

theorem bind_error {e : Failure} {gives' : α → β → Prop} {breaks' : α → Prop}
    (h : Judged (.error e) gives breaks) :
    Judged (.error e : Except Failure β) (fun last ↦ ∃ value, gives value ∧ gives' value last)
      (breaks ∨ ∃ value, gives value ∧ breaks' value) := by
  have hnone (value : α) : ¬ gives value := by
    simp [← h.ok_iff]
  refine ⟨by simp [hnone], ?_⟩
  simpa [hnone] using h.error_iff

theorem bind_ok {value : α} {r' : Except Failure β} {gives' : α → β → Prop} {breaks' : α → Prop}
    (h : Judged (.ok value) gives breaks) (h' : Judged r' (gives' value) (breaks' value)) :
    Judged r' (fun last ↦ ∃ value, gives value ∧ gives' value last)
      (breaks ∨ ∃ value, gives value ∧ breaks' value) := by
  have hone (other : α) : gives other ↔ other = value := by
    rw [← h.ok_iff, Except.ok.injEq, eq_comm]
  have hsound : ¬ breaks := by
    simp [← h.error_iff]
  exact h'.congr (by simp [hone]) (by simp [hone, hsound])

/-- What is read in two steps gives what the second step gives for what the first one gave. -/
theorem bind {f : α → Except Failure β} {gives' : α → β → Prop} {breaks' : α → Prop}
    (h : Judged r gives breaks) (hf : ∀ value, Judged (f value) (gives' value) (breaks' value)) :
    Judged (r >>= f) (fun last ↦ ∃ value, gives value ∧ gives' value last)
      (breaks ∨ ∃ value, gives value ∧ breaks' value) := by
  cases r with
  | error e => exact h.bind_error
  | ok value => exact h.bind_ok (hf value)

/-- A list is judged entry by entry; the first entry that is not read decides how it fails. -/
theorem mapM {xs : List ι} {f : ι → Except Failure α} {gives : ι → α → Prop} {breaks : ι → Prop}
    (h : ∀ x, Judged (f x) (gives x) (breaks x)) :
    Judged (xs.mapM f) (List.Forall₂ gives xs) (∃ before x after, xs = before ++ x :: after ∧
      (∀ y ∈ before, ∃ value, gives y value) ∧ breaks x) := by
  constructor
  · intro values
    simp only [mapM_eq_ok_iff, (h _).ok_iff]
  · simp only [mapM_eq_error_iff, (h _).ok_iff, ← (h _).error_iff]
    constructor
    · rintro ⟨e, ⟨before, x, after, hsplit, hread, hx⟩, he⟩
      exact ⟨before, x, after, hsplit, hread, e, hx, he⟩
    · rintro ⟨before, x, after, hsplit, hread, e, hx, he⟩
      exact ⟨e, ⟨before, x, after, hsplit, hread, hx⟩, he⟩

/-- Where each entry is read or breaks the work off, one of these suffices to do so. -/
theorem mapM_of_total {xs : List ι} {f : ι → Except Failure α} {gives : ι → α → Prop}
    {breaks : ι → Prop} (h : ∀ x, Judged (f x) (gives x) (breaks x))
    (htotal : ∀ x, breaks x ∨ ∃ value, gives x value) :
    Judged (xs.mapM f) (List.Forall₂ gives xs) (∃ x ∈ xs, breaks x) := by
  refine (mapM h).congr (fun _ ↦ Iff.rfl) ?_
  induction xs with
  | nil => simp
  | cons x xs ih =>
    rw [exists_split_cons_iff, List.exists_mem_cons_iff, ← ih]
    by_cases hx : breaks x
    · simp [hx]
    · have hread : ∃ value, gives x value := (htotal x).resolve_left hx
      simp [hx, hread]

end Judged

namespace Action

variable {host : Host} {s : Session} {a : Action α} {f : α → Action β} {gives : α → Prop}
  {breaks : Prop}

/-- The result of a run gives these values and breaks on this condition. -/
def Judges (host : Host) (s : Session) (a : Action α) (gives : α → Prop) (breaks : Prop) : Prop :=
  Judged (a.run host s).1 gives breaks

theorem Judges.congr {gives' : α → Prop} {breaks' : Prop} (h : Judges host s a gives breaks)
    (hgives : ∀ value, gives value ↔ gives' value) (hbreaks : breaks ↔ breaks') :
    Judges host s a gives' breaks' :=
  Judged.congr h hgives hbreaks

theorem judges_pure (value : α) : Judges host s (pure value) (value = ·) False :=
  Judged.ok value

theorem judges_fail {e : Failure} (h : e.isReported = true) :
    Judges host s (fail e : Action α) (fun _ ↦ False) False :=
  Judged.reported h

theorem judges_ofExcept {r : Except Failure α} (h : Judged r gives breaks) :
    Judges host s (ofExcept r) gives breaks :=
  h

/-- What is refused with a failure that the user is told about neither gives a value nor breaks. -/
theorem judges_guard {p : Prop} [Decidable p] {e : Failure} (he : e.isReported = true)
    (h : ¬ p → Judges host s a gives breaks) :
    Judges host s (if p then fail e else a) (fun value ↦ ¬ p ∧ gives value) (¬ p ∧ breaks) := by
  by_cases hp : p
  · rw [if_pos hp]
    exact (judges_fail he).congr (by simp [hp]) (by simp [hp])
  · rw [if_neg hp]
    exact (h hp).congr (by simp [hp]) (by simp [hp])

theorem judges_log_bind {severity : Severity} {topic : Topic} {message : String}
    {f : Unit → Action α} :
    Judges host s (log severity topic message >>= f) gives breaks ↔
      Judges host (s.addLog { severity, topic, message }) (f ()) gives breaks := Iff.rfl

theorem judges_host_bind {f : Host → Action α} :
    Judges host s (Action.host >>= f) gives breaks ↔ Judges host s (f host) gives breaks := Iff.rfl

theorem judges_session_bind {f : Session → Action α} :
    Judges host s (session >>= f) gives breaks ↔ Judges host s (f s) gives breaks := Iff.rfl

theorem judges_modify_bind {change : Session → Session} {f : Unit → Action α} :
    Judges host s (modify change >>= f) gives breaks ↔
      Judges host (change s) (f ()) gives breaks := Iff.rfl

theorem judges_attempt_bind {f : Except Failure α → Action β} {gives : β → Prop} :
    Judges host s (a.attempt >>= f) gives breaks ↔
      Judges host (a.run host s).2 (f (a.run host s).1) gives breaks := Iff.rfl

theorem judges_within {name : String} :
    Judges host s (Stage.within name a) gives breaks ↔
      Judges host (Stage.begun name s) a gives breaks := by
  change Ensures host s (Stage.within name a) (fun r _ ↦ Judged r gives breaks) ↔ _
  rw [Stage.ensures_within]
  rfl

/-- A sequence is judged by its parts; the second one only matters where the first one returns. -/
theorem Judges.bind {gives' : α → β → Prop} {breaks' : α → Prop}
    (h : Judges host s a gives breaks)
    (hf : ∀ value s', Returns host s a value s' →
      Judges host s' (f value) (gives' value) (breaks' value)) :
    Judges host s (a >>= f) (fun last ↦ ∃ value, gives value ∧ gives' value last)
      (breaks ∨ ∃ value, gives value ∧ breaks' value) := by
  unfold Judges at h ⊢
  rw [run_bind]
  rcases hrun : a.run host s with ⟨e | value, s'⟩
  · rw [hrun] at h
    exact h.bind_error
  · rw [hrun] at h
    exact h.bind_ok (hf value s' hrun)

theorem judges_ofExcept_bind {r : Except Failure α} {gives' : α → β → Prop} {breaks' : α → Prop}
    (h : Judged r gives breaks)
    (hf : ∀ value, Judges host s (f value) (gives' value) (breaks' value)) :
    Judges host s (ofExcept r >>= f) (fun last ↦ ∃ value, gives value ∧ gives' value last)
      (breaks ∨ ∃ value, gives value ∧ breaks' value) := by
  refine (judges_ofExcept h).bind ?_
  intro value s' hvalue
  rw [← (returns_ofExcept.mp hvalue).2]
  exact hf value

/-! ## Runs that are judged by sessions on their way -/

/-- Sessions on the way from one session to another one.  A way that is longer at both ends passes
through the same ones, and there are some on a way that leads nowhere. -/
structure Waypoints (X : Type) where
  passes : Session → X → Session → Prop
  extend {s₀ s s' s₁ : Session} {x : X} :
    s₀.Precedes s → passes s x s' → s'.Precedes s₁ → passes s₀ x s₁
  stays (s : Session) : ∃ x, passes s x s

/-- One session on the way. -/
def Waypoints.one : Waypoints Session where
  passes s x s' := s.Precedes x ∧ x.Precedes s'
  extend h hpasses h' := ⟨h.trans hpasses.1, hpasses.2.trans h'⟩
  stays s := ⟨s, .refl s, .refl s⟩

/-- Sessions on one way and then on another one. -/
def Waypoints.followedBy {X Y : Type} (w : Waypoints X) (w' : Waypoints Y) : Waypoints (X × Y) where
  passes s xy s' := ∃ middle, w.passes s xy.1 middle ∧ w'.passes middle xy.2 s'
  extend := by
    rintro s₀ s s' s₁ xy h ⟨middle, hfirst, hsecond⟩ h'
    exact ⟨middle, w.extend h hfirst (.refl middle), w'.extend (.refl middle) hsecond h'⟩
  stays s := by
    obtain ⟨x, hx⟩ := w.stays s
    obtain ⟨y, hy⟩ := w'.stays s
    exact ⟨(x, y), s, hx, hy⟩

/-- A run is judged by sessions that it passes through. -/
def JudgesBy {X : Type} (w : Waypoints X) (host : Host) (s : Session) (a : Action α)
    (gives : X → α → Prop) (breaks : X → Prop) : Prop :=
  ∃ x, w.passes s x (a.run host s).2 ∧ Judges host s a (gives x) (breaks x)

section

variable {X Y : Type} {w : Waypoints X} {w' : Waypoints Y} {gives : X → α → Prop}
  {breaks : X → Prop} {gives' : Y → α → β → Prop} {breaks' : Y → α → Prop}

theorem JudgesBy.congr {gives' : X → α → Prop} {breaks' : X → Prop}
    (h : JudgesBy w host s a gives breaks) (hgives : ∀ x value, gives x value ↔ gives' x value)
    (hbreaks : ∀ x, breaks x ↔ breaks' x) : JudgesBy w host s a gives' breaks' := by
  obtain ⟨x, hpasses, hjudged⟩ := h
  exact ⟨x, hpasses, hjudged.congr (hgives x) (hbreaks x)⟩

theorem judgesBy_log_bind {severity : Severity} {topic : Topic} {message : String}
    {f : Unit → Action α}
    (h : JudgesBy w host (s.addLog { severity, topic, message }) (f ()) gives breaks) :
    JudgesBy w host s (log severity topic message >>= f) gives breaks := by
  obtain ⟨x, hpasses, hjudged⟩ := h
  have hlogged : s.Precedes (s.addLog { severity, topic, message }) :=
    Session.Frame.growing.of_untouched ⟨rfl, rfl, rfl⟩
  exact ⟨x, w.extend hlogged hpasses (.refl _), judges_log_bind.mpr hjudged⟩

/-- What a run is judged by may be the session that it starts from. -/
theorem Judges.by_start {gives : Session → α → Prop} {breaks : Session → Prop}
    (h : Judges host s a (gives s) (breaks s)) (hkeeps : Keeps .growing host a) :
    JudgesBy .one host s a gives breaks :=
  ⟨s, ⟨.refl s, hkeeps s⟩, h⟩

theorem precedes_begun (name : String) (s : Session) : s.Precedes (Stage.begun name s) :=
  Session.Frame.growing.of_untouched ⟨rfl, rfl, rfl⟩

theorem precedes_within {name : String} {s' : Session}
    (h : s'.Precedes (a.run host (Stage.begun name s)).2) :
    s'.Precedes ((Stage.within name a).run host s).2 := by
  have hend : ((Stage.within name a).run host s).2 =
      Stage.ended host (a.run host (Stage.begun name s)).2 := by
    change Ensures host s (Stage.within name a) fun _ s' ↦
      s' = Stage.ended host (a.run host (Stage.begun name s)).2
    rw [Stage.ensures_within]
    rfl
  rw [hend]
  exact h.trans (Session.Frame.growing.of_untouched ⟨rfl, rfl, rfl⟩)

/-- A stage is judged by the session in which it has begun and by those that its body is judged
by. -/
theorem judgesBy_within {name : String} {gives : Session → X → α → Prop}
    {breaks : Session → X → Prop} (h : ∀ s, JudgesBy w host s a (gives s) (breaks s)) :
    JudgesBy (Waypoints.one.followedBy w) host s (Stage.within name a)
      (fun xy ↦ gives xy.1 xy.2) (fun xy ↦ breaks xy.1 xy.2) := by
  obtain ⟨x, hpasses, hjudged⟩ := h (Stage.begun name s)
  have hend : Session.Precedes (a.run host (Stage.begun name s)).2
      ((Stage.within name a).run host s).2 :=
    precedes_within (.refl _)
  exact ⟨(Stage.begun name s, x),
    ⟨Stage.begun name s, ⟨precedes_begun name s, .refl _⟩, w.extend (.refl _) hpasses hend⟩,
    judges_within.mpr hjudged⟩

theorem judgesBy_one_within {name : String} {gives : Session → α → Prop}
    {breaks : Session → Prop} (h : ∀ s, Judges host s a (gives s) (breaks s))
    (hkeeps : Keeps .growing host a) : JudgesBy .one host s (Stage.within name a) gives breaks :=
  ⟨Stage.begun name s, ⟨precedes_begun name s, precedes_within (hkeeps _)⟩,
    judges_within.mpr (h _)⟩

/-- A sequence is judged by the sessions of both parts.  Where the first part fails, the second one
is not run, and sessions on no way stand for its own. -/
theorem JudgesBy.bind (h : JudgesBy w host s a gives breaks)
    (hf : ∀ value s', Returns host s a value s' →
      JudgesBy w' host s' (f value) (gives' · value) (breaks' · value)) :
    JudgesBy (w.followedBy w') host s (a >>= f)
      (fun xy last ↦ ∃ value, gives xy.1 value ∧ gives' xy.2 value last)
      (fun xy ↦ breaks xy.1 ∨ ∃ value, gives xy.1 value ∧ breaks' xy.2 value) := by
  obtain ⟨x, hpasses, hjudged⟩ := h
  unfold JudgesBy Judges at *
  rw [run_bind]
  rcases hrun : a.run host s with ⟨e | value, s'⟩
  · rw [hrun] at hpasses hjudged
    obtain ⟨y, hy⟩ := w'.stays s'
    exact ⟨(x, y), ⟨s', hpasses, hy⟩, hjudged.bind_error⟩
  · rw [hrun] at hpasses hjudged
    obtain ⟨y, hy, hlast⟩ := hf value s' hrun
    exact ⟨(x, y), ⟨s', hpasses, hy⟩, hjudged.bind_ok hlast⟩

/-- The same where no session matters for the first part. -/
theorem Judges.bind_by {gives : α → Prop} {breaks : Prop} (h : Judges host s a gives breaks)
    (hkeeps : Keeps .growing host a)
    (hf : ∀ value s', Returns host s a value s' →
      JudgesBy w' host s' (f value) (gives' · value) (breaks' · value)) :
    JudgesBy w' host s (a >>= f) (fun y last ↦ ∃ value, gives value ∧ gives' y value last)
      (fun y ↦ breaks ∨ ∃ value, gives value ∧ breaks' y value) := by
  have hgrown : s.Precedes (a.run host s).2 := hkeeps s
  unfold JudgesBy Judges at *
  rw [run_bind]
  rcases hrun : a.run host s with ⟨e | value, s'⟩
  · rw [hrun] at h hgrown
    obtain ⟨y, hy⟩ := w'.stays s'
    exact ⟨y, w'.extend hgrown hy (.refl _), h.bind_error⟩
  · rw [hrun] at h hgrown
    obtain ⟨y, hy, hlast⟩ := hf value s' hrun
    exact ⟨y, w'.extend hgrown hy (.refl _), h.bind_ok hlast⟩

/-- The same where no session matters for the second part. -/
theorem JudgesBy.bind_judges {gives' : α → β → Prop} {breaks' : α → Prop}
    (h : JudgesBy w host s a gives breaks) (hkeeps : ∀ value, Keeps .growing host (f value))
    (hf : ∀ value s', Returns host s a value s' →
      Judges host s' (f value) (gives' value) (breaks' value)) :
    JudgesBy w host s (a >>= f) (fun x last ↦ ∃ value, gives x value ∧ gives' value last)
      (fun x ↦ breaks x ∨ ∃ value, gives x value ∧ breaks' value) := by
  obtain ⟨x, hpasses, hjudged⟩ := h
  unfold JudgesBy Judges at *
  rw [run_bind]
  rcases hrun : a.run host s with ⟨e | value, s'⟩
  · rw [hrun] at hpasses hjudged
    exact ⟨x, hpasses, hjudged.bind_error⟩
  · rw [hrun] at hpasses hjudged
    exact ⟨x, w.extend (.refl s) hpasses (hkeeps value s'), hjudged.bind_ok (hf value s' hrun)⟩

theorem judgesBy_guard {p : Prop} [Decidable p] {e : Failure} (he : e.isReported = true)
    (h : ¬ p → JudgesBy w host s a gives breaks) :
    JudgesBy w host s (if p then fail e else a) (fun x value ↦ ¬ p ∧ gives x value)
      (fun x ↦ ¬ p ∧ breaks x) := by
  by_cases hp : p
  · rw [if_pos hp]
    obtain ⟨x, hx⟩ := w.stays s
    exact ⟨x, hx, (judges_fail he).congr (by simp [hp]) (by simp [hp])⟩
  · rw [if_neg hp]
    obtain ⟨x, hx, hjudged⟩ := h hp
    exact ⟨x, hx, hjudged.congr (by simp [hp]) (by simp [hp])⟩

end

end Action

end OfflineSupply
