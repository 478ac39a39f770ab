import OfflineSupply.Proofs.Push.Quiet

/-!
# Categories that a push attempts

A live push that finds the archive of a category loads it, unless the name of an entry is malformed.
What follows only adds to what was started, so this can still be seen in the end, and nothing but a
failure that breaks a push off keeps it from its second category.
-/

namespace OfflineSupply

open Push

variable {host : Host} {s s' : Session}

/-! ## What only adds to a session -/

namespace Action

theorem growing_changeFiles (change : FileTree → Except FileError FileTree) :
    Keeps .growing host (changeFiles change) := by
  intro s
  have hchanged : Ensures host s (changeFiles change) fun _ s' ↦ s.Precedes s' := by
    rw [ensures_changeFiles]
    split
    · exact ⟨List.prefix_rfl, List.prefix_rfl⟩
    · exact .refl s
  exact hchanged

theorem growing_writeText (p : Path) (text : String) : Keeps .growing host (writeText p text) := by
  apply keeps_files.bind
  intro t
  split
  · exact keeps_print _
  · exact growing_changeFiles _

end Action

theorem Command.growing_perform (c : Command) (dryRun : Bool) :
    Action.Keeps .growing host (c.perform dryRun) :=
  keeps_perform_of_spawn fun _ ↦ growing_spawn c

theorem PolicyStore.growing_performPush (policy target : String) (insecure : List String)
    (dryRun : Bool) : Action.Keeps .growing host (performPush policy target insecure dryRun) := by
  have hperform (c : Command) : Action.Keeps .growing host
      (do let _ ← c.perform dryRun : Action Unit) :=
    (c.growing_perform dryRun).bind fun _ ↦ Action.keeps_pure ()
  unfold performPush withSources
  split
  · exact hperform _
  split
  · exact hperform _
  · have hhost : Action.Keeps .growing host Action.host := fun s ↦ .refl s
    exact hhost.bind fun _ ↦ Action.keeps_session.bind fun _ ↦
      (Action.growing_writeText _ _).bind fun _ ↦
        (hperform _).andFinally (Action.growing_changeFiles _)

namespace Category

variable {k : Category} {set : Settings} {m : Manifest} {registry entry target : String}

theorem keeps_announceLoad {frame : Session.Frame} :
    Action.Keeps frame host (k.announceLoad set) := by
  cases k with
  | images => exact Action.keeps_pure ()
  | policies => exact Action.keeps_log _ _ _

theorem growing_pushEntry : Action.Keeps .growing host (k.pushEntry registry set entry target) := by
  cases k with
  | images =>
    exact (Command.growing_perform _ _).bind fun _ ↦ (Command.growing_perform _ _).bind fun _ ↦
      Action.keeps_pure ()
  | policies =>
    exact (Action.keeps_log _ _ _).bind fun _ ↦ PolicyStore.growing_performPush _ _ _ _

theorem growing_push : Action.Keeps .growing host (k.push m set) :=
  (Action.keeps_ofExcept _).bind fun _ ↦ (keeps_needArchive _).bind fun _ ↦
    (Action.keeps_ofExcept _).bind fun _ ↦ keeps_announceLoad.bind fun _ ↦
      (Command.growing_perform _ _).bind fun _ ↦ Action.Keeps.forM fun _ ↦ growing_pushEntry

/-! ## Attempts -/

/-- The archive of the category is loaded, or one of its entries is malformed. -/
def Attempted (k : Category) (registry : String) (m : Manifest) (set : Settings) (s : Session) :
    Prop :=
  (∃ e ∈ s.executions, e.command = k.load (k.archive set)) ∨
    ∃ e, k.HasMalformed registry (k.entries m) e

theorem Attempted.of_precedes (h : k.Attempted registry m set s) (hs : s.Precedes s') :
    k.Attempted registry m set s' := by
  rcases h with ⟨e, he, hload⟩ | hmalformed
  · exact .inl ⟨e, hs.executions.subset he, hload⟩
  · exact .inr hmalformed

/-- Where the archive is there, a live push of the category attempts it. -/
theorem ensures_push_attempted (hlive : set.dryRun = false)
    (hregistry : set.registry? = some registry) (hthere : s.files.exists? (k.archive set) = true) :
    Action.Ensures host s (k.push m set) fun _ s' ↦ k.Attempted registry m set s' := by
  unfold push needArchive
  rw [needRegistry_eq_ok hregistry]
  change Action.Ensures host s ((Action.files >>= _) >>= _) _
  rw [bind_assoc, Action.ensures_files_bind, hthere]
  change Action.Ensures host s (Action.ofExcept _ >>= _) _
  cases hpairs : Push.targets (k.retarget registry) (k.entries m) with
  | error f =>
    obtain ⟨e, -, he⟩ := targets_eq_error_iff.mp hpairs
    exact .inr ⟨e, he⟩
  | ok pairs =>
    change Action.Ensures host s (k.announceLoad set >>= fun _ ↦
      (k.load (k.archive set)).perform set.dryRun >>= fun _ ↦
        pairs.forM fun pair ↦ k.pushEntry registry set pair.1 pair.2) _
    rw [hlive]
    have hannounced : ∃ s₁, (k.announceLoad set).run host s = (.ok (), s₁) := by
      cases k with
      | images => exact ⟨_, rfl⟩
      | policies => exact ⟨_, rfl⟩
    obtain ⟨s₁, hannounced⟩ := hannounced
    rw [Action.ensures_bind, Action.Ensures, hannounced]
    have hloaded : Action.Ensures host s₁ (k.load (k.archive set)).run fun _ s₂ ↦
        k.Attempted registry m set s₂ := by
      refine (Command.ensures_run rfl).mono fun _ _ hran ↦ ?_
      obtain ⟨l, hl⟩ := hran
      exact .inl ⟨l.execution host, by simp [hl.executions], hl.command⟩
    refine hloaded.bind ?_ fun _ _ h ↦ h
    intro _ s₂ hattempted
    exact hattempted.of_precedes ((Action.Keeps.forM fun _ ↦ growing_pushEntry) s₂)

end Category

namespace Push

variable {k : Category} {set : Settings} {m : Manifest} {registry : String} {t : FileTree}

/-- A category with entries is attempted where its archive is there, and only a failure that is not
reported breaks the push off. -/
theorem ensures_category_attempted (hlive : set.dryRun = false)
    (hregistry : set.registry? = some registry)
    (hthere : k.entries m ≠ [] → s.files.exists? (k.archive set) = true) :
    Action.Ensures host s (category k.name (k.entries m) (k.push m set)) fun r s' ↦
      (k.entries m ≠ [] → k.Attempted registry m set s') ∧
        ∀ e, r = .error e → e.isReported = false := by
  unfold category
  split
  · rename_i hempty
    exact ⟨fun hentries ↦ absurd (List.isEmpty_iff.mp hempty) hentries, by simp [Action.run_pure]⟩
  · rename_i hentries
    rw [List.isEmpty_iff] at hentries
    have hended {s' s'' : Session} (h : k.Attempted registry m set s')
        (hsame : s''.executions = s'.executions) : k.Attempted registry m set s'' := by
      rcases h with h | h
      · exact .inl (by rwa [hsame])
      · exact .inr h
    have hreturned {value : List (String × Failure)} {r : Except Failure (List (String × Failure))}
        (h : r = .ok value) : ∀ e, r = .error e → e.isReported = false := by
      simp [h]
    rw [Stage.ensures_within, Action.ensures_bind, Action.ensures_attempt]
    refine (Category.ensures_push_attempted (s := Stage.begun ("Push " ++ k.name) s) hlive hregistry
      (hthere hentries)).mono ?_
    intro r s₁ hattempted
    change Action.Ensures host s₁ _ _
    split
    · exact ⟨fun _ ↦ hended hattempted rfl, hreturned rfl⟩
    · exact ⟨fun _ ↦ hended hattempted rfl, hreturned rfl⟩
    · split
      · exact ⟨fun _ ↦ hended hattempted rfl, hreturned rfl⟩
      · rename_i e _ hreported
        refine ⟨fun _ ↦ hended hattempted rfl, ?_⟩
        intro e' he'
        rw [← Except.error.inj he']
        exact Bool.eq_false_iff.mpr hreported

/-- A live push that finds the archives of its categories attempts all of these, unless it is broken
off. -/
theorem attempted_all (hlive : set.dryRun = false) (hregistry : set.registry? = some registry)
    (hthere : ∀ k : Category, k.entries m ≠ [] → t.exists? (k.archive set) = true)
    (hleaves : Leaves host (Category.policies.archive set)) :
    let ended := (all m set).run host { files := t }
    (∃ e, ended.1 = .error e ∧ e.isReported = false) ∨
      ∀ k : Category, k.entries m ≠ [] → k.Attempted registry m set ended.2 := by
  have himages : Action.Ensures host { files := t }
      (category "images" m.images (images m set)) fun r s ↦
        ((m.images ≠ [] → Category.images.Attempted registry m set s) ∧
          ∀ e, r = .error e → e.isReported = false) ∧
        (m.policies ≠ [] → s.files.exists? (Category.policies.archive set) = true) := by
    have hkeeps : Action.Keeps (stays (Category.policies.archive set)) host
        (category "images" m.images (images m set)) :=
      keeps_category (keeps_images_of_spawn fun _ _ ↦ hleaves.keeps_spawn)
    refine ⟨ensures_category_attempted (k := .images) hlive hregistry (hthere .images), ?_⟩
    intro hentries
    exact hkeeps { files := t } (hthere .policies hentries)
  have hgrows : Action.Keeps .growing host (category "policies" m.policies (policies m set)) :=
    keeps_category (Category.growing_push (k := .policies))
  change Action.Ensures host { files := t } (all m set) fun r s ↦
    (∃ e, r = .error e ∧ e.isReported = false) ∨
      ∀ k : Category, k.entries m ≠ [] → k.Attempted registry m set s
  unfold all
  rw [Action.ensures_bind, Action.ensures_ofExcept, needRegistry_eq_ok hregistry]
  refine himages.bind ?_ fun e _ h ↦ .inl ⟨e, rfl, h.1.2 e rfl⟩
  rintro failures s₁ ⟨⟨hattempted, -⟩, hpolicies⟩
  have hboth : Action.Ensures host s₁ (category "policies" m.policies (policies m set)) fun r s ↦
      ((m.policies ≠ [] → Category.policies.Attempted registry m set s) ∧
        ∀ e, r = .error e → e.isReported = false) ∧ s₁.Precedes s :=
    ⟨ensures_category_attempted (k := .policies) hlive hregistry hpolicies, hgrows s₁⟩
  refine hboth.bind ?_ fun e _ h ↦ .inl ⟨e, rfl, h.1.2 e rfl⟩
  rintro failures' s₂ ⟨⟨hattempted', -⟩, hs₂⟩
  refine .inr fun k hentries ↦ ?_
  cases k with
  | images => exact (hattempted hentries).of_precedes hs₂
  | policies => exact hattempted' hentries

end Push

end OfflineSupply
