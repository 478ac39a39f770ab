import OfflineSupply.Proofs.DryRun
import OfflineSupply.Proofs.Push.Category

/-!
# Pushes that skip nothing

A push warns only when it skips a category because its archive is missing.  Commands and the writing of
a sources file may fail in many ways, but they log no warnings and are never taken for a missing
archive.  So a push that finds both archives logs no warning, whatever becomes of its processes.
-/

namespace OfflineSupply

/-- The log holds no warning. -/
def Session.Unwarned (s : Session) : Prop :=
  ∀ entry ∈ s.log, entry.severity ≠ .warning

theorem Session.Unwarned.addLog {s : Session} {entry : LogEntry} (hs : s.Unwarned)
    (h : entry.severity ≠ .warning) : (s.addLog entry).Unwarned := by
  intro entry' hentry'
  rcases List.mem_append.mp hentry' with hbefore | hlast
  · exact hs entry' hbefore
  · rw [List.mem_singleton.mp hlast]
    exact h

/-- A failure for want of an archive. -/
def Failure.WantsArchive (e : Failure) : Prop :=
  ∃ name, e = .missingArchive name

theorem Failure.not_wantsArchive_ofFile (e : FileError) : ¬ (ofFile e).WantsArchive := by
  rintro ⟨name, hname⟩
  unfold ofFile at hname
  split at hname <;> cases hname

namespace Action

variable {α β : Type} {host : Host}

/-- The action logs no warning and does not fail for want of an archive. -/
def Quiet (host : Host) (a : Action α) : Prop :=
  ∀ s : Session, s.Unwarned → Ensures host s a fun r s' ↦
    s'.Unwarned ∧ ∀ e, r = .error e → ¬ e.WantsArchive

theorem quiet_pure (value : α) : Quiet host (pure value) :=
  fun _ hs ↦ ⟨hs, by simp [run_pure]⟩

theorem quiet_fail {e : Failure} (h : ¬ e.WantsArchive) : Quiet host (fail e : Action α) := by
  intro s hs
  refine ⟨hs, ?_⟩
  intro e' he'
  rw [← Except.error.inj he']
  exact h

theorem quiet_ofExcept {result : Except Failure α}
    (h : ∀ e, result = .error e → ¬ e.WantsArchive) : Quiet host (ofExcept result) :=
  fun _ hs ↦ ⟨hs, h⟩

theorem quiet_log {severity : Severity} (h : severity ≠ .warning) (topic : Topic)
    (message : String) : Quiet host (log severity topic message) :=
  fun _ hs ↦ ⟨hs.addLog h, by simp [run, log, modify]⟩

/-- An action that leaves the log as it is and returns. -/
theorem quiet_of_log {a : Action α}
    (h : ∀ s : Session, ∃ value, (a.run host s).1 = .ok value ∧ (a.run host s).2.log = s.log) :
    Quiet host a := by
  intro s hs
  obtain ⟨value, hvalue, hlog⟩ := h s
  constructor
  · unfold Session.Unwarned
    rw [hlog]
    exact hs
  · rw [hvalue]
    simp

theorem quiet_changeFiles (change : FileTree → Except FileError FileTree) :
    Quiet host (changeFiles change) := by
  intro s hs
  rw [ensures_changeFiles]
  split
  · exact ⟨hs, by simp⟩
  · refine ⟨hs, ?_⟩
    intro e he
    rw [← Except.error.inj he]
    exact Failure.not_wantsArchive_ofFile _

theorem Quiet.bind {a : Action α} {f : α → Action β} (h : Quiet host a)
    (hf : ∀ value, Quiet host (f value)) : Quiet host (a >>= f) := by
  intro s hs
  refine (h s hs).bind ?_ ?_
  · intro value s₁ ⟨hs₁, _⟩
    exact hf value s₁ hs₁
  · intro e s₁ ⟨hs₁, he⟩
    refine ⟨hs₁, ?_⟩
    intro e' he'
    rw [← Except.error.inj he']
    exact he e rfl

theorem Quiet.forM {xs : List α} {f : α → Action Unit} (h : ∀ x, Quiet host (f x)) :
    Quiet host (xs.forM f) := by
  induction xs with
  | nil => exact quiet_pure ()
  | cons x xs ih => exact (h x).bind fun _ ↦ ih

theorem Quiet.andFinally {a : Action α} {last : Action Unit} (h : Quiet host a)
    (hlast : Quiet host last) : Quiet host (a.andFinally last) := by
  intro s hs
  rw [ensures_andFinally]
  refine (h s hs).mono ?_
  intro r s₁ ⟨hs₁, hr⟩
  refine (hlast s₁ hs₁).mono ?_
  intro r' s₂ ⟨hs₂, hr'⟩
  cases r' with
  | ok value => exact ⟨hs₂, hr⟩
  | error e =>
    refine ⟨hs₂, ?_⟩
    intro e' he'
    rw [← Except.error.inj he']
    exact hr' e rfl

theorem quiet_writeText (p : Path) (text : String) : Quiet host (writeText p text) := by
  have hfiles : Quiet host files := quiet_of_log fun s ↦ ⟨s.files, rfl, rfl⟩
  apply hfiles.bind
  intro t
  split
  · exact quiet_of_log fun s ↦ ⟨(), rfl, rfl⟩
  · exact quiet_changeFiles _

end Action

/-! ## Commands -/

namespace Command

variable {host : Host} {c : Command}

theorem quiet_outputText (octets : ByteArray) : Action.Quiet host (outputText octets) := by
  unfold outputText
  split
  · exact Action.quiet_pure _
  · exact Action.quiet_fail (by simp [Failure.WantsArchive])

/-- Giving up with the failure of a command. -/
theorem quiet_failure_bind {α : Type} (ending : CommandEnding) {f : Failure → Action α}
    (h : ∀ cause, Action.Quiet host (f (.command cause))) :
    Action.Quiet host (c.failure ending >>= f) := by
  unfold failure
  rw [bind_assoc]
  have hsession : Action.Quiet host Action.session := Action.quiet_of_log fun s ↦ ⟨s, rfl, rfl⟩
  exact hsession.bind fun _ ↦ h _

theorem quiet_exitFailure_bind {α : Type} (code : Int) (outcome : Outcome)
    {f : Failure → Action α} (h : ∀ cause, Action.Quiet host (f (.command cause))) :
    Action.Quiet host (c.exitFailure code outcome >>= f) := by
  unfold exitFailure
  simp only [bind_assoc, pure_bind]
  exact (quiet_outputText _).bind fun _ ↦ (quiet_outputText _).bind fun _ ↦
    quiet_failure_bind _ fun cause ↦ (Action.quiet_log (by simp) _ _).bind fun _ ↦ h cause

theorem quiet_run (c : Command) : Action.Quiet host c.run := by
  have hsession : Action.Quiet host Action.session := Action.quiet_of_log fun s ↦ ⟨s, rfl, rfl⟩
  have hspawn : Action.Quiet host c.spawn := Action.quiet_of_log fun s ↦ ⟨_, rfl, rfl⟩
  have hfail (cause : CommandError) :
      Action.Quiet host (Action.fail (.command cause) : Action String) :=
    Action.quiet_fail (by simp [Failure.WantsArchive])
  apply hsession.bind
  intro s
  apply (Action.quiet_log (by simp) _ _).bind
  intro _
  apply hspawn.bind
  intro outcome
  split
  · exact Action.quiet_fail (by simp [Failure.WantsArchive])
  · exact quiet_failure_bind _ hfail
  · exact quiet_outputText _
  · exact quiet_exitFailure_bind _ _ hfail

theorem quiet_perform (c : Command) (dryRun : Bool) : Action.Quiet host (c.perform dryRun) := by
  cases dryRun with
  | true => exact Action.quiet_of_log fun s ↦ ⟨"", rfl, rfl⟩
  | false => exact quiet_run c

theorem quiet_perform_unit (c : Command) (dryRun : Bool) :
    Action.Quiet host (do let _ ← c.perform dryRun : Action Unit) :=
  (quiet_perform c dryRun).bind fun _ ↦ Action.quiet_pure ()

end Command

theorem PolicyStore.quiet_performPush {host : Host} (policy target : String)
    (insecure : List String) (dryRun : Bool) :
    Action.Quiet host (performPush policy target insecure dryRun) := by
  have hbody (sources : Path) : Action.Quiet host (do
      let _ ← (pushFrom policy target sources).perform dryRun : Action Unit) :=
    Command.quiet_perform_unit _ dryRun
  unfold performPush withSources
  split
  · exact Command.quiet_perform_unit _ dryRun
  split
  · exact hbody _
  · have hhost : Action.Quiet host Action.host := Action.quiet_of_log fun s ↦ ⟨host, rfl, rfl⟩
    have hsession : Action.Quiet host Action.session := Action.quiet_of_log fun s ↦ ⟨s, rfl, rfl⟩
    exact hhost.bind fun _ ↦ hsession.bind fun _ ↦ (Action.quiet_writeText _ _).bind fun _ ↦
      (hbody _).andFinally (Action.quiet_changeFiles _)

/-! ## Categories whose archives are there -/

namespace Category

variable {k : Category} {host : Host} {s : Session} {set : Settings} {m : Manifest}

theorem quiet_pushEntry (registry entry target : String) :
    Action.Quiet host (k.pushEntry registry set entry target) := by
  cases k with
  | images =>
    exact (Command.quiet_perform _ _).bind fun _ ↦ Command.quiet_perform_unit _ _
  | policies =>
    exact (Action.quiet_log (by simp) _ _).bind fun _ ↦ PolicyStore.quiet_performPush _ _ _ _

theorem quiet_send (registry : String) (pairs : List (String × String)) :
    Action.Quiet host (k.send registry set pairs) := by
  have hannounce : Action.Quiet host (k.announceLoad set) := by
    cases k with
    | images => exact Action.quiet_pure ()
    | policies => exact Action.quiet_log (by simp) _ _
  exact hannounce.bind fun _ ↦ (Command.quiet_perform _ _).bind fun _ ↦
    Action.Quiet.forM fun pair ↦ quiet_pushEntry registry pair.1 pair.2

/-- Where the archive is there, pushing a category logs no warning and is not given up for want of
it. -/
theorem ensures_push_unwarned (hthere : s.files.exists? (k.archive set) = true)
    (hs : s.Unwarned) : Action.Ensures host s (k.push m set) fun r s' ↦
      s'.Unwarned ∧ ∀ e, r = .error e → ¬ e.WantsArchive := by
  unfold push Push.needArchive
  rw [Action.ensures_bind, Action.ensures_ofExcept]
  cases hregistry : Push.needRegistry set with
  | error e =>
    refine ⟨hs, ?_⟩
    intro e' he'
    unfold Push.needRegistry at hregistry
    cases hgiven : set.registry? with
    | none =>
      rw [hgiven] at hregistry
      rw [← Except.error.inj he', ← Except.error.inj hregistry]
      simp [Failure.WantsArchive]
    | some registry =>
      rw [hgiven] at hregistry
      cases hregistry
  | ok registry =>
    have htargets : Action.Quiet host
        (Action.ofExcept (Push.targets (k.retarget registry) (k.entries m))) := by
      apply Action.quiet_ofExcept
      intro e he
      obtain ⟨cause, rfl, -⟩ := targets_eq_error_iff.mp he
      simp [Failure.WantsArchive]
    change Action.Ensures host s ((Action.files >>= _) >>= _) _
    rw [bind_assoc, Action.ensures_files_bind, hthere]
    exact (htargets.bind fun pairs ↦ quiet_send registry pairs) s hs

end Category

namespace Push

variable {host : Host} {s : Session} {set : Settings} {m : Manifest} {k : Category} {t : FileTree}

/-- A category whose archive is there, if it has entries, is not skipped. -/
theorem ensures_category_unwarned
    (hthere : k.entries m ≠ [] → s.files.exists? (k.archive set) = true) (hs : s.Unwarned) :
    Action.Ensures host s (category k.name (k.entries m) (k.push m set)) fun _ s' ↦
      s'.Unwarned := by
  unfold category
  split
  · exact hs
  · rename_i hentries
    rw [List.isEmpty_iff] at hentries
    have hbegun : (Stage.begun ("Push " ++ k.name) s).Unwarned := by
      have hopened : Session.Unwarned { s with stages := s.stages ++ ["Push " ++ k.name] } := hs
      exact hopened.addLog (by simp)
    have hended {s' : Session} (hs' : s'.Unwarned) : (Stage.ended host s').Unwarned := by
      have hclosed : Session.Unwarned { s' with stages := s'.stages.dropLast } := hs'
      exact hclosed.addLog (by simp)
    rw [Stage.ensures_within, Action.ensures_bind, Action.ensures_attempt]
    refine (Category.ensures_push_unwarned (s := Stage.begun ("Push " ++ k.name) s)
      (hthere hentries) hbegun).mono ?_
    intro r s₁ ⟨hs₁, hr⟩
    change Action.Ensures host s₁ _ _
    split
    · exact hended hs₁
    · rename_i archive
      exact absurd ⟨archive, rfl⟩ (hr _ rfl)
    · split
      · exact hended (hs₁.addLog (by simp))
      · exact hended hs₁

/-- The frame of actions after which something is still at a path where something was. -/
def stays (p : Path) : Session.Frame where
  keeps s s' := s.files.exists? p = true → s'.files.exists? p = true
  of_untouched h hthere := by
    rwa [h.files]
  trans h h' hthere := h' (h hthere)

/-- The processes that move images leave what is at a path there. -/
def Leaves (host : Host) (p : Path) : Prop :=
  ∀ (session : Session) (c : Command), c.tool = .docker → session.files.exists? p = true →
    (host.launch session c).files.exists? p = true

theorem Leaves.keeps_spawn {p : Path} (h : Leaves host p) {c : Command} (hc : c.tool = .docker) :
    Action.Keeps (stays p) host c.spawn := by
  intro s hthere
  change (if c.isExpired then ({ files := s.files, exit := none } : Outcome)
    else host.launch s c).files.exists? p = true
  split
  · exact hthere
  · exact h s c hc hthere

/-- A push that finds the archives of its categories skips neither of them. -/
theorem unwarned_all (hthere : ∀ k : Category, k.entries m ≠ [] → t.exists? (k.archive set) = true)
    (hleaves : Leaves host (Category.policies.archive set)) :
    ((all m set).run host { files := t }).2.Unwarned := by
  have hnone : Session.Unwarned { files := t } := by
    simp [Session.Unwarned]
  have himages : Action.Ensures host { files := t }
      (category "images" m.images (images m set)) fun _ s ↦ s.Unwarned ∧
        (m.policies ≠ [] → s.files.exists? (Category.policies.archive set) = true) := by
    have hkeeps : Action.Keeps (stays (Category.policies.archive set)) host
        (category "images" m.images (images m set)) :=
      keeps_category (keeps_images_of_spawn fun _ _ ↦ hleaves.keeps_spawn)
    refine ⟨ensures_category_unwarned (k := .images) (hthere .images) hnone, ?_⟩
    intro hentries
    exact hkeeps { files := t } (hthere .policies hentries)
  change Action.Ensures host { files := t } (all m set) fun _ s ↦ s.Unwarned
  unfold all
  rw [Action.ensures_bind, Action.ensures_ofExcept]
  cases needRegistry set with
  | error e => exact hnone
  | ok registry =>
    refine himages.bind ?_ fun _ _ h ↦ h.1
    intro failures s₁ ⟨hs₁, hpolicies⟩
    refine (ensures_category_unwarned (k := .policies) hpolicies hs₁).bind ?_ fun _ _ h ↦ h
    intro failures' s₂ hs₂
    exact hs₂

end Push

end OfflineSupply
