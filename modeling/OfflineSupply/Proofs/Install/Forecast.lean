import OfflineSupply.Install.Run
import OfflineSupply.Proofs.Install.Plan
import OfflineSupply.Proofs.Push.Forecast

/-!
# Dry runs that foretell live runs

A dry installation shows one command for each chart of the plan, and a live one starts these
commands until one fails, with whose failure it ends.  Whether there is a plan does not depend on
the files or on what has been installed, so without a plan both end alike before they begin.
Together with what is foretold of pushes, the lines of a dry run are what a live run would start.
-/

namespace OfflineSupply

open Push

namespace Installation

variable {host dryHost : Host} {t : FileTree} {s : Session} {m : Manifest} {settings : Settings}
  {platform : Platform} {i : Installation} {is : List Installation} {e : Failure}

/-- The command that installs a chart file as a release. -/
def command (i : Installation) : Command where
  arguments :=
    ["helm", "install", i.release, i.chartFile.text, "-n", i.clusterNamespace] ++
      (if i.createNamespace then ["--create-namespace"] else []) ++
      (if i.wait then ["--wait"] else []) ++
      (i.values.flatMap fun entry ↦ ["--set", entry.1 ++ "=" ++ entry.2])
  tool := .helm

/-- A host on which the processes that install the charts of a plan exit with some code after writing
text. -/
def InstallsExit (host : Host) (is : List Installation) : Prop :=
  ∀ (session : Session), ∀ i ∈ is, ∃ code output errors,
    Launch.Exits host { session, command := i.command } code output errors

/-- The step that installs a chart. -/
def step (i : Installation) : Step :=
  starting i.command

/-- A chart is installed by its command, in a stage of its own. -/
theorem perform_eq (dryRun : Bool) (i : Installation) :
    perform dryRun i = Stage.within ("Install " ++ i.release)
      (do let _ ← i.command.perform dryRun) := by
  unfold perform command
  rw [ChartStore.install_eq]

theorem run_performAll_of_refused (h : plan m settings platform = .error e) :
    (performAll m settings platform).run host s = (.error e, s) := by
  unfold performAll
  rw [h]
  rfl

/-! ## Dry runs -/

theorem shows_performAll (hdry : settings.dryRun = true)
    (hplan : plan m settings platform = .ok is) :
    Action.Shows host t (performAll m settings platform) (is.map command) := by
  have hperform (i : Installation) : Action.Shows host t (perform true i) [i.command] :=
    Stage.shows_within ((Command.shows_perform _).bind fun _ ↦ Action.shows_pure ())
  unfold performAll
  rw [hplan, hdry, List.map_eq_flatMap]
  exact Action.Shows.forM fun i _ ↦ hperform i

/-! ## Live runs -/

theorem ensures_perform (hhost : InstallsExit host is) {i : Installation} (hi : i ∈ is) :
    Action.Ensures host s (perform false i) fun r s' ↦ ∃ e f,
      s'.executions = s.executions ++ [e] ∧ Carried [i.step] [e] f ∧ Yields f r := by
  rw [perform_eq, Stage.ensures_within]
  change Action.Ensures host _ (i.command.run >>= fun _ ↦ pure ()) _
  rw [Action.ensures_bind]
  have hexits (session : Session) := hhost session i hi
  refine (ensures_run_exits hexits rfl rfl).mono ?_
  rintro r s' ⟨l, f, hl, hyields, hcarried⟩
  have hstep : Carried [i.step] [l.execution host] f := hcarried _ hl.command
  cases r with
  | ok text =>
    rw [hyields.eq_none] at hstep
    exact ⟨l.execution host, none, hl.executions, hstep, (), rfl⟩
  | error failure =>
    rw [hyields.eq_some] at hstep
    exact ⟨l.execution host, some failure, hl.executions, hstep, rfl⟩

/-- A live installation carries out the steps of its plan and ends as the last of them does. -/
theorem ensures_performAll (hhost : InstallsExit host is) (hlive : settings.dryRun = false)
    (hplan : plan m settings platform = .ok is) :
    Action.Ensures host s (performAll m settings platform) fun r s' ↦ ∃ es f,
      s'.executions = s.executions ++ es ∧ Carried (is.map step) es f ∧ Yields f r := by
  unfold performAll
  rw [hplan, hlive]
  change Action.Ensures host s (is.forM (perform false)) _
  let inv (before : List Installation) (s' : Session) : Prop :=
    ∃ es, s'.executions = s.executions ++ es ∧ Carried (before.map step) es none
  let left (e : Failure) (s' : Session) : Prop :=
    ∃ es, s'.executions = s.executions ++ es ∧ Carried (is.map step) es (some e)
  have hloop : Action.Ensures host s (is.forM (perform false)) fun r s' ↦
      (r = .ok () → inv is s') ∧ ∀ e, r = .error e → left e s' := by
    refine Action.ensures_forM inv left ⟨[], (List.append_nil _).symm, .done⟩ ?_
    rintro before i after s' his ⟨es, hexecutions, hcarried⟩
    have hi : i ∈ is := by
      simp [his]
    refine (ensures_perform hhost hi).mono ?_
    rintro r s'' ⟨e, f, hexecutions', hstep, hyields⟩
    rw [hexecutions, List.append_assoc] at hexecutions'
    have hmore := hcarried.append hstep
    constructor
    · rintro rfl
      rw [hyields.eq_none] at hmore
      exact ⟨es ++ [e], hexecutions', by simpa using hmore⟩
    · rintro failure rfl
      rw [hyields.eq_some] at hmore
      refine ⟨es ++ [e], hexecutions', ?_⟩
      rw [his, List.map_append, List.map_cons, List.append_cons]
      exact hmore.append_failed
  refine hloop.mono ?_
  rintro r s' ⟨hok, herror⟩
  cases r with
  | ok value =>
    obtain ⟨es, hexecutions, hcarried⟩ := hok rfl
    exact ⟨es, none, hexecutions, hcarried, value, rfl⟩
  | error e =>
    obtain ⟨es, hexecutions, hcarried⟩ := herror e rfl
    exact ⟨es, some e, hexecutions, hcarried, rfl⟩

/-- A dry and a live installation of a plan from the same files. -/
structure Foretold (t : FileTree) (is : List Installation)
    (dry live : Except Failure Unit × Session) : Prop where
  /-- The dry run shows the commands of the plan and does nothing else. -/
  shown : Session.Displays { files := t } dry.2 (is.map command)
  returned : dry.1 = .ok ()
  /-- The live run starts them and ends with the failure of the one that failed, if any did. -/
  started : ∃ f, Forecast (· = ·) (is.map command) live.2.executions f ∧
    live.1 = f.elim (.ok ()) .error

theorem forecast_of_carried {es : List Execution} {f : Option Failure}
    (h : Carried (is.map step) es f) : Forecast (· = ·) (is.map command) es f := by
  refine h.forecast ?_
  rw [List.forall₂_map_left_iff, List.forall₂_map_right_iff, List.forall₂_same]
  intro i _ e he
  exact he.symm

/-- A dry installation foretells the live one. -/
theorem foretold_performAll (dryHost : Host) (t : FileTree) (hhost : InstallsExit host is)
    (hplan : plan m settings platform = .ok is) :
    Foretold t is
      ((performAll m { settings with dryRun := true } platform).run dryHost { files := t })
      ((performAll m { settings with dryRun := false } platform).run host { files := t }) := by
  have hdry : Action.Shows dryHost t (performAll m { settings with dryRun := true } platform) _ :=
    shows_performAll rfl hplan
  have hlive : Action.Ensures host { files := t }
      (performAll m { settings with dryRun := false } platform) _ :=
    ensures_performAll hhost rfl hplan
  obtain ⟨⟨⟩, s', hreturns, hshown⟩ := hdry { files := t } rfl
  obtain ⟨es, f, hexecutions, hcarried, hyields⟩ := hlive
  rw [List.nil_append] at hexecutions
  rw [hreturns]
  refine ⟨hshown, rfl, f, ?_, ?_⟩
  · rw [hexecutions]
    exact forecast_of_carried hcarried
  · cases f with
    | none =>
      obtain ⟨⟨⟩, hok⟩ := hyields
      exact hok
    | some e => exact hyields

end Installation

/-! ## Both phases -/

variable {host : Host} {t : FileTree} {settings : Settings}

/-- A dry run tells what a live run from the same files does. -/
structure DryRunsForetell (host dryHost : Host) (m : Manifest) (settings : Settings)
    (platform : Platform) (t : FileTree) : Prop where
  push : Push.Foretold t (Category.images.foreseen m settings t)
    (Category.policies.foreseen m settings t)
    ((Push.all m { settings with dryRun := true }).run dryHost { files := t })
    ((Push.all m { settings with dryRun := false }).run host { files := t })
  install : ∀ is, Installation.plan m settings platform = .ok is → Installation.Foretold t is
    ((Installation.performAll m { settings with dryRun := true } platform).run dryHost
      { files := t })
    ((Installation.performAll m { settings with dryRun := false } platform).run host { files := t })
  /-- Without a plan nothing is shown and nothing is started. -/
  refused : ∀ e, Installation.plan m settings platform = .error e → ∀ dryRun anyHost,
    (Installation.performAll m { settings with dryRun } platform).run anyHost { files := t } =
      (.error e, { files := t })

theorem Installation.installsExit_codesHost (code : Command → Int) (scratch : Path)
    (is : List Installation) : InstallsExit (codesHost code scratch) is := by
  intro session i _
  exact ⟨code i.command, "", "", rfl, rfl, Text.strictText?_toUTF8 "",
    Text.strictText?_toUTF8 ""⟩

end OfflineSupply
