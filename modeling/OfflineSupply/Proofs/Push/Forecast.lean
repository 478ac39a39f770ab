import OfflineSupply.Proofs.Push.Isolation

/-!
# Pushes foretold by dry runs

What a push would start follows from the entries of a manifest, the settings and the files, and a dry
run shows just that.  A live run starts the shown commands, of each category by itself and in their
order, and the first process that fails is the last of its category.  Only the sources file of a policy
stands in another place than the one that is shown.
-/

namespace OfflineSupply

open FileTree Push

namespace Push

variable {same : Command → Command → Prop} {cs : List Command} {steps : List Step}
  {es : List Execution} {f : Option Failure}

/-! ## Shown commands and started processes -/

/-- What is started of commands that were shown, with a shown command and a started one the same up to
a relation. -/
structure Forecast (same : Command → Command → Prop) (cs : List Command) (es : List Execution)
    (f : Option Failure) : Prop where
  /-- Each command is started in its turn, and the first process that fails is the last. -/
  carried : Carried (cs.map fun c e ↦ same c e.command) es f
  /-- If every process exits with zero, all commands are started. -/
  complete : (∀ e ∈ es, e.ending = .exited 0) →
    f = none ∧ List.Forall₂ same cs (es.map Execution.command)

/-- Steps are carried out to their end by processes that all exit with zero. -/
theorem Carried.complete (h : Carried steps es f) (hzero : ∀ e ∈ es, e.ending = .exited 0) :
    f = none ∧ List.Forall₂ (fun step e ↦ step e) steps es := by
  induction h with
  | done => exact ⟨rfl, .nil⟩
  | passed hstep _ _ ih =>
    obtain ⟨hnone, hrest⟩ := ih fun e he ↦ hzero e (List.mem_cons_of_mem _ he)
    exact ⟨hnone, .cons hstep hrest⟩
  | @failed step steps e failure hstep hfails =>
    obtain ⟨code, output, errors, hcode, hending, -⟩ := hfails
    have hsame : ExecutionEnding.exited code = .exited 0 :=
      hending.symm.trans (hzero e (List.mem_singleton_self e))
    exact absurd (ExecutionEnding.exited.inj hsame) hcode

/-- Steps that each start a shown command are foretold. -/
theorem Carried.forecast (h : Carried steps es f)
    (hsteps : List.Forall₂ (fun c step ↦ ∀ e, step e → same c e.command) cs steps) :
    Forecast same cs es f := by
  have hcarried : Carried (cs.map fun c e ↦ same c e.command) es f := by
    induction h generalizing cs with
    | done =>
      cases hsteps
      exact .done
    | passed hstep hending _ ih =>
      cases hsteps with
      | cons hfirst hrest => exact .passed (hfirst _ hstep) hending (ih hrest)
    | failed hstep hfails =>
      cases hsteps with
      | cons hfirst _ => exact .failed (hfirst _ hstep) hfails
  refine ⟨hcarried, fun hzero ↦ ?_⟩
  obtain ⟨hnone, hall⟩ := hcarried.complete hzero
  rw [List.forall₂_map_left_iff] at hall
  exact ⟨hnone, List.forall₂_map_right_iff.mpr hall⟩

theorem forecast_nil : Forecast same [] [] none :=
  Carried.done.forecast .nil

end Push

namespace Category

variable {k : Category} {host : Host} {t : FileTree} {s : Session} {settings : Settings}
  {m : Manifest} {registry entry target : String} {pairs : List (String × String)}
  {cs : List Command} {es : List Execution} {f : Option Failure} {e : Failure}

/-! ## The outlook for a category -/

/-- The commands of a category whose entries have targets, with the sources file as it is shown. -/
def commands (k : Category) (s : Settings) (pairs : List (String × String)) : List Command :=
  k.load (k.archive s) :: pairs.flatMap fun (entry, target) ↦
    k.entryCommands s PolicyStore.dryRunSources entry target

/-- The commands that are ahead for a category, or the failure if an entry is malformed.  There are
none without a registry, without entries and without the archive. -/
def outlook (k : Category) (m : Manifest) (s : Settings) (t : FileTree) :
    Except Failure (List Command) :=
  match s.registry? with
  | none => .ok []
  | some registry =>
    if k.entries m = [] ∨ t.exists? (k.archive s) = false then .ok []
    else (targets (k.retarget registry) (k.entries m)).map (k.commands s)

/-- The commands that are ahead for a category. -/
def foreseen (k : Category) (m : Manifest) (s : Settings) (t : FileTree) : List Command :=
  match k.outlook m s t with
  | .ok cs => cs
  | .error _ => []

/-- The failure that is ahead for a category, whatever its processes do. -/
def refusal (k : Category) (m : Manifest) (s : Settings) (t : FileTree) : Option Failure :=
  match k.outlook m s t with
  | .ok _ => none
  | .error e => some e

theorem foreseen_of_ok (h : k.outlook m settings t = .ok cs) : k.foreseen m settings t = cs := by
  rw [foreseen, h]

theorem refusal_of_ok (h : k.outlook m settings t = .ok cs) : k.refusal m settings t = none := by
  rw [refusal, h]

theorem foreseen_of_error (h : k.outlook m settings t = .error e) :
    k.foreseen m settings t = [] := by
  rw [foreseen, h]

theorem refusal_of_error (h : k.outlook m settings t = .error e) :
    k.refusal m settings t = some e := by
  rw [refusal, h]

theorem outlook_of_skipped (hregistry : settings.registry? = some registry)
    (h : k.entries m = [] ∨ t.exists? (k.archive settings) = false) :
    k.outlook m settings t = .ok [] := by
  unfold outlook
  rw [hregistry]
  exact if_pos h

theorem outlook_of_present (hregistry : settings.registry? = some registry)
    (hentries : k.entries m ≠ []) (harchive : t.exists? (k.archive settings) = true) :
    k.outlook m settings t =
      (targets (k.retarget registry) (k.entries m)).map (k.commands settings) := by
  unfold outlook
  rw [hregistry]
  exact if_neg (by simp [hentries, harchive])

/-- What keeps a category from being pushed is a malformed entry. -/
theorem reference_of_refusal (hregistry : settings.registry? = some registry)
    (h : k.refusal m settings t = some e) : ∃ cause, e = .reference cause := by
  by_cases hskipped : k.entries m = [] ∨ t.exists? (k.archive settings) = false
  · rw [refusal_of_ok (outlook_of_skipped hregistry hskipped)] at h
    cases h
  · rw [not_or, Bool.not_eq_false] at hskipped
    have houtlook := outlook_of_present hregistry hskipped.1 hskipped.2
    cases hpairs : targets (k.retarget registry) (k.entries m) with
    | ok pairs =>
      rw [hpairs] at houtlook
      rw [refusal_of_ok houtlook] at h
      cases h
    | error failure =>
      rw [hpairs] at houtlook
      obtain ⟨cause, rfl, -⟩ := targets_eq_error_iff.mp hpairs
      rw [refusal_of_error houtlook] at h
      exact ⟨cause, (Option.some.inj h).symm⟩

/-! ## Live runs -/

/-- Each command of a category is started by the step in its place. -/
theorem forall₂_commands_steps : List.Forall₂ (fun c step ↦ ∀ e, step e → SameCommand c e.command)
    (k.commands settings pairs) (k.steps registry settings pairs) := by
  have hstarting (c : Command) : ∀ e, starting c e → SameCommand c e.command :=
    fun e he ↦ .inl he.symm
  refine .cons (hstarting _) ?_
  induction pairs with
  | nil => exact .nil
  | cons pair pairs ih =>
    obtain ⟨entry, target⟩ := pair
    rw [List.flatMap_cons, List.flatMap_cons]
    refine List.rel_append ?_ ih
    cases k with
    | images => exact .cons (hstarting _) (.cons (hstarting _) .nil)
    | policies =>
      unfold entryCommands entrySteps
      refine .cons ?_ .nil
      split
      · rintro e ⟨sources, hcommand, -⟩
        exact .inr ⟨entry, target, PolicyStore.dryRunSources, sources, rfl, hcommand⟩
      · exact hstarting _

/-- An attempt at a category starts what was ahead for it, and fails like one of its processes, or for
a malformed entry. -/
theorem forecast_of_attempt (hregistry : settings.registry? = some registry)
    (h : k.Attempt registry settings t (k.entries m) es f) :
    ∃ failed, Forecast SameCommand (k.foreseen m settings t) es failed ∧
      f = failed.or (k.refusal m settings t) := by
  have hahead {cs : List Command} (houtlook : k.outlook m settings t = .ok cs)
      (hforecast : Forecast SameCommand cs es f) : ∃ failed,
        Forecast SameCommand (k.foreseen m settings t) es failed ∧
          f = failed.or (k.refusal m settings t) := by
    refine ⟨f, ?_, ?_⟩
    · rwa [foreseen_of_ok houtlook]
    · rw [refusal_of_ok houtlook, Option.or_none]
  cases h with
  | empty hentries => exact hahead (outlook_of_skipped hregistry (.inl hentries)) forecast_nil
  | absent _ harchive => exact hahead (outlook_of_skipped hregistry (.inr harchive)) forecast_nil
  | malformed hentries harchive he =>
    have houtlook := outlook_of_present hregistry hentries harchive
    rw [targets_eq_error_iff.mpr ⟨_, rfl, he⟩] at houtlook
    refine ⟨none, ?_, ?_⟩
    · rw [foreseen_of_error houtlook]
      exact forecast_nil
    · rw [refusal_of_error houtlook, Option.none_or]
  | carried hentries harchive hpairs hcarried =>
    have houtlook := outlook_of_present hregistry hentries harchive
    rw [targets_eq_ok_iff.mpr hpairs] at houtlook
    exact hahead houtlook (hcarried.forecast forall₂_commands_steps)

/-! ## Dry runs -/

theorem shows_pushEntry (hdry : settings.dryRun = true) :
    Action.Shows host t (k.pushEntry registry settings entry target)
      (k.entryCommands settings PolicyStore.dryRunSources entry target) := by
  unfold pushEntry entryCommands
  rw [hdry]
  cases k with
  | images =>
    exact (Command.shows_perform _).bind fun _ ↦ (Command.shows_perform _).bind fun _ ↦
      Action.shows_pure ()
  | policies =>
    refine (Action.shows_log _ _ _).bind fun _ ↦ ?_
    cases settings.insecure with
    | false => exact (Command.shows_perform _).bind fun _ ↦ Action.shows_pure ()
    | true => exact (Command.shows_perform _).bind fun _ ↦ Action.shows_pure ()

theorem shows_send (hdry : settings.dryRun = true) :
    Action.Shows host t (k.send registry settings pairs) (k.commands settings pairs) := by
  have hannounce : Action.Shows host t (k.announceLoad settings) [] := by
    cases k with
    | images => exact Action.shows_pure ()
    | policies => exact Action.shows_log _ _ _
  have hload : Action.Shows host t ((k.load (k.archive settings)).perform settings.dryRun)
      [k.load (k.archive settings)] := by
    rw [hdry]
    exact Command.shows_perform _
  exact hannounce.bind fun _ ↦ hload.bind fun _ ↦ Action.Shows.forM fun _ _ ↦ shows_pushEntry hdry

/-- A dry push of a category shows what is ahead for it. -/
theorem ensures_push_dry (hdry : settings.dryRun = true)
    (hregistry : settings.registry? = some registry) (hentries : k.entries m ≠ [])
    (hs : s.files = t) :
    Action.Ensures host s (k.push m settings) fun r s' ↦
      s.Displays s' (k.foreseen m settings t) ∧
        (Yields (k.refusal m settings t) r ∨ k.refusal m settings t = none ∧
          r = .error (.missingArchive (k.archive settings).name)) := by
  unfold push needArchive
  rw [needRegistry_eq_ok hregistry]
  change Action.Ensures host s ((Action.files >>= _) >>= _) _
  rw [bind_assoc, Action.ensures_files_bind, hs]
  cases harchive : t.exists? (k.archive settings) with
  | false =>
    have houtlook := outlook_of_skipped hregistry (k := k) (m := m) (.inr harchive)
    rw [foreseen_of_ok houtlook, refusal_of_ok houtlook]
    exact ⟨.of_same rfl rfl rfl rfl, .inr ⟨rfl, rfl⟩⟩
  | true =>
    have houtlook := outlook_of_present hregistry hentries harchive
    change Action.Ensures host s (Action.ofExcept _ >>= _) _
    cases hpairs : targets (k.retarget registry) (k.entries m) with
    | error failure =>
      rw [hpairs] at houtlook
      rw [foreseen_of_error houtlook, refusal_of_error houtlook]
      exact ⟨.of_same rfl rfl rfl rfl, .inl rfl⟩
    | ok pairs =>
      rw [hpairs] at houtlook
      rw [foreseen_of_ok houtlook, refusal_of_ok houtlook]
      change Action.Ensures host s (k.send registry settings pairs) _
      have hsend : Action.Shows host t (k.send registry settings pairs) _ := shows_send hdry
      obtain ⟨value, s', hreturns, hshown⟩ := hsend s hs
      unfold Action.Ensures
      rw [hreturns]
      exact ⟨hshown, .inl ⟨value, rfl⟩⟩

theorem ensures_category_dry (hdry : settings.dryRun = true)
    (hregistry : settings.registry? = some registry) (k : Category) (hs : s.files = t) :
    Action.Ensures host s (category k.name (k.entries m) (k.push m settings)) fun r s' ↦
      ∃ f, (f = k.refusal m settings t ∧ s.Displays s' (k.foreseen m settings t)) ∧
        r = .ok (f.elim [] fun e ↦ [(k.name, e)]) := by
  by_cases hentries : k.entries m = []
  · have houtlook := outlook_of_skipped (t := t) hregistry (.inl hentries)
    unfold category
    rw [if_pos (by simpa using hentries), foreseen_of_ok houtlook, refusal_of_ok houtlook]
    exact ⟨none, ⟨rfl, .of_same rfl rfl rfl rfl⟩, rfl⟩
  · apply ensures_category_of_push hentries
    · rintro f s' s'' ⟨hf, hshown⟩ hsame
      exact ⟨hf, by simpa using hshown.trans hsame⟩
    · have hbegun : s.Displays (Stage.begun ("Push " ++ k.name) s) [] :=
        .of_same rfl rfl rfl rfl
      refine (ensures_push_dry hdry hregistry hentries (hbegun.files.trans hs)).mono ?_
      rintro r s' ⟨hshown, hyields⟩
      exact ⟨_, ⟨rfl, hbegun.trans hshown⟩,
        fun e he ↦ .inl (reference_of_refusal hregistry he), hyields⟩

end Category

namespace Push

variable {host dryHost : Host} {t : FileTree} {m : Manifest} {settings : Settings}
  {registry : String}

/-- A dry push shows what is ahead for the images and then for the policies. -/
theorem ensures_all_dry (hdry : settings.dryRun = true)
    (hregistry : settings.registry? = some registry) :
    Action.Ensures host { files := t } (all m settings) fun r s' ↦ ∃ f f',
      (f = Category.images.refusal m settings t ∧ f' = Category.policies.refusal m settings t ∧
        Session.Displays { files := t } s'
          (Category.images.foreseen m settings t ++ Category.policies.foreseen m settings t)) ∧
      r = conclusion f f' := by
  apply ensures_all_of_categories hregistry
    (Category.ensures_category_dry hdry hregistry .images rfl)
  rintro f s₁ ⟨hf, hshown₁⟩
  refine (Category.ensures_category_dry hdry hregistry .policies hshown₁.files).mono ?_
  rintro r s₂ ⟨f', ⟨hf', hshown₂⟩, hresult⟩
  exact ⟨f', ⟨hf, hf', hshown₁.trans hshown₂⟩, hresult⟩

/-- A dry and a live push from the same files, where some commands are ahead for the images and some
for the policies. -/
structure Foretold (t : FileTree) (images policies : List Command)
    (dry live : Except Failure Unit × Session) : Prop where
  /-- The dry run shows the commands and does nothing else. -/
  shown : Session.Displays { files := t } dry.2 (images ++ policies)
  /-- The live run starts those of each category by themselves. -/
  started : ∃ es es' f f', live.2.executions = es ++ es' ∧ Forecast SameCommand images es f ∧
    Forecast SameCommand policies es' f'
  /-- If every process exits with zero, both runs come to the same. -/
  agreed : (∀ e ∈ live.2.executions, e.ending = .exited 0) → live.1 = dry.1

theorem run_all_of_unregistered {s : Session} (h : settings.registry? = none) :
    (all m settings).run host s = (.error .missingRegistry, s) := by
  unfold all needRegistry
  rw [h]
  rfl

/-- A dry push foretells the live one. -/
theorem foretold_all (dryHost : Host) (m : Manifest)
    (hhost : ∀ k : Category, Steady host (k.Issues host m settings))
    (hscratch : settings.insecure = true → HasScratch host t) :
    Foretold t (Category.images.foreseen m settings t) (Category.policies.foreseen m settings t)
      ((all m { settings with dryRun := true }).run dryHost { files := t })
      ((all m { settings with dryRun := false }).run host { files := t }) := by
  cases hregistry : settings.registry? with
  | none =>
    have hahead (k : Category) : k.foreseen m settings t = [] := by
      rw [Category.foreseen, Category.outlook, hregistry]
    have hdry : (all m { settings with dryRun := true }).run dryHost { files := t } = _ :=
      run_all_of_unregistered hregistry
    have hlive : (all m { settings with dryRun := false }).run host { files := t } = _ :=
      run_all_of_unregistered hregistry
    rw [hahead, hahead, hdry, hlive]
    exact ⟨.of_same rfl rfl rfl rfl, ⟨[], [], none, none, rfl, forecast_nil, forecast_nil⟩,
      fun _ ↦ rfl⟩
  | some registry =>
    have hlive : Settings.registry? { settings with dryRun := false } = some registry := hregistry
    have hdryRun : Action.Ensures dryHost { files := t } (all m { settings with dryRun := true }) _ :=
      ensures_all_dry rfl hregistry
    have hliveRun : Action.Ensures host { files := t } (all m { settings with dryRun := false }) _ :=
      ensures_all (fun k ↦ (hhost k).mono fun _ hc ↦ hc.of_dryRun) rfl hlive hscratch
    obtain ⟨_, _, ⟨rfl, rfl, hshown⟩, hdryResult⟩ := hdryRun
    obtain ⟨f, f', ⟨es, es', himages, hpolicies, hexecutions, -⟩, hliveResult⟩ := hliveRun
    obtain ⟨failed, hforecast, hf⟩ := Category.forecast_of_attempt hlive himages
    obtain ⟨failed', hforecast', hf'⟩ := Category.forecast_of_attempt hlive hpolicies
    refine ⟨hshown, ⟨es, es', failed, failed', hexecutions, hforecast, hforecast'⟩, ?_⟩
    intro hzero
    rw [hexecutions, List.forall_mem_append] at hzero
    have hnone := (hforecast.complete hzero.1).1
    have hnone' := (hforecast'.complete hzero.2).1
    calc
      _ = conclusion f f' := hliveResult
      _ = conclusion (Category.images.refusal m settings t)
          (Category.policies.refusal m settings t) := by
        rw [hf, hf', hnone, hnone']
        rfl
      _ = _ := hdryResult.symm

example : (Category.policies.foreseen { policies := ["registry://ghcr.io/policies/safe:v1"] }
    { registry := some "mirror:5000", insecure := true } archivesOnly).map Command.line =
      ["kwctl load --input kubewarden-policies.tar.gz",
        "kwctl push registry://ghcr.io/policies/safe:v1 registry://mirror:5000/policies/safe:v1 " ++
          "--sources-path sources.yaml"] := by
  decide +kernel

end Push

end OfflineSupply
