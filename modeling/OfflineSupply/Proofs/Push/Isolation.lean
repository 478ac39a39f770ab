import OfflineSupply.Proofs.Command.Display
import OfflineSupply.Proofs.Push.Category

/-!
# Categories are pushed each by itself

A push is an attempt at the images and then one at the policies, whatever came of the first.  The
result is put together from what the two attempts ended in, and the files are as before.  An attempt
is determined by how its own processes ended, so nothing that happened to the images shows in what is
started for the policies.
-/

namespace OfflineSupply.Push

open FileTree

variable {host : Host} {t : FileTree} {s : Session} {settings : Settings} {m : Manifest}
  {registry : String} {k : Category} {steps : List Step} {entries : List String}
  {es es' : List Execution} {f f' : Option Failure}

/-! ## Attempts whose processes end alike -/

/-- The same command, or the same push of a policy with sources files in different places. -/
def SameCommand (c c' : Command) : Prop :=
  c = c' ∨ ∃ policy target sources sources',
    c = insecurePush policy target sources ∧ c' = insecurePush policy target sources'

/-- As far as both lists reach, their processes ended in the same way. -/
def EndAlike (es es' : List Execution) : Prop :=
  ∀ (i : ℕ) (e e' : Execution), es[i]? = some e → es'[i]? = some e' → e.ending = e'.ending

theorem EndAlike.tail {e e' : Execution} (h : EndAlike (e :: es) (e' :: es')) :
    EndAlike es es' :=
  fun i x x' hx hx' ↦ h (i + 1) x x' hx hx'

/-- The same commands were started one after the other. -/
def SameCommands (es es' : List Execution) : Prop :=
  List.Forall₂ (fun e e' ↦ SameCommand e.command e'.command) es es'

/-- How the processes ended decides how far the steps were carried out. -/
theorem Carried.sameCommands (h : Carried steps es f) (h' : Carried steps es' f')
    (hsteps : ∀ step ∈ steps, ∀ e e', step e → step e' → SameCommand e.command e'.command)
    (halike : EndAlike es es') : SameCommands es es' ∧ f.isSome = f'.isSome := by
  induction h generalizing es' f' with
  | done =>
    cases h'
    exact ⟨.nil, rfl⟩
  | @passed step steps e es f hstep hending hrest ih =>
    cases h' with
    | @passed _ _ e' es' f' hstep' _ hrest' =>
      have hfirst : SameCommand e.command e'.command := hsteps step (by simp) e e' hstep hstep'
      obtain ⟨hcommands, hfailure⟩ :=
        ih hrest' (fun next hnext ↦ hsteps next (by simp [hnext])) halike.tail
      exact ⟨.cons hfirst hcommands, hfailure⟩
    | @failed _ _ e' failure hstep' hfails =>
      obtain ⟨code, output, errors, hcode, hending', -⟩ := hfails
      have hsame : ExecutionEnding.exited 0 = .exited code :=
        (hending.symm.trans (halike 0 e e' rfl rfl)).trans hending'
      exact absurd (ExecutionEnding.exited.inj hsame).symm hcode
  | @failed step steps e failure hstep hfails =>
    cases h' with
    | @passed _ _ e' es' f' hstep' hending' hrest' =>
      obtain ⟨code, output, errors, hcode, hending, -⟩ := hfails
      have hsame : ExecutionEnding.exited code = .exited 0 :=
        (hending.symm.trans (halike 0 e e' rfl rfl)).trans hending'
      exact absurd (ExecutionEnding.exited.inj hsame) hcode
    | @failed _ _ e' failure' hstep' hfails' =>
      exact ⟨.cons (hsteps step (by simp) e e' hstep hstep') .nil, rfl⟩

theorem sameCommand_of_starting {c : Command} {e e' : Execution} (h : starting c e)
    (h' : starting c e') : SameCommand e.command e'.command :=
  .inl (h.trans h'.symm)

theorem sameCommand_of_mem_steps {pairs : List (String × String)} {step : Step}
    (hstep : step ∈ k.steps registry settings pairs) {e e' : Execution} (h : step e)
    (h' : step e') : SameCommand e.command e'.command := by
  unfold Category.steps at hstep
  rw [List.mem_cons, List.mem_flatMap] at hstep
  rcases hstep with rfl | ⟨⟨entry, target⟩, -, hstep⟩
  · exact sameCommand_of_starting h h'
  · cases k with
    | images =>
      rcases List.mem_pair.mp hstep with rfl | rfl
      · exact sameCommand_of_starting h h'
      · exact sameCommand_of_starting h h'
    | policies =>
      have hstep' := List.mem_singleton.mp hstep
      split at hstep'
      · subst hstep'
        obtain ⟨sources, hcommand, -⟩ := h
        obtain ⟨sources', hcommand', -⟩ := h'
        exact .inr ⟨entry, target, sources, sources', hcommand, hcommand'⟩
      · subst hstep'
        exact sameCommand_of_starting h h'

/-- How the processes of an attempt ended decides which commands were started, and whether it
failed. -/
theorem sameCommands_of_attempts (h : k.Attempt registry settings t entries es f)
    (h' : k.Attempt registry settings t entries es' f') (halike : EndAlike es es') :
    SameCommands es es' ∧ f.isSome = f'.isSome := by
  cases h with
  | empty hentries =>
    cases h' with
    | empty => exact ⟨.nil, rfl⟩
    | absent hentries' => exact absurd hentries hentries'
    | malformed hentries' => exact absurd hentries hentries'
    | carried hentries' => exact absurd hentries hentries'
  | absent hentries harchive =>
    cases h' with
    | empty hentries' => exact absurd hentries' hentries
    | absent => exact ⟨.nil, rfl⟩
    | malformed _ harchive' => simp [harchive] at harchive'
    | carried _ harchive' => simp [harchive] at harchive'
  | malformed hentries harchive he =>
    cases h' with
    | empty hentries' => exact absurd hentries' hentries
    | absent _ harchive' => simp [harchive] at harchive'
    | malformed => exact ⟨.nil, rfl⟩
    | carried _ _ hpairs' => exact absurd he hpairs'.not_hasMalformed
  | carried hentries harchive hpairs hcarried =>
    cases h' with
    | empty hentries' => exact absurd hentries' hentries
    | absent _ harchive' => simp [harchive] at harchive'
    | malformed _ _ he' => exact absurd he' hpairs.not_hasMalformed
    | carried _ _ hpairs' hcarried' =>
      rw [hpairs'.unique hpairs] at hcarried'
      exact hcarried.sameCommands hcarried'
        (fun step hstep e e' ↦ sameCommand_of_mem_steps hstep) halike

/-! ## Both categories -/

theorem Carried.failure_eq (h : Carried steps es f) {e : Failure} (he : f = some e) :
    ∃ cause, e = .command cause := by
  induction h with
  | done => simp at he
  | passed _ _ _ ih => exact ih he
  | failed _ hfails =>
    obtain ⟨code, output, errors, -, -, hcommand⟩ := hfails
    exact ⟨_, (Option.some.inj he).symm.trans hcommand⟩

/-- What an attempt ends in is shown to the user, and is not that an archive is missing. -/
theorem failure_of_attempt {e : Failure} (h : k.Attempt registry settings t entries es (some e)) :
    (∃ cause, e = .reference cause) ∨ ∃ cause, e = .command cause := by
  generalize hf : some e = f at h
  cases h with
  | empty => simp at hf
  | absent => simp at hf
  | malformed => exact .inl ⟨_, Option.some.inj hf⟩
  | carried _ _ _ hcarried => exact .inr (hcarried.failure_eq hf.symm)

/-- A category as a stage is its work between two announcements, with the failure of the work as the
value; only an archive that is missing is passed over. -/
theorem ensures_category_of_push {post : Option Failure → Session → Prop}
    (hentries : k.entries m ≠ [])
    (hannounced : ∀ f s' s'', post f s' → s'.Displays s'' [] → post f s'')
    (hpush : Action.Ensures host (Stage.begun ("Push " ++ k.name) s) (k.push m settings)
      fun r s' ↦ ∃ f, post f s' ∧
        (∀ e, f = some e → (∃ cause, e = .reference cause) ∨ ∃ cause, e = .command cause) ∧
        (Yields f r ∨ f = none ∧ r = .error (.missingArchive (k.archive settings).name))) :
    Action.Ensures host s (category k.name (k.entries m) (k.push m settings)) fun r s' ↦
      ∃ f, post f s' ∧ r = .ok (f.elim [] fun e ↦ [(k.name, e)]) := by
  have hshown (f : Option Failure) {s' s'' : Session} (hpost : post f s')
      (hfiles : s''.files = s'.files) (hexecutions : s''.executions = s'.executions)
      (hrequests : s''.requests = s'.requests) (hprinted : s''.printed = s'.printed) : post f s'' :=
    hannounced f s' s'' hpost (.of_same hfiles hexecutions hrequests hprinted)
  unfold category
  rw [if_neg (by simpa using hentries), Stage.ensures_within, Action.ensures_bind,
    Action.ensures_attempt]
  refine hpush.mono ?_
  rintro r s' ⟨f, hpost, hfailure, hyields | ⟨rfl, rfl⟩⟩
  · cases f with
    | none =>
      obtain ⟨⟨⟩, rfl⟩ := hyields
      exact ⟨none, hshown none hpost rfl rfl rfl rfl, rfl⟩
    | some e =>
      change r = .error e at hyields
      subst hyields
      rcases hfailure e rfl with ⟨cause, rfl⟩ | ⟨cause, rfl⟩
      · exact ⟨some _, hshown _ hpost rfl rfl rfl rfl, rfl⟩
      · exact ⟨some _, hshown _ hpost rfl rfl rfl rfl, rfl⟩
  · exact ⟨none, hshown none hpost rfl rfl rfl rfl, rfl⟩

/-- A category as a stage is an attempt at it, with its failure as the value. -/
theorem ensures_category (hhost : Steady host (k.Issues host m settings))
    (hlive : settings.dryRun = false) (hregistry : settings.registry? = some registry)
    (hscratch : settings.insecure = true → HasScratch host t) (hs : t.Agrees s.files) :
    Action.Ensures host s (category k.name (k.entries m) (k.push m settings)) fun r s' ↦
      ∃ f, (t.Agrees s'.files ∧ ∃ es, s'.executions = s.executions ++ es ∧
        k.Attempt registry settings t (k.entries m) es f) ∧
          r = .ok (f.elim [] fun e ↦ [(k.name, e)]) := by
  by_cases hentries : k.entries m = []
  · unfold category
    rw [if_pos (by simpa using hentries)]
    exact ⟨none, ⟨hs, [], (List.append_nil _).symm, .empty hentries⟩, rfl⟩
  · apply ensures_category_of_push hentries
    · rintro f s' s'' ⟨hs', es, hexecutions, hattempt⟩ hsame
      exact ⟨hsame.files.symm ▸ hs', es, hsame.executions.trans hexecutions, hattempt⟩
    · have hpush := Category.ensures_push hhost hlive hregistry hscratch hentries
        (s := Stage.begun ("Push " ++ k.name) s) hs
      refine hpush.mono ?_
      rintro r s' ⟨hs', es, f, hexecutions, hattempt, hyields⟩
      exact ⟨f, ⟨hs', es, hexecutions, hattempt⟩, fun e he ↦ failure_of_attempt (he ▸ hattempt),
        hyields⟩

/-- What a push comes to when the attempts at the images and at the policies ended in these
failures. -/
def conclusion : Option Failure → Option Failure → Except Failure Unit
  | none, none => .ok ()
  | some e, none => .error e
  | none, some e => .error e
  | some e, some _ => .error (.push [Category.images.name, Category.policies.name] e.message)

/-- A push to a registry is what becomes of the images, then of the policies, and the conclusion from
both. -/
theorem ensures_all_of_categories {mid : Option Failure → Session → Prop}
    {post : Option Failure → Option Failure → Session → Prop}
    (hregistry : settings.registry? = some registry)
    (himages : Action.Ensures host s
      (category Category.images.name (Category.images.entries m) (Category.images.push m settings))
      fun r s' ↦ ∃ f, mid f s' ∧ r = .ok (f.elim [] fun e ↦ [(Category.images.name, e)]))
    (hpolicies : ∀ f s', mid f s' → Action.Ensures host s'
      (category Category.policies.name (Category.policies.entries m)
        (Category.policies.push m settings))
      fun r s'' ↦ ∃ f', post f f' s'' ∧
        r = .ok (f'.elim [] fun e ↦ [(Category.policies.name, e)])) :
    Action.Ensures host s (all m settings) fun r s' ↦
      ∃ f f', post f f' s' ∧ r = conclusion f f' := by
  unfold all
  rw [needRegistry_eq_ok hregistry]
  change Action.Ensures host s
    (category Category.images.name (Category.images.entries m) (Category.images.push m settings)
      >>= _) _
  refine himages.bind ?_ ?_
  · rintro failures s₁ ⟨f, hmid, hfailures⟩
    rw [Except.ok.inj hfailures]
    change Action.Ensures host s₁
      (category Category.policies.name (Category.policies.entries m)
        (Category.policies.push m settings) >>= _) _
    refine (hpolicies f s₁ hmid).bind ?_ ?_
    · rintro failures' s₂ ⟨f', hpost, hfailures'⟩
      rw [Except.ok.inj hfailures']
      refine ⟨f, f', hpost, ?_⟩
      cases f <;> cases f' <;> rfl
    · rintro e s₂ ⟨f', -, hfailures'⟩
      simp at hfailures'
  · rintro e s₁ ⟨f, -, hfailures⟩
    simp at hfailures

/-- A live push to a registry attempts the images and then the policies. -/
theorem ensures_all (hhost : ∀ k : Category, Steady host (k.Issues host m settings))
    (hlive : settings.dryRun = false)
    (hregistry : settings.registry? = some registry)
    (hscratch : settings.insecure = true → HasScratch host t) :
    Action.Ensures host { files := t } (all m settings) fun r s' ↦ ∃ f f',
      (∃ images policies, Category.images.Attempt registry settings t m.images images f ∧
        Category.policies.Attempt registry settings t m.policies policies f' ∧
        s'.executions = images ++ policies ∧ t.Agrees s'.files) ∧ r = conclusion f f' := by
  apply ensures_all_of_categories hregistry
    (ensures_category (hhost .images) hlive hregistry hscratch (.refl t))
  rintro f s₁ ⟨hs₁, images, hexecutions₁, himages⟩
  refine (ensures_category (hhost .policies) hlive hregistry hscratch hs₁).mono ?_
  rintro r s₂ ⟨f', ⟨hs₂, policies, hexecutions₂, hpolicies⟩, hresult⟩
  refine ⟨f', ⟨images, policies, himages, hpolicies, ?_, hs₂⟩, hresult⟩
  rw [hexecutions₂, hexecutions₁]
  rfl

/-- A push comes to an attempt at the images and one at the policies: its processes are those of the
first and then those of the second, and the files are as before.  Any attempt at the policies whose
processes end alike starts the same commands, whatever happened to the images. -/
structure Isolated (host : Host) (m : Manifest) (settings : Settings) (registry : String)
    (t : FileTree) (images policies : List Execution)
    (failedImages failedPolicies : Option Failure) : Prop where
  attemptImages : Category.images.Attempt registry settings t m.images images failedImages
  attemptPolicies :
    Category.policies.Attempt registry settings t m.policies policies failedPolicies
  executions : ((all m settings).run host { files := t }).2.executions = images ++ policies
  result : ((all m settings).run host { files := t }).1 = conclusion failedImages failedPolicies
  files : t.Agrees ((all m settings).run host { files := t }).2.files
  determined : ∀ others failure,
    Category.policies.Attempt registry settings t m.policies others failure →
    EndAlike policies others → SameCommands policies others ∧
      failedPolicies.isSome = failure.isSome

/-- A live push to a registry attempts both categories, each by itself. -/
theorem categories_isolated (hhost : ∀ k : Category, Steady host (k.Issues host m settings))
    (hlive : settings.dryRun = false)
    (hregistry : settings.registry? = some registry)
    (hscratch : settings.insecure = true → HasScratch host t) :
    ∃ images policies failedImages failedPolicies,
      Isolated host m settings registry t images policies failedImages failedPolicies := by
  obtain ⟨f, f', ⟨images, policies, himages, hpolicies, hexecutions, hfiles⟩, hresult⟩ :=
    ensures_all hhost hlive hregistry hscratch
  exact ⟨images, policies, f, f', himages, hpolicies, hexecutions, hresult, hfiles,
    fun _ _ hothers halike ↦ sameCommands_of_attempts hpolicies hothers halike⟩

/-! ## A push on trial -/

/-- A host on which every process exits with the code for its command, and does nothing else. -/
def codesHost (code : Command → Int) (scratch : Path) : Host where
  launch s c := { files := s.files, exit := some (code c) }
  fetch _ _ := .refused ""
  hasProgram _ := true
  scratchFile _ := scratch
  stopwatch _ := "0"

theorem steady_codesHost (code : Command → Int) (scratch : Path) (moves : Command → Prop) :
    Steady (codesHost code scratch) moves := by
  constructor
  · intro session c _
    exact ⟨code c, "", "", rfl, rfl, Text.strictText?_toUTF8 "", Text.strictText?_toUTF8 ""⟩
  · intro session c _
    exact .refl session.files

/-- A directory with nothing but the two archives. -/
def archivesOnly : FileTree :=
  ((FileTree.empty []).put [Category.images.archiveName] (.file ByteArray.empty)).put
    [Category.policies.archiveName] (.file ByteArray.empty)

theorem hasScratch_archivesOnly (code : Command → Int) :
    HasScratch (codesHost code (Path.ofText "sources.yaml")) archivesOnly := by
  intro session hsession
  have hlocate : archivesOnly.locate (Path.ofText "sources.yaml") = .ok ["sources.yaml"] := rfl
  have hvacant : archivesOnly.find? ["sources.yaml"] = none := rfl
  exact ⟨["sources.yaml"], hsession.locate hlocate, (hsession.entry _).trans hvacant⟩

/-- The code of a process when one program fails and the others succeed. -/
def failing (tool : Tool) (c : Command) : Int :=
  if c.tool = tool then 1 else 0

/-- Images that cannot be loaded do not keep a policy from being pushed without verification. -/
theorem unloaded_images_isolated :
    ∃ images policies failedImages failedPolicies,
      Isolated (codesHost (failing .docker) (Path.ofText "sources.yaml"))
        { images := ["pause:3.9"], policies := ["registry://ghcr.io/policies/safe:v1"] }
        { registry := some "mirror:5000", insecure := true } "mirror:5000" archivesOnly
        images policies failedImages failedPolicies :=
  categories_isolated (fun _ ↦ steady_codesHost _ _ _) rfl rfl fun _ ↦ hasScratch_archivesOnly _

end OfflineSupply.Push
