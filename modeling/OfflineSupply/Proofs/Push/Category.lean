import OfflineSupply.Proofs.Category
import OfflineSupply.Proofs.Manifest.Reading
import OfflineSupply.Proofs.Push.Carry

/-!
# Pushing one category

Images and policies are pushed in the same way: the archive has to be there, every entry gets its
target, the archive is loaded and the entries are pushed one by one.  What an attempt at a category
starts, and the failure that it ends in, depend on nothing but the entries, the settings, the files
and how the processes of this attempt ended.
-/

namespace OfflineSupply

open FileTree Push

theorem Push.needRegistry_eq_ok {s : Settings} {registry : String}
    (h : s.registry? = some registry) : needRegistry s = .ok registry := by
  unfold needRegistry
  rw [h]
  rfl

namespace Category

/-- The command that brings the entries of an archive into the local store of their program. -/
def load (k : Category) (archive : Path) : Command where
  arguments :=
    match k with
    | images => ["docker", "load", "--input", archive.text]
    | policies => ["kwctl", "load", "--input", archive.text]
  tool := k.tool

/-- An entry as it is named at a registry. -/
def retarget : Category → String → String → Except Reference.Error String
  | images => fun registry image ↦ Reference.retargetImage image registry
  | policies => fun registry policy ↦ Reference.retargetPolicy policy registry

/-- What the log says before the archive is loaded. -/
def announceLoad (k : Category) (s : Settings) : Action Unit :=
  match k with
  | images => pure ()
  | policies => Action.log .info .push ("Loading archive: " ++ s.policiesArchive.name)

/-- Brings one entry to its target. -/
def pushEntry (k : Category) (registry : String) (s : Settings) (entry target : String) :
    Action Unit :=
  match k with
  | images => do
    let _ ← (imageTag entry target).perform s.dryRun
    let _ ← (imagePush target).perform s.dryRun
  | policies => do
    Action.log .info .push ("Pushing policy " ++ entry ++ " to " ++ target)
    PolicyStore.performPush entry target (if s.insecure then [registry] else []) s.dryRun

/-- Loads the archive and pushes all entries. -/
def send (k : Category) (registry : String) (s : Settings) (pairs : List (String × String)) :
    Action Unit := do
  k.announceLoad s
  let _ ← (k.load (k.archive s)).perform s.dryRun
  pairs.forM fun (entry, target) ↦ k.pushEntry registry s entry target

def push (k : Category) (m : Manifest) (s : Settings) : Action Unit := do
  let registry ← Action.ofExcept (needRegistry s)
  needArchive (k.archive s)
  let pairs ← Action.ofExcept (targets (k.retarget registry) (k.entries m))
  k.send registry s pairs

theorem images_eq_push (m : Manifest) (s : Settings) : Push.images m s = images.push m s := by
  unfold Push.images
  simp only [ImageStore.load_eq, ImageStore.tag_eq, ImageStore.push_eq]
  rfl

theorem policies_eq_push (m : Manifest) (s : Settings) :
    Push.policies m s = policies.push m s := by
  unfold Push.policies
  simp only [PolicyStore.load_eq]
  rfl

/-- The commands that bring one entry to its target, with the path of a sources file. -/
def entryCommands (k : Category) (s : Settings) (sources : Path) (entry target : String) :
    List Command :=
  match k with
  | images => [imageTag entry target, imagePush target]
  | policies =>
    [if s.insecure then insecurePush entry target sources else policyPush entry target]

/-- The steps that bring one entry to its target. -/
def entrySteps (k : Category) (registry : String) (s : Settings) (entry target : String) :
    List Step :=
  match k with
  | images => [starting (imageTag entry target), starting (imagePush target)]
  | policies =>
    [if s.insecure then startingInsecure entry target registry
      else starting (policyPush entry target)]

/-- The steps of a category: its archive is loaded and its entries are brought to their targets. -/
def steps (k : Category) (registry : String) (s : Settings) (pairs : List (String × String)) :
    List Step :=
  starting (k.load (k.archive s)) ::
    pairs.flatMap fun (entry, target) ↦ k.entrySteps registry s entry target

/-- The entries have targets, in their order. -/
def Targets (k : Category) (registry : String) (entries : List String)
    (pairs : List (String × String)) : Prop :=
  List.Forall₂ (fun entry pair ↦ pair.1 = entry ∧ k.retarget registry entry = .ok pair.2)
    entries pairs

/-- The first entry that has no target is malformed in this way. -/
def HasMalformed (k : Category) (registry : String) (entries : List String)
    (e : Reference.Error) : Prop :=
  ∃ before entry after, entries = before ++ entry :: after ∧
    (∀ x ∈ before, ∃ target, k.retarget registry x = .ok target) ∧
      k.retarget registry entry = .error e

/-- The commands that a live push of a manifest can issue for a category: the archive is loaded, and an
entry is brought to its target. -/
inductive Issues (k : Category) (host : Host) (m : Manifest) (s : Settings) : Command → Prop
  | load (hentries : k.entries m ≠ []) : Issues k host m s (k.load (k.archive s))
  | bring {registry entry target : String} {session : Session} {c : Command}
      (hregistry : s.registry? = some registry) (hentry : entry ∈ k.entries m)
      (htarget : k.retarget registry entry = .ok target)
      (hc : c ∈ k.entryCommands s (host.scratchFile session) entry target) : Issues k host m s c

/-- The processes that an attempt at some entries started, and the failure that it ended in. -/
inductive Attempt (k : Category) (registry : String) (s : Settings) (t : FileTree)
    (entries : List String) : List Execution → Option Failure → Prop
  | empty (hentries : entries = []) : Attempt k registry s t entries [] none
  | absent (hentries : entries ≠ []) (harchive : t.exists? (k.archive s) = false) :
      Attempt k registry s t entries [] none
  | malformed (hentries : entries ≠ []) (harchive : t.exists? (k.archive s) = true)
      {e : Reference.Error} (he : k.HasMalformed registry entries e) :
      Attempt k registry s t entries [] (some (.reference e))
  | carried (hentries : entries ≠ []) (harchive : t.exists? (k.archive s) = true)
      {pairs : List (String × String)} (hpairs : k.Targets registry entries pairs)
      {es : List Execution} {f : Option Failure}
      (hcarried : Carried (k.steps registry s pairs) es f) : Attempt k registry s t entries es f

variable {k : Category} {host : Host} {t : FileTree} {s : Session} {settings : Settings}
  {m : Manifest} {registry entry target : String} {entries : List String}
  {pairs : List (String × String)} {moves : Command → Prop}

theorem Issues.of_dryRun {dryRun : Bool} {c : Command}
    (h : k.Issues host m { settings with dryRun } c) : k.Issues host m settings c := by
  cases h with
  | load hentries => exact .load hentries
  | bring hregistry hentry htarget hc => exact .bring hregistry hentry htarget hc

/-! ## Targets -/

theorem targets_eq_ok_iff :
    Push.targets (k.retarget registry) entries = .ok pairs ↔ k.Targets registry entries pairs := by
  have hmap : Push.targets (k.retarget registry) entries = .ok pairs ↔
      (entries.mapM fun x ↦ (k.retarget registry x).map fun target ↦ (x, target)) =
        .ok pairs := by
    unfold Push.targets
    cases entries.mapM fun x ↦ (k.retarget registry x).map fun target ↦ (x, target) with
    | ok pairs => simp
    | error e => simp
  rw [hmap, mapM_eq_ok_iff, Targets]
  have hpair (x : String) (pair : String × String) :
      (k.retarget registry x).map (fun target ↦ (x, target)) = .ok pair ↔
        pair.1 = x ∧ k.retarget registry x = .ok pair.2 := by
    cases k.retarget registry x with
    | error e => simp [Except.map]
    | ok target => cases pair; simp [Except.map, eq_comm]
  simp only [hpair]

theorem targets_eq_error_iff {f : Failure} :
    Push.targets (k.retarget registry) entries = .error f ↔
      ∃ e, f = .reference e ∧ k.HasMalformed registry entries e := by
  have hmap : Push.targets (k.retarget registry) entries = .error f ↔
      ∃ e, f = .reference e ∧
        (entries.mapM fun x ↦ (k.retarget registry x).map fun target ↦ (x, target)) =
          .error e := by
    unfold Push.targets
    cases entries.mapM fun x ↦ (k.retarget registry x).map fun target ↦ (x, target) with
    | ok pairs => simp
    | error e => simp [eq_comm]
  have hok (x : String) :
      (∃ pair, (k.retarget registry x).map (fun target ↦ (x, target)) = .ok pair) ↔
        ∃ target, k.retarget registry x = .ok target := by
    cases k.retarget registry x <;> simp [Except.map]
  have herror (x : String) (e : Reference.Error) :
      (k.retarget registry x).map (fun target ↦ (x, target)) = .error e ↔
        k.retarget registry x = .error e := by
    cases k.retarget registry x <;> simp [Except.map]
  simp only [hmap, mapM_eq_error_iff, hok, herror, HasMalformed]

/-- Entries that all have targets are not malformed. -/
theorem Targets.not_hasMalformed (h : k.Targets registry entries pairs) {e : Reference.Error} :
    ¬ k.HasMalformed registry entries e := by
  intro he
  have hpairs := targets_eq_ok_iff.mpr h
  rw [targets_eq_error_iff.mpr ⟨e, rfl, he⟩] at hpairs
  simp at hpairs

theorem Targets.mem {pair : String × String} (h : k.Targets registry entries pairs)
    (hpair : pair ∈ pairs) : pair.1 ∈ entries ∧ k.retarget registry pair.1 = .ok pair.2 := by
  unfold Targets at h
  induction h with
  | nil => simp at hpair
  | cons hfirst _ ih =>
    rcases List.mem_cons.mp hpair with rfl | hlater
    · obtain ⟨rfl, htarget⟩ := hfirst
      exact ⟨List.mem_cons_self, htarget⟩
    · obtain ⟨hentry, htarget⟩ := ih hlater
      exact ⟨List.mem_cons_of_mem _ hentry, htarget⟩

theorem Targets.unique {pairs' : List (String × String)} (h : k.Targets registry entries pairs)
    (h' : k.Targets registry entries pairs') : pairs = pairs' := by
  have hpairs := targets_eq_ok_iff.mpr h
  rw [targets_eq_ok_iff.mpr h'] at hpairs
  exact (Except.ok.inj hpairs).symm

/-! ## Sending -/

theorem carries_announceLoad : Carries host t [] (k.announceLoad settings) := by
  cases k with
  | images => exact carries_pure ()
  | policies => exact carries_log _ _ _

theorem carries_perform {c : Command} (hhost : Steady host moves) (hlive : settings.dryRun = false)
    (hc : moves c) (hlimit : c.limit = none) (hdirectory : c.directory = none) :
    Carries host t [starting c] (c.perform settings.dryRun) := by
  unfold Command.perform
  rw [hlive]
  exact carries_run hhost hc hlimit hdirectory

theorem carries_pushEntry (hhost : Steady host moves) (hlive : settings.dryRun = false)
    (hscratch : settings.insecure = true → HasScratch host t)
    (hmoves : ∀ session, ∀ c ∈ k.entryCommands settings (host.scratchFile session) entry target,
      moves c) :
    Carries host t (k.entrySteps registry settings entry target)
      (k.pushEntry registry settings entry target) := by
  cases k with
  | images =>
    have htag : moves (imageTag entry target) := hmoves { files := t } _ (by simp [entryCommands])
    have hpush : moves (imagePush target) := hmoves { files := t } _ (by simp [entryCommands])
    exact (carries_perform hhost hlive htag rfl rfl).bind fun _ ↦
      (carries_perform hhost hlive hpush rfl rfl).bind fun _ ↦ carries_pure ()
  | policies =>
    change Carries host t ([] ++ _) (Action.log .info .push _ >>= fun _ ↦ _)
    refine (carries_log _ _ _).bind fun _ ↦ ?_
    unfold entryCommands at hmoves
    rw [hlive]
    cases hinsecure : settings.insecure with
    | false =>
      have hpush : moves (policyPush entry target) := hmoves { files := t } _ (by simp [hinsecure])
      rw [if_neg (by simp), if_neg (by simp)]
      unfold PolicyStore.performPush
      rw [PolicyStore.push_eq]
      exact (carries_run hhost hpush rfl rfl).bind fun _ ↦ carries_pure ()
    | true =>
      have hpush (session : Session) :
          moves (insecurePush entry target (host.scratchFile session)) :=
        hmoves session _ (by simp [hinsecure])
      exact carries_performPush_insecure hhost hpush (hscratch hinsecure) registry

theorem carries_send (hhost : Steady host (k.Issues host m settings))
    (hlive : settings.dryRun = false) (hregistry : settings.registry? = some registry)
    (hscratch : settings.insecure = true → HasScratch host t) (hentries : k.entries m ≠ [])
    (hpairs : k.Targets registry (k.entries m) pairs) :
    Carries host t (k.steps registry settings pairs) (k.send registry settings pairs) := by
  have hbring : Carries host t
      (pairs.flatMap fun (entry, target) ↦ k.entrySteps registry settings entry target)
      (pairs.forM fun (entry, target) ↦ k.pushEntry registry settings entry target) := by
    apply carries_forM
    intro pair hpair
    obtain ⟨hentry, htarget⟩ := hpairs.mem hpair
    exact carries_pushEntry hhost hlive hscratch fun _ _ hc ↦ .bring hregistry hentry htarget hc
  exact carries_announceLoad.bind fun _ ↦
    (carries_perform hhost hlive (.load hentries) rfl rfl).bind fun _ ↦ hbring

/-- Pushing a category is an attempt at its entries; only an archive that is not there makes it fail
although no process did. -/
theorem ensures_push (hhost : Steady host (k.Issues host m settings)) (hlive : settings.dryRun = false)
    (hregistry : settings.registry? = some registry)
    (hscratch : settings.insecure = true → HasScratch host t) (hentries : k.entries m ≠ [])
    (hs : t.Agrees s.files) :
    Action.Ensures host s (k.push m settings) fun r s' ↦
      t.Agrees s'.files ∧ ∃ es f, s'.executions = s.executions ++ es ∧
        k.Attempt registry settings t (k.entries m) es f ∧
          (Yields f r ∨ f = none ∧ r = .error (.missingArchive (k.archive settings).name)) := by
  unfold push needArchive
  rw [needRegistry_eq_ok hregistry]
  change Action.Ensures host s ((Action.files >>= _) >>= _) _
  rw [bind_assoc, Action.ensures_files_bind, hs.exists?]
  cases harchive : t.exists? (k.archive settings) with
  | false =>
    exact ⟨hs, [], none, (List.append_nil _).symm, .absent hentries harchive, .inr ⟨rfl, rfl⟩⟩
  | true =>
    change Action.Ensures host s (Action.ofExcept _ >>= _) _
    cases hpairs : Push.targets (k.retarget registry) (k.entries m) with
    | error f =>
      obtain ⟨e, rfl, he⟩ := targets_eq_error_iff.mp hpairs
      exact ⟨hs, [], some (.reference e), (List.append_nil _).symm,
        .malformed hentries harchive he, .inl rfl⟩
    | ok pairs =>
      change Action.Ensures host s (k.send registry settings pairs) _
      have htargets := targets_eq_ok_iff.mp hpairs
      refine (carries_send hhost hlive hregistry hscratch hentries htargets s hs).mono ?_
      rintro r s' ⟨hs', es, f, hexecutions, hcarried, hyields⟩
      exact ⟨hs', es, f, hexecutions, .carried hentries harchive htargets hcarried, .inl hyields⟩

end Category

end OfflineSupply
