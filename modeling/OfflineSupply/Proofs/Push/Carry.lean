import OfflineSupply.Proofs.Command.Launch
import OfflineSupply.Proofs.FileTree.Change
import OfflineSupply.Proofs.Stores
import OfflineSupply.Proofs.Yaml.Listing
import OfflineSupply.Push

/-!
# Steps carried out up to a failure

The work of a push is a list of steps, each of which starts one process.  The steps are carried out
in order, and the first process that exits with another code than zero is the last one.  Nothing but
the codes is asked of the processes: they write text and leave the files alone.  It is asked of the
processes of certain commands alone, those that the work at hand can issue.
-/

namespace OfflineSupply.Push

open FileTree

variable {α β : Type} {host : Host} {t : FileTree} {s : Session} {moves : Command → Prop}
  {steps more : List (Execution → Prop)} {es es' : List Execution} {f : Option Failure}

/-- What is expected of a process that is started. -/
abbrev Step := Execution → Prop

/-- The step that starts a command. -/
def starting (c : Command) : Step :=
  fun e ↦ e.command = c

/-- A failure is that of the process, which exited with another code than zero. -/
def FailsWith (e : Execution) (failure : Failure) : Prop :=
  ∃ code output errors, code ≠ 0 ∧ e.ending = .exited code ∧
    failure = .command
      { tool := e.command.tool, command := e.command.line
        ending := .exited code output errors }

/-- Steps were carried out by processes until one of these failed, if any did. -/
inductive Carried : List Step → List Execution → Option Failure → Prop
  | done : Carried [] [] none
  | passed {step : Step} {steps : List Step} {e : Execution} {es : List Execution}
      {f : Option Failure} (hstep : step e) (hending : e.ending = .exited 0)
      (hrest : Carried steps es f) : Carried (step :: steps) (e :: es) f
  | failed {step : Step} {steps : List Step} {e : Execution} {failure : Failure} (hstep : step e)
      (hfails : FailsWith e failure) : Carried (step :: steps) [e] (some failure)

namespace Carried

theorem append (h : Carried steps es none) (h' : Carried more es' f) :
    Carried (steps ++ more) (es ++ es') f := by
  generalize hnone : (none : Option Failure) = first at h
  induction h with
  | done => exact h'
  | passed hstep hending _ ih => exact .passed hstep hending (ih hnone)
  | failed => simp at hnone

theorem append_failed {failure : Failure} (h : Carried steps es (some failure)) :
    Carried (steps ++ more) es (some failure) := by
  generalize hsome : some failure = first at h ⊢
  induction h with
  | done => simp at hsome
  | passed hstep hending _ ih => exact .passed hstep hending (ih hsome)
  | failed hstep hfails => exact .failed hstep hfails

end Carried

/-! ## Actions that carry out steps -/

/-- The result of an action whose steps failed or did not. -/
def Yields (f : Option Failure) (r : Except Failure α) : Prop :=
  match f with
  | none => ∃ value, r = .ok value
  | some failure => r = .error failure

theorem Yields.eq_some {e : Failure} (h : Yields f (.error e : Except Failure α)) :
    f = some e := by
  cases f with
  | none =>
    obtain ⟨value, hvalue⟩ := h
    simp at hvalue
  | some failure => rw [Except.error.inj h]

theorem Yields.eq_none {value : α} (h : Yields f (.ok value)) : f = none := by
  cases f with
  | none => rfl
  | some failure =>
    change Except.ok value = .error failure at h
    simp at h

/-- From the files as they are, the action carries out the steps and leaves the files as they are. -/
def Carries (host : Host) (t : FileTree) (steps : List Step) (a : Action α) : Prop :=
  ∀ s : Session, t.Agrees s.files → Action.Ensures host s a fun r s' ↦
    t.Agrees s'.files ∧ ∃ es f, s'.executions = s.executions ++ es ∧ Carried steps es f ∧
      Yields f r

theorem carries_pure (value : α) : Carries host t [] (pure value : Action α) :=
  fun _ hs ↦ ⟨hs, [], none, (List.append_nil _).symm, .done, value, rfl⟩

theorem carries_log (severity : Severity) (topic : Topic) (message : String) :
    Carries host t [] (Action.log severity topic message) :=
  fun _ hs ↦ ⟨hs, [], none, (List.append_nil _).symm, .done, (), rfl⟩

theorem Carries.bind {a : Action α} {b : α → Action β} (ha : Carries host t steps a)
    (hb : ∀ value, Carries host t more (b value)) : Carries host t (steps ++ more) (a >>= b) := by
  intro s hs
  refine (ha s hs).bind ?_ ?_
  · rintro value s₁ ⟨hs₁, es, f, hexecutions, hcarried, hyields⟩
    refine (hb value s₁ hs₁).mono ?_
    rintro r s₂ ⟨hs₂, es', f', hexecutions', hcarried', hyields'⟩
    obtain rfl := hyields.eq_none
    refine ⟨hs₂, es ++ es', f', ?_, hcarried.append hcarried', hyields'⟩
    rw [hexecutions', hexecutions, List.append_assoc]
  · rintro e s₁ ⟨hs₁, es, f, hexecutions, hcarried, hyields⟩
    obtain rfl := hyields.eq_some
    exact ⟨hs₁, es, some e, hexecutions, hcarried.append_failed, rfl⟩

/-- A loop carries out the steps of its rounds one after the other. -/
theorem carries_forM {xs : List β} {round : β → Action Unit} {stepsOf : β → List Step}
    (h : ∀ x ∈ xs, Carries host t (stepsOf x) (round x)) :
    Carries host t (xs.flatMap stepsOf) (xs.forM round) := by
  induction xs with
  | nil => exact carries_pure ()
  | cons x xs ih =>
    rw [List.flatMap_cons]
    exact (h x (by simp)).bind fun _ ↦ ih fun x' hx' ↦ h x' (by simp [hx'])

/-! ## Single commands -/

def imageTag (image name : String) : Command where
  arguments := ["docker", "tag", image, name]
  tool := .docker

def imagePush (image : String) : Command where
  arguments := ["docker", "push", "-q", image]
  tool := .docker

def policyPush (policy target : String) : Command where
  arguments := ["kwctl", "push", policy, target]
  tool := .kwctl

/-- The command that pushes a policy while the sources that a file lists are used without
verification. -/
def insecurePush (policy target : String) (sources : Path) : Command where
  arguments := ["kwctl", "push", policy, target, "--sources-path", sources.text]
  tool := .kwctl

/-- A host on which the processes of certain commands exit with some code after writing text, and leave
the files as they are. -/
structure Steady (host : Host) (moves : Command → Prop) : Prop where
  exits : ∀ (session : Session) (c : Command), moves c → ∃ code output errors,
    Launch.Exits host { session, command := c } code output errors
  files : ∀ (session : Session) (c : Command), moves c →
    session.files.Agrees (host.launch session c).files

theorem Steady.mono {fewer : Command → Prop} (h : Steady host moves)
    (hfewer : ∀ c, fewer c → moves c) : Steady host fewer :=
  ⟨fun session c hc ↦ h.exits session c (hfewer c hc),
    fun session c hc ↦ h.files session c (hfewer c hc)⟩

variable {c : Command}

/-- A command whose process exits after writing text starts that process, which carries out every step
that expects it. -/
theorem ensures_run_exits (hexits : ∀ session : Session, ∃ code output errors,
      Launch.Exits host { session, command := c } code output errors)
    (hlimit : c.limit = none) (hdirectory : c.directory = none) :
    Action.Ensures host s c.run fun r s' ↦ ∃ l f, Launched host c s r s' l ∧ Yields f r ∧
      ∀ step : Step, step (l.execution host) → Carried [step] [l.execution host] f := by
  refine (Command.ensures_run hlimit).mono ?_
  rintro r s' ⟨l, hl⟩
  obtain ⟨code, output, errors, hexits⟩ := hexits l.session
  have hexits' : l.Exits host code output errors := by
    rwa [← hl.command] at hexits
  have hending : (l.execution host).ending = .exited code := by
    simp [Launch.execution, hexits'.exit]
  have hresult := hl.result code output errors hexits'
  by_cases hcode : code = 0
  · rw [if_pos hcode] at hresult
    rw [hcode] at hending
    exact ⟨l, none, hl, ⟨output, hresult⟩, fun step hstep ↦ .passed hstep hending .done⟩
  · rw [if_neg hcode] at hresult
    refine ⟨l, some _, hl, hresult,
      fun step hstep ↦ .failed hstep ⟨code, output, errors, hcode, hending, ?_⟩⟩
    rw [Launch.command_execution, hl.command]
    simp [Command.shown, hdirectory]

/-- The process of such a command carries out every step that expects it, and leaves the files as they
are. -/
theorem ensures_run_steady (hhost : Steady host moves) (hc : moves c) (hlimit : c.limit = none)
    (hdirectory : c.directory = none) :
    Action.Ensures host s c.run fun r s' ↦ ∃ e f, s'.executions = s.executions ++ [e] ∧
      e.command = c ∧ e.filesBefore = s.files ∧ s.files.Agrees s'.files ∧ Yields f r ∧
      ∀ step : Step, step e → Carried [step] [e] f := by
  have hexits (session : Session) := hhost.exits session c hc
  refine (ensures_run_exits hexits hlimit hdirectory).mono ?_
  rintro r s' ⟨l, f, hl, hyields, hcarried⟩
  have hagrees : s.files.Agrees s'.files := by
    have hkept := hhost.files l.session c hc
    rw [hl.filesBefore, ← hl.command] at hkept
    rwa [hl.filesAfter]
  exact ⟨l.execution host, f, hl.executions, hl.command, hl.filesBefore, hagrees, hyields, hcarried⟩

theorem carries_run (hhost : Steady host moves) (hc : moves c) (hlimit : c.limit = none)
    (hdirectory : c.directory = none) : Carries host t [starting c] c.run := by
  intro s hs
  refine (ensures_run_steady hhost hc hlimit hdirectory).mono ?_
  rintro r s' ⟨e, f, hexecutions, hcommand, -, hagrees, hyields, hcarried⟩
  exact ⟨hs.trans hagrees, [e], f, hexecutions, hcarried _ hcommand, hyields⟩

/-! ## Sources files -/

/-- The text of a file that lists nothing but a registry. -/
def sourcesListing (registry : String) : String :=
  "insecure_sources:\n-" ++ String.ofList (Yaml.writeScalar 1 registry) ++ "\n"

theorem sourcesText_singleton (registry : String) :
    PolicyStore.sourcesText [registry] = sourcesListing registry := by
  have hjoin (line : String) : String.join [line] = line := by
    simp [String.join]
  unfold PolicyStore.sourcesText sourcesListing
  rw [List.map_cons, List.map_nil, hjoin, ← String.append_assoc, ← String.append_assoc]
  rfl

/-- Loaded, a text is a map with nothing but the key of the insecure registries, and the only one of
these is the registry. -/
def ListsInsecure (text registry : String) : Prop :=
  ∃ document, Yaml.load text = .ok [document] ∧
    document.tree? Document.nestingLimit [] document.root =
      some (.map [(.text (.ofString "insecure_sources"),
        .list [.scalar (.text (.ofString registry))])])

/-- Whatever the name of the registry is, it is read back from its sources file. -/
theorem listsInsecure_sourcesListing (registry : String) :
    ListsInsecure (sourcesListing registry) registry := by
  have hkey : Yaml.IsKey "insecure_sources".toList := ⟨by decide, by decide, by decide⟩
  have htag : Yaml.Tag.ofPlain (String.ofList "insecure_sources".toList) = .text := by
    rw [String.ofList_toList]
    decide +kernel
  have htext : sourcesListing registry =
      String.ofList (Yaml.itemBelow "insecure_sources".toList 1 registry) := by
    have hstart : "insecure_sources:\n-" =
        String.ofList ("insecure_sources".toList ++ [':', '\n', '-']) := by decide +kernel
    have hend : "\n" = String.ofList ['\n'] := rfl
    unfold sourcesListing Yaml.itemBelow
    rw [hstart, hend, ← String.ofList_append, ← String.ofList_append, List.append_assoc,
      List.append_assoc, List.cons_append, List.cons_append, List.cons_append, List.nil_append]
  obtain ⟨document, hload, htree⟩ := Yaml.load_itemBelow hkey htag 1 registry
  rw [String.ofList_toList] at htree
  rw [htext]
  exact ⟨document, hload, htree⟩

/-- The step that pushes a policy while a file stands that lists a registry as insecure. -/
def startingInsecure (policy target registry : String) : Step :=
  fun e ↦ ∃ sources, e.command = insecurePush policy target sources ∧
    e.filesBefore.read sources = .ok (sourcesListing registry).toUTF8 ∧
    ListsInsecure (sourcesListing registry) registry

/-- What the program relies on when it asks for a scratch file: there is none yet. -/
def HasScratch (host : Host) (t : FileTree) : Prop :=
  ∀ session : Session, t.Agrees session.files → ∃ at_,
    session.files.locate (host.scratchFile session) = .ok at_ ∧ session.files.find? at_ = none

theorem ensures_writeText_vacant {p : Path} {at_ : Location} {text : String}
    (hlocate : s.files.locate p = .ok at_) (hvacant : s.files.find? at_ = none) :
    Action.Ensures host s (Action.writeText p text) fun r s' ↦
      r = .ok () ∧ s' = { s with files := s.files.put at_ (.file text.toUTF8) } := by
  have hlookup : s.files.lookup p = .error .missing := by
    simp [lookup, hlocate, hvacant]
  have hwrite : s.files.write p text.toUTF8 = .ok (s.files.put at_ (.file text.toUTF8)) := by
    simp [write, hlocate, hvacant]
  unfold Action.writeText
  rw [Action.ensures_files_bind]
  simp only [hlookup]
  rw [Action.ensures_changeFiles]
  simp only [hwrite]
  exact ⟨trivial, trivial⟩

section Standing

variable {p : Path} {at_ : Location} {octets : ByteArray} {u : FileTree}
  (hlocate : t.locate p = .ok at_) (hvacant : t.find? at_ = none)

include hvacant

theorem ne_nil_of_vacant : at_ ≠ [] := by
  intro hnil
  rw [hnil] at hvacant
  simp at hvacant

/-- A file that was put where nothing was, and dropped again, leaves the tree as it was. -/
theorem agrees_drop_put {entry : FileEntry} (h : (t.put at_ entry).Agrees u) :
    t.Agrees (u.drop at_) := by
  have hroot := ne_nil_of_vacant hvacant
  refine ⟨h.directory.trans directory_put, fun y ↦ ?_⟩
  by_cases hy : y = at_
  · rw [hy, find?_drop_self hroot, hvacant]
  · rw [find?_drop_of_ne hy, h.entry, find?_put_of_ne hy]

include hlocate

/-- A file that was put where nothing was is read under the path it was put for. -/
theorem read_put_file : (t.put at_ (.file octets)).read p = .ok octets := by
  have hfound : (t.put at_ (.file octets)).find? at_ = some (.file octets) :=
    find?_put_self (ne_nil_of_vacant hvacant)
  unfold FileTree.read
  rw [lookup_eq_ok.mpr ⟨at_, locate_put_file (by simp [hvacant]) hlocate, hfound⟩]

theorem remove_put_file (h : (t.put at_ (.file octets)).Agrees u) :
    u.remove p = .ok (u.drop at_) := by
  have hlocated : (t.put at_ (.file octets)).locate p = .ok at_ :=
    locate_put_file (by simp [hvacant]) hlocate
  have hfound : (t.put at_ (.file octets)).find? at_ = some (.file octets) :=
    find?_put_self (ne_nil_of_vacant hvacant)
  exact remove_file (h.locate hlocated) ((h.entry at_).trans hfound)

end Standing

/-- A policy is pushed from a sources file that stands only meanwhile. -/
theorem carries_performPush_insecure {policy target : String} (hhost : Steady host moves)
    (hmoves : ∀ session, moves (insecurePush policy target (host.scratchFile session)))
    (hscratch : HasScratch host t) (registry : String) :
    Carries host t [startingInsecure policy target registry]
      (PolicyStore.performPush policy target [registry] false) := by
  intro s hs
  obtain ⟨at_, hlocate, hvacant⟩ := hscratch s hs
  unfold PolicyStore.performPush PolicyStore.withSources
  simp only [List.isEmpty_cons, Bool.false_eq_true, if_false, sourcesText_singleton,
    PolicyStore.pushFrom_eq]
  rw [Action.ensures_host_bind, Action.ensures_session_bind]
  refine (ensures_writeText_vacant hlocate hvacant).bind ?_ (by simp)
  rintro ⟨⟩ s₁ ⟨-, rfl⟩
  rw [Action.ensures_andFinally]
  change Action.Ensures host _
    ((insecurePush policy target (host.scratchFile s)).run >>= fun _ ↦ pure ()) _
  rw [Action.ensures_bind]
  refine (ensures_run_steady hhost (hmoves s) rfl rfl).mono ?_
  rintro r s₂ ⟨e, f, hexecutions, hcommand, hbefore, hagrees, hyields, hcarried⟩
  have hcarried' : Carried [startingInsecure policy target registry] [e] f := by
    refine hcarried _ ⟨host.scratchFile s, hcommand, ?_, listsInsecure_sourcesListing registry⟩
    rw [hbefore]
    exact read_put_file hlocate hvacant
  have hremove := remove_put_file hlocate hvacant hagrees
  have hback : t.Agrees (s₂.files.drop at_) := hs.trans (agrees_drop_put hvacant hagrees)
  -- The file is removed after both outcomes, and removing it does not fail.
  cases r with
  | ok value =>
    rw [hyields.eq_none] at hcarried'
    dsimp only
    rw [Action.ensures_pure, Action.ensures_changeFiles, hremove]
    exact ⟨hback, [e], none, hexecutions, hcarried', (), rfl⟩
  | error failure =>
    rw [hyields.eq_some] at hcarried'
    dsimp only
    rw [Action.ensures_changeFiles, hremove]
    exact ⟨hback, [e], some failure, hexecutions, hcarried', rfl⟩

end OfflineSupply.Push
