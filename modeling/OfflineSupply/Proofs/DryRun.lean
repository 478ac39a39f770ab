import OfflineSupply.Install.Run
import OfflineSupply.Proofs.Discovery.Asked
import OfflineSupply.Proofs.Session.Returns
import OfflineSupply.Pull
import OfflineSupply.Push

/-!
# Dry runs have no effect

In a dry run no phase starts a process, makes a request or changes a file or a directory, however
it ends.  The tools by themselves do nothing either but answer questions: of all that can be asked of
them, only listing repositories, searching charts and rendering one start processes.
-/

namespace OfflineSupply

variable {frame : Session.Frame} {host : Host} {set : Settings} {m : Manifest}

namespace PolicyStore

theorem keeps_performPush {dryRun : Bool} (hdry : dryRun = true) (policy target : String)
    (insecure : List String) :
    Action.Keeps frame host (performPush policy target insecure dryRun) := by
  unfold performPush withSources
  simp only [if_pos hdry]
  split
  · exact Command.keeps_perform_unit hdry _
  · exact Command.keeps_perform_unit hdry _

end PolicyStore

/-! ## The phases -/

namespace Pull

theorem keeps_isThere (file : Path) : Action.Keeps frame host (isThere file) := by
  apply Action.keeps_files.bind
  intro files
  split
  · exact (Action.keeps_log _ _ _).bind fun _ ↦ Action.keeps_pure true
  · exact Action.keeps_pure false

theorem keeps_saveArchive {dryRun : Bool} (hdry : dryRun = true) (save : Path → Command)
    (archive : Path) : Action.Keeps frame host (saveArchive save archive dryRun) := by
  unfold saveArchive
  rw [if_pos hdry]
  exact (Command.keeps_perform rfl _).bind fun _ ↦ Action.keeps_pure ()

theorem keeps_images (hdry : set.dryRun = true) : Action.Keeps frame host (images m set) := by
  apply (keeps_isThere _).bind
  intro there
  split
  · exact Action.keeps_pure ()
  · exact (Action.Keeps.forM fun _ ↦ Command.keeps_perform_unit hdry _).bind fun _ ↦
      keeps_saveArchive hdry _ _

theorem keeps_policies (hdry : set.dryRun = true) : Action.Keeps frame host (policies m set) := by
  apply (keeps_isThere _).bind
  intro there
  split
  · exact Action.keeps_pure ()
  · have hentry (policy : String) : Action.Keeps frame host (do
        Action.log .info .pull ("Pulling policy " ++ policy)
        let _ ← (PolicyStore.pull policy).perform set.dryRun : Action Unit) :=
      (Action.keeps_log _ _ _).bind fun _ ↦ Command.keeps_perform_unit hdry _
    exact (Action.Keeps.forM hentry).bind fun _ ↦ keeps_saveArchive hdry _ _

theorem keeps_chart (hdry : set.dryRun = true) (ref : Reference) :
    Action.Keeps frame host (chart set ref) := by
  apply (keeps_isThere _).bind
  intro there
  split
  · exact Action.keeps_pure ()
  · exact (Action.keeps_log _ _ _).bind fun _ ↦ Command.keeps_perform_unit hdry _

theorem keeps_category {name : String} {entries : List String} {body : Action Unit}
    (h : Action.Keeps frame host body) : Action.Keeps frame host (category name entries body) := by
  unfold category
  split
  · exact Action.keeps_pure ()
  · exact Stage.keeps_within h

theorem keeps_all (hdry : set.dryRun = true) : Action.Keeps frame host (all m set) := by
  have hcharts : Action.Keeps frame host (charts m set) :=
    (Action.keeps_ofExcept _).bind fun _ ↦ Action.Keeps.forM (keeps_chart hdry)
  apply (Action.keeps_ofExcept _).bind
  intro _
  -- The directories are made in a live run only.
  simp only [if_pos hdry]
  exact (keeps_category (keeps_images hdry)).bind fun _ ↦
    (keeps_category (keeps_policies hdry)).bind fun _ ↦ keeps_category hcharts

end Pull

namespace Push

theorem keeps_needArchive (archive : Path) : Action.Keeps frame host (needArchive archive) := by
  apply Action.keeps_files.bind
  intro files
  split
  · exact Action.keeps_pure ()
  · exact Action.keeps_fail _

/-- Pushing images keeps what the processes of their program keep, if any are started. -/
theorem keeps_images_of_spawn
    (h : set.dryRun = false → ∀ c : Command, c.tool = .docker → Action.Keeps frame host c.spawn) :
    Action.Keeps frame host (images m set) := by
  have hperform {c : Command} (hc : c.tool = .docker) :
      Action.Keeps frame host (c.perform set.dryRun) :=
    Command.keeps_perform_of_spawn fun hlive ↦ h hlive c hc
  have hentry (pair : String × String) : Action.Keeps frame host (do
      let _ ← (ImageStore.tag pair.1 pair.2).perform set.dryRun
      let _ ← (ImageStore.push pair.2).perform set.dryRun : Action Unit) :=
    (hperform rfl).bind fun _ ↦ (hperform rfl).bind fun _ ↦ Action.keeps_pure ()
  exact (Action.keeps_ofExcept _).bind fun _ ↦ (keeps_needArchive _).bind fun _ ↦
    (Action.keeps_ofExcept _).bind fun _ ↦ (hperform rfl).bind fun _ ↦ Action.Keeps.forM hentry

theorem keeps_images (hdry : set.dryRun = true) : Action.Keeps frame host (images m set) :=
  keeps_images_of_spawn fun hlive ↦ absurd (hdry.symm.trans hlive) (by decide)

theorem keeps_policies (hdry : set.dryRun = true) : Action.Keeps frame host (policies m set) := by
  have hentry (registry : String) (pair : String × String) : Action.Keeps frame host (do
      Action.log .info .push ("Pushing policy " ++ pair.1 ++ " to " ++ pair.2)
      PolicyStore.performPush pair.1 pair.2 (if set.insecure then [registry] else [])
        set.dryRun) :=
    (Action.keeps_log _ _ _).bind fun _ ↦ PolicyStore.keeps_performPush hdry _ _ _
  exact (Action.keeps_ofExcept _).bind fun registry ↦ (keeps_needArchive _).bind fun _ ↦
    (Action.keeps_ofExcept _).bind fun _ ↦ (Action.keeps_log _ _ _).bind fun _ ↦
      (Command.keeps_perform hdry _).bind fun _ ↦ Action.Keeps.forM (hentry registry)

theorem keeps_category {name : String} {entries : List String} {body : Action Unit}
    (h : Action.Keeps frame host body) : Action.Keeps frame host (category name entries body) := by
  unfold category
  split
  · exact Action.keeps_pure []
  · apply Stage.keeps_within
    apply h.attempt.bind
    intro result
    split
    · exact Action.keeps_pure []
    · exact (Action.keeps_log _ _ _).bind fun _ ↦ Action.keeps_pure []
    · split
      · exact (Action.keeps_log _ _ _).bind fun _ ↦ Action.keeps_pure _
      · exact Action.keeps_fail _

theorem keeps_all (hdry : set.dryRun = true) : Action.Keeps frame host (all m set) :=
  (Action.keeps_ofExcept _).bind fun _ ↦ (keeps_category (keeps_images hdry)).bind fun _ ↦
    (keeps_category (keeps_policies hdry)).bind fun _ ↦ Action.keeps_ofExcept _

end Push

theorem Installation.keeps_performAll (hdry : set.dryRun = true) (platform : Platform) :
    Action.Keeps frame host (performAll m set platform) :=
  (Action.keeps_ofExcept _).bind fun _ ↦ Action.Keeps.forM fun _ ↦
    Stage.keeps_within (Command.keeps_perform_unit hdry _)

/-! ## The tools by themselves -/

/-- A command that only asks: for the repositories, for charts or for a rendered chart. -/
def Command.IsQuestion (c : Command) : Prop :=
  ["helm", "repo", "list"] <+: c.arguments ∨ ["helm", "search", "repo"] <+: c.arguments ∨
    ["helm", "template"] <+: c.arguments

/-- Only questions were asked: no request was made, and without a process the files are as before. -/
structure Session.OnlyAsked (before after : Session) : Prop where
  executions : ∃ asked, after.executions = before.executions ++ asked ∧
    ∀ e ∈ asked, e.command.IsQuestion
  requests : after.requests = before.requests
  files : after.executions = before.executions → after.files = before.files

/-- The frame of actions that only ask. -/
def Session.Frame.onlyAsked : Session.Frame where
  keeps := OnlyAsked
  of_untouched h := ⟨⟨[], by rw [h.executions, List.append_nil], by simp⟩, h.requests,
    fun _ ↦ h.files⟩
  trans := by
    intro s s' s'' h h'
    obtain ⟨asked, hasked, hquestions⟩ := h.executions
    obtain ⟨asked', hasked', hquestions'⟩ := h'.executions
    have hall : s''.executions = s.executions ++ (asked ++ asked') := by
      rw [hasked', hasked, List.append_assoc]
    refine ⟨⟨asked ++ asked', hall, ?_⟩, h'.requests.trans h.requests, ?_⟩
    · intro e he
      rw [List.mem_append] at he
      exact he.elim (hquestions e) (hquestions' e)
    · intro hsame
      rw [hall, List.append_right_eq_self, List.append_eq_nil_iff] at hsame
      rw [hsame.1, List.append_nil] at hasked
      rw [hsame.2, List.append_nil] at hasked'
      exact (h'.files hasked').trans (h.files hasked)

theorem Command.keeps_spawn_question {c : Command} (h : c.IsQuestion) :
    Action.Keeps .onlyAsked host c.spawn := by
  intro s
  refine ⟨⟨[_], rfl, ?_⟩, rfl, ?_⟩
  · intro e he
    rw [List.mem_singleton] at he
    rw [he]
    exact h
  · intro hsame
    have hnew : s.executions ++ [_] = s.executions := hsame
    simp at hnew

namespace ChartStore

theorem isQuestion_listRepositories : listRepositories.IsQuestion :=
  .inl ⟨["-o", "json"], rfl⟩

theorem isQuestion_searchFor (wanted : String) : (searchFor wanted).IsQuestion :=
  .inr (.inl ⟨[wanted, "-o", "json"], rfl⟩)

theorem isQuestion_render (url chart : String) (version : Option String) :
    (render url chart version).IsQuestion :=
  .inr (.inr ⟨_, rfl⟩)

end ChartStore

/-- A call of one of the three tools. -/
inductive ToolCall where
  | pullImage (image : String)
  | saveImages (images : List String) (archive : Path)
  | loadImages (archive : Path)
  | tagImage (image name : String)
  | pushImage (image : String)
  | pullPolicy (policy : String)
  | savePolicies (policies : List String) (archive : Path)
  | loadPolicies (archive : Path)
  | pushPolicy (policy target : String) (insecure : List String)
  | findRepository (name : String)
  | searchCharts (wanted : String)
  | renderChart (repositoryUrl chart : String) (version : Option String)
  | pullChart (repositoryUrl chart version : String) (directory : Path)
  | installChart (installation : Installation)

namespace ToolCall

/-- What a call does, apart from what it gives. -/
def perform (dryRun : Bool) : ToolCall → Action Unit
  | pullImage image => do let _ ← (ImageStore.pull image).perform dryRun
  | saveImages images archive => do let _ ← (ImageStore.save images archive).perform dryRun
  | loadImages archive => do let _ ← (ImageStore.load archive).perform dryRun
  | tagImage image name => do let _ ← (ImageStore.tag image name).perform dryRun
  | pushImage image => do let _ ← (ImageStore.push image).perform dryRun
  | pullPolicy policy => do let _ ← (PolicyStore.pull policy).perform dryRun
  | savePolicies policies archive => do let _ ← (PolicyStore.save policies archive).perform dryRun
  | loadPolicies archive => do let _ ← (PolicyStore.load archive).perform dryRun
  | pushPolicy policy target insecure => PolicyStore.performPush policy target insecure dryRun
  | findRepository name => do let _ ← ChartStore.repositoryUrl name
  | searchCharts wanted => do let _ ← ChartStore.search wanted
  | renderChart url chart version => do let _ ← (ChartStore.render url chart version).run
  | pullChart url chart version directory => do
    let _ ← (ChartStore.pull url chart version directory).perform dryRun
  | installChart installation => do let _ ← (ChartStore.install installation).perform dryRun

/-- Calls one after the other, whether those before failed or not. -/
def performAll (dryRun : Bool) (calls : List ToolCall) : Action Unit :=
  calls.forM fun call ↦ do let _ ← (call.perform dryRun).attempt

theorem keeps_perform {dryRun : Bool} (hdry : dryRun = true) (call : ToolCall) :
    Action.Keeps .onlyAsked host (call.perform dryRun) := by
  cases call with
  | findRepository name =>
    have hspawn : Action.Keeps .onlyAsked host ChartStore.listRepositories.spawn :=
      Command.keeps_spawn_question ChartStore.isQuestion_listRepositories
    exact (ChartStore.keeps_repositoryUrl name hspawn).bind fun _ ↦ Action.keeps_pure ()
  | searchCharts wanted =>
    have hspawn : Action.Keeps .onlyAsked host (ChartStore.searchFor wanted).spawn :=
      Command.keeps_spawn_question (ChartStore.isQuestion_searchFor wanted)
    exact (ChartStore.keeps_search hspawn).bind fun _ ↦ Action.keeps_pure ()
  | renderChart url chart version =>
    have hspawn : Action.Keeps .onlyAsked host (ChartStore.render url chart version).spawn :=
      Command.keeps_spawn_question (ChartStore.isQuestion_render url chart version)
    exact (Command.keeps_run hspawn).bind fun _ ↦ Action.keeps_pure ()
  | pushPolicy policy target insecure => exact PolicyStore.keeps_performPush hdry _ _ _
  | _ => exact Command.keeps_perform_unit hdry _

theorem keeps_performAll {dryRun : Bool} (hdry : dryRun = true) (calls : List ToolCall) :
    Action.Keeps .onlyAsked host (performAll dryRun calls) :=
  Action.Keeps.forM fun call ↦ (keeps_perform hdry call).attempt.bind fun _ ↦ Action.keeps_pure ()

end ToolCall

/-- A dry run of a phase touches nothing, whether it returns or fails, and calls of the tools start
no processes but questions. -/
theorem dryRun_untouched (host : Host) (m : Manifest) {set : Settings} (hdry : set.dryRun = true)
    (platform : Platform) (s : Session) :
    (∀ phase ∈ [Pull.all m set, Push.all m set, Installation.performAll m set platform],
      s.Untouched (phase.run host s).2) ∧
    ∀ calls : List ToolCall,
      s.OnlyAsked ((ToolCall.performAll set.dryRun calls).run host s).2 := by
  constructor
  · have hphases : ∀ phase ∈ [Pull.all m set, Push.all m set,
        Installation.performAll m set platform], Action.Keeps .untouched host phase := by
      simp only [List.forall_mem_cons, List.not_mem_nil, false_imp_iff, implies_true, and_true]
      exact ⟨Pull.keeps_all hdry, Push.keeps_all hdry, Installation.keeps_performAll hdry platform⟩
    intro phase hphase
    exact hphases phase hphase s
  · intro calls
    exact ToolCall.keeps_performAll hdry calls s

/-- A host on which every process loses all files. -/
def losingHost : Host where
  launch s _ := { files := .empty s.files.directory }
  fetch _ _ := .refused ""
  hasProgram _ := true
  scratchFile _ := Path.here
  stopwatch _ := "0"

theorem insecure_dryRun_untouched :
    let set : Settings := { registry := some "mirror:5000", insecure := true, dryRun := true }
    let m : Manifest :=
      { images := ["pause:3.9"], policies := ["registry://ghcr.io/policies/safe:v1"]
        charts := ["https://charts.example/safe:1.0"] }
    let s : Session :=
      { files := (FileTree.empty ["work"]).put ["work", "kubewarden-policies.tar.gz"] (.file .empty) }
    let calls : List ToolCall :=
      [.pushPolicy "registry://ghcr.io/policies/safe:v1" "registry://mirror:5000/policies/safe:v1"
        ["mirror:5000"], .findRepository "charts", .loadImages Path.here]
    let asked := (ToolCall.performAll set.dryRun calls).run losingHost s
    set.dryRun = true ∧
      (∀ phase ∈ [Pull.all m set, Push.all m set, Installation.performAll m set {}],
        s.Untouched (phase.run losingHost s).2) ∧
      s.OnlyAsked asked.2 ∧ asked.2.commands = [ChartStore.listRepositories] := by
  intro set m s calls asked
  have hdry : set.dryRun = true := rfl
  obtain ⟨hphases, hcalls⟩ := dryRun_untouched losingHost m hdry {} s
  exact ⟨hdry, hphases, hcalls calls, rfl⟩

end OfflineSupply
