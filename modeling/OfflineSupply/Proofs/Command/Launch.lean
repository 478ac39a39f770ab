import OfflineSupply.Command.Run
import OfflineSupply.Proofs.Session.Ensures
import OfflineSupply.Stage.Basic

/-!
# Processes as they start

A process is told apart by its command and by the session that it starts in; the host answers both
with its outcome.  Running a command starts exactly one process, from the files as they are, and
leaves the files as the process left them.  Announcing a stage changes neither files nor processes.
-/

namespace OfflineSupply

/-- A process as it starts. -/
structure Launch where
  session : Session
  command : Command

namespace Launch

variable {host : Host} {l : Launch}

/-- What the host makes of a process. -/
def outcome (host : Host) (l : Launch) : Outcome :=
  host.launch l.session l.command

/-- The record of a process. -/
def execution (host : Host) (l : Launch) : Execution where
  command := l.command
  filesBefore := l.session.files
  ending := (l.outcome host).exit.elim .killed .exited

@[simp]
theorem command_execution : (l.execution host).command = l.command := rfl

@[simp]
theorem filesBefore_execution : (l.execution host).filesBefore = l.session.files := rfl

theorem ending_execution_iff :
    (l.execution host).ending = .exited 0 ↔ (l.outcome host).exit = some 0 := by
  unfold execution
  cases (l.outcome host).exit <;> simp

/-- The process was carried through and exited with zero. -/
def Succeeds (host : Host) (l : Launch) : Prop :=
  (l.outcome host).fault = none ∧ (l.outcome host).exit = some 0

/-- The process was carried through, exited with a code and wrote text. -/
structure Exits (host : Host) (l : Launch) (code : Int) (output errors : String) : Prop where
  fault : (l.outcome host).fault = none
  exit : (l.outcome host).exit = some code
  output : Text.strictText? (l.outcome host).output = some output
  errors : Text.strictText? (l.outcome host).errors = some errors

end Launch

/-- The processes of a session, each of which started when those before it were over. -/
structure Session.Traced (host : Host) (s : Session) (ls : List Launch) : Prop where
  executions : s.executions = ls.map (Launch.execution host)
  started : ∀ before l after, ls = before ++ l :: after →
    l.session.executions = before.map (Launch.execution host)

theorem Session.traced_nil {host : Host} {s : Session} (h : s.executions = []) :
    s.Traced host [] := by
  refine ⟨h, ?_⟩
  intro before l after hls
  simp at hls

theorem Session.Traced.of_executions {host : Host} {s s' : Session} {ls : List Launch}
    (h : s.Traced host ls) (hsame : s'.executions = s.executions) : s'.Traced host ls :=
  ⟨hsame.trans h.executions, h.started⟩

/-- What holds of the files of a session and of the processes that led to them. -/
def Session.Meets (host : Host) (inv : FileTree → List Launch → Prop) (s : Session) : Prop :=
  ∃ ls, s.Traced host ls ∧ inv s.files ls

theorem Session.Meets.of_same {host : Host} {inv : FileTree → List Launch → Prop}
    {s s' : Session} (h : s.Meets host inv) (hfiles : s'.files = s.files)
    (hexecutions : s'.executions = s.executions) : s'.Meets host inv := by
  obtain ⟨ls, htraced, hinv⟩ := h
  exact ⟨ls, htraced.of_executions hexecutions, hfiles ▸ hinv⟩

/-- A command was run as one process. -/
structure Launched (host : Host) (c : Command) (before : Session)
    (result : Except Failure String) (after : Session) (l : Launch) : Prop where
  command : l.command = c
  filesBefore : l.session.files = before.files
  executionsBefore : l.session.executions = before.executions
  filesAfter : after.files = (l.outcome host).files
  executions : after.executions = before.executions ++ [l.execution host]
  succeeds : ∀ text, result = .ok text → l.Succeeds host
  result : ∀ code output errors, l.Exits host code output errors →
    result = if code = 0 then .ok output
      else .error (.command
        { tool := c.tool, command := c.shown after.workingDirectory
          ending := .exited code output errors })

theorem Launched.outcome_eq {host : Host} {c : Command} {s s' : Session} {l : Launch}
    {result : Except Failure String} (h : Launched host c s result s' l) :
    l.outcome host = host.launch l.session c := by
  rw [Launch.outcome, h.command]

theorem Launched.traced {host : Host} {c : Command} {s s' : Session} {l : Launch}
    {result : Except Failure String} {ls : List Launch} (h : Launched host c s result s' l)
    (hs : s.Traced host ls) : s'.Traced host (ls ++ [l]) := by
  refine ⟨by rw [h.executions, hs.executions, List.map_append]; rfl, ?_⟩
  intro before l' after hls
  rcases List.eq_nil_or_concat after with rfl | ⟨after', last, rfl⟩
  · obtain ⟨rfl, hlast⟩ := List.append_inj' hls rfl
    rw [← (List.cons.inj hlast).1, h.executionsBefore, hs.executions]
  · have hsplit : ls ++ [l] = (before ++ l' :: after') ++ [last] := by
      simpa using hls
    exact hs.started before l' after' (List.append_inj' hsplit rfl).1

namespace Command

variable {host : Host} {s : Session} {c : Command}

theorem ensures_outputText {octets : ByteArray} {post : Except Failure String → Session → Prop} :
    Action.Ensures host s (outputText octets) post ↔
      post ((Text.strictText? octets).elim (.error (.breakdown .undecodable)) .ok) s := by
  unfold outputText
  cases Text.strictText? octets <;> exact Iff.rfl

/-- The failure of a command shows what it wrote, and working it out only adds to the log. -/
theorem ensures_exitFailure {code : Int} {outcome : Outcome} :
    Action.Ensures host s (c.exitFailure code outcome) fun r s' ↦
      (s'.files = s.files ∧ s'.executions = s.executions) ∧
        ∀ output errors, Text.strictText? outcome.output = some output →
          Text.strictText? outcome.errors = some errors →
          r = .ok (.command
            { tool := c.tool, command := c.shown s.workingDirectory
              ending := .exited code output errors }) := by
  unfold exitFailure
  rw [Action.ensures_bind, ensures_outputText]
  cases houtput : Text.strictText? outcome.output with
  | none => exact ⟨⟨rfl, rfl⟩, by simp⟩
  | some output =>
    change Action.Ensures host s (outputText outcome.errors >>= _) _
    rw [Action.ensures_bind, ensures_outputText]
    cases herrors : Text.strictText? outcome.errors with
    | none => exact ⟨⟨rfl, rfl⟩, by simp⟩
    | some errors =>
      refine ⟨⟨rfl, rfl⟩, ?_⟩
      intro output' errors' houtput' herrors'
      rw [← Option.some.inj houtput', ← Option.some.inj herrors']
      rfl

/-- Giving up after a process that exited with a code shows what it wrote. -/
theorem ensures_fail_exitFailure {code : Int} {outcome : Outcome} :
    Action.Ensures host s (do Action.fail (← c.exitFailure code outcome) : Action String)
      fun r s' ↦ (s'.files = s.files ∧ s'.executions = s.executions) ∧ (∀ text, r ≠ .ok text) ∧
        ∀ output errors, Text.strictText? outcome.output = some output →
          Text.strictText? outcome.errors = some errors →
          r = .error (.command
            { tool := c.tool, command := c.shown s'.workingDirectory
              ending := .exited code output errors }) := by
  refine ensures_exitFailure.bind ?_ ?_
  · intro e s' ⟨⟨hfiles, hexecutions⟩, hshown⟩
    rw [Action.ensures_fail]
    refine ⟨⟨hfiles, hexecutions⟩, by simp, ?_⟩
    intro output errors houtput herrors
    rw [Except.ok.inj (hshown output errors houtput herrors), Session.workingDirectory,
      Session.workingDirectory, hfiles]
  · intro e s' ⟨hsame, hshown⟩
    refine ⟨hsame, by simp, ?_⟩
    intro output errors houtput herrors
    have hok := hshown output errors houtput herrors
    simp at hok

/-- The session in which the process of a command starts. -/
def started (c : Command) (s : Session) : Session :=
  s.addLog
    { severity := .debug, topic := .commands
      message := "Running command: " ++ c.shown s.workingDirectory }

/-- The process of a command that is run in a session. -/
def launch (c : Command) (s : Session) : Launch where
  session := c.started s
  command := c

/-- Running a command without a time limit starts its process. -/
theorem ensures_run_launch (hlimit : c.limit = none) :
    Action.Ensures host s c.run fun r s' ↦ Launched host c s r s' (c.launch s) := by
  have hexpired : c.isExpired = false := by
    rw [isExpired, hlimit]
  let l : Launch := c.launch s
  let after : Session := { (c.started s).addExecution (l.execution host) with
    files := (l.outcome host).files }
  have hspawn : c.spawn.run host (c.started s) = (.ok (l.outcome host), after) := by
    unfold spawn Action.run
    simp only [hexpired, Bool.false_eq_true, if_false]
    rfl
  -- A process that did not exit with text fails in one way or another.
  have hlost {e : Failure} (h : ∀ code output errors, ¬ l.Exits host code output errors) :
      Launched host c s (.error e) after l := by
    refine ⟨rfl, rfl, rfl, rfl, rfl, by simp, ?_⟩
    intro code output errors hexits
    exact absurd hexits (h code output errors)
  unfold run
  rw [Action.ensures_session_bind, Action.ensures_log_bind]
  change Action.Ensures host (c.started s) (c.spawn >>= _) _
  rw [Action.ensures_bind, Action.Ensures, hspawn]
  change Action.Ensures host after _ _
  split
  · rename_i cause _ hfault
    refine hlost fun code output errors hexits ↦ ?_
    rw [hexits.fault] at hfault
    simp at hfault
  · rename_i hfault hexit
    refine hlost fun code output errors hexits ↦ ?_
    rw [hexits.exit] at hexit
    simp at hexit
  · rename_i hfault hexit
    rw [ensures_outputText]
    refine ⟨rfl, rfl, rfl, rfl, rfl, fun _ _ ↦ ⟨hfault, hexit⟩, ?_⟩
    intro code output errors hexits
    have hzero : code = 0 := Option.some.inj (hexits.exit.symm.trans hexit)
    rw [hexits.output, if_pos hzero]
    rfl
  · rename_i code hcode hfault hexit
    refine ensures_fail_exitFailure.mono ?_
    intro r s' ⟨⟨hfiles, hexecutions⟩, hfailed, hshown⟩
    refine ⟨rfl, rfl, rfl, hfiles, hexecutions, fun text htext ↦ absurd htext (hfailed text), ?_⟩
    intro code' output errors hexits
    have hsame : code' = code := Option.some.inj (hexits.exit.symm.trans hexit)
    have hnonzero : code ≠ 0 := fun hzero ↦ hcode hzero
    rw [hsame, if_neg hnonzero]
    exact hshown output errors hexits.output hexits.errors

/-- Running a command without a time limit starts one process. -/
theorem ensures_run (hlimit : c.limit = none) :
    Action.Ensures host s c.run fun r s' ↦ ∃ l, Launched host c s r s' l :=
  (ensures_run_launch hlimit).mono fun _ _ hl ↦ ⟨_, hl⟩

end Command

namespace Stage

variable {host : Host} {s : Session}

/-- The session in which a stage was announced. -/
def begun (name : String) (s : Session) : Session :=
  { s with stages := s.stages ++ [name] }.addLog
    { severity := .info, topic := .stages, message := "# " ++ name }

/-- The session in which the innermost stage was reported to have ended. -/
def ended (host : Host) (s : Session) : Session :=
  { s with stages := s.stages.dropLast }.addLog
    { severity := .debug, topic := .stages
      message := "Finished " ++ pathText s.stages ++ " in " ++ host.stopwatch s ++ "s" }

@[simp]
theorem files_begun {name : String} : (begun name s).files = s.files := rfl

@[simp]
theorem executions_begun {name : String} : (begun name s).executions = s.executions := rfl

@[simp]
theorem files_ended : (ended host s).files = s.files := rfl

@[simp]
theorem executions_ended : (ended host s).executions = s.executions := rfl

/-- A stage is its body between the two announcements. -/
theorem ensures_within {α : Type} {name : String} {body : Action α}
    {post : Except Failure α → Session → Prop} :
    Action.Ensures host s (within name body) post ↔
      Action.Ensures host (begun name s) body fun r s' ↦ post r (ended host s') := by
  change Action.Ensures host (begun name s) (body.andFinally leave) post ↔ _
  rw [Action.ensures_andFinally]
  rfl

end Stage

end OfflineSupply
