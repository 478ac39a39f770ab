import OfflineSupply.Proofs.Command.Launch
import OfflineSupply.Proofs.Session.Judged
import OfflineSupply.Stores.Charts

/-!
# How commands end

What a command comes to depends on nothing but the outcome of its process.  A command whose process
fails is meant to end in a failure of its own program, which those who handle failures know; but the
message of that failure shows what the process wrote, and if that is no text the work breaks off
instead.
-/

namespace OfflineSupply

namespace Outcome

/-- The process exited with zero and wrote a text. -/
structure Says (o : Outcome) (text : String) : Prop where
  fault : o.fault = none
  exit : o.exit = some 0
  output : Text.strictText? o.output = some text

/-- All that the process wrote is text. -/
def IsText (o : Outcome) : Prop :=
  (∃ text, Text.strictText? o.output = some text) ∧ ∃ text, Text.strictText? o.errors = some text

/-- The process was not carried through, or wrote octets that are no text where they are read: what
it printed if it succeeded, and anything if it failed. -/
def IsGarbled (o : Outcome) : Prop :=
  o.fault ≠ none ∨ (o.exit = some 0 ∧ Text.strictText? o.output = none) ∨
    ∃ code, code ≠ 0 ∧ o.exit = some code ∧ ¬ o.IsText

end Outcome

/-- Whether a failure is one of a program. -/
def Failure.IsOf (tool : Tool) (e : Failure) : Prop :=
  ∃ cause : CommandError, e = .command cause ∧ cause.tool = tool

namespace Command

variable {c : Command} {host : Host} {s : Session} {o : Outcome}

/-- What becomes of the process of a command that is run; if its time is over beforehand,
nothing. -/
def outcome (c : Command) (host : Host) (s : Session) : Outcome :=
  if c.isExpired then { files := s.files, exit := none } else host.launch (c.started s) c

/-- The failure of a command that ended so. -/
def failureOf (c : Command) (o : Outcome) (ending : CommandEnding) : Failure :=
  .command
    { tool := c.tool, command := c.shown { anchor := .root, names := o.files.directory }, ending }

/-- The text of octets, or that they are none. -/
def readText (octets : ByteArray) : Except Failure String :=
  (Text.strictText? octets).elim (.error (.breakdown .undecodable)) .ok

/-- What a command comes to, by the outcome of its process. -/
def conclusion (c : Command) (o : Outcome) : Except Failure String :=
  match o.fault, o.exit with
  | some cause, _ => .error (.breakdown cause)
  | none, none => .error (c.failureOf o .timedOut)
  | none, some code =>
    if code = 0 then readText o.output
    else do
      let output ← readText o.output
      let errors ← readText o.errors
      .error (c.failureOf o (.exited code output errors))

/-- Giving up after a process that exited with a code. -/
theorem ensures_giveUp {code : Int} (hfiles : s.files = o.files) :
    Action.Ensures host s (do Action.fail (← c.exitFailure code o) : Action String) fun r _ ↦
      r = (do let output ← readText o.output
              let errors ← readText o.errors
              .error (c.failureOf o (.exited code output errors))) := by
  unfold exitFailure readText failureOf
  rw [← hfiles, Action.ensures_bind, Action.ensures_bind, ensures_outputText]
  cases Text.strictText? o.output with
  | none => rfl
  | some output =>
    change Action.Ensures host s (outputText o.errors >>= _) _
    rw [Action.ensures_bind, ensures_outputText]
    cases Text.strictText? o.errors with
    | none => rfl
    | some errors => rfl

/-- The result of a command is decided by the outcome of its process. -/
theorem result_run : (c.run.run host s).1 = c.conclusion (c.outcome host s) := by
  let after : Session := { (c.started s).addExecution
    { command := c, filesBefore := s.files
      ending := (c.outcome host s).exit.elim .killed .exited } with
    files := (c.outcome host s).files }
  have hspawn : c.spawn.run host (c.started s) = (.ok (c.outcome host s), after) := rfl
  have hfiles : after.files = (c.outcome host s).files := rfl
  change Action.Ensures host s c.run fun r _ ↦ r = c.conclusion (c.outcome host s)
  unfold run
  rw [Action.ensures_session_bind, Action.ensures_log_bind]
  change Action.Ensures host (c.started s) (c.spawn >>= _) _
  rw [Action.ensures_bind, Action.Ensures, hspawn]
  change Action.Ensures host after _ _
  generalize c.outcome host s = o at hfiles ⊢
  unfold conclusion
  split
  · rename_i cause _ hfault
    rw [hfault]
    rfl
  · rename_i hfault hexit
    rw [hfault, hexit, failureOf, ← hfiles]
    rfl
  · rename_i hfault hexit
    rw [hfault, hexit, ensures_outputText]
    rfl
  · rename_i code hcode hfault hexit
    have hnonzero : code ≠ 0 := fun hzero ↦ hcode hzero
    simp only [hfault, hexit, if_neg hnonzero]
    exact ensures_giveUp hfiles

theorem conclusion_of_fault {cause : Breakdown} (hfault : o.fault = some cause) :
    c.conclusion o = .error (.breakdown cause) := by
  unfold conclusion
  rw [hfault]

theorem conclusion_of_success (hfault : o.fault = none) (hexit : o.exit = some 0) :
    c.conclusion o = readText o.output := by
  unfold conclusion
  rw [hfault, hexit]
  rfl

/-- A process that did not exit with zero makes its command fail, with a failure of its program if
all that it wrote is text. -/
theorem conclusion_of_failed (hfault : o.fault = none) (hfailed : o.exit ≠ some 0) :
    ∃ e, c.conclusion o = .error e ∧
      ((e.IsOf c.tool ∧ e.isReported = true ∧ (o.exit = none ∨ o.IsText)) ∨
        (e = .breakdown .undecodable ∧ o.exit ≠ none ∧ ¬ o.IsText)) := by
  unfold conclusion
  rw [hfault]
  cases hexit : o.exit with
  | none => exact ⟨_, rfl, .inl ⟨⟨_, rfl, rfl⟩, rfl, .inl rfl⟩⟩
  | some code =>
    have hnonzero : code ≠ 0 := fun hzero ↦ hfailed (hzero ▸ hexit)
    simp only [if_neg hnonzero, readText, Outcome.IsText]
    cases Text.strictText? o.output with
    | none => exact ⟨_, rfl, .inr ⟨rfl, by simp, by simp⟩⟩
    | some output =>
      cases Text.strictText? o.errors with
      | none => exact ⟨_, rfl, .inr ⟨rfl, by simp, by simp⟩⟩
      | some errors => exact ⟨_, rfl, .inl ⟨⟨_, rfl, rfl⟩, rfl, .inr ⟨⟨_, rfl⟩, _, rfl⟩⟩⟩

/-- A command fails with a failure of its program, or the work breaks off. -/
theorem isOf_or_breakdown_of_conclusion {e : Failure} (h : c.conclusion o = .error e) :
    (e.IsOf c.tool ∧ e.isReported = true) ∨ ∃ cause, e = .breakdown cause := by
  cases hfault : o.fault with
  | some cause =>
    rw [conclusion_of_fault hfault, Except.error.injEq] at h
    exact .inr ⟨cause, h.symm⟩
  | none =>
    by_cases hexit : o.exit = some 0
    · rw [conclusion_of_success hfault hexit] at h
      unfold readText at h
      cases houtput : Text.strictText? o.output with
      | some text => simp [houtput] at h
      | none =>
        rw [houtput, Option.elim_none, Except.error.injEq] at h
        exact .inr ⟨.undecodable, h.symm⟩
    · obtain ⟨e', he', hcase⟩ := conclusion_of_failed (c := c) hfault hexit
      rw [h, Except.error.injEq] at he'
      rw [he']
      exact hcase.imp (fun hown ↦ ⟨hown.1, hown.2.1⟩) fun hgarbled ↦ ⟨_, hgarbled.1⟩

/-- Running a command gives what its process says, and the work breaks off if that is garbled. -/
theorem judges_run : Action.Judges host s c.run ((c.outcome host s).Says ·)
    (c.outcome host s).IsGarbled := by
  unfold Action.Judges
  rw [result_run]
  generalize c.outcome host s = o
  have hsaid (text : String) : o.Says text ↔
      o.fault = none ∧ o.exit = some 0 ∧ Text.strictText? o.output = some text :=
    ⟨fun h ↦ ⟨h.fault, h.exit, h.output⟩, fun h ↦ ⟨h.1, h.2.1, h.2.2⟩⟩
  cases hfault : o.fault with
  | some cause =>
    rw [conclusion_of_fault hfault]
    exact (Judged.unreported rfl).congr (by simp [hsaid, hfault])
      (by simp [Outcome.IsGarbled, hfault])
  | none =>
    by_cases hexit : o.exit = some 0
    · rw [conclusion_of_success hfault hexit]
      unfold readText
      cases houtput : Text.strictText? o.output with
      | none =>
        exact (Judged.unreported rfl).congr (by simp [hsaid, houtput])
          (by simp [Outcome.IsGarbled, hexit, houtput])
      | some text =>
        exact (Judged.ok text).congr (by simp [hsaid, hfault, hexit, houtput])
          (by simp [Outcome.IsGarbled, hfault, hexit, houtput])
    · obtain ⟨e, hconclusion, hcase⟩ := conclusion_of_failed (c := c) hfault hexit
      rw [hconclusion]
      rcases hcase with ⟨-, hreported, hreadable⟩ | ⟨rfl, hexited, hgarbled⟩
      · refine (Judged.reported hreported).congr (by simp [hsaid, hexit]) ?_
        rcases hreadable with hkilled | htext
        · simp [Outcome.IsGarbled, hfault, hkilled]
        · simp [Outcome.IsGarbled, hfault, hexit, htext]
      · refine (Judged.unreported rfl).congr (by simp [hsaid, hexit]) ?_
        obtain ⟨code, hcode⟩ := Option.ne_none_iff_exists'.mp hexited
        have hnonzero : code ≠ 0 := fun hzero ↦ hexit (hzero ▸ hcode)
        exact iff_of_true trivial (.inr (.inr ⟨code, hnonzero, hcode, hgarbled⟩))

/-- A command whose process fails ends in a failure of its own program exactly if the process was
killed or wrote nothing but text, and exactly then the user is told. -/
theorem failed_reported_iff (hfault : (c.outcome host s).fault = none)
    (hfailed : (c.outcome host s).exit ≠ some 0) :
    ∀ a ∈ [c.run, c.perform false], ∃ e, (a.run host s).1 = .error e ∧
      (e.IsOf c.tool ↔ (c.outcome host s).exit = none ∨ (c.outcome host s).IsText) ∧
      (e.isReported = true ↔ (c.outcome host s).exit = none ∨ (c.outcome host s).IsText) := by
  have hrun : ∀ a ∈ [c.run, c.perform false],
      (a.run host s).1 = c.conclusion (c.outcome host s) := by
    simp only [List.forall_mem_cons, List.not_mem_nil, false_imp_iff, implies_true, and_true]
    exact ⟨result_run, result_run⟩
  obtain ⟨e, hconclusion, hcase⟩ := conclusion_of_failed (c := c) hfault hfailed
  intro a ha
  refine ⟨e, (hrun a ha).trans hconclusion, ?_⟩
  rcases hcase with ⟨hown, hreported, hreadable⟩ | ⟨rfl, hexit, hgarbled⟩
  · exact ⟨iff_of_true hown hreadable, iff_of_true hreported hreadable⟩
  · have hunreadable : ¬ ((c.outcome host s).exit = none ∨ (c.outcome host s).IsText) :=
      not_or.mpr ⟨hexit, hgarbled⟩
    have hforeign : ¬ (Failure.breakdown .undecodable).IsOf c.tool := by
      rintro ⟨cause, hcause, -⟩
      simp at hcause
    exact ⟨iff_of_false hforeign hunreadable,
      iff_of_false (by simp [Failure.isReported]) hunreadable⟩

/-- A host on which every process exits with one and has written an octet that is in no text. -/
def garblingHost : Host where
  launch s _ := { files := s.files, output := ⟨#[0xFF]⟩, exit := some 1 }
  fetch _ _ := .refused ""
  hasProgram _ := true
  scratchFile _ := Path.here
  stopwatch _ := "0"

theorem garbled_listing_judged :
    let o := ChartStore.listRepositories.outcome garblingHost { files := .empty [] }
    o.fault = none ∧ o.exit ≠ some 0 ∧
      ∀ a ∈ [ChartStore.listRepositories.run, ChartStore.listRepositories.perform false],
        ∃ e, (a.run garblingHost { files := .empty [] }).1 = .error e ∧
          (e.IsOf .helm ↔ o.exit = none ∨ o.IsText) ∧
          (e.isReported = true ↔ o.exit = none ∨ o.IsText) := by
  intro o
  have hfault : o.fault = none := rfl
  have hfailed : o.exit ≠ some 0 := by
    decide
  exact ⟨hfault, hfailed, failed_reported_iff hfault hfailed⟩

/-- There a failed command does not end in a failure of its program, and who asks for a repository
and is prepared for such failures meets another one. -/
theorem garbled_failure_unreported :
    (ChartStore.listRepositories.outcome garblingHost { files := .empty [] }).exit = some 1 ∧
      (∃ e, (ChartStore.listRepositories.run.run garblingHost { files := .empty [] }).1 = .error e ∧
        ¬ e.IsOf .helm) ∧
      ((ChartStore.repositoryUrl "charts").run garblingHost { files := .empty [] }).1 =
        .error (.breakdown .undecodable) := by
  refine ⟨rfl, ⟨.breakdown .undecodable, rfl, ?_⟩, rfl⟩
  rintro ⟨cause, hcause, -⟩
  simp at hcause

end Command

end OfflineSupply
