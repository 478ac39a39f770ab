import OfflineSupply.Proofs.Command.Ending

/-!
# Commands issued in order

An action issues a list of commands when it runs one after the other, each from the files that the
one before it left.  It gets to the end only if every process succeeds; otherwise the process that it
fails at is the last one that it started, the files are as that process left them, and the log has
told the user nothing since.
-/

namespace OfflineSupply

/-- What the log tells the user who did not ask for details. -/
def Session.told (s : Session) : List LogEntry :=
  s.log.filter fun entry ↦ entry.severity ≠ .debug

theorem Session.told_addLog_debug (s : Session) (topic : Topic) (message : String) :
    (s.addLog { severity := .debug, topic, message }).told = s.told := by
  simp [told, addLog]

/-- A failure for want of a well-formed reference. -/
def Failure.IsReference (e : Failure) : Prop :=
  ∃ cause, e = .reference cause

theorem Failure.not_isReference_ofFile (e : FileError) : ¬ (ofFile e).IsReference := by
  intro ⟨cause, hcause⟩
  unfold ofFile at hcause
  split at hcause <;> cases hcause

theorem Failure.IsOf.not_isReference {e : Failure} {tool : Tool} (h : e.IsOf tool) :
    ¬ e.IsReference := by
  intro ⟨cause, hcause⟩
  obtain ⟨_, hcommand, -⟩ := h
  rw [hcommand] at hcause
  cases hcause

namespace Action

variable {α β : Type} {host : Host} {a : Action α}

/-- The action tells the user nothing who did not ask for details. -/
def Hushed (host : Host) (a : Action α) : Prop :=
  ∀ s : Session, (a.run host s).2.told = s.told

theorem hushed_pure (value : α) : Hushed host (pure value) :=
  fun _ ↦ rfl

theorem hushed_fail (e : Failure) : Hushed host (fail e : Action α) :=
  fun _ ↦ rfl

theorem hushed_session : Hushed host session :=
  fun _ ↦ rfl

theorem hushed_debug (topic : Topic) (message : String) :
    Hushed host (log .debug topic message) :=
  fun s ↦ s.told_addLog_debug topic message

theorem Hushed.bind {f : α → Action β} (h : Hushed host a) (hf : ∀ value, Hushed host (f value)) :
    Hushed host (a >>= f) := by
  intro s
  have hfirst : (a.run host s).2.told = s.told := h s
  rw [run_bind]
  rcases hrun : a.run host s with ⟨e | value, s₁⟩
  · rwa [hrun] at hfirst
  · rw [hrun] at hfirst
    exact (hf value s₁).trans hfirst

end Action

namespace Command

variable {host : Host} {s : Session} {c : Command}

theorem hushed_outputText (octets : ByteArray) : Action.Hushed host (outputText octets) := by
  unfold outputText
  split
  · exact Action.hushed_pure _
  · exact Action.hushed_fail _

theorem hushed_failure (c : Command) (ending : CommandEnding) :
    Action.Hushed host (c.failure ending) :=
  Action.hushed_session.bind fun _ ↦ Action.hushed_pure _

theorem hushed_exitFailure (c : Command) (code : Int) (outcome : Outcome) :
    Action.Hushed host (c.exitFailure code outcome) :=
  (hushed_outputText _).bind fun _ ↦ (hushed_outputText _).bind fun _ ↦
    (hushed_failure c _).bind fun _ ↦ (Action.hushed_debug _ _).bind fun _ ↦ Action.hushed_pure _

/-- Running a command only logs details. -/
theorem hushed_run (c : Command) : Action.Hushed host c.run := by
  apply Action.hushed_session.bind
  intro s
  apply (Action.hushed_debug _ _).bind
  intro _
  have hspawn : Action.Hushed host c.spawn := fun _ ↦ rfl
  apply hspawn.bind
  intro outcome
  split
  · exact Action.hushed_fail _
  · exact (hushed_failure c _).bind fun _ ↦ Action.hushed_fail _
  · exact hushed_outputText _
  · exact (hushed_exitFailure c _ _).bind fun _ ↦ Action.hushed_fail _

theorem told_launch (c : Command) (s : Session) : (c.launch s).session.told = s.told :=
  s.told_addLog_debug _ _

/-- Running a command never fails for want of a reference. -/
theorem not_isReference_of_run {e : Failure} (h : (c.run.run host s).1 = .error e) :
    ¬ e.IsReference := by
  rw [result_run] at h
  cases isOf_or_breakdown_of_conclusion h with
  | inl hown => exact hown.1.not_isReference
  | inr hbroken =>
    obtain ⟨cause, rfl⟩ := hbroken
    intro ⟨_, hreference⟩
    cases hreference

end Command

/-! ## Processes in order -/

/-- Commands were run one after the other, each from the files that the one before it left, and each
process succeeded. -/
inductive Issued (host : Host) : List Command → FileTree → List Launch → FileTree → Prop
  | none (t : FileTree) : Issued host [] t [] t
  | next {l : Launch} {cs : List Command} {ls : List Launch} {u : FileTree}
      (hsucceeds : l.Succeeds host) (hrest : Issued host cs (l.outcome host).files ls u) :
      Issued host (l.command :: cs) l.session.files (l :: ls) u

namespace Issued

variable {host : Host} {c : Command} {cs ds : List Command} {t u v : FileTree} {l : Launch}
  {ls more : List Launch}

theorem single (hsucceeds : l.Succeeds host) (hcommand : l.command = c)
    (hfiles : l.session.files = t) : Issued host [c] t [l] (l.outcome host).files := by
  rw [← hcommand, ← hfiles]
  exact .next hsucceeds (.none _)

theorem append (h : Issued host cs t ls u) (hmore : Issued host ds u more v) :
    Issued host (cs ++ ds) t (ls ++ more) v := by
  induction h with
  | none t => exact hmore
  | next hsucceeds _ ih => exact .next hsucceeds (ih hmore)

theorem commands (h : Issued host cs t ls u) : ls.map Launch.command = cs := by
  induction h with
  | none t => rfl
  | next _ _ ih => rw [List.map_cons, ih]

theorem succeeds (h : Issued host cs t ls u) : ∀ l ∈ ls, l.Succeeds host := by
  induction h with
  | none t => simp
  | next hsucceeds _ ih => exact List.forall_mem_cons.mpr ⟨hsucceeds, ih⟩

end Issued

/-- How an action ends that issues commands: all of them were run, or it failed at one of them. -/
inductive Issuing (host : Host) (cs : List Command) (t : FileTree) {α : Type} :
    List Launch → Except Failure α → Session → Prop
  | finished {ls : List Launch} {value : α} {s : Session} (h : Issued host cs t ls s.files) :
      Issuing host cs t ls (.ok value) s
  | stopped {front back : List Command} {done : List Launch} {last : Launch} {e : Failure}
      {s : Session} (hcommands : cs = front ++ last.command :: back)
      (hdone : Issued host front t done last.session.files)
      (hfiles : s.files = (last.outcome host).files) (htold : s.told = last.session.told)
      (hcause : ¬ e.IsReference) : Issuing host cs t (done ++ [last]) (.error e) s

namespace Action

variable {α β : Type} {host : Host} {a : Action α} {cs ds : List Command}

/-- The action issues the commands in their order, up to the one that it fails at. -/
def Issues (host : Host) (cs : List Command) (a : Action α) : Prop :=
  ∀ s : Session, Ensures host s a fun r s' ↦
    ∃ ls, s'.executions = s.executions ++ ls.map (Launch.execution host) ∧
      Issuing host cs s.files ls r s'

theorem issues_pure (value : α) : Issues host [] (pure value) :=
  fun s ↦ ⟨[], by simp [run_pure], .finished (.none s.files)⟩

theorem issues_log (severity : Severity) (topic : Topic) (message : String) :
    Issues host [] (log severity topic message) :=
  fun s ↦ ⟨[], (List.append_nil _).symm, .finished (.none s.files)⟩

theorem Issues.bind {f : α → Action β} (h : Issues host cs a)
    (hf : ∀ value, Issues host ds (f value)) : Issues host (cs ++ ds) (a >>= f) := by
  intro s
  apply (h s).bind
  · intro value s₁ ⟨ls, hexecutions, hissuing⟩
    cases hissuing with
    | finished hissued =>
      apply (hf value s₁).mono
      intro r s₂ ⟨more, hmore, hrest⟩
      refine ⟨ls ++ more, by simp [hmore, hexecutions], ?_⟩
      cases hrest with
      | finished hissued' => exact .finished (hissued.append hissued')
      | @stopped front back _ last _ _ hcommands hdone hfiles htold hcause =>
        have hsplit : cs ++ ds = (cs ++ front) ++ last.command :: back := by
          rw [hcommands, List.append_assoc]
        rw [← List.append_assoc]
        exact .stopped hsplit (hissued.append hdone) hfiles htold hcause
  · intro e s₁ ⟨ls, hexecutions, hissuing⟩
    cases hissuing with
    | @stopped front back _ last _ _ hcommands hdone hfiles htold hcause =>
      have hsplit : cs ++ ds = front ++ last.command :: (back ++ ds) := by
        rw [hcommands, List.append_assoc, List.cons_append]
      exact ⟨_, hexecutions, .stopped hsplit hdone hfiles htold hcause⟩

/-- A loop issues the commands of its rounds one after the other. -/
theorem issues_forM {xs : List β} {round : β → Action Unit} {command : β → Command}
    (h : ∀ x, Issues host [command x] (round x)) :
    Issues host (xs.map command) (xs.forM round) := by
  induction xs with
  | nil => exact issues_pure ()
  | cons x xs ih => exact (h x).bind fun _ ↦ ih

end Action

namespace Command

variable {host : Host} {s : Session} {c : Command}

/-- Running a command starts its process and tells the user nothing.  It does not fail for want of
a reference. -/
theorem ensures_run_hushed (hlimit : c.limit = none) :
    Action.Ensures host s c.run fun r s' ↦ ∃ l, Launched host c s r s' l ∧
      s'.told = l.session.told ∧ ∀ e, r = .error e → ¬ e.IsReference := by
  have htold : (c.run.run host s).2.told = (c.launch s).session.told :=
    (hushed_run c s).trans (told_launch c s).symm
  exact ⟨c.launch s, ensures_run_launch hlimit, htold, fun _ he ↦ not_isReference_of_run he⟩

/-- Running a command issues it. -/
theorem issues_run (hlimit : c.limit = none) : Action.Issues host [c] c.run := by
  intro s
  apply (ensures_run_hushed hlimit).mono
  intro r s' ⟨l, hlaunched, htold, hcause⟩
  refine ⟨[l], hlaunched.executions, ?_⟩
  cases r with
  | ok output =>
    apply Issuing.finished
    rw [hlaunched.filesAfter]
    exact .single (hlaunched.succeeds output rfl) hlaunched.command hlaunched.filesBefore
  | error e =>
    rw [← hlaunched.command, ← hlaunched.filesBefore]
    have hfirst : [l.command] = [] ++ l.command :: [] := rfl
    exact .stopped hfirst (.none _) hlaunched.filesAfter htold (hcause e rfl)

end Command

end OfflineSupply
