import OfflineSupply.Proofs.Command.Launch

/-!
# What an action leaves as it was

A frame relates the session before an action to the session after it.  It holds whenever the files,
the processes and the requests are the same, and it is passed on from one action to the next.  One
rule for each way of building actions then carries a frame from the parts to the whole, whether the
action returns or fails: neither a failure that is caught nor an action that has to follow makes a
difference.
-/

namespace OfflineSupply

namespace Session

/-- Files, processes and requests are as before. -/
structure Untouched (before after : Session) : Prop where
  files : after.files = before.files
  executions : after.executions = before.executions
  requests : after.requests = before.requests

theorem Untouched.refl (s : Session) : s.Untouched s :=
  ⟨rfl, rfl, rfl⟩

/-- A relation between sessions that untouched ones are in and that is passed on. -/
structure Frame where
  keeps : Session → Session → Prop
  of_untouched {s s' : Session} : s.Untouched s' → keeps s s'
  trans {s s' s'' : Session} : keeps s s' → keeps s' s'' → keeps s s''

/-- The frame of actions that touch nothing. -/
def Frame.untouched : Frame where
  keeps := Untouched
  of_untouched h := h
  trans h h' := ⟨h'.files.trans h.files, h'.executions.trans h.executions,
    h'.requests.trans h.requests⟩

/-- A session is passed through before another one: processes and requests were only added. -/
structure Precedes (s s' : Session) : Prop where
  executions : s.executions <+: s'.executions
  requests : s.requests <+: s'.requests

theorem Precedes.refl (s : Session) : s.Precedes s :=
  ⟨List.prefix_rfl, List.prefix_rfl⟩

theorem Precedes.trans {s s' s'' : Session} (h : s.Precedes s') (h' : s'.Precedes s'') :
    s.Precedes s'' :=
  ⟨h.executions.trans h'.executions, h.requests.trans h'.requests⟩

/-- The frame of all actions that add to a session. -/
def Frame.growing : Frame where
  keeps := Precedes
  of_untouched h := ⟨h.executions ▸ List.prefix_rfl, h.requests ▸ List.prefix_rfl⟩
  trans := Precedes.trans

end Session

namespace Action

variable {α β : Type} {frame : Session.Frame} {host : Host}

/-- Every run of the action keeps the frame, whatever its result. -/
def Keeps (frame : Session.Frame) (host : Host) (a : Action α) : Prop :=
  ∀ s : Session, frame.keeps s (a.run host s).2

/-! ## The single actions -/

theorem keeps_pure (value : α) : Keeps frame host (pure value) :=
  fun s ↦ frame.of_untouched (.refl s)

theorem keeps_fail (e : Failure) : Keeps frame host (fail e : Action α) :=
  fun s ↦ frame.of_untouched (.refl s)

theorem keeps_ofExcept (result : Except Failure α) : Keeps frame host (ofExcept result) :=
  fun s ↦ frame.of_untouched (.refl s)

theorem keeps_files : Keeps frame host files :=
  fun s ↦ frame.of_untouched (.refl s)

theorem keeps_session : Keeps frame host session :=
  fun s ↦ frame.of_untouched (.refl s)

theorem keeps_log (severity : Severity) (topic : Topic) (message : String) :
    Keeps frame host (log severity topic message) :=
  fun _ ↦ frame.of_untouched ⟨rfl, rfl, rfl⟩

theorem keeps_print (text : String) : Keeps frame host (print text) :=
  fun _ ↦ frame.of_untouched ⟨rfl, rfl, rfl⟩

/-! ## Composed actions -/

theorem Keeps.bind {a : Action α} {f : α → Action β} (h : Keeps frame host a)
    (hf : ∀ value, Keeps frame host (f value)) : Keeps frame host (a >>= f) := by
  intro s
  have hfirst : frame.keeps s (a.run host s).2 := h s
  rw [run_bind]
  rcases hrun : a.run host s with ⟨e | value, s₁⟩
  · rwa [hrun] at hfirst
  · rw [hrun] at hfirst
    exact frame.trans hfirst (hf value s₁)

theorem Keeps.forM {xs : List α} {f : α → Action Unit} (h : ∀ x, Keeps frame host (f x)) :
    Keeps frame host (xs.forM f) := by
  induction xs with
  | nil => exact keeps_pure ()
  | cons x xs ih => exact (h x).bind fun _ ↦ ih

theorem Keeps.attempt {a : Action α} (h : Keeps frame host a) : Keeps frame host a.attempt :=
  h

theorem Keeps.andFinally {a : Action α} {last : Action Unit} (h : Keeps frame host a)
    (hlast : Keeps frame host last) : Keeps frame host (a.andFinally last) := by
  intro s
  have hboth : frame.keeps s (last.run host (a.run host s).2).2 := frame.trans (h s) (hlast _)
  have hend : ((a.andFinally last).run host s).2 = (last.run host (a.run host s).2).2 := by
    unfold run Action.andFinally
    rcases hrun : last host (a host s).2 with ⟨_ | ⟨⟨⟩⟩, s'⟩ <;> simp only [hrun]
  rw [hend]
  exact hboth

end Action

theorem Stage.keeps_within {α : Type} {frame : Session.Frame} {host : Host} {name : String}
    {body : Action α} (h : Action.Keeps frame host body) :
    Action.Keeps frame host (within name body) := by
  have henter : Action.Keeps frame host (enter name) :=
    fun _ ↦ frame.of_untouched ⟨rfl, rfl, rfl⟩
  have hleave : Action.Keeps frame host leave :=
    fun _ ↦ frame.of_untouched ⟨rfl, rfl, rfl⟩
  exact henter.bind fun _ ↦ h.andFinally hleave

namespace Command

variable {frame : Session.Frame} {host : Host} {dryRun : Bool} {c : Command}

theorem keeps_outputText (octets : ByteArray) : Action.Keeps frame host (outputText octets) := by
  unfold outputText
  split
  · exact Action.keeps_pure _
  · exact Action.keeps_fail _

theorem keeps_failure (c : Command) (ending : CommandEnding) :
    Action.Keeps frame host (c.failure ending) :=
  Action.keeps_session.bind fun _ ↦ Action.keeps_pure _

theorem keeps_exitFailure (c : Command) (code : Int) (outcome : Outcome) :
    Action.Keeps frame host (c.exitFailure code outcome) :=
  (keeps_outputText _).bind fun _ ↦ (keeps_outputText _).bind fun _ ↦
    (keeps_failure c _).bind fun _ ↦ (Action.keeps_log _ _ _).bind fun _ ↦ Action.keeps_pure _

/-- Running a command keeps what its process keeps. -/
theorem keeps_run (h : Action.Keeps frame host c.spawn) :
    Action.Keeps frame host c.run := by
  apply Action.keeps_session.bind
  intro s
  apply (Action.keeps_log _ _ _).bind
  intro _
  apply h.bind
  intro outcome
  split
  · exact Action.keeps_fail _
  · exact (keeps_failure c _).bind fun _ ↦ Action.keeps_fail _
  · exact keeps_outputText _
  · exact (keeps_exitFailure c _ _).bind fun _ ↦ Action.keeps_fail _

/-- A command that is run or shown keeps what its process keeps, if it has one. -/
theorem keeps_perform_of_spawn (h : dryRun = false → Action.Keeps frame host c.spawn) :
    Action.Keeps frame host (c.perform dryRun) := by
  cases dryRun with
  | true => exact (Action.keeps_print _).bind fun _ ↦ Action.keeps_pure ""
  | false => exact keeps_run (h rfl)

/-- A command that is shown touches nothing. -/
theorem keeps_perform (hdry : dryRun = true) (c : Command) :
    Action.Keeps frame host (c.perform dryRun) :=
  keeps_perform_of_spawn fun hlive ↦ absurd (hdry.symm.trans hlive) (by decide)

/-- The same when what it gives is not used. -/
theorem keeps_perform_unit (hdry : dryRun = true) (c : Command) :
    Action.Keeps frame host (do let _ ← c.perform dryRun : Action Unit) :=
  (keeps_perform hdry c).bind fun _ ↦ Action.keeps_pure ()

/-- A process is added. -/
theorem growing_spawn (c : Command) : Action.Keeps .growing host c.spawn :=
  fun _ ↦ ⟨List.prefix_append .., List.prefix_rfl⟩

end Command

end OfflineSupply
