import OfflineSupply.Proofs.Session.Returns

/-!
# Commands that are shown

In a dry run commands are printed instead of run.  An action that only shows commands returns from
every session with the same files, prints one line for each command and writes the log; it leaves
the files as they are, starts no process and makes no request.  What a composed action shows is
what its parts show, one after the other.
-/

namespace OfflineSupply

/-- The lines that show commands. -/
def Command.display (cs : List Command) : String :=
  String.join (cs.map fun c ↦ dryRunMark ++ c.line ++ "\n")

theorem Command.display_append (cs ds : List Command) :
    display (cs ++ ds) = display cs ++ display ds := by
  simp [display]

/-- Commands were shown and nothing else was done than to write the log. -/
structure Session.Displays (before after : Session) (cs : List Command) : Prop where
  files : after.files = before.files
  executions : after.executions = before.executions
  requests : after.requests = before.requests
  printed : after.printed = before.printed ++ Command.display cs

namespace Session.Displays

variable {s s' s'' : Session} {cs ds : List Command}

/-- What leaves all but the log and the stages as it was shows nothing. -/
theorem of_same (hfiles : s'.files = s.files) (hexecutions : s'.executions = s.executions)
    (hrequests : s'.requests = s.requests) (hprinted : s'.printed = s.printed) :
    s.Displays s' [] :=
  ⟨hfiles, hexecutions, hrequests, by simp [hprinted, Command.display]⟩

theorem trans (h : s.Displays s' cs) (h' : s'.Displays s'' ds) : s.Displays s'' (cs ++ ds) := by
  refine ⟨h'.files.trans h.files, h'.executions.trans h.executions,
    h'.requests.trans h.requests, ?_⟩
  rw [h'.printed, h.printed, Command.display_append, String.append_assoc]

end Session.Displays

namespace Action

variable {α β : Type} {host : Host} {t : FileTree} {cs ds : List Command}

/-- From every session with the files the action shows the commands and returns. -/
def Shows (host : Host) (t : FileTree) (a : Action α) (cs : List Command) : Prop :=
  ∀ s : Session, s.files = t → ∃ value s', Returns host s a value s' ∧ s.Displays s' cs

theorem shows_pure (value : α) : Shows host t (pure value) [] :=
  fun s _ ↦ ⟨value, s, rfl, .of_same rfl rfl rfl rfl⟩

theorem shows_log (severity : Severity) (topic : Topic) (message : String) :
    Shows host t (log severity topic message) [] :=
  fun _ _ ↦ ⟨(), _, rfl, .of_same rfl rfl rfl rfl⟩

theorem Shows.bind {a : Action α} {f : α → Action β} (h : Shows host t a cs)
    (hf : ∀ value, Shows host t (f value) ds) : Shows host t (a >>= f) (cs ++ ds) := by
  intro s hfiles
  obtain ⟨value, s₁, hfirst, hshown₁⟩ := h s hfiles
  obtain ⟨last, s₂, hsecond, hshown₂⟩ := hf value s₁ (hshown₁.files.trans hfiles)
  exact ⟨last, s₂, returns_bind.mpr ⟨value, s₁, hfirst, hsecond⟩, hshown₁.trans hshown₂⟩

theorem Shows.forM {xs : List α} {f : α → Action Unit} {shown : α → List Command}
    (h : ∀ x ∈ xs, Shows host t (f x) (shown x)) :
    Shows host t (xs.forM f) (xs.flatMap shown) := by
  induction xs with
  | nil => exact shows_pure ()
  | cons x xs ih =>
    obtain ⟨hx, hxs⟩ := List.forall_mem_cons.mp h
    exact hx.bind fun _ ↦ ih hxs

end Action

theorem Stage.shows_within {α : Type} {host : Host} {t : FileTree} {cs : List Command}
    {name : String} {body : Action α} (h : Action.Shows host t body cs) :
    Action.Shows host t (within name body) cs := by
  intro s hfiles
  obtain ⟨value, s₁, hbody, hshown⟩ := h (begun name s) hfiles
  refine ⟨value, ended host s₁, returns_within.mpr ⟨s₁, hbody, rfl⟩, ?_⟩
  exact ⟨hshown.files, hshown.executions, hshown.requests, hshown.printed⟩

theorem Command.shows_perform {host : Host} {t : FileTree} (c : Command) :
    Action.Shows host t (c.perform true) [c] := by
  intro s _
  refine ⟨"", s.addPrinted (dryRunMark ++ c.line ++ "\n"), rfl, rfl, rfl, rfl, ?_⟩
  simp [Session.addPrinted, display]

end OfflineSupply
