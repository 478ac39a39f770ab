import OfflineSupply.Proofs.Command.Launch

/-!
# Runs that return

An action returns a value when its run ends without a failure.  A composed action returns one when
each of its parts does, one after the other.
-/

namespace OfflineSupply

namespace Action

variable {α β : Type} {host : Host} {s s' : Session}

/-- The run of an action ends with a value, in a session. -/
def Returns (host : Host) (s : Session) (a : Action α) (value : α) (s' : Session) : Prop :=
  a.run host s = (.ok value, s')

theorem run_eq_ok_iff {a : Action α} {value : α} :
    (a.run host s).1 = .ok value ↔ ∃ s', Returns host s a value s' := by
  unfold Returns
  constructor
  · intro h
    exact ⟨(a.run host s).2, Prod.ext h rfl⟩
  · intro ⟨s', h⟩
    rw [h]

@[simp]
theorem returns_pure {value value' : α} :
    Returns host s (pure value) value' s' ↔ value = value' ∧ s = s' := by
  unfold Returns
  rw [run_pure, Prod.mk.injEq, Except.ok.injEq]

@[simp]
theorem not_returns_fail {e : Failure} {value : α} : ¬ Returns host s (fail e) value s' := by
  intro h
  have hfailed : (Except.error e, s) = ((Except.ok value : Except Failure α), s') := h
  simp at hfailed

@[simp]
theorem returns_ofExcept {result : Except Failure α} {value : α} :
    Returns host s (ofExcept result) value s' ↔ result = .ok value ∧ s = s' := by
  change (result, s) = (.ok value, s') ↔ _
  rw [Prod.mk.injEq]

theorem returns_bind {a : Action α} {f : α → Action β} {value : β} :
    Returns host s (a >>= f) value s' ↔
      ∃ first s₁, Returns host s a first s₁ ∧ Returns host s₁ (f first) value s' := by
  unfold Returns
  rw [run_bind]
  rcases a.run host s with ⟨e | first, s₁⟩
  · simp
  · constructor
    · intro h
      exact ⟨first, s₁, rfl, h⟩
    · intro ⟨first', s₁', hfirst, h⟩
      rw [Prod.mk.injEq, Except.ok.injEq] at hfirst
      rw [hfirst.1, hfirst.2]
      exact h

/-- Where the first action ended, the rest goes on with its result. -/
theorem run_bind_of_run {a : Action α} {f : α → Action β} {result : Except Failure α}
    (h : a.run host s = (result, s')) :
    (a >>= f).run host s = (ofExcept result >>= f).run host s' := by
  rw [run_bind, h]
  rfl

theorem Returns.run_bind {a : Action α} {f : α → Action β} {value : α}
    (h : Returns host s a value s') : (a >>= f).run host s = (f value).run host s' :=
  run_bind_of_run h

@[simp]
theorem returns_files_bind {f : FileTree → Action β} {value : β} :
    Returns host s (files >>= f) value s' ↔ Returns host s (f s.files) value s' := Iff.rfl

/-- What an action ensures holds of what it returns. -/
theorem Returns.of_ensures {a : Action α} {value : α} {post : Except Failure α → Session → Prop}
    (h : Returns host s a value s') (hpost : Ensures host s a post) : post (.ok value) s' := by
  unfold Ensures at hpost
  rwa [h] at hpost

@[simp]
theorem returns_log {severity : Severity} {topic : Topic} {message : String} {value : Unit} :
    Returns host s (log severity topic message) value s' ↔
      s.addLog { severity, topic, message } = s' := by
  change (Except.ok (), s.addLog _) = (Except.ok value, s') ↔ _
  rw [Prod.mk.injEq, and_iff_right rfl]

theorem returns_changeFiles {change : FileTree → Except FileError FileTree} {value : Unit} :
    Returns host s (changeFiles change) value s' ↔
      ∃ files, change s.files = .ok files ∧ { s with files } = s' := by
  unfold Returns run changeFiles
  cases change s.files with
  | error e => simp
  | ok files => simp

theorem returns_makeDirectories {p : Path} {value : Unit} :
    Returns host s (makeDirectories p) value s' ↔
      (s.files.makeDirectories p).2 = none ∧
        { s with files := (s.files.makeDirectories p).1 } = s' := by
  unfold Returns run makeDirectories
  rcases s.files.makeDirectories p with ⟨files, _ | e⟩
  · simp
  · simp

/-- An action and a last one return when both do. -/
theorem returns_andFinally {a : Action α} {last : Action Unit} {value : α} :
    Returns host s (a.andFinally last) value s' ↔
      ∃ s₁, Returns host s a value s₁ ∧ Returns host s₁ last () s' := by
  unfold Returns run andFinally
  rcases a host s with ⟨e | first, s₁⟩
  · rcases hlast : last host s₁ with ⟨e' | ⟨⟩, s₂⟩ <;> simp [hlast]
  · rcases hlast : last host s₁ with ⟨e' | ⟨⟩, s₂⟩
    · simp [hlast]
    · simp only [hlast, Prod.mk.injEq, Except.ok.injEq]
      constructor
      · intro ⟨hvalue, hs'⟩
        exact ⟨s₁, ⟨hvalue, rfl⟩, hs' ▸ hlast⟩
      · intro ⟨_, ⟨hvalue, hs₁⟩, hlast'⟩
        rw [← hs₁, hlast, Prod.mk.injEq] at hlast'
        exact ⟨hvalue, hlast'.2⟩

/-- The action returns the value from every session. -/
def AlwaysReturns (host : Host) (a : Action α) (value : α) : Prop :=
  ∀ s : Session, ∃ s', Returns host s a value s'

theorem AlwaysReturns.bind {a : Action α} {f : α → Action β} {first : α} {value : β}
    (ha : AlwaysReturns host a first) (hf : AlwaysReturns host (f first) value) :
    AlwaysReturns host (a >>= f) value := by
  intro s
  obtain ⟨s₁, hfirst⟩ := ha s
  obtain ⟨s', hvalue⟩ := hf s₁
  exact ⟨s', returns_bind.mpr ⟨first, s₁, hfirst, hvalue⟩⟩

theorem AlwaysReturns.attempt {a : Action α} {value : α} (h : AlwaysReturns host a value) :
    AlwaysReturns host a.attempt (.ok value) := by
  intro s
  obtain ⟨s', hvalue⟩ := h s
  have hattempt : Ensures host s a.attempt fun r s₁ ↦ (r, s₁) = (.ok (.ok value), s') := by
    rw [ensures_attempt]
    exact congrArg (fun outcome ↦ (Except.ok outcome.1, outcome.2)) hvalue
  exact ⟨s', hattempt⟩

theorem alwaysReturns_pure (value : α) : AlwaysReturns host (pure value) value :=
  fun s ↦ ⟨s, rfl⟩

theorem alwaysReturns_ofExcept {result : Except Failure α} {value : α} (h : result = .ok value) :
    AlwaysReturns host (ofExcept result) value :=
  fun s ↦ ⟨s, returns_ofExcept.mpr ⟨h, rfl⟩⟩

theorem alwaysReturns_log (severity : Severity) (topic : Topic) (message : String) :
    AlwaysReturns host (log severity topic message) () :=
  fun _ ↦ ⟨_, rfl⟩

/-- The action ends in the failure from every session. -/
def AlwaysFails (host : Host) (a : Action α) (e : Failure) : Prop :=
  ∀ s : Session, (a.run host s).1 = .error e

theorem AlwaysFails.bind {a : Action α} {f : α → Action β} {e : Failure}
    (h : AlwaysFails host a e) : AlwaysFails host (a >>= f) e := by
  intro s
  have hfailed := h s
  rw [run_bind]
  rcases hrun : a.run host s with ⟨e' | value, s'⟩
  · rw [hrun, Except.error.injEq] at hfailed
    rw [hfailed]
  · rw [hrun] at hfailed
    simp at hfailed

theorem AlwaysReturns.bind_fails {a : Action α} {f : α → Action β} {value : α} {e : Failure}
    (ha : AlwaysReturns host a value) (hf : AlwaysFails host (f value) e) :
    AlwaysFails host (a >>= f) e := by
  intro s
  obtain ⟨s₁, hvalue⟩ := ha s
  rw [run_bind, hvalue]
  exact hf s₁

end Action

namespace Stage

variable {α : Type} {host : Host} {name : String} {body : Action α} {value : α}

/-- A stage returns what its body does. -/
theorem returns_within {s s' : Session} :
    Action.Returns host s (within name body) value s' ↔
      ∃ s₁, Action.Returns host (begun name s) body value s₁ ∧ ended host s₁ = s' := by
  have hwithin : (within name body).run host s =
      ((body.run host (begun name s)).1, ended host (body.run host (begun name s)).2) := by
    change Action.Ensures host s (within name body) fun r s' ↦ (r, s') =
      ((body.run host (begun name s)).1, ended host (body.run host (begun name s)).2)
    rw [Stage.ensures_within]
    rfl
  unfold Action.Returns
  rw [hwithin]
  constructor
  · intro h
    rw [Prod.mk.injEq] at h
    exact ⟨(body.run host (begun name s)).2, Prod.ext h.1 rfl, h.2⟩
  · intro ⟨s₁, hbody, hended⟩
    rw [hbody, hended]

theorem alwaysReturns_within (h : Action.AlwaysReturns host body value) :
    Action.AlwaysReturns host (within name body) value := by
  intro s
  obtain ⟨s₁, hbody⟩ := h (begun name s)
  exact ⟨ended host s₁, returns_within.mpr ⟨s₁, hbody, rfl⟩⟩

theorem alwaysFails_within {e : Failure} (h : Action.AlwaysFails host body e) :
    Action.AlwaysFails host (within name body) e := by
  intro s
  change Action.Ensures host s (within name body) fun r _ ↦ r = .error e
  rw [Stage.ensures_within]
  exact h (begun name s)

end Stage

/-- The commands of the processes that were started. -/
def Session.commands (s : Session) : List Command :=
  s.executions.map (·.command)

theorem Session.commands_congr {s s' : Session} (h : s'.executions = s.executions) :
    s'.commands = s.commands :=
  congrArg (List.map Execution.command) h

theorem Launched.commands {host : Host} {c : Command} {s s' : Session} {l : Launch}
    {result : Except Failure String} (h : Launched host c s result s' l) :
    s'.commands = s.commands ++ [c] := by
  unfold Session.commands
  rw [h.executions, List.map_append, List.map_singleton, Launch.command_execution, h.command]

/-- A command that returns was run as one process. -/
theorem Command.returns_run {c : Command} {host : Host} {s s' : Session} {output : String}
    (hlimit : c.limit = none) (h : Action.Returns host s c.run output s') :
    ∃ l, Launched host c s (.ok output) s' l :=
  h.of_ensures (Command.ensures_run hlimit)

/-- A command was run as one process, which exited with zero. -/
structure Command.Succeeded (c : Command) (host : Host) (before after session : Session) :
    Prop where
  filesBefore : session.files = before.files
  exit : (host.launch session c).exit = some 0
  filesAfter : after.files = (host.launch session c).files
  commands : after.commands = before.commands ++ [c]

theorem Command.Succeeded.of_same {c : Command} {host : Host} {s s₁ s' session : Session}
    (h : c.Succeeded host s₁ s' session) (hfiles : s₁.files = s.files)
    (hcommands : s₁.commands = s.commands) : c.Succeeded host s s' session :=
  ⟨h.filesBefore.trans hfiles, h.exit, h.filesAfter, hcommands ▸ h.commands⟩

theorem Command.succeeded_of_returns {c : Command} {host : Host} {s s' : Session}
    {output : String} (hlimit : c.limit = none) (h : Action.Returns host s c.run output s') :
    ∃ session, c.Succeeded host s s' session := by
  obtain ⟨l, hl⟩ := Command.returns_run hlimit h
  have hexit := (hl.succeeds output rfl).2
  rw [hl.outcome_eq] at hexit
  exact ⟨l.session, hl.filesBefore, hexit, hl.outcome_eq ▸ hl.filesAfter, hl.commands⟩

/-- A command returns what its process wrote, if that is text and the process exits with zero when
it is started with the files as they are. -/
theorem Command.exists_returns_run {c : Command} {host : Host} {s : Session}
    {output errors : String} (hlimit : c.limit = none)
    (h : ∀ session : Session, session.files = s.files →
      Launch.Exits host { session, command := c } 0 output errors) :
    ∃ s' l, Action.Returns host s c.run output s' ∧ Launched host c s (.ok output) s' l := by
  obtain ⟨l, hl⟩ : ∃ l, Launched host c s (c.run.run host s).1 (c.run.run host s).2 l :=
    Command.ensures_run hlimit
  have hexits := h l.session hl.filesBefore
  rw [← hl.command] at hexits
  have hresult : (c.run.run host s).1 = .ok output := hl.result 0 output errors hexits
  rw [hresult] at hl
  exact ⟨_, l, Prod.ext hresult rfl, hl⟩

/-- A command returns what its process wrote, if that is text and the process exits with zero
whenever it is started. -/
theorem Command.alwaysReturns_run {c : Command} {host : Host} {output errors : String}
    (hlimit : c.limit = none)
    (h : ∀ session : Session, Launch.Exits host { session, command := c } 0 output errors) :
    Action.AlwaysReturns host c.run output := by
  intro s
  obtain ⟨s', _, hreturns, -⟩ :=
    Command.exists_returns_run (s := s) hlimit fun session _ ↦ h session
  exact ⟨s', hreturns⟩

end OfflineSupply
