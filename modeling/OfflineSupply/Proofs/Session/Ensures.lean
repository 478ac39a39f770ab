import OfflineSupply.Session.Action

/-!
# What a run ensures

An action ensures a condition when the result and the session of its run meet it.  One rule for
each way of building actions turns such a statement about a whole action into statements about its
parts; a loop is treated by what holds after each initial part of its list.
-/

namespace OfflineSupply.Action

variable {α β : Type} {host : Host} {s : Session}

/-- The run of an action from a session ends in a result and a session that meet a condition. -/
def Ensures (host : Host) (s : Session) (a : Action α)
    (post : Except Failure α → Session → Prop) : Prop :=
  post (a.run host s).1 (a.run host s).2

theorem Ensures.mono {a : Action α} {post post' : Except Failure α → Session → Prop}
    (h : Ensures host s a post) (hpost : ∀ r s', post r s' → post' r s') :
    Ensures host s a post' :=
  hpost _ _ h

/-- A condition that both outcomes of the first action lead to is ensured by the sequence. -/
theorem Ensures.bind {a : Action α} {f : α → Action β}
    {mid : Except Failure α → Session → Prop} {post : Except Failure β → Session → Prop}
    (h : Ensures host s a mid)
    (hok : ∀ value s', mid (.ok value) s' → Ensures host s' (f value) post)
    (herror : ∀ e s', mid (.error e) s' → post (.error e) s') :
    Ensures host s (a >>= f) post := by
  unfold Ensures at h ⊢
  rw [run_bind]
  rcases hrun : a.run host s with ⟨_ | value, s'⟩
  · rw [hrun] at h
    exact herror _ _ h
  · rw [hrun] at h
    exact hok value s' h

/-! ## The single actions -/

@[simp]
theorem ensures_pure {value : α} {post : Except Failure α → Session → Prop} :
    Ensures host s (pure value) post ↔ post (.ok value) s := Iff.rfl

@[simp]
theorem ensures_fail {e : Failure} {post : Except Failure α → Session → Prop} :
    Ensures host s (fail e) post ↔ post (.error e) s := Iff.rfl

@[simp]
theorem ensures_ofExcept {result : Except Failure α} {post : Except Failure α → Session → Prop} :
    Ensures host s (ofExcept result) post ↔ post result s := Iff.rfl

@[simp]
theorem ensures_log {severity : Severity} {topic : Topic} {message : String}
    {post : Except Failure Unit → Session → Prop} :
    Ensures host s (log severity topic message) post ↔
      post (.ok ()) (s.addLog { severity, topic, message }) := Iff.rfl

@[simp]
theorem ensures_changeFiles {change : FileTree → Except FileError FileTree}
    {post : Except Failure Unit → Session → Prop} :
    Ensures host s (changeFiles change) post ↔
      match change s.files with
      | .ok files => post (.ok ()) { s with files }
      | .error e => post (.error (.ofFile e)) s := by
  unfold Ensures run changeFiles
  cases change s.files <;> exact Iff.rfl

@[simp]
theorem ensures_makeDirectories {p : Path} {post : Except Failure Unit → Session → Prop} :
    Ensures host s (makeDirectories p) post ↔
      post ((s.files.makeDirectories p).2.elim (.ok ()) fun e ↦ .error (.ofFile e))
        { s with files := (s.files.makeDirectories p).1 } := Iff.rfl

/-! ## Composed actions -/

theorem ensures_bind {a : Action α} {f : α → Action β}
    {post : Except Failure β → Session → Prop} :
    Ensures host s (a >>= f) post ↔
      Ensures host s a fun r s' ↦
        match r with
        | .ok value => Ensures host s' (f value) post
        | .error e => post (.error e) s' := by
  unfold Ensures
  rw [run_bind]
  rcases a.run host s with ⟨_ | _, _⟩ <;> exact Iff.rfl

@[simp]
theorem ensures_files_bind {f : FileTree → Action β} {post : Except Failure β → Session → Prop} :
    Ensures host s (files >>= f) post ↔ Ensures host s (f s.files) post := Iff.rfl

@[simp]
theorem ensures_host_bind {f : Host → Action β} {post : Except Failure β → Session → Prop} :
    Ensures host s (Action.host >>= f) post ↔ Ensures host s (f host) post := Iff.rfl

@[simp]
theorem ensures_session_bind {f : Session → Action β}
    {post : Except Failure β → Session → Prop} :
    Ensures host s (session >>= f) post ↔ Ensures host s (f s) post := Iff.rfl

@[simp]
theorem ensures_log_bind {severity : Severity} {topic : Topic} {message : String}
    {f : Unit → Action β} {post : Except Failure β → Session → Prop} :
    Ensures host s (log severity topic message >>= f) post ↔
      Ensures host (s.addLog { severity, topic, message }) (f ()) post := Iff.rfl

theorem ensures_attempt {a : Action α}
    {post : Except Failure (Except Failure α) → Session → Prop} :
    Ensures host s a.attempt post ↔ Ensures host s a fun r s' ↦ post (.ok r) s' := Iff.rfl

/-- The last action runs after both outcomes, and only its failure changes the result. -/
theorem ensures_andFinally {a : Action α} {last : Action Unit}
    {post : Except Failure α → Session → Prop} :
    Ensures host s (a.andFinally last) post ↔
      Ensures host s a fun r s' ↦ Ensures host s' last fun r' s'' ↦
        match r' with
        | .ok () => post r s''
        | .error e => post (.error e) s'' := by
  unfold Ensures run andFinally
  rcases a host s with ⟨result, s'⟩
  rcases hlast : last host s' with ⟨_ | ⟨⟨⟩⟩, s''⟩ <;> simp only [hlast]

/-! ## Loops -/

/-- What holds before a loop and is carried from each initial part of its list to the next holds
after the whole list, unless the loop was left by a failure of one of its rounds. -/
theorem ensures_forM {xs : List α} {f : α → Action Unit} (inv : List α → Session → Prop)
    (left : Failure → Session → Prop) (hstart : inv [] s)
    (hstep : ∀ before x after s', xs = before ++ x :: after → inv before s' →
      Ensures host s' (f x) fun r s'' ↦
        (r = .ok () → inv (before ++ [x]) s'') ∧ ∀ e, r = .error e → left e s'') :
    Ensures host s (xs.forM f) fun r s' ↦
      (r = .ok () → inv xs s') ∧ ∀ e, r = .error e → left e s' := by
  -- The loop over the rest of the list, once an initial part is done.
  suffices h : ∀ rest before s', xs = before ++ rest → inv before s' →
      Ensures host s' (rest.forM f) fun r s'' ↦
        (r = .ok () → inv xs s'') ∧ ∀ e, r = .error e → left e s'' from h xs [] s rfl hstart
  intro rest
  induction rest with
  | nil =>
    intro before s' hxs hinv
    rw [List.append_nil] at hxs
    exact ⟨fun _ ↦ hxs ▸ hinv, by simp [List.forM, Action.run_pure]⟩
  | cons x rest ih =>
    intro before s' hxs hinv
    change Ensures host s' (f x >>= fun _ ↦ rest.forM f) _
    refine Ensures.bind (hstep before x rest s' hxs hinv) ?_ ?_
    · rintro ⟨⟩ s'' ⟨hnext, -⟩
      exact ih (before ++ [x]) s'' (by simpa using hxs) (hnext rfl)
    · rintro e s'' ⟨-, hleft⟩
      exact ⟨by simp, fun e' he' ↦ Except.error.inj he' ▸ hleft e rfl⟩

end OfflineSupply.Action
