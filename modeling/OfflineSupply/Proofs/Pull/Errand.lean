import OfflineSupply.Proofs.Command.Issued
import OfflineSupply.Proofs.Pull.Chart

/-!
# Errands

An errand brings one file about: the archive of a category by its pulls and its save, a chart file
by one pull.  It is not needed if the file is there when its turn comes.  Errands are done in turn,
and the one that fails is the last; what it started is not undone, except that the unfinished file
goes that its last process may have left.
-/

namespace OfflineSupply

namespace FileTree

variable {t : FileTree} {p : Path}

/-- The tree without the file at a path, or as it is if there is none to be removed. -/
def without (t : FileTree) (p : Path) : FileTree :=
  match t.remove p with
  | .ok u => u
  | .error _ => t

theorem without_of_missing (h : t.exists? p = false) : t.without p = t := by
  unfold without
  cases hremoved : t.remove p with
  | error e => rfl
  | ok u =>
    obtain ⟨at_, entry, hlocate, hfound, -⟩ := remove_eq_ok hremoved
    have hthere : t.exists? p = true := exists?_iff.mpr ⟨at_, entry, hlocate, hfound⟩
    rw [h] at hthere
    simp at hthere

theorem changedAt_without : ChangedAt p t (t.without p) := by
  unfold without
  cases hremoved : t.remove p with
  | error e => exact ⟨rfl, fun _ _ ↦ rfl⟩
  | ok u =>
    obtain ⟨at_, entry, hlocate, -, rfl⟩ := remove_eq_ok hremoved
    refine ⟨rfl, fun y hy ↦ ?_⟩
    rw [place_of_locate hlocate] at hy
    exact find?_drop_of_ne hy

end FileTree

namespace Pull

open FileTree

variable {host : Host} {s : Session} {p : Path} {t u v : FileTree} {ls more : List Launch}
  {r : Except Failure Unit}

/-- What is done to bring one file about.  The last command may write the file under another name,
and it is renamed when it is complete. -/
structure Errand where
  file : Path
  commands : List Command
  unfinished : Option Path := none

namespace Errand

/-- What becomes of the files after the last command. -/
def Closes (e : Errand) (written after : FileTree) : Prop :=
  match e.unfinished with
  | none => after = written
  | some p => written.rename p e.file = .ok after

/-- The files that are left when the errand is given up before some commands, none of which is left
only after the last one. -/
def givenUp (e : Errand) (before : List Command) (t : FileTree) : FileTree :=
  match e.unfinished, before with
  | some p, [] => t.without p
  | _, _ => t

theorem givenUp_of_ne_nil {e : Errand} {before : List Command} (h : before ≠ []) :
    e.givenUp before t = t := by
  unfold givenUp
  split
  · exact absurd rfl h
  · rfl

end Errand

/-- Errands are done in turn: each one is needless, finished, or the last because it was stopped. -/
inductive InTurn (host : Host) :
    List Errand → FileTree → List Launch → Except Failure Unit → FileTree → Prop
  | done (t : FileTree) : InTurn host [] t [] (.ok ()) t
  | needless {e : Errand} {es : List Errand} {t u : FileTree} {ls : List Launch}
      {r : Except Failure Unit} (hthere : t.exists? e.file = true)
      (hrest : InTurn host es t ls r u) : InTurn host (e :: es) t ls r u
  | finished {e : Errand} {es : List Errand} {t written after u : FileTree}
      {ls more : List Launch} {r : Except Failure Unit} (hmissing : t.exists? e.file = false)
      (hissued : Issued host e.commands t ls written) (hcloses : e.Closes written after)
      (hrest : InTurn host es after more r u) : InTurn host (e :: es) t (ls ++ more) r u
  | stopped {e : Errand} {es : List Errand} {t : FileTree} {front back : List Command}
      {ls : List Launch} {last : Launch} {cause : Failure} (hmissing : t.exists? e.file = false)
      (hcommands : e.commands = front ++ last.command :: back)
      (hissued : Issued host front t ls last.session.files) :
      InTurn host (e :: es) t (ls ++ [last]) (.error cause)
        (e.givenUp back (last.outcome host).files)

namespace InTurn

variable {es es' : List Errand}

theorem append (h : InTurn host es t ls (.ok ()) u) (hrest : InTurn host es' u more r v) :
    InTurn host (es ++ es') t (ls ++ more) r v := by
  generalize hok : (Except.ok () : Except Failure Unit) = first at h
  induction h with
  | done t => exact hrest
  | needless hthere _ ih => exact .needless hthere (ih hrest hok)
  | finished hmissing hissued hcloses _ ih =>
    rw [List.append_assoc]
    exact .finished hmissing hissued hcloses (ih hrest hok)
  | stopped => simp at hok

theorem append_stopped {cause : Failure} (h : InTurn host es t ls (.error cause) u) :
    InTurn host (es ++ es') t ls (.error cause) u := by
  generalize herror : (Except.error cause : Except Failure Unit) = first at h ⊢
  induction h with
  | done t => simp at herror
  | needless hthere _ ih => exact .needless hthere (ih herror)
  | finished hmissing hissued hcloses _ ih =>
    exact .finished hmissing hissued hcloses (ih herror)
  | stopped hmissing hcommands hissued => exact .stopped hmissing hcommands hissued

theorem finished_alone {e : Errand} (hmissing : t.exists? e.file = false)
    (hissued : Issued host e.commands t ls u) (hcloses : e.Closes u v) :
    InTurn host [e] t ls (.ok ()) v := by
  rw [← List.append_nil ls]
  exact .finished hmissing hissued hcloses (.done v)

end InTurn

/-! ## Actions that do errands -/

/-- The processes by which an action did errands in turn.  If it fails, which is never for want of a
reference, then it does so with its last process, and tells the user nothing after that. -/
structure Attended (host : Host) (es : List Errand) (before : Session)
    (r : Except Failure Unit) (after : Session) (ls : List Launch) : Prop where
  executions : after.executions = before.executions ++ ls.map (Launch.execution host)
  inTurn : InTurn host es before.files ls r after.files
  failed : ∀ e, r = .error e →
    ¬ e.IsReference ∧ ∃ done last, ls = done ++ [last] ∧ after.told = last.session.told

/-- The action does the errands in turn. -/
def Attends (host : Host) (es : List Errand) (a : Action Unit) : Prop :=
  ∀ s : Session, Action.Ensures host s a fun r s' ↦ ∃ ls, Attended host es s r s' ls

variable {es es' : List Errand} {a : Action Unit}

theorem attends_pure : Attends host [] (pure ()) := by
  intro s
  exact ⟨[], (List.append_nil _).symm, .done s.files, by simp [Action.run_pure]⟩

theorem Attends.bind {f : Unit → Action Unit} (h : Attends host es a)
    (hf : ∀ value, Attends host es' (f value)) : Attends host (es ++ es') (a >>= f) := by
  intro s
  apply (h s).bind
  · intro value s₁ ⟨ls, hfirst⟩
    apply (hf value s₁).mono
    intro r s₂ ⟨more, hrest⟩
    refine ⟨ls ++ more, by simp [hrest.executions, hfirst.executions],
      hfirst.inTurn.append hrest.inTurn, ?_⟩
    intro e he
    obtain ⟨hcause, done, last, rfl, htold⟩ := hrest.failed e he
    exact ⟨hcause, ls ++ done, last, (List.append_assoc ..).symm, htold⟩
  · intro e s₁ ⟨ls, hfirst⟩
    refine ⟨ls, hfirst.executions, hfirst.inTurn.append_stopped, ?_⟩
    intro e' he'
    exact Except.error.inj he' ▸ hfirst.failed e rfl

theorem attends_forM {α : Type} {xs : List α} {round : α → Action Unit} {errand : α → Errand}
    (h : ∀ x, Attends host [errand x] (round x)) :
    Attends host (xs.map errand) (xs.forM round) := by
  induction xs with
  | nil => exact attends_pure
  | cons x xs ih => exact (h x).bind fun _ ↦ ih

/-- The end of a stage is only a detail of the log. -/
theorem attends_within {name : String} (h : Attends host es a) :
    Attends host es (Stage.within name a) := by
  intro s
  rw [Stage.ensures_within]
  apply (h (Stage.begun name s)).mono
  intro r s' ⟨ls, hattended⟩
  refine ⟨ls, hattended.executions, hattended.inTurn, ?_⟩
  intro e he
  obtain ⟨hcause, done, last, hls, htold⟩ := hattended.failed e he
  have hended : (Stage.ended host s').told = s'.told := Session.told_addLog_debug _ _ _
  exact ⟨hcause, done, last, hls, hended.trans htold⟩

/-- A category without entries is no errand. -/
theorem attends_category {name : String} {entries : List String} (h : Attends host es a) :
    Attends host (if entries.isEmpty then [] else es) (category name entries a) := by
  unfold category
  split
  · exact attends_pure
  · exact attends_within h

/-- Removing a file leaves the tree without it, or as it is. -/
theorem ensures_removeIfThere_without :
    Action.Ensures host s (removeIfThere p) fun r s' ↦
      s' = { s with files := s.files.without p } ∧
        (s.files.exists? p = false → r = .ok ()) ∧ ∀ e, r = .error e → ¬ e.IsReference := by
  unfold removeIfThere
  rw [Action.ensures_files_bind]
  cases hthere : s.files.exists? p with
  | false =>
    rw [without_of_missing hthere, if_neg (by simp), Action.ensures_pure]
    exact ⟨rfl, fun _ ↦ rfl, by simp⟩
  | true =>
    rw [if_pos rfl, Action.ensures_changeFiles]
    unfold FileTree.without
    cases s.files.remove p with
    | ok u => exact ⟨rfl, by simp, by simp⟩
    | error e =>
      refine ⟨rfl, by simp, ?_⟩
      intro e' he'
      rw [← Except.error.inj he']
      exact Failure.not_isReference_ofFile e

end Pull

namespace Category

open Pull FileTree

variable {host : Host} {s : Session} {k : Category} {m : Manifest} {set : Settings}
  {entries : List String}

/-- The archive of a category. -/
def errand (k : Category) (m : Manifest) (set : Settings) : Errand where
  file := k.archive set
  commands := (k.entries m).map k.pull ++ [k.save (k.entries m) (k.unfinished set)]
  unfinished := some (k.unfinished set)

theorem issues_pullEntry (hlive : set.dryRun = false) (entry : String) :
    Action.Issues host [k.pull entry] (k.pullEntry set entry) := by
  have hannounce : Action.Issues host [] (k.announce entry) := by
    cases k
    · exact Action.issues_pure ()
    · exact Action.issues_log _ _ _
  have hlimit : (k.pull entry).limit = none := by
    cases k <;> rfl
  unfold pullEntry
  rw [hlive]
  exact hannounce.bind fun _ ↦ (Command.issues_run hlimit).bind fun _ ↦ Action.issues_pure ()

/-- How the saving of an archive ends: what its process left was renamed, or it was given up. -/
inductive Saving (host : Host) (k : Category) (set : Settings) (l : Launch)
    (givenUp : FileTree → FileTree) : Except Failure Unit → Session → Prop
  | renamed {s : Session} (hsucceeds : l.Succeeds host)
      (hrenamed : (l.outcome host).files.rename (k.unfinished set) (k.archive set) = .ok s.files) :
      Saving host k set l givenUp (.ok ()) s
  | failed {e : Failure} {s : Session} (hcause : ¬ e.IsReference)
      (htold : s.told = l.session.told) (hfiles : s.files = givenUp (l.outcome host).files) :
      Saving host k set l givenUp (.error e) s

/-- An archive is saved by one process, whose file is then renamed. -/
theorem ensures_commit {c : Command} (hlimit : c.limit = none) :
    Action.Ensures host s (do
      let _ ← c.run
      Action.changeFiles (·.rename (k.unfinished set) (k.archive set))) fun r s' ↦
      ∃ l : Launch, l.command = c ∧ l.session.files = s.files ∧
        s'.executions = s.executions ++ [l.execution host] ∧ Saving host k set l id r s' := by
  rw [Action.ensures_bind]
  apply (Command.ensures_run_hushed hlimit).mono
  intro r s₁ ⟨l, hlaunched, htold, hcause⟩
  cases r with
  | error e =>
    exact ⟨l, hlaunched.command, hlaunched.filesBefore, hlaunched.executions,
      .failed (hcause e rfl) htold hlaunched.filesAfter⟩
  | ok output =>
    rw [Action.ensures_changeFiles]
    cases hrenamed : s₁.files.rename (k.unfinished set) (k.archive set) with
    | error e =>
      exact ⟨l, hlaunched.command, hlaunched.filesBefore, hlaunched.executions,
        .failed (Failure.not_isReference_ofFile e) htold hlaunched.filesAfter⟩
    | ok renamed =>
      refine ⟨l, hlaunched.command, hlaunched.filesBefore, hlaunched.executions, ?_⟩
      apply Saving.renamed (hlaunched.succeeds output rfl)
      rw [← hlaunched.filesAfter, hrenamed]

/-- An archive is saved and renamed, or the unfinished file is removed. -/
theorem ensures_saveArchive_live :
    Action.Ensures host s (saveArchive (k.save entries) (k.archive set) false) fun r s' ↦
      ∃ l : Launch, l.command = k.save entries (k.unfinished set) ∧ l.session.files = s.files ∧
        s'.executions = s.executions ++ [l.execution host] ∧
        Saving host k set l (·.without (k.unfinished set)) r s' := by
  have hlimit : (k.save entries (k.unfinished set)).limit = none := by
    cases k <;> rfl
  unfold saveArchive
  rw [if_neg (by simp), Action.ensures_log_bind, addToName_archive, Action.ensures_andFinally]
  apply (ensures_commit hlimit).mono
  intro r s₁ ⟨l, hcommand, hbefore, hexecutions, hsaving⟩
  apply ensures_removeIfThere_without.mono
  intro r' s' ⟨hs', hidle, hreference⟩
  cases hsaving with
  | renamed hsucceeds hrenamed =>
    have hgone : s₁.files.exists? (k.unfinished set) = false := by
      rw [Bool.eq_false_iff]
      intro hthere
      obtain ⟨entry, hfound⟩ := find?_place_of_exists hthere
      rw [find?_unfinished_renamed hrenamed] at hfound
      simp at hfound
    rw [hidle hgone]
    rw [without_of_missing hgone] at hs'
    rw [hs']
    exact ⟨l, hcommand, hbefore, hexecutions, .renamed hsucceeds hrenamed⟩
  | failed hcause htold hfiles =>
    have hafter : s'.files = (l.outcome host).files.without (k.unfinished set) := by
      rw [hs', hfiles]
      rfl
    rw [hs'] at hafter ⊢
    cases r' with
    | ok _ => exact ⟨l, hcommand, hbefore, hexecutions, .failed hcause htold hafter⟩
    | error e =>
      exact ⟨l, hcommand, hbefore, hexecutions, .failed (hreference e rfl) htold hafter⟩

/-- Bundling a category does its errand. -/
theorem attends_bundle (hlive : set.dryRun = false) :
    Attends host [k.errand m set] (k.bundle m set) := by
  intro s
  unfold bundle
  apply ensures_isThere.bind
  · intro there s₁ ⟨hthere, hfiles₁, hexecutions₁⟩
    have hlook : s.files.exists? (k.errand m set).file = there :=
      (Except.ok.inj hthere).symm
    cases there with
    | true =>
      rw [if_pos rfl, Action.ensures_pure]
      refine ⟨[], by simp [hexecutions₁], ?_, by simp⟩
      rw [hfiles₁]
      exact .needless hlook (.done _)
    | false =>
      rw [if_neg (by simp), hlive, Action.ensures_bind]
      apply (Action.issues_forM (issues_pullEntry hlive) s₁).mono
      intro r s₂ ⟨ls, hexecutions₂, hissuing⟩
      rw [hfiles₁] at hissuing
      rw [hexecutions₁] at hexecutions₂
      cases hissuing with
      | @stopped front back done last e _ hcommands hdone hfiles htold hcause =>
        have hsplit : (k.errand m set).commands = front ++ last.command ::
            (back ++ [k.save (k.entries m) (k.unfinished set)]) := by
          rw [errand, hcommands, List.append_assoc, List.cons_append]
        have hstopped : InTurn host [k.errand m set] s.files (done ++ [last]) (.error e) _ :=
          .stopped hlook hsplit hdone
        rw [Errand.givenUp_of_ne_nil (by simp), ← hfiles] at hstopped
        refine ⟨done ++ [last], hexecutions₂, hstopped, ?_⟩
        intro e' he'
        rw [← Except.error.inj he']
        exact ⟨hcause, done, last, rfl, htold⟩
      | finished hissued =>
        apply ensures_saveArchive_live.mono
        intro r s₃ ⟨l, hcommand, hbefore, hexecutions, hsaving⟩
        refine ⟨ls ++ [l], by simp [hexecutions, hexecutions₂], ?_, ?_⟩
        · cases hsaving with
          | renamed hsucceeds hrenamed =>
            have hsaved := hissued.append (.single hsucceeds hcommand hbefore)
            exact .finished_alone hlook hsaved hrenamed
          | failed hcause htold hfiles =>
            have hsplit : (k.errand m set).commands = (k.entries m).map k.pull ++ [l.command] := by
              rw [hcommand]
              rfl
            rw [hfiles]
            exact .stopped hlook hsplit (hbefore ▸ hissued)
        · intro e he
          cases hsaving with
          | renamed => simp at he
          | failed hcause htold hfiles =>
            rw [← Except.error.inj he]
            exact ⟨hcause, ls, l, rfl, htold⟩
  · simp

end Category

namespace Pull

variable {host : Host} {m : Manifest} {set : Settings} {refs : List Reference}

/-- The file of a chart version. -/
def chartErrand (set : Settings) (ref : Reference) : Errand where
  file := set.chartFile ref
  commands := [chartPull set.cacheDirectory ref]

@[simp]
theorem file_chartErrand (set : Settings) (ref : Reference) :
    (chartErrand set ref).file = set.chartFile ref := by
  unfold chartErrand
  with_reducible rfl

/-- Pulling a chart version does its errand. -/
theorem attends_chart (hlive : set.dryRun = false) (ref : Reference) :
    Attends host [chartErrand set ref] (chart set ref) := by
  intro s
  rw [chart_eq]
  apply ensures_isThere.bind
  · intro there s₁ ⟨hthere, hfiles₁, hexecutions₁⟩
    have hlook : s.files.exists? (chartErrand set ref).file = there := by
      rw [file_chartErrand, ← Except.ok.inj hthere]
    cases there with
    | true =>
      rw [if_pos rfl, Action.ensures_pure]
      refine ⟨[], by simp [hexecutions₁], ?_, by simp⟩
      rw [hfiles₁]
      exact .needless hlook (.done _)
    | false =>
      rw [if_neg (by simp), Action.ensures_log_bind, hlive, Action.ensures_bind]
      have hlimit : (chartPull set.cacheDirectory ref).limit = none := rfl
      apply (Command.ensures_run_hushed hlimit).mono
      intro r s₂ ⟨l, hlaunched, htold, hcause⟩
      have hexecutions : s₂.executions = s.executions ++ [l.execution host] := by
        rw [← hexecutions₁]
        exact hlaunched.executions
      have hbefore : l.session.files = s.files := hlaunched.filesBefore.trans hfiles₁
      cases r with
      | ok output =>
        refine ⟨[l], hexecutions, ?_, by simp [Action.run_pure]⟩
        have hpulled := Issued.single (hlaunched.succeeds output rfl) hlaunched.command hbefore
        exact .finished_alone hlook hpulled hlaunched.filesAfter
      | error e =>
        have hsplit : (chartErrand set ref).commands = [] ++ l.command :: [] := by
          rw [hlaunched.command]
          rfl
        have hnone : Issued host [] s.files [] l.session.files := by
          rw [hbefore]
          exact .none s.files
        have hstopped : InTurn host [chartErrand set ref] s.files [l] (.error e) _ :=
          .stopped hlook hsplit hnone
        refine ⟨[l], hexecutions, hlaunched.filesAfter ▸ hstopped, ?_⟩
        intro e' he'
        rw [← Except.error.inj he']
        exact ⟨hcause e rfl, [], l, rfl, htold⟩
  · simp

/-- The errands of a manifest, in the order of its categories and of the entries of each. -/
def errands (m : Manifest) (set : Settings) (refs : List Reference) : List Errand :=
  (if m.images.isEmpty then [] else [Category.images.errand m set]) ++
    (if m.policies.isEmpty then [] else [Category.policies.errand m set]) ++
    refs.map (chartErrand set)

theorem attends_chartCategory (hlive : set.dryRun = false) (hrefs : m.chartReferences = .ok refs)
    {name : String} :
    Attends host (refs.map (chartErrand set)) (category name m.charts (charts m set)) := by
  have hcharts : Attends host (refs.map (chartErrand set)) (charts m set) := by
    unfold charts
    rw [hrefs]
    exact attends_forM (attends_chart hlive)
  have hstage : Attends host (if m.charts.isEmpty then [] else refs.map (chartErrand set))
      (category name m.charts (charts m set)) := attends_category hcharts
  split at hstage
  · rename_i hempty
    rwa [Manifest.eq_nil_of_chartReferences hrefs hempty]
  · exact hstage

end Pull

end OfflineSupply
