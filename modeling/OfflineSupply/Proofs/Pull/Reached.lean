import OfflineSupply.Proofs.Pull.Complete

/-!
# Single charts of a pull

Pulling the charts of a manifest comes to each of them when those before it are done.  What it does
there depends on the settings and on whether the file of the chart is there, and the rest of the
charts follows from there.
-/

namespace OfflineSupply.Pull

open OfflineSupply.Action

variable {m : Manifest} {set : Settings} {host : Host} {s t t' : Session} {ref : Reference}
  {after : List Reference} {r : Except Failure Unit} {c : Command}

/-- Pulling the charts of a manifest from one session comes to a chart in another one; these ones
are left after it. -/
def Reaches (m : Manifest) (set : Settings) (host : Host) (s : Session) (ref : Reference)
    (after : List Reference) (t : Session) : Prop :=
  ∃ before, m.chartReferences = .ok (before ++ ref :: after) ∧
    Returns host s (before.forM (chart set)) () t

/-- The work on a chart ends so, and pulling the charts goes on from there with those that are left,
unless that was a failure. -/
structure Proceeds (m : Manifest) (set : Settings) (host : Host) (s : Session) (ref : Reference)
    (after : List Reference) (t : Session) (r : Except Failure Unit) (t' : Session) : Prop where
  here : (chart set ref).run host t = (r, t')
  onward : (charts m set).run host s =
    (do Action.ofExcept r; after.forM (chart set) : Action Unit).run host t'

/-- Pulling the charts goes on from a chart that it comes to. -/
theorem Reaches.run_charts (h : Reaches m set host s ref after t) :
    (charts m set).run host s =
      (do chart set ref; after.forM (chart set) : Action Unit).run host t := by
  obtain ⟨before, hrefs, hbefore⟩ := h
  have hloop : (before ++ ref :: after).forM (chart set) =
      (before.forM (chart set) >>= fun _ ↦ (ref :: after).forM (chart set)) :=
    List.forM_append
  have hcons {f : Reference → Action Unit} :
      (ref :: after).forM f = (f ref >>= fun _ ↦ after.forM f) := rfl
  calc (charts m set).run host s
      = ((before ++ ref :: after).forM (chart set)).run host s := by
        unfold charts
        rw [hrefs]
        rfl
    _ = ((ref :: after).forM (chart set)).run host t := by
        rw [hloop, hbefore.run_bind]
    _ = (do chart set ref; after.forM (chart set) : Action Unit).run host t := by
        rw [hcons]

theorem Reaches.proceeds (h : Reaches m set host s ref after t)
    (hhere : (chart set ref).run host t = (r, t')) : Proceeds m set host s ref after t r t' :=
  ⟨hhere, h.run_charts.trans (run_bind_of_run hhere)⟩

/-- What is done for a chart, if its file is missing: in a dry run one command is shown, in a live
run one process is started for it.  If the file is there, nothing is done. -/
structure Handles (set : Settings) (ref : Reference) (c : Command) : Prop where
  skips {m : Manifest} {host : Host} {s t : Session} {after : List Reference}
    (h : Reaches m set host s ref after t) (hthere : t.files.exists? (set.chartFile ref) = true) :
    ∃ t', Proceeds m set host s ref after t (.ok ()) t' ∧ t.Displays t' []
  shows {m : Manifest} {host : Host} {s t : Session} {after : List Reference}
    (h : Reaches m set host s ref after t) (hmissing : t.files.exists? (set.chartFile ref) = false)
    (hdry : set.dryRun = true) :
    ∃ t', Proceeds m set host s ref after t (.ok ()) t' ∧ t.Displays t' [c]
  starts {m : Manifest} {host : Host} {s t : Session} {after : List Reference}
    (h : Reaches m set host s ref after t) (hmissing : t.files.exists? (set.chartFile ref) = false)
    (hlive : set.dryRun = false) :
    ∃ r t', Proceeds m set host s ref after t r t' ∧ t'.commands = t.commands ++ [c]

theorem commands_of_chart (hmissing : t.files.exists? (set.chartFile ref) = false)
    (hlive : set.dryRun = false) : Ensures host t (chart set ref) fun _ t' ↦
      t'.commands = t.commands ++ [chartPull set.cacheDirectory ref] := by
  rw [chart_eq]
  refine ensures_isThere.bind ?_ (by simp)
  rintro there t₁ ⟨hthere, -, hexecutions⟩
  rw [hmissing, Except.ok.injEq] at hthere
  rw [hthere, if_neg (by simp), ensures_log_bind, hlive, ensures_bind]
  have hlimit : (chartPull set.cacheDirectory ref).limit = none := rfl
  refine (Command.ensures_run hlimit).mono ?_
  rintro r t₂ ⟨l, hl⟩
  have hcommands : t₂.commands = t.commands ++ [chartPull set.cacheDirectory ref] := by
    rw [hl.commands]
    exact congrArg (· ++ _) (Session.commands_congr hexecutions)
  cases r with
  | error e => exact hcommands
  | ok output => exact hcommands

/-- Every chart is handled by the command that brings its version from its repository into the cache
directory. -/
theorem handles_chart (set : Settings) (ref : Reference) :
    Handles set ref (chartPull set.cacheDirectory ref) where
  skips := by
    intro m host s t after h hthere
    have hshows : Shows host t.files (chart set ref) [] := shows_chart_of_there hthere
    obtain ⟨⟨⟩, t', hhere, hshown⟩ := hshows t rfl
    exact ⟨t', h.proceeds hhere, hshown⟩
  shows := by
    intro m host s t after h hmissing hdry
    have hshows : Shows host t.files (chart set ref) _ := shows_chart hdry ref
    have hheld : t.files.holds set.cacheDirectory ref.archiveName = false := hmissing
    rw [hheld] at hshows
    obtain ⟨⟨⟩, t', hhere, hshown⟩ := hshows t rfl
    exact ⟨t', h.proceeds hhere, hshown⟩
  starts := by
    intro m host s t after h hmissing hlive
    have hcommands : Ensures host t (chart set ref) _ := commands_of_chart hmissing hlive
    unfold Ensures at hcommands
    rcases hrun : (chart set ref).run host t with ⟨r, t'⟩
    rw [hrun] at hcommands
    exact ⟨r, t', h.proceeds hrun, hcommands⟩

end OfflineSupply.Pull
