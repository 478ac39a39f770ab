import OfflineSupply.Proofs.Command.Display
import OfflineSupply.Proofs.Pull.Planned

/-!
# What a dry run shows

A dry run looks for the same files as the live run, but it looks for all of them in the files that
were there at first, because it makes neither directories nor files.  It shows the commands that
follow from those files.
-/

namespace OfflineSupply

open FileTree Pull

variable {host : Host} {set : Settings} {m : Manifest} {p : Path} {k : Category} {t : FileTree}
  {refs : List Reference} {cs : List Command}

namespace Pull

theorem shows_isThere_bind {f : Bool → Action Unit} (h : Action.Shows host t (f (t.exists? p)) cs) :
    Action.Shows host t (isThere p >>= f) cs := by
  intro s hfiles
  have hlook : ∃ s₁, Action.Returns host s (isThere p) (t.exists? p) s₁ ∧ s.Displays s₁ [] := by
    rw [← hfiles]
    unfold isThere
    cases hthere : s.files.exists? p with
    | true =>
      let skipped : LogEntry :=
        { severity := .info, topic := .pull, message := "File " ++ p.name ++ " exists, skipping." }
      refine ⟨s.addLog skipped, Action.returns_bind.mpr ⟨s.files, s, rfl, ?_⟩,
        .of_same rfl rfl rfl rfl⟩
      rw [hthere]
      rfl
    | false =>
      refine ⟨s, Action.returns_bind.mpr ⟨s.files, s, rfl, ?_⟩, .of_same rfl rfl rfl rfl⟩
      rw [hthere]
      rfl
  obtain ⟨s₁, hlook, hshown₁⟩ := hlook
  obtain ⟨value, s₂, hrest, hshown₂⟩ := h s₁ (hshown₁.files.trans hfiles)
  exact ⟨value, s₂, Action.returns_bind.mpr ⟨_, s₁, hlook, hrest⟩, hshown₁.trans hshown₂⟩

end Pull

namespace Category

theorem shows_pullEntry (hdry : set.dryRun = true) (entry : String) :
    Action.Shows host t (k.pullEntry set entry) [k.pull entry] := by
  have hannounce : Action.Shows host t (k.announce entry) [] := by
    cases k
    · exact Action.shows_pure ()
    · exact Action.shows_log _ _ _
  unfold pullEntry
  rw [hdry]
  exact hannounce.bind fun _ ↦ (Command.shows_perform _).bind fun _ ↦ Action.shows_pure ()

theorem shows_category (hdry : set.dryRun = true) {title : String} :
    Action.Shows host t (category title (k.entries m) (k.bundle m set))
      (k.planned m (k.archive set) (t.holds set.cacheDirectory k.archiveName)) := by
  unfold category planned
  cases hempty : (k.entries m).isEmpty with
  | true => exact Action.shows_pure ()
  | false =>
    rw [if_neg (by simp), Bool.false_or]
    apply Stage.shows_within
    apply shows_isThere_bind
    change Action.Shows host t
      (if t.holds set.cacheDirectory k.archiveName = true then pure () else _) _
    cases t.holds set.cacheDirectory k.archiveName with
    | true => exact Action.shows_pure ()
    | false =>
      rw [if_neg (by simp), if_neg (by simp), List.map_eq_flatMap, hdry]
      have hsave : Action.Shows host t (saveArchive (k.save (k.entries m)) (k.archive set) true)
          [k.save (k.entries m) (k.archive set)] :=
        (Command.shows_perform _).bind fun _ ↦ Action.shows_pure ()
      exact (Action.Shows.forM fun entry _ ↦ shows_pullEntry hdry entry).bind fun _ ↦ hsave

end Category

namespace Pull

theorem shows_chart (hdry : set.dryRun = true) (ref : Reference) :
    Action.Shows host t (chart set ref)
      (if t.holds set.cacheDirectory ref.archiveName then []
        else [chartPull set.cacheDirectory ref]) := by
  rw [chart_eq]
  apply shows_isThere_bind
  change Action.Shows host t (if t.holds set.cacheDirectory ref.archiveName = true then _ else _) _
  cases t.holds set.cacheDirectory ref.archiveName with
  | true => exact Action.shows_pure ()
  | false =>
    rw [if_neg (by simp), if_neg (by simp), hdry]
    exact (Action.shows_log _ _ _).bind fun _ ↦
      (Command.shows_perform _).bind fun _ ↦ Action.shows_pure ()

theorem flatMap_unless {α β : Type} (xs : List α) (skipped : α → Bool) (f : α → β) :
    (xs.flatMap fun x ↦ if skipped x then [] else [f x]) =
      (xs.filter fun x ↦ !skipped x).map f := by
  induction xs with
  | nil => rfl
  | cons x xs ih =>
    rw [List.flatMap_cons, ih]
    cases hskipped : skipped x <;> simp [hskipped]

theorem shows_chartCategory (hdry : set.dryRun = true) (hrefs : m.chartReferences = .ok refs)
    {title : String} :
    Action.Shows host t (category title m.charts (charts m set))
      ((refs.filter fun ref ↦ !t.holds set.cacheDirectory ref.archiveName).map
        (chartPull set.cacheDirectory)) := by
  unfold category
  split
  · rename_i hempty
    rw [Manifest.eq_nil_of_chartReferences hrefs hempty]
    exact Action.shows_pure ()
  · apply Stage.shows_within
    unfold charts
    rw [hrefs, ← flatMap_unless]
    have hloop : Action.Shows host t (refs.forM (chart set)) _ :=
      Action.Shows.forM fun ref _ ↦ shows_chart hdry ref
    exact hloop

/-- A dry run shows the commands that follow from the files that are there at first. -/
theorem shows_all (hdry : set.dryRun = true) (hvalid : validate m = .ok ())
    (hrefs : m.chartReferences = .ok refs) :
    Action.Shows host t (all m set)
      (planned m set (fun k ↦ k.archive set) (t.holds set.cacheDirectory)
        (refs.filter fun ref ↦ !t.holds set.cacheDirectory ref.archiveName)) := by
  have himages : Action.Shows host t (category "images" m.images (images m set)) _ :=
    Category.shows_category (k := .images) hdry
  have hpolicies : Action.Shows host t (category "policies" m.policies (policies m set)) _ :=
    Category.shows_category (k := .policies) hdry
  have hcharts : Action.Shows host t (category "charts" m.charts (charts m set)) _ :=
    shows_chartCategory hdry hrefs
  unfold all planned
  rw [hvalid, hdry, if_pos rfl]
  rw [List.append_assoc]
  exact himages.bind fun _ ↦ hpolicies.bind fun _ ↦ hcharts

end Pull

end OfflineSupply
