import OfflineSupply.Proofs.Pull.Stages

/-!
# A chart file within a call

A chart is written straight to the file whose presence keeps it from being pulled again.  Within one
call a chart file is left alone, or a process that exits with zero writes it, or a process that does
not exit with zero is the last of the call and may leave something there.
-/

namespace OfflineSupply

open FileTree

namespace Pull

variable {host : Host} {c : Call} {ref : Reference} {value name : String} {cache : Path}
  {t t₀ t₁ t₂ : FileTree} {ls more : List Launch} {l : Launch} {k : Category} {s : Session}

/-! ## The processes for one chart file -/

/-- A command that pulls a chart version into the file of a name in a directory. -/
def PullsChart (cache : Path) (name : String) (command : Command) : Prop :=
  ∃ value ref, Reference.ofChart value = .ok ref ∧ ref.archiveName = name ∧
    command = chartPull cache ref

theorem pullsChart_chartPull_iff (h : Reference.ofChart value = .ok ref) :
    PullsChart cache name (chartPull cache ref) ↔ ref.archiveName = name := by
  constructor
  · rintro ⟨value', ref', h', hname, hcommand⟩
    rw [chartPull_injective h h' hcommand, hname]
  · intro hname
    exact ⟨value, ref, h, hname, rfl⟩

theorem not_pullsChart_of_tool {command : Command} (h : command.tool = k.tool) :
    ¬ PullsChart cache name command := by
  rintro ⟨value, ref, -, -, rfl⟩
  cases k <;> simp [Category.tool, chartPull] at h

/-! ## The chart file within a call -/

/-- No process was started for the chart file, and it is as it was. -/
structure Untried (cache : Path) (name : String) (before after : FileTree) (ls : List Launch) :
    Prop where
  directory : after.directory = before.directory
  entry : after.find? (before.place cache ++ [name]) = before.find? (before.place cache ++ [name])
  unstarted : ∀ l ∈ ls, ¬ PullsChart cache name l.command

/-- The chart file was written by a process that exited with zero, the only one started for it. -/
structure Pulled (host : Host) (cache : Path) (name : String) (before after : FileTree)
    (ls : List Launch) : Prop where
  directory : after.directory = before.directory
  vacant : before.find? (before.place cache ++ [name]) = none
  located : after.locate (cache.child name) = .ok (before.place cache ++ [name])
  file : ∃ content, after.find? (before.place cache ++ [name]) = some (.file content)
  started : ∃ l ∈ ls, PullsChart cache name l.command
  exited : ∀ l ∈ ls, PullsChart cache name l.command → (l.outcome host).exit = some 0

/-- The last process was the only one started for the chart file; it did not exit with zero, and may
have left something there. -/
structure Broken (host : Host) (cache : Path) (name : String) (before after : FileTree)
    (ls : List Launch) : Prop where
  directory : after.directory = before.directory
  last : ∃ earlier l, ls = earlier ++ [l] ∧ PullsChart cache name l.command ∧
    (l.outcome host).exit ≠ some 0 ∧
    l.session.files.find? (before.place cache ++ [name]) =
      before.find? (before.place cache ++ [name]) ∧
    ∀ l' ∈ earlier, ¬ PullsChart cache name l'.command
  entry : after.find? (before.place cache ++ [name]) =
      before.find? (before.place cache ++ [name]) ∨
    before.find? (before.place cache ++ [name]) = none ∧
      ∃ content, after.find? (before.place cache ++ [name]) = some (.file content)

theorem Untried.bundle {set : Settings} {made : ByteArray → Prop}
    (h : Untried set.cacheDirectory ref.archiveName t₀ t₁ ls)
    (hsaved : k.Saved set t₁ t₂ made) (htools : ∀ l ∈ more, l.command.tool = k.tool) :
    Untried set.cacheDirectory ref.archiveName t₀ t₂ (ls ++ more) := by
  have hother := hsaved.others ref.archiveName (archiveName_ne_of_chart ref k).1.symm
    (archiveName_ne_of_chart ref k).2.symm
  rw [place_congr h.directory] at hother
  refine ⟨hsaved.directory.trans h.directory, hother.trans h.entry, ?_⟩
  refine List.forall_mem_append.mpr ⟨h.unstarted, ?_⟩
  intro l hl
  exact not_pullsChart_of_tool (htools l hl)

section Steps

variable {name' : String} (hname' : Path.IsName name')
  (hwritten : WrittenAt (cache.child name') t₁ t₂)

include hname' hwritten

/-- Writing another chart file does not touch this one. -/
theorem find?_of_other (hdirectory : t₁.directory = t₀.directory) (hne : name' ≠ name) :
    t₂.find? (t₀.place cache ++ [name]) = t₁.find? (t₀.place cache ++ [name]) := by
  apply hwritten.find?_of_ne
  rw [place_child hname', place_congr hdirectory]
  simpa using Ne.symm hne

theorem Untried.other (h : Untried cache name t₀ t₁ ls) (hne : name' ≠ name)
    (hl : ¬ PullsChart cache name l.command) : Untried cache name t₀ t₂ (ls ++ [l]) := by
  refine ⟨hwritten.directory.trans h.directory, ?_, ?_⟩
  · rw [find?_of_other hname' hwritten h.directory hne, h.entry]
  · exact List.forall_mem_append.mpr ⟨h.unstarted, List.forall_mem_singleton.mpr hl⟩

theorem Pulled.other (h : Pulled host cache name t₀ t₁ ls) (hne : name' ≠ name)
    (hmissing : t₁.exists? (cache.child name') = false)
    (hl : ¬ PullsChart cache name l.command) : Pulled host cache name t₀ t₂ (ls ++ [l]) := by
  obtain ⟨l', hl', hpulls⟩ := h.started
  refine ⟨hwritten.directory.trans h.directory, h.vacant,
    hwritten.locate_of_missing hmissing h.located, ?_, ⟨l', by simp [hl'], hpulls⟩, ?_⟩
  · rw [find?_of_other hname' hwritten h.directory hne]
    exact h.file
  · refine List.forall_mem_append.mpr ⟨h.exited, List.forall_mem_singleton.mpr ?_⟩
    intro hpulls'
    exact absurd hpulls' hl

/-- A process that exits with zero writes the chart file, which was not there before. -/
theorem Untried.pulled (h : Untried cache name' t₀ t₁ ls)
    (hmissing : t₁.exists? (cache.child name') = false) (hl : PullsChart cache name' l.command)
    (hexit : (l.outcome host).exit = some 0)
    (hfile : ∃ at_ content, t₁.locate (cache.child name') = .ok at_ ∧
      t₂.find? at_ = some (.file content)) : Pulled host cache name' t₀ t₂ (ls ++ [l]) := by
  obtain ⟨at_, content, hlocate, hfound⟩ := hfile
  have hat : at_ = t₀.place cache ++ [name'] := by
    rw [← place_of_locate hlocate, place_child hname', place_congr h.directory]
  rw [hat] at hlocate hfound
  refine ⟨hwritten.directory.trans h.directory, ?_, hwritten.locate_of_missing hmissing hlocate,
    ⟨content, hfound⟩, ⟨l, by simp, hl⟩, ?_⟩
  · rw [← h.entry]
    refine find?_eq_none_of_not_exists ?_ hlocate
    rw [hmissing]
    simp
  · refine List.forall_mem_append.mpr ⟨fun l' hl' hpulls ↦ ?_, List.forall_mem_singleton.mpr ?_⟩
    · exact absurd hpulls (h.unstarted l' hl')
    · exact fun _ ↦ hexit

omit hname' in
/-- Any other process may leave something in the chart file. -/
theorem Untried.broken (h : Untried cache name' t₀ t₁ ls)
    (hmissing : t₁.exists? (cache.child name') = false) (hl : PullsChart cache name' l.command)
    (hexit : (l.outcome host).exit ≠ some 0) (hbefore : l.session.files = t₁) :
    Broken host cache name' t₀ t₂ (ls ++ [l]) := by
  refine ⟨hwritten.directory.trans h.directory, ⟨ls, l, rfl, hl, hexit, ?_, h.unstarted⟩, ?_⟩
  · rw [hbefore, h.entry]
  · rcases hwritten.entry (t₀.place cache ++ [name']) with hsame | ⟨hlocate, hfile⟩
    · exact .inl (hsame.trans h.entry)
    · refine .inr ⟨?_, hfile⟩
      rw [← h.entry]
      refine find?_eq_none_of_not_exists ?_ hlocate
      rw [hmissing]
      simp

end Steps

theorem Pulled.exists? (h : Pulled host cache name t₀ t₁ ls) :
    t₁.exists? (cache.child name) = true := by
  obtain ⟨content, hfile⟩ := h.file
  exact exists?_iff.mpr ⟨_, _, h.located, hfile⟩

/-- While no process has failed, the chart file is untried or pulled. -/
def Underway (host : Host) (cache : Path) (name : String) (before after : FileTree)
    (ls : List Launch) : Prop :=
  Untried cache name before after ls ∨ Pulled host cache name before after ls

theorem Underway.directory (h : Underway host cache name t₀ t₁ ls) :
    t₁.directory = t₀.directory := by
  rcases h with huntried | hpulled
  · exact huntried.directory
  · exact hpulled.directory

/-- Writing another chart file leaves this one underway. -/
theorem Underway.other {name' : String} (hname' : Path.IsName name')
    (hwritten : WrittenAt (cache.child name') t₁ t₂) (h : Underway host cache name t₀ t₁ ls)
    (hne : name' ≠ name) (hmissing : t₁.exists? (cache.child name') = false)
    (hl : ¬ PullsChart cache name l.command) : Underway host cache name t₀ t₂ (ls ++ [l]) := by
  rcases h with huntried | hpulled
  · exact .inl (huntried.other hname' hwritten hne hl)
  · exact .inr (hpulled.other hname' hwritten hne hmissing hl)

/-- While the chart file is missing it is untried. -/
theorem Underway.untried (h : Underway host cache name t₀ t₁ ls)
    (hmissing : t₁.exists? (cache.child name) = false) : Untried cache name t₀ t₁ ls := by
  rcases h with huntried | hpulled
  · exact huntried
  · rw [hpulled.exists?] at hmissing
    simp at hmissing

/-- The work on one chart leaves every chart file underway, or it fails and leaves its own broken. -/
theorem ensures_chart_underway (hc : c.Confined c.settings.cacheDirectory) (hw : c.WritesCharts)
    (href : c.Lists ref) (htraced : s.Traced c.host ls)
    (h : Underway c.host c.settings.cacheDirectory name t₀ s.files ls) :
    Action.Ensures c.host s (chart c.settings ref) fun r s' ↦ ∃ ls', s'.Traced c.host ls' ∧
      (∀ x, s.files.find? x ≠ none → s'.files.find? x ≠ none) ∧
      (Underway c.host c.settings.cacheDirectory name t₀ s'.files ls' ∧
          (r = .ok () → ref.archiveName = name →
            s'.files.find? (t₀.place c.settings.cacheDirectory ++ [name]) ≠ none) ∨
        r ≠ .ok () ∧ Broken c.host c.settings.cacheDirectory name t₀ s'.files ls') := by
  obtain ⟨value, -, hvalue⟩ := id href
  have hname : Path.IsName ref.archiveName := Reference.isName_archiveName hvalue
  refine (ensures_chart hc href htraced).mono ?_
  rintro r s' (⟨-, hthere, hfiles, htraced'⟩ | ⟨hmissing, l, htraced', hcommand, hbefore, hafter,
    hwritten, hsucceeds⟩)
  · refine ⟨ls, htraced', by simp [hfiles], .inl ⟨hfiles ▸ h, ?_⟩⟩
    rintro - rfl
    obtain ⟨entry, hentry⟩ := find?_place_of_exists hthere
    rw [hfiles, ← place_congr h.directory, ← place_child hname]
    change s.files.find? (s.files.place (c.settings.chartFile ref)) ≠ none
    simp [hentry]
  · refine ⟨ls ++ [l], htraced', fun x hx ↦ hwritten.ne_none hx, ?_⟩
    have hpulls : PullsChart c.settings.cacheDirectory name l.command ↔ ref.archiveName = name := by
      rw [hcommand]
      exact pullsChart_chartPull_iff hvalue
    by_cases heq : ref.archiveName = name
    · subst heq
      have huntried := h.untried hmissing
      by_cases hexit : (l.outcome c.host).exit = some 0
      · have hfile := hw ref l.session href (by rw [← hcommand]; exact hexit)
        rw [← hcommand, hbefore] at hfile
        change ∃ at_ content, _ ∧ (l.outcome c.host).files.find? at_ = _ at hfile
        rw [hafter] at hfile
        have hpulled := huntried.pulled hname hwritten hmissing (hpulls.mpr rfl) hexit hfile
        refine .inl ⟨.inr hpulled, fun _ _ ↦ ?_⟩
        obtain ⟨content, hcontent⟩ := hpulled.file
        simp [hcontent]
      · refine .inr ⟨fun hr ↦ hexit (hsucceeds hr).2, ?_⟩
        exact huntried.broken hwritten hmissing (hpulls.mpr rfl) hexit hbefore
    · have hl : ¬ PullsChart c.settings.cacheDirectory name l.command := fun hl ↦ heq (hpulls.mp hl)
      exact .inl ⟨h.other hname hwritten heq hmissing hl, fun _ heq' ↦ absurd heq' heq⟩

/-- What a call comes to for a chart file: it is underway, and there if the call ended normally and
lists its chart; or it is broken, and the call failed. -/
def Tried (c : Call) (name : String) (before : FileTree) (r : Except Failure Unit)
    (after : FileTree) (ls : List Launch) : Prop :=
  Underway c.host c.settings.cacheDirectory name before after ls ∧
      (r = .ok () → (∃ ref, c.Lists ref ∧ ref.archiveName = name) →
        after.find? (before.place c.settings.cacheDirectory ++ [name]) ≠ none) ∨
    r ≠ .ok () ∧ Broken c.host c.settings.cacheDirectory name before after ls

theorem ensures_charts_tried (hc : c.Confined c.settings.cacheDirectory) (hw : c.WritesCharts)
    (h : s.Meets c.host (Untried c.settings.cacheDirectory name t₀)) :
    Action.Ensures c.host s (charts c.manifest c.settings) fun r s' ↦
      s'.Meets c.host (Tried c name t₀ r) := by
  -- After an initial part of the charts the file is underway, and there if it was among them.
  let inv : List Reference → Session → Prop := fun before s' ↦
    s'.Meets c.host fun u ls ↦ Underway c.host c.settings.cacheDirectory name t₀ u ls ∧
      ∀ ref ∈ before, ref.archiveName = name →
        u.find? (t₀.place c.settings.cacheDirectory ++ [name]) ≠ none
  let kept : Session → Prop := fun s' ↦
    s'.Meets c.host fun u ls ↦ Underway c.host c.settings.cacheDirectory name t₀ u ls ∨
      Broken c.host c.settings.cacheDirectory name t₀ u ls
  have hstart : inv [] s := by
    obtain ⟨ls, htraced, huntried⟩ := h
    exact ⟨ls, htraced, .inl huntried, by simp⟩
  have hkept (before : List Reference) (s' : Session) (hinv : inv before s') : kept s' := by
    obtain ⟨ls, htraced, hunderway, -⟩ := hinv
    exact ⟨ls, htraced, .inl hunderway⟩
  refine (ensures_charts inv hstart hkept ?_).mono ?_
  · rintro refs before ref after s₁ hrefs hsplit ⟨ls, htraced, hunderway, hthere⟩
    have href : c.Lists ref := (Manifest.mem_chartReferences_iff hrefs).mp (by simp [hsplit])
    refine (ensures_chart_underway hc hw href htraced hunderway).mono ?_
    rintro r s₂ ⟨ls', htraced', hstays, ⟨hunderway', hpresent⟩ | ⟨hr, hbroken⟩⟩
    · refine ⟨fun hr ↦ ⟨ls', htraced', hunderway', ?_⟩, ls', htraced', .inl hunderway'⟩
      intro ref' href' hname
      rcases List.mem_append.mp href' with hbefore | hlast
      · exact hstays _ (hthere ref' hbefore hname)
      · rw [List.mem_singleton.mp hlast] at hname
        exact hpresent hr hname
    · exact ⟨fun hr' ↦ absurd hr' hr, ls', htraced', .inr hbroken⟩
  · rintro r s₁ ⟨⟨ls, htraced, hstate⟩, hfinished⟩
    cases r with
    | error e =>
      refine ⟨ls, htraced, ?_⟩
      rcases hstate with hunderway | hbroken
      · exact .inl ⟨hunderway, by simp⟩
      · exact .inr ⟨by simp, hbroken⟩
    | ok value =>
      obtain ⟨refs, hrefs, ls', htraced', hunderway, hthere⟩ := hfinished rfl
      refine ⟨ls', htraced', .inl ⟨hunderway, ?_⟩⟩
      rintro - ⟨ref, href, hname⟩
      exact hthere ref ((Manifest.mem_chartReferences_iff hrefs).mpr href) hname

end Pull

end OfflineSupply
