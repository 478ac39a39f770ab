import OfflineSupply.Proofs.Pull.Errand

/-!
# What errands do to the cache directory

An errand whose processes write only their own file changes little: a chart file appears where
nothing was, an unfinished file comes and goes, and by the renaming an archive appears where nothing
was.  If a directory stood under the name of the unfinished file, the renaming takes along what is in
it.
-/

namespace OfflineSupply.Pull

open FileTree

variable {host : Host} {c : Call} {k : Category} {p : Path} {t u v before : FileTree}
  {cs : List Command} {es : List Errand} {ls : List Launch} {r : Except Failure Unit}
  {ref : Reference} {cache y : Location}

/-! ## Errands and files -/

namespace Errand

/-- The file that the processes of an errand write. -/
def target (e : Errand) : Path :=
  e.unfinished.getD e.file

/-- No process of the errand writes anything but that file. -/
def WritesOnly (host : Host) (e : Errand) : Prop :=
  ∀ command ∈ e.commands, ∀ session : Session,
    WrittenAt e.target session.files (host.launch session command).files

/-- What an errand that is needed does to the files: they are left as they were written, or the file
was renamed after that, or removed. -/
inductive Leaves (e : Errand) (before : FileTree) : FileTree → Prop
  | written {written : FileTree} (h : WrittenAt e.target before written) : e.Leaves before written
  | closed {written after : FileTree} (h : WrittenAt e.target before written)
      (hcloses : e.Closes written after) : e.Leaves before after
  | removed {written : FileTree} {p : Path} (h : WrittenAt e.target before written)
      (hunfinished : e.unfinished = some p) : e.Leaves before (written.without p)

end Errand

theorem writtenAt_of_issued (h : Issued host cs t ls u)
    (hwrites : ∀ command ∈ cs, ∀ session : Session,
      WrittenAt p session.files (host.launch session command).files) : WrittenAt p t u := by
  induction h with
  | none t => exact .refl p t
  | @next l _ _ _ _ _ ih =>
    obtain ⟨hfirst, hrest⟩ := List.forall_mem_cons.mp hwrites
    exact (hfirst l.session).trans (ih hrest)

/-- What each errand that is needed keeps is kept by errands that are done in turn. -/
theorem InTurn.keeps {inv : FileTree → Prop} (h : InTurn host es t ls r u)
    (hwrites : ∀ e ∈ es, e.WritesOnly host)
    (hkeeps : ∀ e ∈ es, ∀ before after, inv before → before.exists? e.file = false →
      e.Leaves before after → inv after) (hstart : inv t) : inv u := by
  induction h with
  | done t => exact hstart
  | needless _ _ ih =>
    exact ih (List.forall_mem_cons.mp hwrites).2 (List.forall_mem_cons.mp hkeeps).2 hstart
  | @finished e es t written after u ls more r hmissing hissued hcloses _ ih =>
    obtain ⟨hwritesFirst, hwritesRest⟩ := List.forall_mem_cons.mp hwrites
    obtain ⟨hkeepsFirst, hkeepsRest⟩ := List.forall_mem_cons.mp hkeeps
    have hwritten := writtenAt_of_issued hissued hwritesFirst
    exact ih hwritesRest hkeepsRest
      (hkeepsFirst t after hstart hmissing (.closed hwritten hcloses))
  | @stopped e es t front back ls last cause hmissing hcommands hissued =>
    have hwritesFirst := (List.forall_mem_cons.mp hwrites).1
    have hwritten : WrittenAt e.target t (last.outcome host).files := by
      have hfront := writtenAt_of_issued hissued fun command hcommand ↦
        hwritesFirst command (by simp [hcommands, hcommand])
      exact hfront.trans (hwritesFirst last.command (by simp [hcommands]) last.session)
    apply (List.forall_mem_cons.mp hkeeps).1 t _ hstart hmissing
    unfold Errand.givenUp
    split
    · rename_i p hunfinished
      exact .removed hwritten hunfinished
    · exact .written hwritten

/-! ## What is relied on -/

/-- A live call whose processes write nothing but the unfinished files of archives and the chart
files, each its own. -/
structure Call.Tidy (c : Call) : Prop extends c.ConfinedCharts where
  pull : ∀ (k : Category) (session : Session), ∀ entry ∈ k.entries c.manifest,
    session.files.Agrees (c.host.launch session (k.pull entry)).files
  save : ∀ (k : Category) (session : Session),
    WrittenAt (k.unfinished c.settings) session.files
      (c.host.launch session (k.save (k.entries c.manifest) (k.unfinished c.settings))).files

theorem Call.Tidy.writesOnly_errand (hc : c.Tidy) (k : Category) :
    (k.errand c.manifest c.settings).WritesOnly c.host := by
  intro command hcommand session
  cases List.mem_append.mp hcommand with
  | inl hpull =>
    obtain ⟨entry, hentry, rfl⟩ := List.mem_map.mp hpull
    exact .of_agrees _ (hc.pull k session entry hentry)
  | inr hsave =>
    rw [List.mem_singleton.mp hsave]
    exact hc.save k session

theorem target_chartErrand (set : Settings) (ref : Reference) :
    (chartErrand set ref).target = set.chartFile ref := by
  simp only [Errand.target, chartErrand, Option.getD_none]

theorem Call.Tidy.writesOnly_chart (hc : c.Tidy) (href : c.Lists ref) :
    (chartErrand c.settings ref).WritesOnly c.host := by
  intro command hcommand session
  rw [List.mem_singleton.mp hcommand, target_chartErrand]
  exact hc.chart ref session href

/-! ## The cache directory within a call -/

/-- The archive of a category and its unfinished file, each with what is below it, since the cache
directory was made.  Either nothing but the unfinished file itself has changed, or what was there has
taken the vacant place of the archive. -/
inductive Stays (k : Category) (cache : Location) (before after : FileTree) : Prop
  | kept
      (harchive : ∀ x, after.find? (cache ++ [k.archiveName] ++ x) =
        before.find? (cache ++ [k.archiveName] ++ x))
      (hbelow : ∀ x, x ≠ [] → after.find? (cache ++ [k.unfinishedName] ++ x) =
        before.find? (cache ++ [k.unfinishedName] ++ x))
  | taken (hvacant : before.find? (cache ++ [k.archiveName]) = none)
      (hthere : after.find? (cache ++ [k.archiveName]) ≠ none)
      (hmoved : ∀ x, x ≠ [] → after.find? (cache ++ [k.archiveName] ++ x) =
        before.find? (cache ++ [k.unfinishedName] ++ x))
      (hgone : ∀ x, x ≠ [] → after.find? (cache ++ [k.unfinishedName] ++ x) = none)

theorem Stays.of_same (h : Stays k cache before u)
    (harchive : ∀ x, v.find? (cache ++ [k.archiveName] ++ x) =
      u.find? (cache ++ [k.archiveName] ++ x))
    (hbelow : ∀ x, x ≠ [] → v.find? (cache ++ [k.unfinishedName] ++ x) =
      u.find? (cache ++ [k.unfinishedName] ++ x)) : Stays k cache before v := by
  cases h with
  | kept harchive' hbelow' =>
    apply Stays.kept
    · intro x
      rw [harchive, harchive']
    · intro x hx
      rw [hbelow x hx, hbelow' x hx]
  | taken hvacant hthere hmoved hgone =>
    apply Stays.taken hvacant
    · have hsame := harchive []
      rw [List.append_nil] at hsame
      rwa [hsame]
    · intro x hx
      rw [harchive, hmoved x hx]
    · intro x hx
      rw [hbelow x hx, hgone x hx]

/-- The unfinished file takes the vacant place of the archive, with what is below it. -/
theorem Stays.of_moved (h : Stays k cache before u)
    (hvacant : u.find? (cache ++ [k.archiveName]) = none)
    (hunfinished : u.find? (cache ++ [k.unfinishedName]) ≠ none)
    (htaken : ∀ x, v.find? (cache ++ [k.archiveName] ++ x) =
      u.find? (cache ++ [k.unfinishedName] ++ x))
    (hgone : ∀ x, v.find? (cache ++ [k.unfinishedName] ++ x) = none) :
    Stays k cache before v := by
  cases h with
  | taken _ hthere => exact absurd hvacant hthere
  | kept harchive hbelow =>
    apply Stays.taken
    · have hbefore := harchive []
      rw [List.append_nil] at hbefore
      rw [← hbefore, hvacant]
    · have harchived := htaken []
      rw [List.append_nil, List.append_nil] at harchived
      rwa [harchived]
    · intro x hx
      rw [htaken, hbelow x hx]
    · intro x _
      exact hgone x

/-- Changes at the files of one category leave those of another alone. -/
theorem Stays.of_other {k' : Category} (h : Stays k' cache before u) (hk : k' ≠ k)
    (hsame : ∀ y, ¬ cache ++ [k.archiveName] <+: y → ¬ cache ++ [k.unfinishedName] <+: y →
      v.find? y = u.find? y) : Stays k' cache before v := by
  apply h.of_same
  · intro x
    apply hsame
    · rw [sibling_below_iff]
      exact fun heq ↦ hk (Category.archiveName_inj heq).symm
    · rw [sibling_below_iff]
      exact (k'.archiveName_ne_unfinishedName k).symm
  · intro x _
    apply hsame
    · rw [sibling_below_iff]
      exact k.archiveName_ne_unfinishedName k'
    · rw [sibling_below_iff]
      exact fun heq ↦ hk (Category.unfinishedName_inj heq).symm

/-- A location that is the archive of no category nor its unfinished file, and below none of them. -/
def Apart (cache y : Location) : Prop :=
  ∀ k : Category, ¬ cache ++ [k.archiveName] <+: y ∧ ¬ cache ++ [k.unfinishedName] <+: y

theorem apart_or_below (cache y : Location) : Apart cache y ∨
    ∃ (k : Category) (x : Location),
      y = cache ++ [k.archiveName] ++ x ∨ y = cache ++ [k.unfinishedName] ++ x := by
  by_cases hapart : Apart cache y
  · exact .inl hapart
  · right
    unfold Apart at hapart
    rw [not_forall] at hapart
    obtain ⟨k, hk⟩ := hapart
    rw [not_and_or, not_not, not_not] at hk
    rcases hk with ⟨x, hx⟩ | ⟨x, hx⟩
    · exact ⟨k, x, .inl hx.symm⟩
    · exact ⟨k, x, .inr hx.symm⟩

/-- The files of a call since its cache directory was made. -/
structure Held (c : Call) (cache : Location) (before after : FileTree) : Prop where
  place : after.place c.settings.cacheDirectory = cache
  category : ∀ k, Stays k cache before after
  others : ∀ y, Apart cache y → after.find? y = before.find? y ∨
    before.find? y = none ∧ ∃ ref, c.Lists ref ∧ y = cache ++ [ref.archiveName]

namespace Held

theorem refl (hplace : t.place c.settings.cacheDirectory = cache) : Held c cache t t :=
  ⟨hplace, fun _ ↦ .kept (fun _ ↦ rfl) (fun _ _ ↦ rfl), fun _ _ ↦ .inl rfl⟩

/-- Changes at the place of an unfinished file are free. -/
theorem of_changed (h : Held c cache before u)
    (hchanged : ChangedAt (k.unfinished c.settings) u v) : Held c cache before v := by
  have hplace : u.place (k.unfinished c.settings) = cache ++ [k.unfinishedName] := by
    rw [Category.place_unfinished, h.place]
  have hsame (y : Location) (hy : y ≠ cache ++ [k.unfinishedName]) : v.find? y = u.find? y :=
    hchanged.others y (by rwa [hplace])
  refine ⟨(place_congr hchanged.directory _).trans h.place, ?_, ?_⟩
  · intro k'
    apply (h.category k').of_same
    · intro x
      apply hsame
      intro heq
      have hprefix : cache ++ [k'.archiveName] <+: cache ++ [k.unfinishedName] := ⟨x, heq⟩
      exact k'.archiveName_ne_unfinishedName k (sibling_prefix_iff.mp hprefix)
    · intro x hx
      apply hsame
      rw [List.append_assoc, ne_eq, List.append_cancel_left_eq]
      simp [hx]
  · intro y hy
    rw [hsame y]
    · exact h.others y hy
    · intro heq
      exact (hy k).2 (heq ▸ List.prefix_refl _)

/-- Renaming an unfinished file to an archive whose place is vacant takes along what is below. -/
theorem of_renamed (h : Held c cache before u)
    (hvacant : u.find? (cache ++ [k.archiveName]) = none)
    (hrenamed : u.rename (k.unfinished c.settings) (k.archive c.settings) = .ok v) :
    Held c cache before v := by
  obtain ⟨-, -, ⟨entry, hfound⟩, hmove⟩ := Category.rename_unfinished hrenamed
  rw [Category.place_unfinished, h.place] at hfound
  rw [Category.place_unfinished, Category.place_archive, h.place] at hmove
  have hapart (x : Location) :
      ¬ cache ++ [k.archiveName] <+: cache ++ [k.unfinishedName] ++ x := by
    rw [sibling_below_iff]
    exact k.archiveName_ne_unfinishedName k
  have htaken (x : Location) : v.find? (cache ++ [k.archiveName] ++ x) =
      u.find? (cache ++ [k.unfinishedName] ++ x) := by
    rw [hmove]
    exact find?_move_below_target (by simp) (hapart x) (by simp)
  have hgone (x : Location) : v.find? (cache ++ [k.unfinishedName] ++ x) = none := by
    rw [hmove]
    exact find?_move_below_source (by simp) (hapart x)
  have hsame (y : Location) (harchive : ¬ cache ++ [k.archiveName] <+: y)
      (hunfinished : ¬ cache ++ [k.unfinishedName] <+: y) : v.find? y = u.find? y := by
    rw [hmove]
    exact find?_move_apart hunfinished harchive
  have hthere : u.find? (cache ++ [k.unfinishedName]) ≠ none := by
    rw [hfound]
    exact Option.some_ne_none entry
  refine ⟨?_, ?_, ?_⟩
  · rw [hmove]
    exact h.place
  · intro k'
    by_cases hk : k' = k
    · rw [hk]
      exact (h.category k).of_moved hvacant hthere htaken hgone
    · exact (h.category k').of_other hk hsame
  · intro y hy
    rw [hsame y (hy k).1 (hy k).2]
    exact h.others y hy

/-- The errand of a category keeps to its archive and its unfinished file. -/
theorem of_errand (h : Held c cache before u)
    (hmissing : u.exists? (k.archive c.settings) = false)
    (hleaves : (k.errand c.manifest c.settings).Leaves u v) : Held c cache before v := by
  cases hleaves with
  | written hwritten => exact h.of_changed (k := k) hwritten.changedAt
  | removed hwritten hunfinished =>
    rw [← Option.some.inj hunfinished]
    exact (h.of_changed (k := k) hwritten.changedAt).of_changed (k := k) changedAt_without
  | @closed w _ hwritten hcloses =>
    have hw := h.of_changed (k := k) hwritten.changedAt
    apply hw.of_renamed ?_ hcloses
    -- The renaming located the archive, so it was missing because nothing was there.
    obtain ⟨-, hlocate, -, -⟩ := Category.rename_unfinished hcloses
    rw [Category.place_archive, hw.place] at hlocate
    have hvacant := find?_eq_none_of_not_exists (by simp [hmissing])
      (hwritten.locate_of_locate hlocate)
    rw [hwritten.find?_of_ne, hvacant]
    intro heq
    have hplace : u.place (k.errand c.manifest c.settings).target =
        cache ++ [k.unfinishedName] := by
      rw [← h.place]
      exact Category.place_unfinished u
    rw [hplace, List.append_cancel_left_eq, List.singleton_inj] at heq
    exact k.archiveName_ne_unfinishedName k heq

/-- The errand of a chart makes its file, where nothing was. -/
theorem of_chart (h : Held c cache before u) (href : c.Lists ref)
    (hmissing : u.exists? (c.settings.chartFile ref) = false)
    (hwritten : WrittenAt (c.settings.chartFile ref) u v) : Held c cache before v := by
  obtain ⟨value, hvalue, hread⟩ := href
  have hplace : u.place (c.settings.chartFile ref) = cache ++ [ref.archiveName] := by
    rw [← h.place]
    exact place_child (Reference.isName_archiveName hread)
  have hsame (y : Location) (hy : y ≠ cache ++ [ref.archiveName]) : v.find? y = u.find? y :=
    hwritten.find?_of_ne (by rwa [hplace])
  refine ⟨(place_congr hwritten.directory _).trans h.place, ?_, ?_⟩
  · intro k
    apply (h.category k).of_same
    · intro x
      apply hsame
      intro heq
      have hprefix : cache ++ [k.archiveName] <+: cache ++ [ref.archiveName] := ⟨x, heq⟩
      exact (archiveName_ne_of_chart ref k).1 (sibling_prefix_iff.mp hprefix)
    · intro x _
      apply hsame
      intro heq
      have hprefix : cache ++ [k.unfinishedName] <+: cache ++ [ref.archiveName] := ⟨x, heq⟩
      exact (archiveName_ne_of_chart ref k).2 (sibling_prefix_iff.mp hprefix)
  · intro y hy
    cases hwritten.entry y with
    | inl heq =>
      rw [heq]
      exact h.others y hy
    | inr hfile =>
      obtain ⟨hlocate, -⟩ := hfile
      have hvacant : u.find? y = none := find?_eq_none_of_not_exists (by simp [hmissing]) hlocate
      have hat : y = cache ++ [ref.archiveName] := by
        rw [← hplace, place_of_locate hlocate]
      refine .inr ⟨?_, ref, ⟨value, hvalue, hread⟩, hat⟩
      cases h.others y hy with
      | inl hbefore => rw [← hbefore, hvacant]
      | inr hmade => exact hmade.1

end Held

end OfflineSupply.Pull
