import OfflineSupply.Proofs.Pull.DryRun
import OfflineSupply.Proofs.Pull.Errand

/-!
# A pull validates first and then fails fast

Whether a pull is refused for a malformed reference depends on nothing but its manifest, and then it
has done nothing at all.  Otherwise the errands of a live pull are done in turn: images, policies,
charts, and within each category in the order of the manifest.  The first process that does not
succeed is the last one, wherever it stands.
-/

namespace OfflineSupply

open FileTree

variable {host : Host} {m : Manifest} {set : Settings} {s : Session} {t u : FileTree}
  {ls : List Launch} {r : Except Failure Unit} {refs : List Reference}

/-- Some chart or policy of the manifest is no reference. -/
def Manifest.IsMalformed (m : Manifest) : Prop :=
  (∃ value ∈ m.charts, ∃ e, Reference.ofChart value = .error e) ∨
    ∃ value ∈ m.policies, ∃ e, Reference.ofPolicy value = .error e

namespace Pull

/-! ## Validation -/

/-- Validation refuses malformed manifests and no others. -/
theorem validate_eq_ok_iff : validate m = .ok () ↔ ¬ m.IsMalformed := by
  unfold validate Manifest.IsMalformed Manifest.chartReferences
  rw [← mapM_isError_iff, ← mapM_isError_iff]
  cases m.charts.mapM Reference.ofChart with
  | error e => simp [bind, Except.bind]
  | ok refs =>
    cases m.policies.mapM Reference.ofPolicy with
    | error e => simp [bind, Except.bind]
    | ok policies => simp [bind, Except.bind, pure, Except.pure]

theorem isReference_of_validate {e : Failure} (h : validate m = .error e) : e.IsReference := by
  unfold validate Manifest.chartReferences at h
  cases hcharts : m.charts.mapM Reference.ofChart with
  | error cause =>
    simp only [hcharts, bind, Except.bind, Except.error.injEq] at h
    exact ⟨cause, h.symm⟩
  | ok refs =>
    cases hpolicies : m.policies.mapM Reference.ofPolicy with
    | error cause =>
      simp only [hcharts, hpolicies, bind, Except.bind, Except.error.injEq] at h
      exact ⟨cause, h.symm⟩
    | ok policies => simp [hcharts, hpolicies, bind, Except.bind, pure, Except.pure] at h

/-! ## Errands in turn -/

namespace InTurn

variable {es : List Errand}

/-- The commands follow the errands that were needed. -/
theorem ordered (h : InTurn host es t ls r u) :
    ∃ needed : List Errand, needed.Sublist es ∧ ls.map Launch.command <+: needed.flatMap Errand.commands ∧
      (r = .ok () → ls.map Launch.command = needed.flatMap Errand.commands) := by
  induction h with
  | done t => exact ⟨[], .refl [], by simp, by simp⟩
  | needless _ _ ih =>
    obtain ⟨needed, hsublist, hcommands⟩ := ih
    exact ⟨needed, hsublist.cons _, hcommands⟩
  | @finished e es t written after u ls more r _ hissued _ _ ih =>
    obtain ⟨needed, hsublist, hprefix, hall⟩ := ih
    refine ⟨e :: needed, hsublist.cons_cons e, ?_, ?_⟩
    · rw [List.map_append, hissued.commands, List.flatMap_cons]
      exact (List.prefix_append_right_inj _).mpr hprefix
    · intro hok
      rw [List.map_append, hissued.commands, List.flatMap_cons, hall hok]
  | @stopped e es t front back ls last cause _ hcommands hissued =>
    refine ⟨[e], List.singleton_sublist.mpr (by simp), ?_, by simp⟩
    rw [List.map_append, hissued.commands, List.flatMap_singleton, hcommands]
    exact ⟨back, by simp⟩

/-- All processes succeed but the last one, at which the errands were given up if they were. -/
theorem ended (h : InTurn host es t ls r u) :
    (r = .ok () ∧ ∀ l ∈ ls, l.Succeeds host) ∨
      ∃ done last cause, ls = done ++ [last] ∧ r = .error cause ∧
        (∀ l ∈ done, l.Succeeds host) ∧ ∃ e ∈ es, last.command ∈ e.commands ∧
          (u = (last.outcome host).files ∨
            ∃ p, e.unfinished = some p ∧ u = (last.outcome host).files.without p) := by
  induction h with
  | done t => exact .inl ⟨rfl, by simp⟩
  | needless _ _ ih =>
    rcases ih with hok | ⟨done, last, cause, hls, hr, hdone, e, he, hleft⟩
    · exact .inl hok
    · exact .inr ⟨done, last, cause, hls, hr, hdone, e, List.mem_cons_of_mem _ he, hleft⟩
  | @finished _ _ _ _ _ _ ls _ _ _ hissued _ _ ih =>
    rcases ih with ⟨hr, hmore⟩ | ⟨done, last, cause, rfl, hr, hdone, e, he, hleft⟩
    · exact .inl ⟨hr, List.forall_mem_append.mpr ⟨hissued.succeeds, hmore⟩⟩
    · refine .inr ⟨ls ++ done, last, cause, (List.append_assoc ..).symm, hr, ?_, e,
        List.mem_cons_of_mem _ he, hleft⟩
      exact List.forall_mem_append.mpr ⟨hissued.succeeds, hdone⟩
  | @stopped e es _ front back ls last cause _ hcommands hissued =>
    refine .inr ⟨ls, last, cause, rfl, rfl, hissued.succeeds, e, List.mem_cons_self, ?_, ?_⟩
    · simp [hcommands]
    · unfold Errand.givenUp
      split
      · rename_i p hp
        exact .inr ⟨p, hp, rfl⟩
      · exact .inl rfl

end InTurn

/-- Errands that were gone through in their order, up to the first process that did not succeed. -/
structure FailsFast (host : Host) (es : List Errand) (before : Session)
    (r : Except Failure Unit) (after : Session) (ls : List Launch) : Prop where
  attended : Attended host es before r after ls
  inOrder : ∃ needed : List Errand, needed.Sublist es ∧
    ls.map Launch.command <+: needed.flatMap Errand.commands ∧
    (r = .ok () → ls.map Launch.command = needed.flatMap Errand.commands)
  halts : ∀ front l back, ls = front ++ l :: back → ¬ l.Succeeds host →
    back = [] ∧ (∃ e, r = .error e) ∧ after.told = l.session.told ∧
      ∃ e ∈ es, l.command ∈ e.commands ∧ (after.files = (l.outcome host).files ∨
        ∃ p, e.unfinished = some p ∧ after.files = (l.outcome host).files.without p)

theorem Attended.failsFast {es : List Errand} {s' : Session}
    (h : Attended host es s r s' ls) : FailsFast host es s r s' ls := by
  refine ⟨h, h.inTurn.ordered, ?_⟩
  intro front l back hls hfails
  have hmem : l ∈ ls := by simp [hls]
  cases h.inTurn.ended with
  | inl hok => exact absurd (hok.2 l hmem) hfails
  | inr hstopped =>
    obtain ⟨done, last, cause, hsplit, hr, hdone, e, he, hcommand, hleft⟩ := hstopped
    rw [hls] at hsplit
    cases List.eq_nil_or_concat back with
    | inr hmore =>
      obtain ⟨back', last', rfl⟩ := hmore
      rw [List.concat_eq_append, ← List.cons_append, ← List.append_assoc] at hsplit
      have hin : l ∈ done := by
        rw [← (List.append_inj' hsplit rfl).1]
        simp
      exact absurd (hdone l hin) hfails
    | inl hnil =>
      subst hnil
      obtain ⟨rfl, hlast⟩ := List.append_inj' hsplit rfl
      obtain rfl := List.singleton_inj.mp hlast
      obtain ⟨-, done', last', hsplit', htold⟩ := h.failed cause hr
      rw [hls] at hsplit'
      obtain ⟨-, hlast'⟩ := List.append_inj' hsplit' rfl
      rw [← List.singleton_inj.mp hlast'] at htold
      exact ⟨rfl, ⟨cause, hr⟩, htold, e, he, hcommand, hleft⟩

/-- A live pull of a well-formed manifest makes the cache directory and then does its errands. -/
theorem ensures_all_errands (hlive : set.dryRun = false) (hvalid : validate m = .ok ())
    (hrefs : m.chartReferences = .ok refs) :
    Action.Ensures host s (all m set) fun r s' ↦
      let made := s.files.makeDirectories set.cacheDirectory
      (∃ e, made.2 = some e ∧ r = .error (.ofFile e) ∧ s' = { s with files := made.1 }) ∨
        made.2 = none ∧ ∃ ls, Attended host (errands m set refs) { s with files := made.1 } r s' ls := by
  have himages : Attends host (if m.images.isEmpty then [] else [Category.images.errand m set])
      (category "images" m.images (images m set)) :=
    attends_category (Category.images.attends_bundle hlive)
  have hpolicies : Attends host
      (if m.policies.isEmpty then [] else [Category.policies.errand m set])
      (category "policies" m.policies (policies m set)) :=
    attends_category (Category.policies.attends_bundle hlive)
  have hcharts : Attends host (refs.map (chartErrand set))
      (category "charts" m.charts (charts m set)) := attends_chartCategory hlive hrefs
  have herrands := himages.bind fun _ ↦ hpolicies.bind fun _ ↦ hcharts
  rw [← List.append_assoc] at herrands
  unfold all
  rw [hvalid, hlive, if_neg (by simp)]
  change Action.Ensures host s (Action.makeDirectories set.cacheDirectory >>= _) _
  rw [Action.ensures_bind, Action.ensures_makeDirectories]
  cases hmade : (s.files.makeDirectories set.cacheDirectory).2 with
  | some e => exact .inl ⟨e, hmade, rfl, rfl⟩
  | none =>
    apply (herrands _).mono
    intro r s' hattended
    exact .inr ⟨hmade, hattended⟩

/-- A malformed manifest is refused before anything else is done. -/
theorem run_all_of_malformed (hmalformed : m.IsMalformed) :
    ∃ cause, (all m set).run host s = (.error (.reference cause), s) := by
  cases hvalid : validate m with
  | error e =>
    obtain ⟨cause, rfl⟩ := isReference_of_validate hvalid
    refine ⟨cause, ?_⟩
    unfold all
    rw [hvalid]
    rfl
  | ok value => exact absurd hmalformed (validate_eq_ok_iff.mp hvalid)

/-- The pull of a well-formed manifest never ends for want of a reference. -/
theorem not_isReference_of_run (hwell : ¬ m.IsMalformed) {e : Failure}
    (h : ((all m set).run host s).1 = .error e) : ¬ e.IsReference := by
  have hvalid : validate m = .ok () := validate_eq_ok_iff.mpr hwell
  obtain ⟨refs, hrefs⟩ := chartReferences_of_validate hvalid
  cases hdry : set.dryRun with
  | true =>
    have hshows : Action.Shows host s.files (all m set) _ := shows_all hdry hvalid hrefs
    obtain ⟨value, s', hreturns, -⟩ := hshows s rfl
    rw [hreturns] at h
    simp at h
  | false =>
    have hlive : Action.Ensures host s (all m set) _ := ensures_all_errands hdry hvalid hrefs
    unfold Action.Ensures at hlive
    rcases hlive with ⟨e', -, he', -⟩ | ⟨-, ls, hattended⟩
    · rw [h] at he'
      rw [Except.error.inj he']
      exact Failure.not_isReference_ofFile e'
    · exact (hattended.failed _ h).1

/-- Pulling ends for want of a reference exactly if a chart or a policy of the manifest is malformed,
and then nothing whatever has been done.  Otherwise a live pull stops at the making of the cache
directory, before any process, or goes through its errands in order and fails fast. -/
theorem all_fails_fast (host : Host) (m : Manifest) (set : Settings) (s : Session) :
    ((∃ cause, ((all m set).run host s).1 = .error (.reference cause)) ↔ m.IsMalformed) ∧
    (m.IsMalformed → ((all m set).run host s).2 = s) ∧
    (¬ m.IsMalformed → set.dryRun = false → ∃ refs,
      List.Forall₂ (fun value ref ↦ Reference.ofChart value = .ok ref) m.charts refs ∧
      Action.Ensures host s (all m set) fun r s' ↦
        let made := s.files.makeDirectories set.cacheDirectory
        (∃ e, made.2 = some e ∧ r = .error (.ofFile e) ∧ s' = { s with files := made.1 }) ∨
          made.2 = none ∧
            ∃ ls, FailsFast host (errands m set refs) { s with files := made.1 } r s' ls) := by
  refine ⟨⟨?_, ?_⟩, ?_, ?_⟩
  · intro ⟨cause, hcause⟩
    by_contra hwell
    exact not_isReference_of_run hwell hcause ⟨cause, rfl⟩
  · intro hmalformed
    obtain ⟨cause, hrun⟩ := run_all_of_malformed hmalformed
    exact ⟨cause, congrArg Prod.fst hrun⟩
  · intro hmalformed
    obtain ⟨cause, hrun⟩ := run_all_of_malformed hmalformed
    exact congrArg Prod.snd hrun
  · intro hwell hlive
    have hvalid : validate m = .ok () := validate_eq_ok_iff.mpr hwell
    obtain ⟨refs, hrefs⟩ := chartReferences_of_validate hvalid
    refine ⟨refs, Manifest.chartReferences_eq_ok_iff.mp hrefs, ?_⟩
    apply (ensures_all_errands hlive hvalid hrefs).mono
    intro r s' hended
    cases hended with
    | inl hstopped => exact .inl hstopped
    | inr hdone =>
      obtain ⟨hmade, ls, hattended⟩ := hdone
      exact .inr ⟨hmade, ls, hattended.failsFast⟩

/-- Where every process fails, a policy without a tag keeps even the first image from being pulled, and
with a tag that image is the only one that is tried. -/
theorem untagged_policy_refused :
    let m (policy : String) : Manifest :=
      { images := ["pause:3.9", "coredns:1.11"], policies := [policy] }
    let ended (policy : String) :=
      (all (m policy) {}).run Command.garblingHost { files := .empty [] }
    (∃ cause, (ended "registry://ghcr.io/safe").1 = .error (.reference cause)) ∧
      (ended "registry://ghcr.io/safe").2 = { files := .empty [] } ∧
      ¬ (m "registry://ghcr.io/safe:v1").IsMalformed ∧
      (ended "registry://ghcr.io/safe:v1").2.executions.map Execution.command =
        [Category.images.pull "pause:3.9"] := by
  intro m ended
  have hrefused : (m "registry://ghcr.io/safe").IsMalformed :=
    .inr ⟨"registry://ghcr.io/safe", by simp [m], _, rfl⟩
  have hfast := all_fails_fast Command.garblingHost (m "registry://ghcr.io/safe") {}
    { files := .empty [] }
  exact ⟨hfast.1.mpr hrefused, hfast.2.1 hrefused, validate_eq_ok_iff.mp rfl, rfl⟩

end Pull

end OfflineSupply
