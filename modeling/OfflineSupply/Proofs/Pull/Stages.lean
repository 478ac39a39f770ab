import OfflineSupply.Proofs.Pull.Chart

/-!
# A call stage by stage

A call that does not get past its manifest and the making of the cache directory starts no process.
Otherwise what holds once the directory was made, and is kept by the work on each bundled category,
holds when the work on the charts begins.
-/

namespace OfflineSupply.Pull

variable {host : Host} {s : Session} {c : Call} {t : FileTree}
  {inv : FileTree → List Launch → Prop}

/-- The stage of a category leads where its work leads, and an empty category leads nowhere. -/
theorem ensures_category (post : Except Failure Unit → FileTree → List Launch → Prop)
    (name : String) (entries : List String) {body : Action Unit}
    (hbody : ∀ s : Session, s.Meets host inv →
      Action.Ensures host s body fun r s' ↦ s'.Meets host (post r))
    (hempty : entries = [] → s.Meets host (post (.ok ()))) (hstart : s.Meets host inv) :
    Action.Ensures host s (category name entries body) fun r s' ↦ s'.Meets host (post r) := by
  unfold category
  split
  · rename_i hentries
    exact hempty (List.isEmpty_iff.mp hentries)
  · rw [Stage.ensures_within]
    have hbegun : (Stage.begun ("Pull " ++ name) s).Meets host inv := hstart.of_same rfl rfl
    refine (hbody _ hbegun).mono ?_
    intro r s' hmeets
    exact hmeets.of_same rfl rfl

/-- A call starts nothing, or what its bundled categories keep is what the work on its charts starts
from or what is left when one of them fails. -/
theorem ensures_all (post : Except Failure Unit → FileTree → List Launch → Prop)
    (hlive : c.settings.dryRun = false)
    (hstart : inv (t.makeDirectories c.settings.cacheDirectory).1 [])
    (hbundle : ∀ (k : Category) (s : Session), s.Meets c.host inv →
      Action.Ensures c.host s (k.bundle c.manifest c.settings) fun _ s' ↦ s'.Meets c.host inv)
    (hcharts : ∀ s : Session, s.Meets c.host inv →
      Action.Ensures c.host s (charts c.manifest c.settings) fun r s' ↦ s'.Meets c.host (post r))
    (hnone : c.manifest.charts = [] → ∀ u ls, inv u ls → post (.ok ()) u ls)
    (hfailed : ∀ e u ls, inv u ls → post (.error e) u ls) :
    Action.Ensures c.host { files := t } (all c.manifest c.settings) fun r s' ↦
      (r ≠ .ok () ∧ s'.executions = [] ∧
        (s'.files = t ∨ s'.files = (t.makeDirectories c.settings.cacheDirectory).1)) ∨
      ((t.makeDirectories c.settings.cacheDirectory).2 = none ∧ s'.Meets c.host (post r)) := by
  have herror (e : Failure) {s : Session} (hmeets : s.Meets c.host inv) :
      s.Meets c.host (post (.error e)) := by
    obtain ⟨ls, htraced, hinv⟩ := hmeets
    exact ⟨ls, htraced, hfailed e _ _ hinv⟩
  unfold all
  rw [hlive, if_neg (by simp), Action.ensures_bind, Action.ensures_ofExcept]
  cases hvalid : validate c.manifest with
  | error e => exact .inl ⟨by simp, rfl, .inl rfl⟩
  | ok value =>
    rw [Action.ensures_bind, Action.ensures_makeDirectories]
    cases hmade : (t.makeDirectories c.settings.cacheDirectory).2 with
    | some e => exact .inl ⟨by simp, rfl, .inr rfl⟩
    | none =>
      have hmeets : Session.Meets c.host inv
          { files := (t.makeDirectories c.settings.cacheDirectory).1 } :=
        ⟨[], Session.traced_nil rfl, hstart⟩
      have himages := ensures_category (fun _ ↦ inv) "images" c.manifest.images
        (hbundle .images) (fun _ ↦ hmeets) hmeets
      refine himages.bind ?_ fun e s₁ hmeets₁ ↦ .inr ⟨rfl, herror e hmeets₁⟩
      intro _ s₁ hmeets₁
      have hpolicies := ensures_category (fun _ ↦ inv) "policies" c.manifest.policies
        (hbundle .policies) (fun _ ↦ hmeets₁) hmeets₁
      refine hpolicies.bind ?_ fun e s₂ hmeets₂ ↦ .inr ⟨rfl, herror e hmeets₂⟩
      intro _ s₂ hmeets₂
      have hempty : c.manifest.charts = [] → s₂.Meets c.host (post (.ok ())) := by
        intro hnil
        obtain ⟨ls, htraced, hinv⟩ := hmeets₂
        exact ⟨ls, htraced, hnone hnil _ _ hinv⟩
      refine (ensures_category post _ _ hcharts hempty hmeets₂).mono ?_
      intro r s₃ hmeets₃
      exact .inr ⟨rfl, hmeets₃⟩

end OfflineSupply.Pull
