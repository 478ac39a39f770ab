import OfflineSupply.Discovery.Basic
import OfflineSupply.Proofs.Manifest.Reading
import OfflineSupply.Proofs.Session.Returns

/-!
# The charts of a discovered manifest

The charts that a discovery lists are those that the index of the chart repository answered with, in
its order and with its repetitions, and after them the pinned certificate manager if it was asked
for.
-/

namespace OfflineSupply.Discovery

open OfflineSupply.Action

variable {d : Discovery} {host : Host} {s s' : Session} {m : Manifest RawText} {url : Json}
  {charts : List String}

/-- The charts that a discovery adds to those of the repository. -/
def pinnedCharts (d : Discovery) : List String :=
  if d.withCertificateManager then [d.platform.certificateManager.chartReference] else []

/-- The index of the chart repository was asked and answered with these charts. -/
def Indexed (d : Discovery) (host : Host) (charts : List String) : Prop :=
  ∃ before found after own url,
    Returns host before (ChartStore.search d.platform.repositoryName) found after ∧
      ownEntries d.platform.repositoryName found = .ok own ∧
      charts = own.map (chartReference url)

theorem indexed_of_platformCharts (h : Returns host s (d.platformCharts url) charts s') :
    d.Indexed host charts := by
  unfold platformCharts at h
  rw [returns_bind] at h
  obtain ⟨found, s₁, hfound, h⟩ := h
  rw [returns_bind] at h
  obtain ⟨own, s₂, hown, h⟩ := h
  rw [returns_ofExcept] at hown
  split at h
  · simp at h
  · rw [returns_bind] at h
    obtain ⟨address, s₃, -, h⟩ := h
    rw [returns_pure] at h
    exact ⟨s, found, s₁, own, address, hfound, hown.1, h.1.symm⟩

theorem indexed_of_listCharts (h : Returns host s (d.listCharts url) charts s') :
    ∃ listed, d.Indexed host listed ∧ charts = listed ++ d.pinnedCharts := by
  unfold listCharts at h
  rw [returns_bind] at h
  obtain ⟨listed, s₁, hlisted, h⟩ := h
  have hindexed := indexed_of_platformCharts hlisted
  split at h
  · rename_i hwith
    rw [returns_pure] at h
    have hpinned : d.pinnedCharts = [d.platform.certificateManager.chartReference] := if_pos hwith
    rw [← hpinned] at h
    exact ⟨listed, hindexed, h.1.symm⟩
  · rename_i hwithout
    rw [returns_pure] at h
    have hpinned : d.pinnedCharts = [] := if_neg hwithout
    have hcharts : charts = listed ++ d.pinnedCharts := by
      rw [hpinned, List.append_nil, h.1]
    exact ⟨listed, hindexed, hcharts⟩

/-- A manifest that was built lists what the index answered with and what was pinned, and lacks no
core chart. -/
theorem indexed_of_build (h : Returns host s d.build m s') :
    (∃ listed, d.Indexed host listed ∧ m.charts = listed ++ d.pinnedCharts) ∧
      m.missingCharts d.platform = .ok [] := by
  unfold build at h
  rw [returns_bind] at h
  obtain ⟨url, s₁, -, h⟩ := h
  split at h
  · simp at h
  · rw [returns_bind] at h
    obtain ⟨⟨tag, assets⟩, s₂, -, h⟩ := h
    simp only [returns_bind] at h
    obtain ⟨images, s₃, -, policies, s₄, -, charts, s₅, hcharts, missing, s₆, hmissing, h⟩ := h
    rw [Stage.returns_within] at hcharts
    obtain ⟨s₇, hcharts, -⟩ := hcharts
    rw [returns_ofExcept] at hmissing
    cases missing with
    | nil =>
      rw [returns_pure] at h
      obtain ⟨rfl, -⟩ := h
      exact ⟨indexed_of_listCharts hcharts, hmissing.1⟩
    | cons chart missing => simp at h

end OfflineSupply.Discovery
