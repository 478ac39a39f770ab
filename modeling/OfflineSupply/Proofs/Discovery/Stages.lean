import OfflineSupply.Proofs.Discovery.Answers
import OfflineSupply.Proofs.Discovery.Charts
import OfflineSupply.Proofs.Install.Plan

/-!
# The stages of a discovery

What each stage of a discovery comes to, by the answers to the questions that it asks, and when the
work breaks off in it.  Names and addresses are taken as the documents that they are until they are
used, and a stage breaks off where one that it uses turns out to be no text.
-/

namespace OfflineSupply

/-- The reply lists these entries, of which there is one at least. -/
def Reply.Lists (reply : Reply) (entries : List String) : Prop :=
  ∃ body, reply.Says body ∧ Listing.entries body = entries ∧ entries ≠ []

/-- The process rendered a chart with these images, of which there is one at least. -/
def Outcome.Renders (o : Outcome) (images : List RawText) : Prop :=
  ∃ content, o.Says content ∧ chartImages content = .ok images ∧ images ≠ []

/-- The process is garbled, or rendered a chart whose reading breaks the work off. -/
def Outcome.IsUnreadable (o : Outcome) : Prop :=
  o.IsGarbled ∨ ∃ content e, o.Says content ∧ chartImages content = .error e ∧ e.isReported = false

namespace Discovery

open OfflineSupply.Action

variable {d : Discovery} {host : Host} {s : Session} {assets : List ReleaseAsset}
  {ending tag : String}

theorem judged_needText (value : Json) :
    Judged (needText value) (value.text? = some ·) (value.text? = none) := by
  unfold needText
  cases value with
  | string text =>
    exact (Judged.ok _).congr (by simp [Json.text?, Json.raw?]) (by simp [Json.text?, Json.raw?])
  | _ =>
    exact (Judged.unreported rfl).congr (by simp [Json.text?, Json.raw?])
      (by simp [Json.text?, Json.raw?])

/-! ## Listings -/

/-- The address of a file is a text without an ending. -/
def Lacks (ending : String) (asset : ReleaseAsset) : Prop :=
  ∃ url, asset.url.text? = some url ∧ ¬ ending.toList <:+ url.toList

/-- The first file of a release whose address has an ending has this address, and the addresses
before it are texts. -/
def FirstEnding (ending : String) (assets : List ReleaseAsset) (url : String) : Prop :=
  ∃ before asset after, assets = before ++ asset :: after ∧ (∀ other ∈ before, Lacks ending other) ∧
    asset.url.text? = some url ∧ ending.toList <:+ url.toList

/-- Before any file with an ending there is one whose address is no text. -/
def IsMisaddressed (ending : String) (assets : List ReleaseAsset) : Prop :=
  ∃ before asset after, assets = before ++ asset :: after ∧ (∀ other ∈ before, Lacks ending other) ∧
    asset.url.text? = none

theorem firstEnding_cons {asset : ReleaseAsset} {url : String} :
    FirstEnding ending (asset :: assets) url ↔ ∃ address, asset.url.text? = some address ∧
      ((ending.toList <:+ address.toList ∧ address = url) ∨
        (¬ ending.toList <:+ address.toList ∧ FirstEnding ending assets url)) := by
  have hlater : (∃ before next after, assets = before ++ next :: after ∧
      (∀ other ∈ asset :: before, Lacks ending other) ∧ next.url.text? = some url ∧
        ending.toList <:+ url.toList) ↔ Lacks ending asset ∧ FirstEnding ending assets url := by
    simp only [List.forall_mem_cons, FirstEnding]
    tauto
  rw [FirstEnding, exists_split_cons_iff, hlater, Lacks]
  cases asset.url.text? with
  | none => simp
  | some address =>
    simp only [List.not_mem_nil, false_imp_iff, implies_true, true_and, Option.some.injEq,
      exists_eq_left']
    constructor
    · rintro (⟨rfl, hending⟩ | hlater)
      · exact .inl ⟨hending, rfl⟩
      · exact .inr hlater
    · rintro (⟨hending, rfl⟩ | hlater)
      · exact .inl ⟨rfl, hending⟩
      · exact .inr hlater

theorem isMisaddressed_cons {asset : ReleaseAsset} :
    IsMisaddressed ending (asset :: assets) ↔ asset.url.text? = none ∨
      ∃ address, asset.url.text? = some address ∧ ¬ ending.toList <:+ address.toList ∧
        IsMisaddressed ending assets := by
  have hlater : (∃ before next after, assets = before ++ next :: after ∧
      (∀ other ∈ asset :: before, Lacks ending other) ∧ next.url.text? = none) ↔
        Lacks ending asset ∧ IsMisaddressed ending assets := by
    simp only [List.forall_mem_cons, IsMisaddressed]
    tauto
  rw [IsMisaddressed, exists_split_cons_iff, hlater, Lacks]
  simp only [List.not_mem_nil, false_imp_iff, implies_true, true_and]
  tauto

theorem judged_assetUrl : Judged (assetUrl tag ending assets) (FirstEnding ending assets ·)
    (IsMisaddressed ending assets) := by
  induction assets with
  | nil => exact (Judged.reported rfl).congr (by simp [FirstEnding]) (by simp [IsMisaddressed])
  | cons asset assets ih =>
    have hrest (url : String) : Judged
        (if ending.toList.isSuffixOf url.toList then .ok url else assetUrl tag ending assets)
        (fun last ↦ (ending.toList <:+ url.toList ∧ url = last) ∨
          (¬ ending.toList <:+ url.toList ∧ FirstEnding ending assets last))
        (¬ ending.toList <:+ url.toList ∧ IsMisaddressed ending assets) := by
      simp only [List.isSuffixOf_iff_suffix]
      by_cases hending : ending.toList <:+ url.toList
      · rw [if_pos hending]
        exact (Judged.ok url).congr (by simp [hending]) (by simp [hending])
      · rw [if_neg hending]
        exact ih.congr (by simp [hending]) (by simp [hending])
    exact ((judged_needText asset.url).bind hrest).congr (fun _ ↦ firstEnding_cons.symm)
      isMisaddressed_cons.symm

/-- What a release lists in its first file with an ending, if the file is requested in a session. -/
def ListedIn (host : Host) (s : Session) (ending : String) (assets : List ReleaseAsset)
    (entries : List String) : Prop :=
  ∃ url, FirstEnding ending assets url ∧ (ReleaseService.reply url [] host s).Lists entries

theorem judges_fetchListing (s : Session) : Judges host s (fetchListing assets tag ending)
    (ListedIn host s ending assets) (IsMisaddressed ending assets) := by
  unfold fetchListing
  have hentries (url body : String) (s₁ : Session) : Judges host s₁
      (if (Listing.entries body).isEmpty then Action.fail (.discovery (.emptyAsset url))
        else do
          Action.log .debug .discovery ("Asset " ++ url ++ " lists " ++
            Text.decimal (Listing.entries body).length ++ " entries")
          return Listing.entries body)
      (fun entries ↦ Listing.entries body = entries ∧ entries ≠ []) False := by
    refine (judges_guard rfl fun _ ↦
      judges_log_bind.mpr (judges_pure (Listing.entries body))).congr ?_ (by simp)
    intro entries
    rw [List.isEmpty_iff]
    constructor
    · rintro ⟨hsome, rfl⟩
      exact ⟨rfl, hsome⟩
    · rintro ⟨rfl, hsome⟩
      exact ⟨hsome, rfl⟩
  exact (judges_ofExcept_bind judged_assetUrl fun url ↦
    (ReleaseService.judges_fetch url []).bind fun body s₁ _ ↦ hentries url body s₁).congr
      (fun _ ↦ Iff.rfl) (by simp)

/-! ## Images -/

theorem judges_certificateManagerImages (manager : CertificateManager) :
    Judges host s (certificateManagerImages manager)
      (((renderManager manager).outcome host s).Renders ·)
      ((renderManager manager).outcome host s).IsUnreadable := by
  have hread (content : String) : Judged (chartImages content) (chartImages content = .ok ·)
      (∃ e, chartImages content = .error e ∧ e.isReported = false) :=
    ⟨fun _ ↦ Iff.rfl, Iff.rfl⟩
  unfold certificateManagerImages
  refine (Command.judges_run.bind fun content _ _ ↦
    judges_ofExcept_bind (hread content) fun found ↦
      judges_guard rfl fun _ ↦ judges_pure found).congr ?_ ?_
  · intro images
    simp only [List.isEmpty_iff, Outcome.Renders]
    constructor
    · rintro ⟨content, hsaid, found, hfound, hsome, rfl⟩
      exact ⟨content, hsaid, hfound, hsome⟩
    · intro ⟨content, hsaid, hfound, hsome⟩
      exact ⟨content, hsaid, images, hfound, hsome, rfl⟩
  · simp only [and_false, exists_false, or_false, Outcome.IsUnreadable, exists_and_left]
    exact Iff.rfl

/-- The images that a discovery adds to those of the release. -/
def Adds (d : Discovery) (host : Host) (s : Session) (images : List RawText) : Prop :=
  if d.withCertificateManager then
    ((renderManager d.platform.certificateManager).outcome host s).Renders images
  else images = []

/-- The images of the release, requested in one session, and of the certificate manager, whose chart
is rendered in another one. -/
def ListsImages (d : Discovery) (host : Host) (s t : Session) (assets : List ReleaseAsset)
    (images : List RawText) : Prop :=
  ∃ listed added, ListedIn host s d.platform.imagesAssetEnding assets listed ∧
    d.Adds host t added ∧ images = listed.map RawText.ofString ++ added

/-- The listing of the images is misaddressed, or there is one and the certificate manager is asked
for and cannot be read. -/
def ImagesBreak (d : Discovery) (host : Host) (s t : Session) (assets : List ReleaseAsset) : Prop :=
  IsMisaddressed d.platform.imagesAssetEnding assets ∨
    (∃ listed, ListedIn host s d.platform.imagesAssetEnding assets listed) ∧
      d.withCertificateManager = true ∧
      ((renderManager d.platform.certificateManager).outcome host t).IsUnreadable

theorem judgesBy_listImages (tag : String) (assets : List ReleaseAsset) (s : Session) :
    JudgesBy .one host s (d.listImages tag assets)
    (fun t ↦ d.ListsImages host s t assets) (fun t ↦ d.ImagesBreak host s t assets) := by
  have hadded (listed : List RawText) (s₁ : Session) : JudgesBy .one host s₁
      (if d.withCertificateManager then
        return listed ++ (← certificateManagerImages d.platform.certificateManager)
        else return listed)
      (fun t images ↦ ∃ added, d.Adds host t added ∧ images = listed ++ added)
      (fun t ↦ d.withCertificateManager = true ∧
        ((renderManager d.platform.certificateManager).outcome host t).IsUnreadable) := by
    unfold Adds
    cases d.withCertificateManager with
    | false =>
      refine Judges.by_start ?_ (keeps_pure listed)
      exact (judges_pure listed).congr (by simp [eq_comm]) (by simp)
    | true =>
      have hgrows : Keeps .growing host
          (certificateManagerImages d.platform.certificateManager) :=
        keeps_certificateManagerImages (Command.growing_spawn _)
      refine Judges.by_start ?_ (hgrows.bind fun _ ↦ keeps_pure _)
      refine ((judges_certificateManagerImages _).bind fun added _ _ ↦ judges_pure _).congr ?_ ?_
      · simp [eq_comm]
      · simp
  have hgrows : Keeps .growing host (fetchListing assets tag d.platform.imagesAssetEnding) :=
    keeps_fetchListing Session.Frame.growing_admitsRequests
  refine ((judges_fetchListing s).bind_by hgrows fun listed s₁ _ ↦ hadded (listed.map RawText.ofString) s₁).congr ?_ ?_
  · intro t images
    simp only [ListsImages, exists_and_left]
  · intro t
    simp only [ImagesBreak, exists_and_right]

/-! ## The release -/

theorem judges_defaultsVersion : Judges host s d.defaultsVersion
    (((ChartStore.searchFor d.defaultsName).outcome host s).Publishes d.defaultsName ·)
    ((ChartStore.searchFor d.defaultsName).outcome host s).IsUnusable := by
  have hversion : Judges host s d.defaultsVersion
      (fun version ↦ ∃ entries,
        ((ChartStore.searchFor d.defaultsName).outcome host s).Finds entries ∧ ∃ entry,
          (entries.find? fun entry ↦ entry.name.text? = some d.defaultsName) = some entry ∧
            entry.version.shown = version)
      (((ChartStore.searchFor d.defaultsName).outcome host s).IsUnusable ∨ ∃ entries,
        ((ChartStore.searchFor d.defaultsName).outcome host s).Finds entries ∧ False) := by
    refine (ChartStore.judges_search d.defaultsName).bind ?_
    intro entries s₁ _
    unfold defaultsName
    cases entries.find? fun entry ↦
      entry.name.text? = some (d.platform.repositoryName ++ "/" ++ d.platform.defaultsChart) with
    | none => exact (judges_fail rfl).congr (by simp) Iff.rfl
    | some entry => exact (judges_pure entry.version.shown).congr (by simp) Iff.rfl
  refine hversion.congr ?_ (by simp)
  intro version
  simp only [Outcome.Publishes, exists_and_left]

/-- What tells the current release: the version of the defaults chart in the index, asked for in one
session, and the description of the release with that version, requested in another one. -/
def Releases (d : Discovery) (host : Host) (s t : Session) (tag : String)
    (assets : List ReleaseAsset) : Prop :=
  ∃ version body,
    ((ChartStore.searchFor d.defaultsName).outcome host s).Publishes d.defaultsName version ∧
    tag = d.platform.releaseTag version ∧
    (ReleaseService.reply (d.releases.releaseUrl tag) [("Accept", "application/vnd.github+json")]
      host t).Says body ∧
    ReleaseService.Describes body assets

theorem judgesBy_resolveRelease (s : Session) : JudgesBy .one host s d.resolveRelease
    (fun t release ↦ d.Releases host s t release.1 release.2)
    (fun _ ↦ ((ChartStore.searchFor d.defaultsName).outcome host s).IsUnusable) := by
  have hassets (tag : String) (s₁ : Session) : JudgesBy .one host s₁
      (do return (tag, ← d.releases.listAssets tag) : Action (String × List ReleaseAsset))
      (fun t release ↦ tag = release.1 ∧ ∃ body,
        (ReleaseService.reply (d.releases.releaseUrl release.1)
          [("Accept", "application/vnd.github+json")] host t).Says body ∧
        ReleaseService.Describes body release.2) (fun _ ↦ False) := by
    have hgrows : Keeps .growing host (d.releases.listAssets tag) :=
      ReleaseService.keeps_listAssets Session.Frame.growing_admitsRequests _ _
    refine Judges.by_start ?_ (hgrows.bind fun _ ↦ keeps_pure _)
    refine ((d.releases.judges_listAssets tag).bind fun assets _ _ ↦
      judges_pure _).congr ?_ (by simp)
    rintro ⟨tag', assets⟩
    simp only [Prod.mk.injEq]
    constructor
    · rintro ⟨_, hdescribed, rfl, rfl⟩
      exact ⟨rfl, hdescribed⟩
    · rintro ⟨rfl, hdescribed⟩
      exact ⟨assets, hdescribed, rfl, rfl⟩
  have hgrows : Keeps .growing host d.defaultsVersion :=
    keeps_defaultsVersion (Command.growing_spawn _)
  refine (judges_defaultsVersion.bind_by hgrows fun version s₁ _ ↦
    judgesBy_log_bind (hassets (d.platform.releaseTag version) _)).congr ?_ (by simp)
  rintro t ⟨tag, assets⟩
  constructor
  · rintro ⟨version, hversion, rfl, body, hsaid, hdescribes⟩
    exact ⟨version, body, hversion, rfl, hsaid, hdescribes⟩
  · rintro ⟨version, body, hversion, rfl, hsaid, hdescribes⟩
    exact ⟨version, hversion, rfl, body, hsaid, hdescribes⟩

/-! ## Charts -/

/-- The charts of a repository among those that were found, in their order: those whose names begin
with the name of the repository and a slash. -/
def Owns (repository : String) (entries : List ChartStore.Entry) (own : List (String × Json)) :
    Prop :=
  ∃ named, List.Forall₂ (fun entry pair ↦ entry.name.text? = some pair.1 ∧ entry.version = pair.2)
      entries named ∧
    own = named.filter fun pair ↦ (repository ++ "/").toList.isPrefixOf pair.1.toList

theorem judged_ownEntries (repository : String) (entries : List ChartStore.Entry) :
    Judged (ownEntries repository entries) (Owns repository entries)
      (∃ entry ∈ entries, entry.name.text? = none) := by
  have hnamed (entry : ChartStore.Entry) : Judged
      ((needText entry.name).map fun name ↦ (name, entry.version))
      (fun pair ↦ entry.name.text? = some pair.1 ∧ entry.version = pair.2)
      (entry.name.text? = none) := by
    refine (judged_needText entry.name).map.congr ?_ Iff.rfl
    rintro ⟨name, version⟩
    simp only [Prod.mk.injEq]
    constructor
    · rintro ⟨_, hname, rfl, hversion⟩
      exact ⟨hname, hversion⟩
    · rintro ⟨hname, hversion⟩
      exact ⟨name, hname, rfl, hversion⟩
  have htotal (entry : ChartStore.Entry) : entry.name.text? = none ∨
      ∃ pair : String × Json, entry.name.text? = some pair.1 ∧ entry.version = pair.2 := by
    cases entry.name.text? with
    | none => exact .inl rfl
    | some name => exact .inr ⟨(name, entry.version), rfl, rfl⟩
  unfold ownEntries
  refine ((Judged.mapM_of_total hnamed htotal).bind fun named ↦ Judged.ok _).congr ?_ (by simp)
  intro own
  simp only [Owns, eq_comm]

/-- The charts that the index tells of, if it is asked in a session, with their references at the
address of their repository. -/
def Indexes (d : Discovery) (host : Host) (s : Session) (repositoryUrl : Json)
    (charts : List String) : Prop :=
  ∃ entries own url,
    ((ChartStore.searchFor d.platform.repositoryName).outcome host s).Finds entries ∧
    Owns d.platform.repositoryName entries own ∧ own ≠ [] ∧ repositoryUrl.text? = some url ∧
    charts = own.map (chartReference url)

/-- The index cannot be read, or tells of a chart whose name is no text, or of some charts of a
repository whose address is no text. -/
def IndexesUnnamed (d : Discovery) (host : Host) (s : Session) (repositoryUrl : Json) : Prop :=
  ((ChartStore.searchFor d.platform.repositoryName).outcome host s).IsUnusable ∨
    ∃ entries, ((ChartStore.searchFor d.platform.repositoryName).outcome host s).Finds entries ∧
      ((∃ entry ∈ entries, entry.name.text? = none) ∨
        ∃ own, Owns d.platform.repositoryName entries own ∧ own ≠ [] ∧ repositoryUrl.text? = none)

theorem judges_platformCharts (repositoryUrl : Json) :
    Judges host s (d.platformCharts repositoryUrl) (d.Indexes host s repositoryUrl)
      (d.IndexesUnnamed host s repositoryUrl) := by
  unfold platformCharts
  refine ((ChartStore.judges_search _).bind fun entries s₁ _ ↦
    judges_ofExcept_bind (judged_ownEntries _ entries) fun own ↦
      judges_guard rfl fun _ ↦ judges_ofExcept_bind (judged_needText repositoryUrl) fun url ↦
        judges_pure (own.map (chartReference url))).congr ?_ ?_
  · intro charts
    simp only [List.isEmpty_iff, Indexes]
    constructor
    · rintro ⟨entries, hfinds, own, hown, hsome, url, hurl, rfl⟩
      exact ⟨entries, own, url, hfinds, hown, hsome, hurl, rfl⟩
    · rintro ⟨entries, own, url, hfinds, hown, hsome, hurl, rfl⟩
      exact ⟨entries, hfinds, own, hown, hsome, url, hurl, rfl⟩
  · simp only [List.isEmpty_iff, IndexesUnnamed, and_false, exists_false, or_false]

/-- The charts of the repository, and the pinned one of the certificate manager if it is asked
for. -/
def ListsCharts (d : Discovery) (host : Host) (s : Session) (repositoryUrl : Json)
    (charts : List String) : Prop :=
  ∃ listed, d.Indexes host s repositoryUrl listed ∧ charts = listed ++ d.pinnedCharts

theorem judges_listCharts (repositoryUrl : Json) (s : Session) :
    Judges host s (d.listCharts repositoryUrl) (d.ListsCharts host s repositoryUrl)
      (d.IndexesUnnamed host s repositoryUrl) := by
  have hpin (listed : List String) (s₁ : Session) : Judges host s₁
      (if d.withCertificateManager then
        return listed ++ [d.platform.certificateManager.chartReference] else return listed)
      (fun charts ↦ charts = listed ++ d.pinnedCharts) False := by
    unfold pinnedCharts
    cases d.withCertificateManager with
    | false => exact (judges_pure _).congr (by simp [eq_comm]) Iff.rfl
    | true => exact (judges_pure _).congr (by simp [eq_comm]) Iff.rfl
  exact ((judges_platformCharts repositoryUrl).bind fun listed s₁ _ ↦ hpin listed s₁).congr
    (fun _ ↦ Iff.rfl) (by simp)

/-- All entries of a manifest for charts are read, and the core charts of a platform are among
them. -/
def ListsCore (platform : Platform) (m : Manifest RawText) : Prop :=
  ∃ refs, List.Forall₂ (fun value ref ↦ Reference.ofChart value = .ok ref) m.charts refs ∧
    ∀ chart ∈ platform.coreCharts, chart ∈ refs.map Reference.name

theorem listsCore_iff {platform : Platform} {m : Manifest RawText} :
    ListsCore platform m ↔ m.missingCharts platform = .ok [] := by
  rw [Manifest.missingCharts_eq_nil_iff]
  simp only [Manifest.chartReferences_eq_ok_iff, ListsCore]

theorem isReported_of_missingCharts {platform : Platform} {m : Manifest RawText} {e : Failure}
    (h : m.missingCharts platform = .error e) : e.isReported = true := by
  unfold Manifest.missingCharts at h
  rw [map_eq_error_iff] at h
  unfold Manifest.chartReferences at h
  split at h
  · simp at h
  · rw [Except.error.injEq] at h
    rw [← h]
    rfl

/-- A manifest is given if all of its charts are read and no core chart is missing; otherwise the
user is told. -/
theorem judges_missingCharts {m : Manifest RawText} {f : List String → Action (Manifest RawText)}
    (hnil : f [] = pure m)
    (hcons : ∀ chart missing, ∃ e, f (chart :: missing) = fail e ∧ e.isReported = true) :
    Judges host s (Action.ofExcept (m.missingCharts d.platform) >>= f)
      (fun m' ↦ m = m' ∧ ListsCore d.platform m) False := by
  simp only [listsCore_iff]
  cases hmissing : m.missingCharts d.platform with
  | error e =>
    exact (Judged.reported (isReported_of_missingCharts hmissing)).congr (by simp) Iff.rfl
  | ok missing =>
    change Judges host s (f missing) _ _
    cases missing with
    | nil =>
      rw [hnil]
      exact (judges_pure m).congr (by simp) Iff.rfl
    | cons chart missing =>
      obtain ⟨e, hfailed, hreported⟩ := hcons chart missing
      rw [hfailed]
      exact (judges_fail hreported).congr (by simp) Iff.rfl

end Discovery

end OfflineSupply
