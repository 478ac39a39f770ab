import OfflineSupply.Proofs.Discovery.Answering
import OfflineSupply.Proofs.Discovery.Stages

/-!
# Whole discoveries

A discovery asks its questions one after the other, in sessions that it passes through.  It gives
exactly the manifests that the answers tell of in full, and of the answers it is also said which
ones break the work off.
-/

namespace OfflineSupply.Discovery

open OfflineSupply.Action

/-- The sessions in which a discovery asks: for the defaults chart, for the description of the
release, for the listed images, for the rendered certificate manager, for the listed policies and
for the charts. -/
structure Questions where
  defaults : Session
  release : Session
  images : Session
  rendered : Session
  policies : Session
  charts : Session

/-- The questions are asked in this order, from one session to another one. -/
structure Questions.Within (q : Questions) (first last : Session) : Prop where
  defaults : first.Precedes q.defaults
  release : q.defaults.Precedes q.release
  images : q.release.Precedes q.images
  rendered : q.images.Precedes q.rendered
  policies : q.rendered.Precedes q.policies
  charts : q.policies.Precedes q.charts
  last : q.charts.Precedes last

variable {d : Discovery} {host : Host} {s : Session} {q : Questions} {m : Manifest RawText}

/-- The answers tell of this manifest in full: of a repository with an address, of a release with
its files, of what the first files with the endings list, and of the charts of the repository.  All
of the charts are read, and no core chart is missing. -/
structure TellsOf (d : Discovery) (host : Host) (s : Session) (q : Questions) (url : Json)
    (tag : String) (assets : List ReleaseAsset) (m : Manifest RawText) : Prop where
  repository : (ChartStore.listRepositories.outcome host s).Locates d.platform.repositoryName url
  release : d.Releases host q.defaults q.release tag assets
  images : d.ListsImages host q.images q.rendered assets m.images
  policies : ListedIn host q.policies d.platform.policiesAssetEnding assets m.policies
  charts : d.ListsCharts host q.charts url m.charts
  core : ListsCore d.platform m

/-- What breaks a discovery off.  The answers to the questions before are as they should be. -/
inductive Derails (d : Discovery) (host : Host) (s : Session) (q : Questions) : Prop where
  | repositories (h : (ChartStore.listRepositories.outcome host s).IsUnusable)
  | defaults {url : Json}
      (repository :
        (ChartStore.listRepositories.outcome host s).Locates d.platform.repositoryName url)
      (h : ((ChartStore.searchFor d.defaultsName).outcome host q.defaults).IsUnusable)
  | images {url : Json} {tag : String} {assets : List ReleaseAsset}
      (repository :
        (ChartStore.listRepositories.outcome host s).Locates d.platform.repositoryName url)
      (release : d.Releases host q.defaults q.release tag assets)
      (h : d.ImagesBreak host q.images q.rendered assets)
  | policies {url : Json} {tag : String} {assets : List ReleaseAsset} {images : List RawText}
      (repository :
        (ChartStore.listRepositories.outcome host s).Locates d.platform.repositoryName url)
      (release : d.Releases host q.defaults q.release tag assets)
      (images : d.ListsImages host q.images q.rendered assets images)
      (h : IsMisaddressed d.platform.policiesAssetEnding assets)
  | charts {url : Json} {tag : String} {assets : List ReleaseAsset} {images : List RawText}
      {policies : List String}
      (repository :
        (ChartStore.listRepositories.outcome host s).Locates d.platform.repositoryName url)
      (release : d.Releases host q.defaults q.release tag assets)
      (images : d.ListsImages host q.images q.rendered assets images)
      (policies : ListedIn host q.policies d.platform.policiesAssetEnding assets policies)
      (h : d.IndexesUnnamed host q.charts url)

/-- A whole discovery, judged by the sessions of its questions. -/
theorem judgesBy_build (d : Discovery) (host : Host) (s : Session) :
    JudgesBy ((Waypoints.one.followedBy .one).followedBy
        ((Waypoints.one.followedBy .one).followedBy (Waypoints.one.followedBy .one))) host s d.build
      (fun x m ↦ ∃ url, (ChartStore.listRepositories.outcome host s).Locates
          d.platform.repositoryName url ∧
        ∃ release : String × List ReleaseAsset,
          d.Releases host x.1.1 x.1.2 release.1 release.2 ∧
        ∃ images, d.ListsImages host x.2.1.1 x.2.1.2 release.2 images ∧
        ∃ policies, ListedIn host x.2.2.1 d.platform.policiesAssetEnding release.2 policies ∧
        ∃ charts, d.ListsCharts host x.2.2.2 url charts ∧
        { images, policies, charts } = m ∧ ListsCore d.platform { images, policies, charts })
      (fun x ↦ (ChartStore.listRepositories.outcome host s).IsUnusable ∨
        ∃ url, (ChartStore.listRepositories.outcome host s).Locates d.platform.repositoryName url ∧
        (((ChartStore.searchFor d.defaultsName).outcome host x.1.1).IsUnusable ∨
        ∃ release : String × List ReleaseAsset,
          d.Releases host x.1.1 x.1.2 release.1 release.2 ∧
        (d.ImagesBreak host x.2.1.1 x.2.1.2 release.2 ∨
        ∃ images, d.ListsImages host x.2.1.1 x.2.1.2 release.2 images ∧
        (IsMisaddressed d.platform.policiesAssetEnding release.2 ∨
        ∃ policies, ListedIn host x.2.2.1 d.platform.policiesAssetEnding release.2 policies ∧
        d.IndexesUnnamed host x.2.2.2 url)))) := by
  have hrepository : Keeps .growing host (ChartStore.repositoryUrl d.platform.repositoryName) :=
    ChartStore.keeps_repositoryUrl _ (Command.growing_spawn _)
  have hlisting {assets : List ReleaseAsset} {tag ending : String} :
      Keeps .growing host (fetchListing assets tag ending) :=
    keeps_fetchListing Session.Frame.growing_admitsRequests
  have hcharts (url : Json) : Keeps .growing host (d.listCharts url) :=
    keeps_listCharts (Command.growing_spawn _) url
  unfold build
  refine ((ChartStore.judges_repositoryUrl _).bind_by hrepository
    fun url s₁ _ ↦ judgesBy_guard rfl fun _ ↦
      (judgesBy_within judgesBy_resolveRelease).bind fun release s₂ _ ↦
        (judgesBy_within (judgesBy_listImages release.1 release.2)).bind fun images s₃ _ ↦
          (judgesBy_one_within judges_fetchListing hlisting).bind fun policies s₄ _ ↦
            (judgesBy_one_within (judges_listCharts url) (hcharts url)).bind_judges ?_
              fun charts s₅ _ ↦ judges_missingCharts rfl fun _ _ ↦ ⟨_, rfl, rfl⟩).congr ?_ ?_
  · intro charts
    apply (keeps_ofExcept _).bind
    intro missing
    split
    · exact keeps_pure _
    · exact keeps_fail _
  · intro x m
    simp only [Bool.not_eq_true', Bool.not_eq_false, ← Outcome.refers_and_isSubstantial_iff,
      and_assoc]
  · intro x
    simp only [Bool.not_eq_true', Bool.not_eq_false, ← Outcome.refers_and_isSubstantial_iff,
      and_assoc, and_false, exists_false, or_false]

/-- A discovery gives what the answers tell of and is broken off by what derails it; its questions
are asked in sessions of its run. -/
theorem judges_build (d : Discovery) (host : Host) (s : Session) :
    ∃ q : Questions, q.Within s (d.build.run host s).2 ∧
      Judges host s d.build (fun m ↦ ∃ url tag assets, d.TellsOf host s q url tag assets m)
        (d.Derails host s q) := by
  obtain ⟨⟨⟨t₁, t₂⟩, ⟨t₃, t₄⟩, t₅, t₆⟩, hpasses, hjudged⟩ := judgesBy_build d host s
  obtain ⟨_, ⟨_, ⟨h₁, h₁'⟩, h₂, h₂'⟩, _, ⟨_, ⟨h₃, h₃'⟩, h₄, h₄'⟩, _, ⟨h₅, h₅'⟩, h₆, h₆'⟩ :=
    hpasses
  refine ⟨⟨t₁, t₂, t₃, t₄, t₅, t₆⟩, ?_, hjudged.congr ?_ ?_⟩
  · exact
      { defaults := h₁
        release := h₁'.trans h₂
        images := h₂'.trans h₃
        rendered := h₃'.trans h₄
        policies := h₄'.trans h₅
        charts := h₅'.trans h₆
        last := h₆' }
  · intro m
    constructor
    · rintro ⟨url, hurl, ⟨tag, assets⟩, hrelease, images, himages, policies, hpolicies, charts,
        hcharts, rfl, hcore⟩
      exact ⟨url, tag, assets, hurl, hrelease, himages, hpolicies, hcharts, hcore⟩
    · rintro ⟨url, tag, assets, hurl, hrelease, himages, hpolicies, hcharts, hcore⟩
      exact ⟨url, hurl, (tag, assets), hrelease, m.images, himages, m.policies, hpolicies, m.charts,
        hcharts, rfl, hcore⟩
  · constructor
    · rintro (h | ⟨url, hurl, h | ⟨⟨tag, assets⟩, hrelease, h | ⟨images, himages, h |
        ⟨policies, hpolicies, h⟩⟩⟩⟩)
      · exact .repositories h
      · exact .defaults hurl h
      · exact .images hurl hrelease h
      · exact .policies hurl hrelease himages h
      · exact .charts hurl hrelease himages hpolicies h
    · rintro (h | ⟨hurl, h⟩ | ⟨hurl, hrelease, h⟩ | ⟨hurl, hrelease, himages, h⟩ |
        ⟨hurl, hrelease, himages, hpolicies, h⟩)
      · exact .inl h
      · exact .inr ⟨_, hurl, .inl h⟩
      · exact .inr ⟨_, hurl, .inr ⟨(_, _), hrelease, .inl h⟩⟩
      · exact .inr ⟨_, hurl, .inr ⟨(_, _), hrelease, .inr ⟨_, himages, .inl h⟩⟩⟩
      · exact .inr ⟨_, hurl, .inr ⟨(_, _), hrelease, .inr ⟨_, himages, .inr ⟨_, hpolicies, h⟩⟩⟩⟩

/-- A discovery ends in a failure that the user is not told about exactly if the answers derail
it. -/
theorem build_breaks_iff : ∃ q : Questions, q.Within s (d.build.run host s).2 ∧
    ((∃ e, (d.build.run host s).1 = .error e ∧ e.isReported = false) ↔ d.Derails host s q) := by
  obtain ⟨q, hwithin, hjudged⟩ := judges_build d host s
  exact ⟨q, hwithin, hjudged.error_iff⟩

/-- A release with one file, whose address is a number. -/
def numberedRelease : String :=
  "\x7b\"assets\":[\x7b\"browser_download_url\":5\x7d]\x7d"

/-- A host whose repository publishes the core charts, and whose release service describes each
release so. -/
def numberingHost : Host :=
  answering publishingOutput fun _ ↦ numberedRelease

theorem parse_numberedRelease : Json.parse numberedRelease = .ok (.ofMembers
    [("assets", .array [.ofMembers [("browser_download_url", .integer 5)]])]) := by
  unfold Json.parse numberedRelease
  rw [String.toList_ofList]
  cbv

/-- There every process succeeds and writes nothing but text and every request is answered, but the
discovery takes the number for a text and is broken off. -/
theorem numbered_address_breaks :
    (∀ s c, (numberingHost.launch s c).Says (publishingOutput c)) ∧
      (∀ s r, (numberingHost.fetch s r).Says numberedRelease) ∧
      (({} : Discovery).build.run numberingHost { files := .empty [] }).1 =
        .error (.breakdown .notText) ∧
      (Failure.breakdown .notText).isReported = false := by
  have himages : AlwaysFails numberingHost
      (({} : Discovery).listImages "kubewarden-defaults-1"
        [{ name := .ofString "", url := .integer 5 }]) (.breakdown .notText) := by
    unfold listImages fetchListing
    apply AlwaysFails.bind
    apply AlwaysFails.bind
    exact fun _ ↦ rfl
  have hbuild : AlwaysFails numberingHost ({} : Discovery).build (.breakdown .notText) := by
    unfold build
    apply alwaysReturns_repositoryUrl_publishing.bind_fails
    rw [if_neg (by decide)]
    apply (Stage.alwaysReturns_within
      (alwaysReturns_resolveRelease false parse_numberedRelease rfl)).bind_fails
    apply AlwaysFails.bind
    exact Stage.alwaysFails_within himages
  exact ⟨fun _ c ↦ ⟨rfl, rfl, Text.strictText?_toUTF8 (publishingOutput c)⟩,
    fun _ _ ↦ ⟨200, "OK", rfl, by simp [Reply.IsRefusal]⟩, hbuild _, rfl⟩

end OfflineSupply.Discovery
