import OfflineSupply.Proofs.Command.Ending
import OfflineSupply.Proofs.Discovery.Asked

/-!
# What the stores answer

The chart store answers a question by the outcome of a process, and the release service answers a
request by a reply.  Each reading of an answer is described by what the answer has to say, without
regard to how it is read; and of each it is said when it breaks the work off.  Malformed texts and
missing members do not.  Octets that are no text do, and so does a whole number that is too long in
the answer of the chart store, though not in that of the release service.
-/

namespace OfflineSupply

open OfflineSupply.Action

variable {host : Host} {s : Session}

/-- An object has a member of a name, and it says something. -/
def Json.Has (doc : Json) (name : String) (value : Json) : Prop :=
  doc.get? name = some value ∧ value.isSubstantial = true

/-- A member that is missing counts as null, which says nothing. -/
theorem Json.has_iff {doc : Json} {name : String} {value : Json} : doc.Has name value ↔
    ((doc.get? name).getD .null).isSubstantial = true ∧ (doc.get? name).getD .null = value := by
  unfold Has
  cases doc.get? name with
  | none => simp [Json.isSubstantial]
  | some member =>
    rw [Option.some.injEq, Option.getD_some]
    constructor
    · rintro ⟨rfl, hsubstantial⟩
      exact ⟨hsubstantial, rfl⟩
    · rintro ⟨hsubstantial, rfl⟩
      exact ⟨rfl, hsubstantial⟩

namespace ChartStore

/-- An output is a list of objects; white space is an empty one. -/
def Lists (output : String) (objects : List Json) : Prop :=
  (Text.allBlank output.toList = true ∧ objects = []) ∨
    (Text.allBlank output.toList = false ∧ Json.parse output = .ok (.array objects) ∧
      ∀ object ∈ objects, ∃ members, object = .object members)

/-- An output holds a whole number with too many digits where a document is expected. -/
def HasLongNumber (output : String) : Prop :=
  Text.allBlank output.toList = false ∧
    ∃ digits, Json.parse output = .error (.integerTooLong digits)

theorem objects?_eq_some_iff {items objects : List Json} : objects? items = some objects ↔
    items = objects ∧ ∀ object ∈ items, ∃ members, object = .object members := by
  induction items generalizing objects with
  | nil => simp [objects?, eq_comm]
  | cons item items ih =>
    cases item with
    | object members =>
      simp only [objects?, Option.map_eq_some_iff, ih, List.forall_mem_cons]
      constructor
      · rintro ⟨rest, ⟨rfl, hrest⟩, rfl⟩
        exact ⟨rfl, ⟨members, rfl⟩, hrest⟩
      · rintro ⟨rfl, -, hrest⟩
        exact ⟨items, ⟨rfl, hrest⟩, rfl⟩
    | _ => simp [objects?]

/-- An answer is read as the list that it is. -/
theorem judged_answers (question : Command) (output : String) :
    Judged (answers question output) (Lists output) (HasLongNumber output) := by
  unfold answers Lists HasLongNumber
  cases hblank : Text.allBlank output.toList with
  | true => exact (Judged.ok []).congr (by simp [eq_comm]) (by simp)
  | false =>
    simp only [Bool.false_eq_true, if_false, false_and, false_or, true_and]
    cases hparse : Json.parse output with
    | error cause =>
      cases cause with
      | integerTooLong digits => exact (Judged.unreported rfl).congr (by simp) (by simp)
      | malformed fault place => exact (Judged.reported rfl).congr (by simp) (by simp)
    | ok document =>
      cases document with
      | array items =>
        simp only [Except.ok.injEq, Json.array.injEq, reduceCtorEq, exists_false]
        cases hobjects : objects? items with
        | none =>
          refine (Judged.reported rfl).congr ?_ Iff.rfl
          intro objects
          have hnone : objects? items ≠ some objects := by simp [hobjects]
          rw [Ne, objects?_eq_some_iff] at hnone
          simp only [false_iff]
          rintro ⟨rfl, hall⟩
          exact hnone ⟨rfl, hall⟩
        | some found =>
          refine (Judged.ok found).congr ?_ Iff.rfl
          intro objects
          obtain ⟨rfl, hall⟩ := objects?_eq_some_iff.mp hobjects
          constructor
          · rintro rfl
            exact ⟨rfl, hall⟩
          · exact fun h ↦ h.1
      | _ => exact (Judged.reported rfl).congr (by simp) (by simp)

/-- An object describes a chart: its name and its version say something. -/
def Entry.Describes (object : Json) (entry : Entry) : Prop :=
  object.Has "name" entry.name ∧ object.Has "version" entry.version

theorem judged_entry (question : Command) (object : Json) :
    Judged (entry question object) (Entry.Describes object) False := by
  have hdescribes (found : Entry) : Entry.Describes object found ↔
      (((object.get? "name").getD .null).isSubstantial = true ∧
        ((object.get? "version").getD .null).isSubstantial = true) ∧
      { name := (object.get? "name").getD .null
        version := (object.get? "version").getD .null } = found := by
    obtain ⟨name, version⟩ := found
    rw [Entry.Describes, Json.has_iff, Json.has_iff, Entry.mk.injEq]
    tauto
  by_cases h : ((object.get? "name").getD .null).isSubstantial = true ∧
      ((object.get? "version").getD .null).isSubstantial = true
  · have hentry : entry question object = .ok
        { name := (object.get? "name").getD .null
          version := (object.get? "version").getD .null } :=
      if_pos (Bool.and_eq_true_iff.mpr h)
    rw [hentry]
    exact (Judged.ok _).congr (by simp [hdescribes, h]) Iff.rfl
  · have hentry : entry question object =
        .error (.discovery (.unexpectedEntry question.line object)) :=
      if_neg (h ∘ Bool.and_eq_true_iff.mp)
    rw [hentry]
    exact (Judged.reported rfl).congr (by simp [hdescribes, h]) Iff.rfl

end ChartStore

open ChartStore

namespace Outcome

variable {o : Outcome}

/-- The process listed objects. -/
def Lists (o : Outcome) (objects : List Json) : Prop :=
  ∃ output, o.Says output ∧ ChartStore.Lists output objects

/-- The process cannot be read: its output is garbled, or has a whole number that is too long. -/
def IsUnusable (o : Outcome) : Prop :=
  o.IsGarbled ∨ ∃ output, o.Says output ∧ HasLongNumber output

/-- The process found these charts. -/
def Finds (o : Outcome) (entries : List Entry) : Prop :=
  ∃ objects, o.Lists objects ∧ List.Forall₂ Entry.Describes objects entries

/-- What the process leaves as the address of a repository: null if it failed, or if it listed no
repository of that name with an address. -/
def Refers (o : Outcome) (name : String) (url : Json) : Prop :=
  (¬ o.IsGarbled ∧ (∀ output, ¬ o.Says output) ∧ url = .null) ∨
    ∃ objects, o.Lists objects ∧
      ((objects.find? fun object ↦ ((object.get? "name").bind Json.text?) = some name).bind
        (·.get? "url")).getD .null = url

/-- The process listed a repository of a name, and the first one has this address. -/
def Locates (o : Outcome) (name : String) (url : Json) : Prop :=
  ∃ objects repository, o.Lists objects ∧
    (objects.find? fun object ↦ ((object.get? "name").bind Json.text?) = some name) =
      some repository ∧
    repository.Has "url" url

theorem refers_and_isSubstantial_iff {name : String} {url : Json} :
    (o.Refers name url ∧ url.isSubstantial = true) ↔ o.Locates name url := by
  constructor
  · rintro ⟨⟨-, -, rfl⟩ | ⟨objects, hlists, hurl⟩, hsubstantial⟩
    · simp [Json.isSubstantial] at hsubstantial
    · cases hfound : objects.find? fun object ↦
        ((object.get? "name").bind Json.text?) = some name with
      | none =>
        rw [hfound] at hurl
        rw [← hurl] at hsubstantial
        simp [Json.isSubstantial] at hsubstantial
      | some repository =>
        rw [hfound, Option.bind_some] at hurl
        exact ⟨objects, repository, hlists, hfound, Json.has_iff.mpr ⟨hurl ▸ hsubstantial, hurl⟩⟩
  · rintro ⟨objects, repository, hlists, hfound, hurl, hsubstantial⟩
    refine ⟨.inr ⟨objects, hlists, ?_⟩, hsubstantial⟩
    rw [hfound, Option.bind_some, hurl, Option.getD_some]

/-- The process found a chart of a name, and this is the version of the first one as it is shown. -/
def Publishes (o : Outcome) (name version : String) : Prop :=
  ∃ entries entry, o.Finds entries ∧
    (entries.find? fun entry ↦ entry.name.text? = some name) = some entry ∧
    entry.version.shown = version

end Outcome

namespace ChartStore

theorem judges_search (wanted : String) : Judges host s (search wanted)
    (((searchFor wanted).outcome host s).Finds ·)
    ((searchFor wanted).outcome host s).IsUnusable := by
  unfold search
  refine (Command.judges_run.bind fun output _ _ ↦
    (judges_ofExcept (judged_answers _ output)).bind fun objects _ _ ↦
      (judges_ofExcept (Judged.mapM fun object ↦ judged_entry _ object)).bind fun entries _ _ ↦
        judges_log_bind.mpr (judges_pure entries)).congr ?_ ?_
  · intro entries
    simp only [exists_eq_right]
    constructor
    · rintro ⟨output, hsaid, objects, hlists, hentries⟩
      exact ⟨objects, ⟨output, hsaid, hlists⟩, hentries⟩
    · rintro ⟨objects, ⟨output, hsaid, hlists⟩, hentries⟩
      exact ⟨output, hsaid, objects, hlists, hentries⟩
  · simp [Outcome.IsUnusable]

/-- Listing the repositories fails with a failure that is handled, or the work breaks off. -/
theorem isOwnFailure_eq_isReported {e : Failure}
    (h : (listRepositories.run.run host s).1 = .error e) : isOwnFailure e = e.isReported := by
  rw [Command.result_run] at h
  rcases Command.isOf_or_breakdown_of_conclusion h with ⟨⟨cause, rfl, htool⟩, -⟩ | ⟨cause, rfl⟩
  · have hhelm : cause.tool = .helm := htool
    simp [isOwnFailure, Failure.isReported, hhelm]
  · rfl

theorem judges_repositoryUrl (name : String) : Judges host s (repositoryUrl name)
    ((listRepositories.outcome host s).Refers name ·)
    (listRepositories.outcome host s).IsUnusable := by
  unfold repositoryUrl
  rw [judges_attempt_bind]
  have hrun : Judged (listRepositories.run.run host s).1 _ _ := Command.judges_run
  have hown (e : Failure) (he : (listRepositories.run.run host s).1 = .error e) :
      isOwnFailure e = e.isReported :=
    isOwnFailure_eq_isReported he
  generalize listRepositories.outcome host s = o at hrun ⊢
  generalize (listRepositories.run.run host s).2 = s₁
  revert hown hrun
  cases (listRepositories.run.run host s).1 with
  | error e =>
    intro hown hrun
    have hsilent (output : String) : ¬ o.Says output := by
      simp [← hrun.ok_iff]
    change Judges host s₁ (if isOwnFailure e = true then _ else _) _ _
    rw [hown e rfl]
    cases hreported : e.isReported with
    | true =>
      have hclean : ¬ o.IsGarbled := by
        simp [← hrun.error_iff, hreported]
      rw [if_pos rfl]
      exact (judges_log_bind.mpr (judges_pure Json.null)).congr
        (by simp [Outcome.Refers, Outcome.Lists, hsilent, hclean, eq_comm])
        (by simp [Outcome.IsUnusable, hsilent, hclean])
    | false =>
      have hgarbled : o.IsGarbled := by
        simp [← hrun.error_iff, hreported]
      rw [if_neg (by simp)]
      exact (Judged.unreported hreported).congr
        (by simp [Outcome.Refers, Outcome.Lists, hsilent, hgarbled])
        (by simp [Outcome.IsUnusable, hgarbled])
  | ok output =>
    intro _ hrun
    have hsaid (other : String) : o.Says other ↔ other = output := by
      rw [← hrun.ok_iff, Except.ok.injEq, eq_comm]
    have hclean : ¬ o.IsGarbled := by
      simp [← hrun.error_iff]
    refine ((judges_ofExcept (judged_answers _ output)).bind fun objects _ _ ↦
      judges_pure _).congr ?_ ?_
    · simp [Outcome.Refers, Outcome.Lists, hsaid]
    · simp [Outcome.IsUnusable, hsaid, hclean]

end ChartStore

/-! ## The release service -/

/-- A status that counts as no answer. -/
def Reply.IsRefusal (status : Int) : Prop :=
  400 ≤ status ∧ status < 600

/-- The reply carries a document. -/
def Reply.Says (reply : Reply) (body : String) : Prop :=
  ∃ status reason, reply = .answered status reason body ∧ ¬ IsRefusal status

/-- An object names a file of a release: its address says something. -/
def ReleaseAsset.Describes (item : Json) (asset : ReleaseAsset) : Prop :=
  item.Has "browser_download_url" asset.url ∧
    (item.get? "name").getD (.ofString "") = asset.name

namespace ReleaseService

/-- A text describes a release with these files. -/
def Describes (body : String) (assets : List ReleaseAsset) : Prop :=
  ∃ description items, Json.parse body = .ok description ∧
    description.get? "assets" = some (.array items) ∧
    List.Forall₂ ReleaseAsset.Describes items assets

/-- The reply to a request that is made in a session. -/
def reply (url : String) (headers : List (String × String)) (host : Host) (s : Session) : Reply :=
  host.fetch (s.addLog { severity := .debug, topic := .releases, message := "Fetching " ++ url })
    { url, headers }

theorem statusProblem_eq_none_iff {status : Int} (reason url : String) :
    statusProblem status reason url = none ↔ ¬ Reply.IsRefusal status := by
  unfold statusProblem Reply.IsRefusal
  simp only [Bool.and_eq_true, decide_eq_true_eq]
  split
  · simp; omega
  · split
    · simp; omega
    · simp; omega

/-- No reply breaks the work off. -/
theorem judges_fetch (url : String) (headers : List (String × String)) :
    Judges host s (fetch url headers) ((reply url headers host s).Says ·) False := by
  unfold fetch
  rw [judges_log_bind, judges_host_bind, judges_session_bind, judges_modify_bind]
  split
  · rename_i cause hreply
    have hrefused : reply url headers host s = .refused cause := hreply
    exact (judges_fail rfl).congr (by simp [Reply.Says, hrefused]) Iff.rfl
  · rename_i status reason body hreply
    have hanswered : reply url headers host s = .answered status reason body := hreply
    split
    · rename_i problem hproblem
      have hbad : Reply.IsRefusal status := by
        by_contra hgood
        rw [← statusProblem_eq_none_iff reason url, hproblem] at hgood
        simp at hgood
      exact (judges_fail rfl).congr (by simp [Reply.Says, hanswered, hbad]) Iff.rfl
    · rename_i hproblem
      have hgood : ¬ Reply.IsRefusal status :=
        (statusProblem_eq_none_iff reason url).mp hproblem
      exact (judges_pure body).congr (by simp [Reply.Says, hanswered, hgood]) Iff.rfl

theorem judged_asset (tag : String) (item : Json) :
    Judged (asset tag item) (ReleaseAsset.Describes item) False := by
  have hdescribes (found : ReleaseAsset) : ReleaseAsset.Describes item found ↔
      ((item.get? "browser_download_url").getD .null).isSubstantial = true ∧
      { name := (item.get? "name").getD (.ofString "")
        url := (item.get? "browser_download_url").getD .null } = found := by
    obtain ⟨name, url⟩ := found
    rw [ReleaseAsset.Describes, Json.has_iff, ReleaseAsset.mk.injEq]
    tauto
  by_cases h : ((item.get? "browser_download_url").getD .null).isSubstantial = true
  · have hasset : asset tag item = .ok
        { name := (item.get? "name").getD (.ofString "")
          url := (item.get? "browser_download_url").getD .null } :=
      if_pos h
    rw [hasset]
    exact (Judged.ok _).congr (by simp [hdescribes, h]) Iff.rfl
  · have hasset : asset tag item = .error (.discovery (.invalidAsset tag item)) := if_neg h
    rw [hasset]
    exact (Judged.reported rfl).congr (by simp [hdescribes, h]) Iff.rfl

theorem judged_assets (tag : String) (description : Json) :
    Judged (assets tag description)
      (fun found ↦ ∃ items, description.get? "assets" = some (.array items) ∧
        List.Forall₂ ReleaseAsset.Describes items found) False := by
  unfold assets
  cases description.get? "assets" with
  | none => exact (Judged.reported rfl).congr (by simp) Iff.rfl
  | some value =>
    cases value with
    | array items =>
      exact (Judged.mapM fun item ↦ judged_asset tag item).congr (by simp) (by simp)
    | _ => exact (Judged.reported rfl).congr (by simp) Iff.rfl

/-- Nothing that the service can describe a release with breaks the work off. -/
theorem judges_listAssets (service : ReleaseService) (tag : String) :
    Judges host s (service.listAssets tag)
      (fun found ↦ ∃ body, (reply (service.releaseUrl tag)
          [("Accept", "application/vnd.github+json")] host s).Says body ∧ Describes body found)
      False := by
  have hlisted : Judges host s (service.listAssets tag)
      (fun found ↦ ∃ body, (reply (service.releaseUrl tag)
          [("Accept", "application/vnd.github+json")] host s).Says body ∧ Describes body found)
      (False ∨ ∃ body, (reply (service.releaseUrl tag)
          [("Accept", "application/vnd.github+json")] host s).Says body ∧ False) := by
    refine (judges_fetch _ _).bind ?_
    intro body s₁ _
    unfold Describes
    cases Json.parse body with
    | error cause => exact (judges_fail rfl).congr (by simp) Iff.rfl
    | ok description =>
      exact (judges_ofExcept (judged_assets tag description)).congr (by simp) Iff.rfl
  exact hlisted.congr (fun _ ↦ Iff.rfl) (by simp)

end ReleaseService

end OfflineSupply
