import OfflineSupply.Proofs.Reference.Image
import OfflineSupply.Proofs.Reference.RegistryPolicy

/-!
# Targets at a private registry

An artifact is pushed under the name that it has at the private registry, its target.  A target keeps
everything but the registry that the artifact comes from, so two artifacts share a target only if
nothing else tells them apart.

The target of a policy is itself read as a policy in a registry.  A policy that was downloaded need
not carry a tag, and without one its target is not read.  In every other case it is read as standing
at the registry, and the registry that a policy is pointed at last is the one that counts.
-/

namespace OfflineSupply.Reference

variable {value value' scheme scheme' authority authority' path path' registry target target' :
  String} {ref ref' : Reference}

/-! ## Targets of images -/

/-- Nothing but the authority tells two references of one kind apart. -/
structure SameArtifact (ref ref' : Reference) : Prop where
  path : ref.path = ref'.path
  version : ref.version = ref'.version
  digest : ref.digest = ref'.digest

/-- What a reference is written as behind its authority. -/
def tail (ref : Reference) : String :=
  ref.path ++ marked ":" ref.version ++ marked "@" ref.digest

theorem SameArtifact.tail_eq (h : SameArtifact ref ref') : ref.tail = ref'.tail := by
  rw [tail, tail, h.path, h.version, h.digest]

theorem text_retarget (hscheme : ref.scheme = none) (registry : String) :
    (ref.retarget registry).text = (if registry = "" then "" else registry ++ "/") ++ ref.tail := by
  unfold text place tail retarget
  by_cases hregistry : registry = ""
  · simp [hscheme, hregistry]
  · simp [hscheme, hregistry, String.append_assoc]

theorem text_retarget_eq_iff (hscheme : ref.scheme = none) (hscheme' : ref'.scheme = none)
    (registry : String) :
    (ref.retarget registry).text = (ref'.retarget registry).text ↔ ref.tail = ref'.tail := by
  rw [text_retarget hscheme, text_retarget hscheme', String.append_right_inj]

theorem sameArtifact_of_retarget_eq (h : ref.retarget registry = ref'.retarget registry) :
    SameArtifact ref ref' := by
  have hsame : SameArtifact (ref.retarget registry) (ref'.retarget registry) := by
    rw [h]
    exact ⟨rfl, rfl, rfl⟩
  exact ⟨hsame.path, hsame.version, hsame.digest⟩

theorem imageRegistry_localHost : ImageRegistry localHost where
  recognised := .inr (.inr rfl)
  slash := by decide
  atSign := by decide

/-- Images in normal form that are written alike behind their registries are the same artifact. -/
theorem NormalImage.sameArtifact (h : NormalImage ref) (h' : NormalImage ref')
    (htail : ref.tail = ref'.tail) : SameArtifact ref ref' := by
  -- At a registry that is recognised both are read back from what is then one text.
  have hread := (h.retarget imageRegistry_localHost).ofImage_text
  have hread' := (h'.retarget imageRegistry_localHost).ofImage_text
  rw [(text_retarget_eq_iff h.scheme h'.scheme localHost).mpr htail, hread', Except.ok.injEq] at hread
  exact sameArtifact_of_retarget_eq hread.symm

/-- Two images have the same target exactly if they are the same artifact. -/
theorem retargetImage_eq_iff (h : ofImage value = .ok ref) (h' : ofImage value' = .ok ref')
    (registry : String) :
    retargetImage value registry = retargetImage value' registry ↔ SameArtifact ref ref' := by
  have hnormal := normalImage_of_ofImage h
  have hnormal' := normalImage_of_ofImage h'
  rw [retargetImage_of_ofImage h, retargetImage_of_ofImage h', Except.ok.injEq,
    text_retarget_eq_iff hnormal.scheme hnormal'.scheme]
  constructor
  · exact hnormal.sameArtifact hnormal'
  · exact SameArtifact.tail_eq

/-! ## Targets of policies -/

/-- A policy of a registry, or one that is downloaded, has its path behind the private registry. -/
theorem Located.target_eq (h : Located value scheme authority path)
    (hscheme : scheme ∈ registryScheme :: downloadSchemes)
    (htarget : retargetPolicy value registry = .ok target) :
    target = registryScheme ++ "://" ++ registry ++ "/" ++ path := by
  have hpush := h.pushable_of_retargetPolicy htarget
  rw [h.retargetPolicy_of_pushable hpush, pushedScheme_of_mem hscheme] at htarget
  exact (Except.ok.inj htarget).symm

/-- At a private registry two images are one if nothing but the registry that they come from tells
them apart, and only then.  Two policies are one if the texts behind their authorities are the same,
whether they come from a registry or are downloaded. -/
theorem targets_eq_iff (registry : String) :
    (∀ {value value' ref ref'}, ofImage value = .ok ref → ofImage value' = .ok ref' →
      (retargetImage value registry = retargetImage value' registry ↔ SameArtifact ref ref')) ∧
    ∀ {value value' scheme scheme' authority authority' path path' target target'},
      Located value scheme authority path → Located value' scheme' authority' path' →
      scheme ∈ registryScheme :: downloadSchemes → scheme' ∈ registryScheme :: downloadSchemes →
      retargetPolicy value registry = .ok target → retargetPolicy value' registry = .ok target' →
      (target = target' ↔ path = path') := by
  constructor
  · intro value value' ref ref' h h'
    exact retargetImage_eq_iff h h' registry
  · intro _ _ _ _ _ _ path path' target target' h h' hscheme hscheme' htarget htarget'
    calc
      target = target' ↔ registryScheme ++ "://" ++ registry ++ "/" ++ path =
          registryScheme ++ "://" ++ registry ++ "/" ++ path' := by
        rw [h.target_eq hscheme htarget, h'.target_eq hscheme' htarget']
      _ ↔ path = path' := String.append_right_inj _

/-- A policy that is downloaded, with a colon in front of its last name and one in it. -/
theorem located_file :
    Located "https://files.example/a:1/b:2" "https" "files.example" "a:1/b:2" := by
  have hscheme : Text.cutWord "://".toList "https://files.example/a:1/b:2".toList =
      some ("https".toList, "files.example/a:1/b:2".toList) := by decide
  have hauthority : Text.cutFirst '/' "files.example/a:1/b:2".toList =
      ("files.example".toList, some "a:1/b:2".toList) := by decide
  exact .of_cut hscheme hauthority

/-- An image that is known under two registries and one without its tag, and a policy that stands in
a registry and can be downloaded as well. -/
theorem known_twice_conflated :
    retargetImage "localhost/a/b:1@sha256:0" "mirror:5000" =
        retargetImage "ghcr.io/a/b:1@sha256:0" "mirror:5000" ∧
      retargetImage "localhost/a/b:1@sha256:0" "mirror:5000" ≠
        retargetImage "ghcr.io/a/b@sha256:0" "mirror:5000" ∧
      ∃ target target', retargetPolicy "https://files.example/a:1/b:2" "mirror:5000" = .ok target ∧
        retargetPolicy "registry://ghcr.io/a:1/b:2" "mirror:5000" = .ok target' ∧
        target = target' := by
  obtain ⟨himages, hpolicies⟩ := targets_eq_iff "mirror:5000"
  have hlocal : ofImage "localhost/a/b:1@sha256:0" = .ok _ := rfl
  have hremote : ofImage "ghcr.io/a/b:1@sha256:0" = .ok _ := rfl
  have huntagged : ofImage "ghcr.io/a/b@sha256:0" = .ok _ := rfl
  have hslash : '/' ∉ "ghcr.io".toList := by decide
  have hentry := located_registry hslash "a:1/b:2"
  refine ⟨(himages hlocal hremote).mpr ⟨rfl, rfl, rfl⟩, ?_, ?_⟩
  · intro hsame
    exact absurd ((himages hlocal huntagged).mp hsame).version (by decide)
  · exact ⟨_, _, rfl, rfl,
      (hpolicies located_file hentry (by decide) (by decide) rfl rfl).mpr rfl⟩

/-! ## Targets that are read again -/

/-- The last name of a text holds a colon with something behind it. -/
def EndsInTag (text : String) : Prop :=
  ∃ front tag, Text.afterLast '/' text.toList = front ++ ':' :: tag ∧ tag ≠ []

theorem tagged_iff_endsInTag : Tagged path ↔ EndsInTag path := by
  constructor
  · rintro ⟨front, tag, hpath, htag, hslash⟩
    have hlast : '/' ∉ ':' :: tag.toList := by
      simp [hslash]
    obtain ⟨name, hname⟩ := Text.suffix_cutLast front.toList hlast
    refine ⟨name, tag.toList, ?_, by simpa using htag⟩
    rw [Text.afterLast, hpath, hname]
    simp
  · rintro ⟨front, tag, hlast, htag⟩
    rcases hcut : Text.cutLast '/' path.toList with ⟨before, last⟩
    obtain ⟨hpath, hslash⟩ := cutLast_eq_iff.mp hcut
    obtain rfl : last = front ++ ':' :: tag := by
      rwa [Text.afterLast, hcut] at hlast
    rw [rejoin_append] at hpath
    rw [List.mem_append, List.mem_cons, not_or, not_or] at hslash
    refine ⟨String.ofList (rejoin before front), String.ofList tag, ?_, ofList_ne_empty htag, ?_⟩
    · rw [← String.toList_inj, hpath]
      simp
    · rw [String.toList_ofList]
      exact hslash.2.2

/-- The last name of a policy is that of its path. -/
theorem Located.endsInTag_iff (h : Located value scheme authority path) :
    EndsInTag value ↔ Tagged path := by
  have htext : value.toList = (scheme ++ "://" ++ authority).toList ++ '/' :: path.toList := by
    simp [h.text]
  rw [tagged_iff_endsInTag, EndsInTag, EndsInTag, htext, Text.afterLast_append]

/-- A policy in a registry that has a path but no tag is refused for the tag. -/
theorem ofRegistryPolicy_of_not_tagged (value : String) (hauthority : authority ≠ "")
    (hpath : path ≠ "") (h : ¬ Tagged path) :
    ofRegistryPolicy value authority.toList (some path.toList) = .error (.policyWithoutTag value) := by
  rw [tagged_iff_splitVersion] at h
  rcases hsplit : splitVersion path.toList with ⟨front, version⟩
  have hversion : version.getD [] = [] := by
    by_contra hversion
    cases version with
    | none => exact hversion rfl
    | some version => exact h ⟨front, version, hsplit, hversion⟩
  simp [ofRegistryPolicy, hauthority, hpath, hsplit, hversion]

/-- A policy that names a registry and a path is read if it carries a tag, and otherwise it is refused
for the lack of one. -/
theorem Located.ofPolicy_registry (h : Located value registryScheme authority path)
    (hauthority : authority ≠ "") (hpath : path ≠ "") :
    (Tagged path → ∃ ref, ofPolicy value = .ok ref ∧ ref.authority = some authority) ∧
      (¬ Tagged path → ofPolicy value = .error (.policyWithoutTag value)) := by
  have hread := h.ofPolicy_eq
  rw [if_neg (by decide), if_pos rfl] at hread
  constructor
  · intro htagged
    obtain ⟨front, version, -, -, href⟩ := ofRegistryPolicy_of_tagged value hauthority htagged
    exact ⟨_, hread.trans href, rfl⟩
  · intro huntagged
    exact hread.trans (ofRegistryPolicy_of_not_tagged value hauthority hpath huntagged)

/-- A policy of a registry, or one that is downloaded, has the same target as any other policy of a
registry that has its path. -/
theorem Located.retargetPolicy_congr (h : Located value scheme authority path)
    (hpush : Pushable scheme authority path) (hscheme : scheme ∈ registryScheme :: downloadSchemes)
    (h' : Located value' registryScheme authority' path)
    (hpush' : Pushable registryScheme authority' path) (registry : String) :
    retargetPolicy value' registry = retargetPolicy value registry := by
  calc
    retargetPolicy value' registry =
        .ok (pushedScheme registryScheme ++ "://" ++ registry ++ "/" ++ path) :=
      h'.retargetPolicy_of_pushable hpush' registry
    _ = .ok (pushedScheme scheme ++ "://" ++ registry ++ "/" ++ path) := by
      rw [pushedScheme_of_mem hscheme, pushedScheme_of_mem List.mem_cons_self]
    _ = retargetPolicy value registry := (h.retargetPolicy_of_pushable hpush registry).symm

/-- The target of a policy at a registry is read as a policy exactly if the policy came from a
registry or its last name carries a tag; otherwise it is refused for the lack of one.  What is read
stands at the registry, and pointing it at another registry comes to the same as pointing the policy
there in the first place. -/
theorem target_read_iff (h : Located value scheme authority path)
    (hscheme : scheme ∈ registryScheme :: downloadSchemes)
    (htarget : retargetPolicy value registry = .ok target) (hregistry : registry ≠ "")
    (hslash : '/' ∉ registry.toList) :
    ((∃ ref, ofPolicy target = .ok ref) ↔ scheme = registryScheme ∨ EndsInTag value) ∧
      (∀ ref, ofPolicy target = .ok ref → ref.authority = some registry ∧
        ∀ other, retargetPolicy target other = retargetPolicy value other) ∧
      ∀ e, ofPolicy target = .error e → e = .policyWithoutTag target := by
  have hpush := h.pushable_of_retargetPolicy htarget
  have hlocated : Located target registryScheme registry path := by
    rw [h.target_eq hscheme htarget]
    exact located_registry hslash path
  obtain ⟨hread, hrefused⟩ := hlocated.ofPolicy_registry hregistry hpush.path_ne
  rw [h.endsInTag_iff]
  by_cases htagged : Tagged path
  · obtain ⟨again, hagain, hauthority⟩ := hread htagged
    have hpush' : Pushable registryScheme registry path :=
      ⟨by decide, hregistry, hpush.path_ne, fun _ ↦ htagged⟩
    refine ⟨iff_of_true ⟨again, hagain⟩ (.inr htagged), ?_, ?_⟩
    · intro ref href
      rw [hagain, Except.ok.injEq] at href
      rw [← href]
      exact ⟨hauthority, h.retargetPolicy_congr hpush hscheme hlocated hpush'⟩
    · intro e he
      simp [hagain] at he
  · have herror := hrefused htagged
    have hforeign : scheme ≠ registryScheme := fun hsame ↦ htagged (hpush.tagged hsame)
    refine ⟨iff_of_false (by simp [herror]) (by simp [hforeign, htagged]), ?_, ?_⟩
    · intro ref href
      simp [herror] at href
    · intro e he
      rw [herror, Except.error.injEq] at he
      exact he.symm

/-- A download whose last name carries a tag is read again at the registry. -/
theorem tagged_download_read :
    retargetPolicy "https://files.example/a:1/b:2" "mirror:5000" =
        .ok "registry://mirror:5000/a:1/b:2" ∧
      ∃ ref, ofPolicy "registry://mirror:5000/a:1/b:2" = .ok ref ∧
        ref.authority = some "mirror:5000" ∧
        ∀ other, retargetPolicy "registry://mirror:5000/a:1/b:2" other =
          retargetPolicy "https://files.example/a:1/b:2" other := by
  have htarget : retargetPolicy "https://files.example/a:1/b:2" "mirror:5000" =
      .ok "registry://mirror:5000/a:1/b:2" := rfl
  have htag : EndsInTag "https://files.example/a:1/b:2" := ⟨['b'], ['2'], by decide, by decide⟩
  obtain ⟨hread, hlast, -⟩ :=
    target_read_iff located_file (by decide) htarget (by decide) (by decide)
  obtain ⟨ref, href⟩ := hread.mpr (.inr htag)
  exact ⟨htarget, ref, href, hlast ref href⟩

end OfflineSupply.Reference
