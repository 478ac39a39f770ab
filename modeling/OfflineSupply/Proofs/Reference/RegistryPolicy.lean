import OfflineSupply.Proofs.Reference.Policy

/-!
# The grammar of policies in a registry

A policy in a registry is a registry, a path and a tag, and it is read exactly if its text can be
cut into these.  Registry and tag are then never empty.  The path is looked at before the tag is
split from it and not again afterwards, so a tag that stands alone behind the registry is read as
well, with an empty path.  No other policy is read without a path.
-/

namespace OfflineSupply.Reference

variable {value authority path version rest : String} {ref : Reference}

/-- A text cut into the registry, the path and the tag of a policy.  The path may be empty. -/
structure InRegistry (value authority path version : String) : Prop where
  text : value = registryScheme ++ "://" ++ authority ++ "/" ++ (path ++ ":" ++ version)
  authority_ne : authority ≠ ""
  authority_slash : '/' ∉ authority.toList
  /-- The tag starts at the first colon of the last name. -/
  name_colon : ':' ∉ Text.afterLast '/' path.toList
  version_ne : version ≠ ""
  version_slash : '/' ∉ version.toList

/-- The reference to a policy in a registry. -/
def registryReference (authority path version : String) : Reference :=
  { authority := some authority, path, version := some version, scheme := some registryScheme }

/-! ## Texts with the scheme of a registry -/

theorem cutWord_registry (rest : String) :
    Text.cutWord "://".toList (registryScheme ++ "://" ++ rest).toList =
      some (registryScheme.toList, rest.toList) := by
  rw [String.toList_append]
  rfl

theorem located_registry (hslash : '/' ∉ authority.toList) (path : String) :
    Located (registryScheme ++ "://" ++ authority ++ "/" ++ path) registryScheme authority
      path where
  text := rfl
  first before after hsplit := by
    rw [String.append_assoc, String.append_assoc] at hsplit
    have hfirst := (Text.cutWord_eq_some_iff.mp (cutWord_registry (authority ++ ("/" ++ path)))).2
      before.toList after.toList (by simp [hsplit])
    rwa [String.length_toList, String.length_toList] at hfirst
  slashless := hslash

theorem scheme_of_ofRegistryPolicy {authority : List Char} {path : Option (List Char)}
    (h : ofRegistryPolicy value authority path = .ok ref) : ref.scheme = some registryScheme := by
  unfold ofRegistryPolicy at h
  dsimp only at h
  split at h
  · contradiction
  · split at h
    · contradiction
    · rw [← Except.ok.inj h]

/-- What stands behind the scheme of a registry is read as a policy in a registry, or not at all. -/
theorem scheme_of_registry (h : ofPolicy (registryScheme ++ "://" ++ rest) = .ok ref) :
    ref.scheme = some registryScheme := by
  have hvalue : registryScheme ++ "://" ++ rest ≠ "" := by
    simp [registryScheme]
  unfold ofPolicy at h
  rw [if_neg hvalue, cutWord_registry] at h
  exact scheme_of_ofRegistryPolicy h

/-! ## What is read -/

theorem InRegistry.ofPolicy_eq (h : InRegistry value authority path version) :
    ofPolicy value = .ok (registryReference authority path version) := by
  have hlocated := located_registry h.authority_slash (path ++ ":" ++ version)
  rw [← h.text] at hlocated
  have hsplit : splitVersion (path ++ ":" ++ version).toList =
      (path.toList, some version.toList) := by
    refine splitVersion_eq_iff.mpr ⟨by simp [Text.behind], h.name_colon, ?_⟩
    simpa using h.version_slash
  have hversion : version.toList ≠ [] := by
    simpa using h.version_ne
  rw [hlocated.ofPolicy_eq, if_neg (by decide), if_pos rfl]
  refine (ofRegistryPolicy_eq_ok_iff value authority _).mpr
    ⟨h.authority_ne, path.toList, version.toList, hsplit, hversion, ?_⟩
  rw [String.ofList_toList, String.ofList_toList, registryReference]

theorem inRegistry_of_ofRegistryPolicy (hlocated : Located value registryScheme authority path)
    (h : ofRegistryPolicy value authority.toList (some path.toList) = .ok ref) :
    ∃ path version, InRegistry value authority path version ∧
      registryReference authority path version = ref := by
  obtain ⟨hauthority, front, version, hsplit, hversion, href⟩ :=
    (ofRegistryPolicy_eq_ok_iff value authority path).mp h
  obtain ⟨hpath, hcolon, hslash⟩ := splitVersion_eq_iff.mp hsplit
  refine ⟨String.ofList front, String.ofList version, ?_, href⟩
  exact
    { text := by
        rw [hlocated.text, ← String.toList_inj]
        simp [hpath, Text.behind]
      authority_ne := hauthority
      authority_slash := hlocated.slashless
      name_colon := by rwa [String.toList_ofList]
      version_ne := ofList_ne_empty hversion
      version_slash := by
        rw [String.toList_ofList]
        exact hslash version rfl }

/-- A policy that is read is in a registry, with a registry and a tag, or it has a path. -/
theorem cases_of_ofPolicy (h : ofPolicy value = .ok ref) :
    (∃ authority path version, InRegistry value authority path version ∧
      registryReference authority path version = ref) ∨
        ref.scheme ≠ some registryScheme ∧ ref.path ≠ "" := by
  cases local_or_located h with
  | inl hlocal =>
    obtain ⟨hvalue, rfl⟩ := hlocal
    exact .inr ⟨by simp, hvalue⟩
  | inr hlocated =>
    obtain ⟨scheme, authority, path, hlocated⟩ := hlocated
    rw [hlocated.ofPolicy_eq] at h
    by_cases hempty : scheme = ""
    · simp [hempty] at h
    rw [if_neg hempty] at h
    by_cases hregistry : scheme = registryScheme
    · subst hregistry
      rw [if_pos rfl] at h
      exact .inl ⟨authority, inRegistry_of_ofRegistryPolicy hlocated h⟩
    · rw [if_neg hregistry] at h
      by_cases hpath : path = ""
      · simp [hpath] at h
      rw [if_neg hpath, Except.ok.injEq] at h
      subst h
      exact .inr ⟨by simpa using hregistry, hpath⟩

/-- A policy is read in a registry exactly if it can be cut into a registry, a path and a tag of
which only the path may be empty.  Every text with the scheme of a registry is read so or not at
all, and no other policy is read with an empty path. -/
theorem read_in_registry_iff (value : String) (ref : Reference) :
    (ofPolicy value = .ok ref ∧ ref.scheme = some registryScheme ↔
      ∃ authority path version, InRegistry value authority path version ∧
        registryReference authority path version = ref) ∧
    (∀ rest, value = registryScheme ++ "://" ++ rest → ofPolicy value = .ok ref →
      ref.scheme = some registryScheme) ∧
    (ofPolicy value = .ok ref →
      (ref.path = "" ↔ ∃ authority version, InRegistry value authority "" version)) := by
  refine ⟨⟨?_, ?_⟩, ?_, ?_⟩
  · intro ⟨h, hscheme⟩
    exact (cases_of_ofPolicy h).resolve_right fun hother ↦ hother.1 hscheme
  · rintro ⟨authority, path, version, hregistry, rfl⟩
    exact ⟨hregistry.ofPolicy_eq, rfl⟩
  · rintro rest rfl h
    exact scheme_of_registry h
  · intro h
    constructor
    · intro hpath
      obtain ⟨authority, path, version, hregistry, rfl⟩ :=
        (cases_of_ofPolicy h).resolve_right fun hother ↦ hother.2 hpath
      exact ⟨authority, version, (show path = "" from hpath) ▸ hregistry⟩
    · intro ⟨authority, version, hregistry⟩
      have hread := hregistry.ofPolicy_eq
      rw [h, Except.ok.injEq] at hread
      rw [hread, registryReference]

/-- The tag of a policy may hold a colon. -/
theorem colon_in_tag_read :
    ∃ ref, ofPolicy "registry://ghcr.io:5000/policies/safe:v1:2" = .ok ref ∧
      ref.scheme = some registryScheme ∧ ref.path = "policies/safe" ∧
      ¬ ∃ authority version,
        InRegistry "registry://ghcr.io:5000/policies/safe:v1:2" authority "" version := by
  have hread : ofPolicy "registry://ghcr.io:5000/policies/safe:v1:2" = .ok _ := rfl
  obtain ⟨-, hscheme, hpath⟩ := read_in_registry_iff _ _
  exact ⟨_, hread, hscheme "ghcr.io:5000/policies/safe:v1:2" rfl hread, rfl,
    fun hempty ↦ absurd ((hpath hread).mpr hempty) (by decide)⟩

/-- A tag alone behind its registry is read as a policy with an empty path. -/
theorem tag_alone_read :
    ofPolicy "registry://ghcr.io/:v1" = .ok (registryReference "ghcr.io" "" "v1") := rfl

end OfflineSupply.Reference
