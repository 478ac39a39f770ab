import OfflineSupply.Proofs.Reference.Parts
import OfflineSupply.Reference.Policy

/-!
# Policies at a private registry

A policy that is served by somebody is cut at the first mark of a scheme and at the first slash behind
it.  Pointing it at a registry replaces what stands between the two and keeps the path with its tag.
The scheme becomes that of a registry only if the policy was to be downloaded; every other scheme is
kept as it is.
-/

namespace OfflineSupply.Reference

variable {value scheme authority path registry target : String} {ref : Reference}

/-! ## Tags -/

/-- A path carries a tag: a colon in its last name with something behind it. -/
def Tagged (path : String) : Prop :=
  ∃ front tag, path = front ++ ":" ++ tag ∧ tag ≠ "" ∧ '/' ∉ tag.toList

/-- A version that says something is split from a path exactly if the path carries a tag. -/
theorem tagged_iff_splitVersion :
    Tagged path ↔ ∃ front version, splitVersion path.toList = (front, some version) ∧
      version ≠ [] := by
  constructor
  · intro ⟨front, tag, hpath, htag, hslash⟩
    obtain ⟨front', version, hsplit, hsuffix⟩ := splitVersion_append front.toList hslash
    have hchars : path.toList = front.toList ++ ':' :: tag.toList := by
      simp [hpath]
    refine ⟨front', version, by rw [hchars, hsplit], ?_⟩
    rintro rfl
    rw [List.suffix_nil, String.toList_eq_nil_iff] at hsuffix
    exact htag hsuffix
  · intro ⟨front, version, hsplit, hversion⟩
    refine ⟨String.ofList front, String.ofList version, ?_, ?_, ?_⟩
    · rw [← String.toList_inj, splitVersion_eq_append hsplit]
      simp
    · simpa [← String.toList_inj] using hversion
    · simpa using slash_not_mem_splitVersion hsplit

/-! ## Policies that somebody serves -/

/-- A text cut at the first mark of a scheme and at the first slash behind it. -/
structure Located (value scheme authority path : String) : Prop where
  text : value = scheme ++ "://" ++ authority ++ "/" ++ path
  first : ∀ before after, value = before ++ "://" ++ after → scheme.length ≤ before.length
  slashless : '/' ∉ authority.toList

namespace Located

theorem cutWord (h : Located value scheme authority path) :
    Text.cutWord "://".toList value.toList =
      some (scheme.toList, authority.toList ++ '/' :: path.toList) := by
  rw [Text.cutWord_eq_some_iff]
  constructor
  · simp [h.text]
  · intro front rest hvalue
    have hfirst := h.first (String.ofList front) (String.ofList rest) (by
      rw [← String.toList_inj, hvalue]
      simp)
    rw [String.length_toList]
    simpa using hfirst

theorem cutFirst (h : Located value scheme authority path) :
    Text.cutFirst '/' (authority.toList ++ '/' :: path.toList) =
      (authority.toList, some path.toList) :=
  Text.cutFirst_append h.slashless path.toList

theorem of_cut {scheme' rest authority' path' : List Char}
    (hscheme : Text.cutWord "://".toList value.toList = some (scheme', rest))
    (hauthority : Text.cutFirst '/' rest = (authority', some path')) :
    Located value (String.ofList scheme') (String.ofList authority') (String.ofList path') := by
  obtain ⟨hvalue, hfirst⟩ := Text.cutWord_eq_some_iff.mp hscheme
  have hrest := Text.cutFirst_eq_append hauthority
  have hslash := Text.not_mem_cutFirst '/' rest
  rw [hauthority] at hslash
  refine ⟨?_, ?_, by simpa using hslash⟩
  · rw [← String.toList_inj, hvalue, hrest]
    simp
  · intro before after hsplit
    have hlength := hfirst before.toList after.toList (by simp [hsplit])
    rw [String.length_toList] at hlength
    simpa using hlength

/-- How a policy that somebody serves is read. -/
theorem ofPolicy_eq (h : Located value scheme authority path) :
    ofPolicy value =
      if scheme = "" then .error (.policyWithoutScheme value)
      else if scheme = registryScheme then
        ofRegistryPolicy value authority.toList (some path.toList)
      else if path = "" then .error (.policyWithoutPath value)
      else .ok
        { authority := if authority = "" then none else some authority
          path, scheme := some scheme } := by
  have hvalue : value ≠ "" := by
    rintro rfl
    have hchars := congrArg String.toList h.text
    simp at hchars
  unfold ofPolicy
  simp only [hvalue, if_false, h.cutWord, h.cutFirst, List.isEmpty_iff, String.toList_eq_nil_iff,
    String.ofList_toList, Option.getD_some]

end Located

/-- A policy that is read is the path of a local file, or one that somebody serves. -/
theorem local_or_located (h : ofPolicy value = .ok ref) :
    (value ≠ "" ∧ ref = { authority := none, path := value }) ∨
      ∃ scheme authority path, Located value scheme authority path := by
  unfold ofPolicy at h
  split at h
  · contradiction
  · rename_i hvalue
    split at h
    · exact .inl ⟨hvalue, (Except.ok.inj h).symm⟩
    · rename_i scheme' rest hcut
      rcases hslash : Text.cutFirst '/' rest with ⟨authority, _ | path⟩
      · simp [hslash, ofRegistryPolicy] at h
        grind
      · exact .inr ⟨_, _, _, .of_cut hcut hslash⟩

/-- A policy that is read with a scheme is one that somebody serves. -/
theorem located_of_ofPolicy (h : ofPolicy value = .ok ref) (hscheme : ref.scheme.isSome) :
    ∃ scheme authority path, Located value scheme authority path := by
  apply (local_or_located h).resolve_left
  rintro ⟨-, rfl⟩
  contradiction

/-! ## Policies in a registry -/

theorem ne_empty_of_tagged (h : Tagged path) : path ≠ "" := by
  obtain ⟨front, tag, hpath, -, -⟩ := h
  rintro rfl
  have hchars := congrArg String.toList hpath
  simp at hchars

/-- A policy in a registry is read if it names the registry and a tag is split from its path. -/
theorem ofRegistryPolicy_eq_ok_iff (value authority path : String) :
    ofRegistryPolicy value authority.toList (some path.toList) = .ok ref ↔
      authority ≠ "" ∧ ∃ front version, splitVersion path.toList = (front, some version) ∧
        version ≠ [] ∧
          { authority := some authority, path := String.ofList front
            version := some (String.ofList version), scheme := some registryScheme } = ref := by
  rcases hsplit : splitVersion path.toList with ⟨front, version⟩
  by_cases hauthority : authority = ""
  · simp [ofRegistryPolicy, hauthority]
  by_cases hpath : path = ""
  · -- An empty path has no tag either.
    subst hpath
    obtain ⟨rfl, rfl⟩ := Prod.mk.inj hsplit
    simp [ofRegistryPolicy]
  cases version with
  | none => simp [ofRegistryPolicy, hauthority, hpath, hsplit]
  | some version =>
    by_cases hversion : version = []
    · simp [ofRegistryPolicy, hauthority, hpath, hsplit, hversion]
    · simp [ofRegistryPolicy, hauthority, hpath, hsplit, hversion, and_assoc]

/-- A policy in a registry is read if it carries a tag, which is split from its path. -/
theorem ofRegistryPolicy_of_tagged (value : String) (hauthority : authority ≠ "") (h : Tagged path) :
    ∃ front version, path = front ++ ":" ++ version ∧ version ≠ "" ∧
      ofRegistryPolicy value authority.toList (some path.toList) =
        .ok { authority := some authority, path := front, version := some version
              scheme := some registryScheme } := by
  obtain ⟨front, version, hsplit, hversion⟩ := tagged_iff_splitVersion.mp h
  refine ⟨String.ofList front, String.ofList version, ?_, ofList_ne_empty hversion, ?_⟩
  · rw [← String.toList_inj, splitVersion_eq_append hsplit]
    simp
  · exact (ofRegistryPolicy_eq_ok_iff value authority path).mpr
      ⟨hauthority, front, version, hsplit, hversion, rfl⟩

/-- A policy in a registry is read only if it names the registry and carries a tag. -/
theorem tagged_of_ofRegistryPolicy
    (h : ofRegistryPolicy value authority.toList (some path.toList) = .ok ref) :
    authority ≠ "" ∧ Tagged path := by
  obtain ⟨hauthority, front, version, hsplit, hversion, -⟩ :=
    (ofRegistryPolicy_eq_ok_iff value authority path).mp h
  exact ⟨hauthority, tagged_iff_splitVersion.mpr ⟨front, version, hsplit, hversion⟩⟩

/-! ## Retargeting -/

/-- What is retargeted was read with a scheme and an authority. -/
theorem read_of_retargetPolicy (h : retargetPolicy value registry = .ok target) :
    ∃ ref, ofPolicy value = .ok ref ∧ ref.scheme.isSome ∧ ref.authority.isSome := by
  unfold retargetPolicy at h
  split at h
  · simp at h
  · rename_i ref hread
    split at h
    · rename_i hscheme hauthority
      exact ⟨ref, hread, by simp [hscheme], by simp [hauthority]⟩
    · simp at h

/-- What a scheme, an authority and a path must be to be pushed: none is empty, and a policy in a
registry carries a tag. -/
structure Pushable (scheme authority path : String) : Prop where
  scheme_ne : scheme ≠ ""
  authority_ne : authority ≠ ""
  path_ne : path ≠ ""
  tagged : scheme = registryScheme → Tagged path

/-- The scheme that a policy has when it is pushed. -/
def pushedScheme (scheme : String) : String :=
  if downloadSchemes.contains scheme then registryScheme else scheme

theorem pushedScheme_of_mem (h : scheme ∈ registryScheme :: downloadSchemes) :
    pushedScheme scheme = registryScheme := by
  have hall : ∀ scheme ∈ registryScheme :: downloadSchemes,
      pushedScheme scheme = registryScheme := by decide
  exact hall scheme h

theorem pushedScheme_of_not_mem (h : scheme ∉ registryScheme :: downloadSchemes) :
    pushedScheme scheme = scheme := by
  rw [List.mem_cons, not_or] at h
  simp [pushedScheme, h.2]

theorem pushedScheme_ne_empty (h : scheme ≠ "") : pushedScheme scheme ≠ "" := by
  unfold pushedScheme
  split
  · decide
  · exact h

/-- A policy that was read with a scheme and an authority is retargeted. -/
theorem retargetPolicy_of_ofPolicy (registry : String) (h : ofPolicy value = .ok ref)
    (hscheme : ref.scheme = some scheme) (hnonempty : scheme ≠ "")
    (hauthority : ref.authority = some authority) :
    retargetPolicy value registry =
      .ok (pushedScheme scheme ++ "://" ++ registry ++ "/" ++ ref.path ++
        marked ":" ref.version ++ marked "@" ref.digest) := by
  have hpushed := pushedScheme_ne_empty hnonempty
  have htext : ({ ref with scheme := some (pushedScheme scheme) }.retarget registry).text =
      pushedScheme scheme ++ "://" ++ registry ++ "/" ++ ref.path ++
        marked ":" ref.version ++ marked "@" ref.digest := by
    simp [text, place, retarget, hpushed]
  simp only [retargetPolicy, h, hscheme, hauthority]
  exact congrArg Except.ok htext

namespace Located

/-- A pushable policy keeps its path, with the tag, at the registry. -/
theorem retargetPolicy_of_pushable (h : Located value scheme authority path)
    (hpush : Pushable scheme authority path) (registry : String) :
    retargetPolicy value registry =
      .ok (pushedScheme scheme ++ "://" ++ registry ++ "/" ++ path) := by
  have hread := h.ofPolicy_eq
  rw [if_neg hpush.scheme_ne] at hread
  by_cases hregistry : scheme = registryScheme
  · obtain ⟨front, version, hpath, hversion, href⟩ :=
      ofRegistryPolicy_of_tagged value hpush.authority_ne (hpush.tagged hregistry)
    rw [if_pos hregistry, href] at hread
    rw [hregistry] at hpush ⊢
    rw [retargetPolicy_of_ofPolicy registry hread rfl hpush.scheme_ne rfl]
    simp [marked, hversion, hpath, String.append_assoc]
  · rw [if_neg hregistry, if_neg hpush.path_ne, if_neg hpush.authority_ne] at hread
    rw [retargetPolicy_of_ofPolicy registry hread rfl hpush.scheme_ne rfl]
    simp [marked]

/-- A policy that is retargeted was pushable. -/
theorem pushable_of_retargetPolicy (h : Located value scheme authority path)
    (hok : retargetPolicy value registry = .ok target) : Pushable scheme authority path := by
  obtain ⟨ref, hread, -, hauthority⟩ := read_of_retargetPolicy hok
  rw [h.ofPolicy_eq] at hread
  by_cases hscheme : scheme = ""
  · simp [hscheme] at hread
  rw [if_neg hscheme] at hread
  by_cases hregistry : scheme = registryScheme
  · rw [if_pos hregistry] at hread
    obtain ⟨hnonempty, htagged⟩ := tagged_of_ofRegistryPolicy hread
    exact ⟨hscheme, hnonempty, ne_empty_of_tagged htagged, fun _ => htagged⟩
  · rw [if_neg hregistry] at hread
    by_cases hpath : path = ""
    · simp [hpath] at hread
    rw [if_neg hpath, Except.ok.injEq] at hread
    refine ⟨hscheme, ?_, hpath, fun h => absurd h hregistry⟩
    intro hempty
    simp [← hread, hempty] at hauthority

end Located

/-- A policy is retargeted exactly if it names a scheme, an authority and a path, and in a registry
a tag as well.  The path follows the registry unchanged.  A policy in a registry, or one that is
downloaded, gets the scheme of a registry.  A policy of any other scheme keeps that scheme. -/
theorem retargetPolicy_eq_ok_iff :
    retargetPolicy value registry = .ok target ↔
      ∃ scheme authority path, Located value scheme authority path ∧
        Pushable scheme authority path ∧
        (scheme ∈ registryScheme :: downloadSchemes →
          target = registryScheme ++ "://" ++ registry ++ "/" ++ path) ∧
        (scheme ∉ registryScheme :: downloadSchemes →
          target = scheme ++ "://" ++ registry ++ "/" ++ path) := by
  constructor
  · intro hok
    obtain ⟨ref, hread, hscheme, -⟩ := read_of_retargetPolicy hok
    obtain ⟨scheme, authority, path, hlocated⟩ := located_of_ofPolicy hread hscheme
    have hpush := hlocated.pushable_of_retargetPolicy hok
    rw [hlocated.retargetPolicy_of_pushable hpush, Except.ok.injEq] at hok
    refine ⟨scheme, authority, path, hlocated, hpush, ?_, ?_⟩
    · intro hmem
      rw [← hok, pushedScheme_of_mem hmem]
    · intro hmem
      rw [← hok, pushedScheme_of_not_mem hmem]
  · intro ⟨scheme, authority, path, hlocated, hpush, hregistry, hother⟩
    rw [hlocated.retargetPolicy_of_pushable hpush, Except.ok.injEq]
    by_cases hmem : scheme ∈ registryScheme :: downloadSchemes
    · rw [pushedScheme_of_mem hmem, hregistry hmem]
    · rw [pushedScheme_of_not_mem hmem, hother hmem]

/-- A policy of a scheme that is neither the registry's nor one of a download is pushed to a target
that names no registry. -/
theorem unlisted_scheme_kept :
    Located "oci://ghcr.io/policies/safe:v1" "oci" "ghcr.io" "policies/safe:v1" ∧
      retargetPolicy "oci://ghcr.io/policies/safe:v1" "mirror:5000" =
        .ok "oci://mirror:5000/policies/safe:v1" ∧
      "oci://mirror:5000/policies/safe:v1" ≠
        registryScheme ++ "://" ++ "mirror:5000" ++ "/" ++ "policies/safe:v1" := by
  have hscheme : Text.cutWord "://".toList "oci://ghcr.io/policies/safe:v1".toList =
      some ("oci".toList, "ghcr.io/policies/safe:v1".toList) := by decide
  have hauthority : Text.cutFirst '/' "ghcr.io/policies/safe:v1".toList =
      ("ghcr.io".toList, some "policies/safe:v1".toList) := by decide
  exact ⟨.of_cut hscheme hauthority, rfl, by decide⟩

end OfflineSupply.Reference
