import OfflineSupply.Proofs.Reference.Image
import OfflineSupply.Proofs.Reference.Policy
import OfflineSupply.Reference.Chart

/-!
# References are spelled as they were read

A chart is cut at the last slash and at the last colon, a policy at the first mark of a scheme and
at the first slash behind it, an image at the first at-sign and at the first slash, and both of
these at the first colon of their last name.  Whatever the order of the cuts, writing the parts of a
reference gives back the text that it was read from, so no two texts are read as the same reference.
-/

namespace OfflineSupply.Reference

variable {value : String} {ref : Reference}

/-- What a reference names. -/
inductive Kind where
  | chart
  | policy
  | image
  deriving DecidableEq, Repr

/-- The reference that a text spells. -/
def Kind.read : Kind → String → Except Error Reference
  | chart => ofChart
  | policy => ofPolicy
  | image => ofImage

/-! ## Charts -/

/-- The parts of a chart that are put together are told apart again, whatever separators there are
in the address and whatever colons in the name. -/
theorem ofChart_append {repository name version : List Char} (hrepository : repository ≠ [])
    (hname : name ≠ [] ∧ '/' ∉ name) (hversion : version ≠ [] ∧ '/' ∉ version ∧ ':' ∉ version) :
    ofChart (String.ofList (repository ++ '/' :: (name ++ ':' :: version))) = .ok
      { authority := some (String.ofList repository)
        path := String.ofList name
        version := some (String.ofList version) } := by
  have hlast : '/' ∉ name ++ ':' :: version := by
    simp [hname.2, hversion.2.1]
  unfold ofChart
  rw [String.toList_ofList, Text.cutLast_append repository hlast]
  obtain ⟨c, rest, rfl⟩ := List.exists_cons_of_ne_nil hrepository
  simp only [Text.cutLast_append name hversion.2.2]
  rw [if_neg (by simp [hname.1, hversion.1])]

theorem text_of_ofChart (h : ofChart value = .ok ref) : ref.text = value := by
  unfold ofChart at h
  split at h
  · simp at h
  · simp at h
  · rename_i repository last hrepository hslash
    split at h
    · simp at h
    · rename_i name version hcolon
      split at h
      · simp at h
      · rename_i hparts
        rw [Bool.or_eq_true, List.isEmpty_iff, List.isEmpty_iff, not_or] at hparts
        have hvalue : value.toList = repository ++ '/' :: (name ++ ':' :: version) := by
          rw [← Text.cutLast_eq_append hcolon]
          exact Text.cutLast_eq_append hslash
        have hauthority : String.ofList repository ≠ "" := by
          simpa [← String.toList_inj] using hrepository
        have hversion : String.ofList version ≠ "" := by
          simpa [← String.toList_inj] using hparts.2
        rw [← Except.ok.inj h, ← String.toList_inj, hvalue]
        simp [text, place, marked, hauthority, hversion]

/-! ## Policies -/

theorem text_of_ofRegistryPolicy {authority : List Char} {path : Option (List Char)}
    (h : ofRegistryPolicy value authority path = .ok ref) :
    ref.text = registryScheme ++ "://" ++ String.ofList authority ++ "/" ++
      String.ofList (path.getD []) := by
  rcases hsplit : splitVersion (path.getD []) with ⟨front, version⟩
  unfold ofRegistryPolicy at h
  simp only [hsplit] at h
  split at h
  · simp at h
  · split at h
    · simp at h
    · rename_i hversion
      cases version with
      | none => simp at hversion
      | some version =>
        rw [Option.getD_some, List.isEmpty_iff] at hversion
        have hscheme : registryScheme ≠ "" := by decide
        rw [← append_marked_splitVersion hsplit (by simpa using hversion), ← Except.ok.inj h]
        simp [text, place, marked_none, hscheme, String.append_assoc]

theorem text_of_ofPolicy (h : ofPolicy value = .ok ref) : ref.text = value := by
  unfold ofPolicy at h
  split at h
  · simp at h
  · split at h
    · rw [← Except.ok.inj h]
      simp [text, place, marked_none]
    · rename_i scheme rest hword
      split at h
      · simp at h
      · rename_i hscheme
        have hnonempty : String.ofList scheme ≠ "" := by
          simpa [← String.toList_inj] using hscheme
        have hvalue := (Text.cutWord_eq_some_iff.mp hword).1
        rcases hslash : Text.cutFirst '/' rest with ⟨authority, _ | path⟩
        · -- Without a slash there is no path, and the policy is refused.
          simp only [hslash, ofRegistryPolicy] at h
          split at h <;> simp at h
        · rw [Text.cutFirst_eq_append hslash] at hvalue
          simp only [hslash, Option.getD_some] at h
          split at h
          · rename_i hregistry
            rw [text_of_ofRegistryPolicy h, ← hregistry, ← String.toList_inj, hvalue]
            simp
          · split at h
            · simp at h
            · rw [← Except.ok.inj h, ← String.toList_inj, hvalue]
              cases authority <;> simp [text, place, marked_none, hnonempty]

/-! ## All kinds -/

/-- Whatever a text is read as, the reference is written as that text, and no other text is read as
the same reference. -/
theorem text_of_read {k : Kind} (h : k.read value = .ok ref) :
    ref.text = value ∧ ∀ value', k.read value' = .ok ref → value' = value := by
  have htext {v : String} (hv : k.read v = .ok ref) : ref.text = v := by
    cases k with
    | chart => exact text_of_ofChart hv
    | policy => exact text_of_ofPolicy hv
    | image => exact text_of_ofImage hv
  refine ⟨htext h, ?_⟩
  intro value' h'
  calc
    value' = ref.text := (htext h').symm
    _ = value := htext h

/-- A text is read as a reference that is written as this text, and that no other text is read
as. -/
def Kind.Keeps (k : Kind) (value : String) : Prop :=
  ∃ ref, k.read value = .ok ref ∧ ref.text = value ∧ ∀ value', k.read value' = .ok ref → value' = value

/-- A chart with two colons below an address that ends with a slash, a policy of an unknown scheme
without an authority, and an image with separators in its path, in its tag and in its digest. -/
theorem crowded_references_read :
    Kind.chart.Keeps "https://c.example//x:1:2" ∧ Kind.policy.Keeps "oci:////safe:v1" ∧
      Kind.image.Keeps "localhost/a//b:1:2@sha256:0@/" := by
  have hchart : Kind.chart.read "https://c.example//x:1:2" = .ok _ := rfl
  have hpolicy : Kind.policy.read "oci:////safe:v1" = .ok _ := rfl
  have himage : Kind.image.read "localhost/a//b:1:2@sha256:0@/" = .ok _ := rfl
  exact ⟨⟨_, hchart, text_of_read hchart⟩, ⟨_, hpolicy, text_of_read hpolicy⟩,
    ⟨_, himage, text_of_read himage⟩⟩

end OfflineSupply.Reference
