import OfflineSupply.Discovery.Images
import OfflineSupply.Proofs.Discovery.Walk
import OfflineSupply.Proofs.Manifest.Reading

/-!
# Where the images of a document are

A place in a document is reached by a way: the numbers of the parts that are entered one after the
other, none of them at an image key.  Looking for images finds the texts at all image keys that are
reached so, in the order of their ways.  What stops it is the first thing on these ways that it does
not get past: another value than a text at an image key, or a collection that is nested too deeply.
-/

namespace OfflineSupply

namespace Document

variable {d : Document} {part inner value : Part} {way : List Nat} {atKey : Bool} {levels : Nat}
  {e : Failure}

/-! ## Ways through a document -/

/-- The parts of a list or the values of a map, in order, each with whether it is at an image key.
Nothing is looked for in other parts. -/
def children (d : Document) : Part → List (Bool × Part)
  | .scalar _ => []
  | .collection number =>
    match d.collection number with
    | .list items => items.map fun item ↦ (false, item)
    | .map entries => entries.map fun entry ↦ (entry.1 = .text (.ofString imageKey), entry.2)
    | _ => []

/-- A way leads from a part to another one: through list indices and keys that are no image keys, and
at last through an image key or not. -/
inductive Leads (d : Document) : Part → List Nat → Bool → Part → Prop
  | here (part : Part) : Leads d part [] false part
  | image {part value : Part} {i : Nat} (h : (d.children part)[i]? = some (true, value)) :
      Leads d part [i] true value
  | inside {part inner value : Part} {i : Nat} {way : List Nat} {atKey : Bool}
      (h : (d.children part)[i]? = some (false, inner)) (hrest : Leads d inner way atKey value) :
      Leads d part (i :: way) atKey value

/-- A way leads to one place only. -/
theorem Leads.unique {atKey' : Bool} {value' : Part} (h : d.Leads part way atKey value)
    (h' : d.Leads part way atKey' value') : atKey = atKey' ∧ value = value' := by
  induction h with
  | here =>
    cases h'
    exact ⟨rfl, rfl⟩
  | image hchild =>
    cases h' with
    | image hchild' =>
      rw [hchild, Option.some.injEq, Prod.mk.injEq] at hchild'
      exact hchild'
    | inside hchild' =>
      rw [hchild] at hchild'
      simp at hchild'
  | inside hchild _ ih =>
    cases h' with
    | image hchild' =>
      rw [hchild] at hchild'
      simp at hchild'
    | inside hchild' hrest' =>
      rw [hchild, Option.some.injEq, Prod.mk.injEq] at hchild'
      exact ih (hchild'.2 ▸ hrest')

/-- A part that is the text of an image. -/
def HoldsText (d : Document) (part : Part) (way : List Nat) (text : RawText) : Prop :=
  d.Leads part way true (.scalar (.text text))

/-- What stops the search for images in a part that is followed so many levels deep. -/
inductive Stops (d : Document) (levels : Nat) (part : Part) : List Nat → Failure → Prop
  | deep {way : List Nat} {number : Nat} (h : d.Leads part way false (.collection number))
      (hlength : way.length = levels) : Stops d levels part way (.breakdown .nestedTooDeeply)
  | noText {way : List Nat} {value : Part} (h : d.Leads part way true value)
      (hvalue : ∀ text, value ≠ .scalar (.text text)) :
      Stops d levels part way (d.imageFailure value)

theorem Stops.unique {e' : Failure} (h : d.Stops levels part way e)
    (h' : d.Stops levels part way e') : e = e' := by
  cases h with
  | deep hdeep =>
    cases h' with
    | deep => rfl
    | noText hvalue' => exact absurd (hdeep.unique hvalue').1 (by simp)
  | noText hvalue =>
    cases h' with
    | deep hdeep' => exact absurd (hvalue.unique hdeep').1 (by simp)
    | noText hvalue' => rw [(hvalue.unique hvalue').2]

/-- What a child holds: itself if it is at an image key and a text, and what is reached in it
otherwise. -/
def ChildHolds (d : Document) (child : Bool × Part) (way : List Nat) (text : RawText) : Prop :=
  if child.1 then way = [] ∧ child.2 = .scalar (.text text) else d.HoldsText child.2 way text

def ChildStops (d : Document) (levels : Nat) (child : Bool × Part) (way : List Nat)
    (e : Failure) : Prop :=
  if child.1 then
    way = [] ∧ (∀ text, child.2 ≠ .scalar (.text text)) ∧ e = d.imageFailure child.2
  else d.Stops levels child.2 way e

/-- The images in a child. -/
def childImages (d : Document) (levels : Nat) (child : Bool × Part) :
    Except Failure (List RawText) :=
  if child.1 then (d.image child.2).map ([·]) else d.imagesIn levels child.2

theorem imagesIn_succ : d.imagesIn (levels + 1) part =
    ((d.children part).mapM (d.childImages levels)).map List.flatten := by
  cases part with
  | scalar value => rfl
  | collection number =>
    simp only [imagesIn, children]
    cases d.collection number with
    | list items =>
      simp only [List.mapM_map]
      rfl
    | map entries =>
      have hentry (entry : Scalar × Part) :
          (if entry.1 = .text (.ofString imageKey) then (d.image entry.2).map ([·])
            else d.imagesIn levels entry.2) =
          d.childImages levels (entry.1 = .text (.ofString imageKey), entry.2) := by
        simp only [childImages, decide_eq_true_eq]
      simp only [List.mapM_map, hentry]
      rfl
    | pairs entries => rfl
    | set members => rfl

variable {text : RawText}

theorem holdsText_iff : d.HoldsText part way text ↔
    InOneOf 0 (d.children part) d.ChildHolds way text := by
  constructor
  · intro h
    cases h with
    | @image _ _ i hchild => exact ⟨i, [], _, by rw [Nat.zero_add], hchild, ⟨rfl, rfl⟩⟩
    | @inside _ inner _ i rest _ hchild hrest =>
      exact ⟨i, rest, _, by rw [Nat.zero_add], hchild, hrest⟩
  · intro ⟨i, rest, ⟨atKey, child⟩, hway, hchild, hin⟩
    rw [Nat.zero_add] at hway
    rw [hway]
    cases atKey with
    | true =>
      obtain ⟨rfl, rfl⟩ : rest = [] ∧ child = .scalar (.text text) := hin
      exact .image hchild
    | false => exact .inside hchild hin

theorem stops_succ_iff : d.Stops (levels + 1) part way e ↔
    InOneOf 0 (d.children part) (d.ChildStops levels) way e := by
  constructor
  · intro h
    cases h with
    | deep h hlength =>
      cases h with
      | here => simp at hlength
      | @inside _ inner _ i rest _ hchild hrest =>
        have hlength' : rest.length = levels := by simpa using hlength
        exact ⟨i, rest, _, by rw [Nat.zero_add], hchild, .deep hrest hlength'⟩
    | noText h hvalue =>
      cases h with
      | @image _ _ i hchild => exact ⟨i, [], _, by rw [Nat.zero_add], hchild, rfl, hvalue, rfl⟩
      | @inside _ inner _ i rest _ hchild hrest =>
        exact ⟨i, rest, _, by rw [Nat.zero_add], hchild, .noText hrest hvalue⟩
  · intro ⟨i, rest, ⟨atKey, child⟩, hway, hchild, hin⟩
    rw [Nat.zero_add] at hway
    rw [hway]
    cases atKey with
    | true =>
      obtain ⟨rfl, hvalue, rfl⟩ :
          rest = [] ∧ (∀ text, child ≠ .scalar (.text text)) ∧ e = d.imageFailure child := hin
      exact .noText (.image hchild) hvalue
    | false =>
      have hstops : d.Stops levels child rest e := hin
      cases hstops with
      | deep h hlength => exact .deep (.inside hchild h) (by simp [hlength])
      | noText h hvalue => exact .noText (.inside hchild h) hvalue

/-- The value at an image key is an image if it is a text, and stops the search otherwise. -/
theorem walks_image (d : Document) (value : Part) :
    Walks (fun way text ↦ way = [] ∧ value = .scalar (.text text))
      (fun way e ↦ way = [] ∧ (∀ text, value ≠ .scalar (.text text)) ∧ e = d.imageFailure value)
      ((d.image value).map ([·])) := by
  unfold image
  split
  · rename_i text
    refine ⟨fun way e hstop ↦ hstop.2.1 text rfl, [([], text)], List.pairwise_singleton _ _, ?_, rfl⟩
    intro way text'
    change _ ↔ way = [] ∧ Part.scalar (.text text) = .scalar (.text text')
    rw [List.mem_singleton, Prod.mk.injEq, Part.scalar.injEq, Scalar.text.injEq, eq_comm (a := text)]
  · rename_i value hvalue
    exact ⟨[], ⟨rfl, hvalue, rfl⟩, fun _ _ _ ↦ List.not_lt_nil _⟩

theorem not_holdsText_scalar {scalar : Scalar} : ¬ d.HoldsText (.scalar scalar) way text := by
  intro h
  cases h with
  | image hchild => simp [children] at hchild
  | inside hchild => simp [children] at hchild

theorem not_stops_scalar {scalar : Scalar} : ¬ d.Stops levels (.scalar scalar) way e := by
  intro h
  cases h with
  | deep h =>
    cases h with
    | inside hchild => simp [children] at hchild
  | noText h =>
    cases h with
    | image hchild => simp [children] at hchild
    | inside hchild => simp [children] at hchild

/-- Looking for images is a walk through the document. -/
theorem walks_imagesIn (d : Document) (levels : Nat) (part : Part) :
    Walks (d.HoldsText part) (d.Stops levels part) (d.imagesIn levels part) := by
  induction levels generalizing part with
  | zero =>
    cases part with
    | scalar value =>
      refine ⟨fun way e ↦ not_stops_scalar, [], .nil, ?_, rfl⟩
      intro way text
      exact iff_of_false (by simp) not_holdsText_scalar
    | collection number => exact ⟨[], .deep (.here _) rfl, fun _ _ _ ↦ List.not_lt_nil _⟩
  | succ levels ih =>
    have hholds : d.HoldsText part = InOneOf 0 (d.children part) d.ChildHolds := by
      funext way text
      exact propext holdsText_iff
    have hstops : d.Stops (levels + 1) part =
        InOneOf 0 (d.children part) (d.ChildStops levels) := by
      funext way e
      exact propext stops_succ_iff
    rw [imagesIn_succ, hholds, hstops]
    apply walks_mapM
    intro ⟨atKey, child⟩ _
    cases atKey with
    | true => exact d.walks_image child
    | false => exact ih child

/-! ## The images of a document -/

/-- No collection is nested too deeply to be followed on the ways through a document. -/
def IsShallow (d : Document) : Prop :=
  ∀ way number, d.Leads d.root way false (.collection number) → way.length ≠ nestingLimit

/-- What is no text at an image key can be written into a message. -/
def ShowsMistakes (d : Document) : Prop :=
  ∀ way value, d.Leads d.root way true value → (∀ text, value ≠ .scalar (.text text)) →
    ∃ tree, d.imageFailure value = .discovery (.imageNotText tree)

/-- Something else than a text is at an image key. -/
def HasMistake (d : Document) : Prop :=
  ∃ way value, d.Leads d.root way true value ∧ ∀ text, value ≠ .scalar (.text text)

/-- If nothing is nested too deeply and all mistakes can be shown, a discovery fails exactly if there
is a mistake. -/
theorem images_fail_iff (hshallow : d.IsShallow) (hshown : d.ShowsMistakes) :
    (∃ cause, d.images = .error (.discovery cause)) ↔ d.HasMistake := by
  have hwalks := d.walks_imagesIn nestingLimit d.root
  change Walks _ _ d.images at hwalks
  constructor
  · intro ⟨cause, hcause⟩
    rw [hcause] at hwalks
    obtain ⟨way, hstop, -⟩ := hwalks
    generalize hfailure : (Failure.discovery cause) = failure at hstop
    cases hstop with
    | deep => cases hfailure
    | @noText value h hvalue => exact ⟨way, value, h, hvalue⟩
  · intro ⟨way, value, h, hvalue⟩
    cases himages : d.images with
    | ok found =>
      rw [himages] at hwalks
      exact absurd (.noText h hvalue) (hwalks.1 way _)
    | error e =>
      rw [himages] at hwalks
      obtain ⟨way', hstop, -⟩ := hwalks
      cases hstop with
      | @deep number h' hlength => exact absurd hlength (hshallow way' number h')
      | @noText value' h' hvalue' =>
        obtain ⟨tree, htree⟩ := hshown way' value' h' hvalue'
        exact ⟨_, congrArg Except.error htree⟩

/-- The images of a document are the texts at all its image keys, in the order of their ways and each
as often as it stands there, unless something stops the search; then its failure is that of the
first such thing.  If nothing is nested too deeply and all mistakes can be shown, it is a discovery
that fails, and exactly if something else than a text is at an image key.  The images of a stream are
those of its documents, one after the other, up to the first failure. -/
theorem images_in_document_order (d : Document) (content : String) :
    (∀ found, d.images = .ok found ↔
      (∀ way e, ¬ d.Stops nestingLimit d.root way e) ∧ Enumerates (d.HoldsText d.root) found) ∧
    (∀ e, d.images = .error e ↔ IsFirst (d.Stops nestingLimit d.root) e) ∧
    (d.IsShallow → d.ShowsMistakes →
      ((∃ cause, d.images = .error (.discovery cause)) ↔ d.HasMistake) ∧
        (¬ d.HasMistake → ∃ found, d.images = .ok found)) ∧
    ∀ documents, Yaml.load content = .ok documents →
      (∀ found, chartImages content = .ok found ↔ ∃ parts,
        List.Forall₂ (fun document images ↦ document.images = .ok images) documents parts ∧
          found = parts.flatten) ∧
      ∀ e, chartImages content = .error e ↔ ∃ before document after,
        documents = before ++ document :: after ∧
          (∀ earlier ∈ before, ∃ found, earlier.images = .ok found) ∧
          document.images = .error e := by
  have hwalks : Walks (d.HoldsText d.root) (d.Stops nestingLimit d.root) d.images :=
    d.walks_imagesIn nestingLimit d.root
  have hfailed (e : Failure) : d.images = .error e ↔ IsFirst (d.Stops nestingLimit d.root) e :=
    hwalks.eq_error_iff fun _ _ _ h h' ↦ h.unique h'
  refine ⟨fun _ ↦ hwalks.eq_ok_iff, hfailed, ?_, ?_⟩
  · intro hshallow hshown
    refine ⟨images_fail_iff hshallow hshown, ?_⟩
    intro hnone
    cases himages : d.images with
    | ok found => exact ⟨found, rfl⟩
    | error e =>
      obtain ⟨way, hstop, -⟩ := (hfailed e).mp himages
      cases hstop with
      | @deep number h hlength => exact absurd hlength (hshallow way number h)
      | @noText value h hvalue => exact absurd ⟨way, value, h, hvalue⟩ hnone
  · intro documents hdocuments
    unfold chartImages
    rw [hdocuments]
    constructor
    · intro found
      change (documents.mapM images).map List.flatten = .ok found ↔ _
      simp only [map_eq_ok_iff, mapM_eq_ok_iff, eq_comm (a := found)]
    · intro e
      change (documents.mapM images).map List.flatten = .error e ↔ _
      rw [map_eq_error_iff, mapM_eq_error_iff]

/-! ## A mistake that cannot be shown -/

/-- A map with a number at an image key and nothing else. -/
def numbered (n : Int) : Document where
  root := .collection 0
  collections := #[.map [(.text (.ofString imageKey), .scalar (.integer n))]]

/-- A number that is too long to be shown breaks the search for images off, where the mistake should
have been told of. -/
theorem images_numbered {n : Int} (h : power 10 Scalar.decimalLimit ≤ n.natAbs) :
    (numbered n).HasMistake ∧ (numbered n).images = .error (.breakdown .numberTooLong) := by
  have hlong : (Scalar.integer n).isTooLong = true := by
    rw [Scalar.isTooLong, decide_eq_true_iff]
    exact h
  have hchildren : (numbered n).children (numbered n).root = [(true, .scalar (.integer n))] := by
    simp [children, numbered, collection]
  have hfailure : (numbered n).imageFailure (.scalar (.integer n)) =
      .breakdown .numberTooLong := by
    simp only [imageFailure, tree?, Datum.isTooLong, hlong, if_true]
  constructor
  · refine ⟨[0], _, .image (by rw [hchildren]; rfl), by simp⟩
  · change (numbered n).imagesIn (979 + 1) (numbered n).root = _
    have himage : (numbered n).image (.scalar (.integer n)) =
        .error (.breakdown .numberTooLong) := congrArg Except.error hfailure
    rw [imagesIn_succ, hchildren, List.mapM_cons, childImages, if_pos rfl, himage]
    rfl

/-- The least such number. -/
theorem long_number_breaks : (numbered (power 10 Scalar.decimalLimit)).HasMistake ∧
    (numbered (power 10 Scalar.decimalLimit)).images = .error (.breakdown .numberTooLong) := by
  have hlong : power 10 Scalar.decimalLimit ≤ (power 10 Scalar.decimalLimit : Int).natAbs :=
    Nat.le_of_eq (Int.natAbs_natCast _).symm
  exact images_numbered hlong

end Document

end OfflineSupply
