import OfflineSupply.Manifest.File
import OfflineSupply.Proofs.FileTree.Change
import OfflineSupply.Proofs.Json.Document
import OfflineSupply.Proofs.Session.Returns

/-!
# Manifest files read back

The document of a manifest holds its three lists in their order, and the text of the document holds
the document.  A file keeps the octets that are written to it, and what is written has no line
break but line feeds, so that the manifest which is read is the one that was written.  A device keeps
nothing: what is written there cannot be read back.
-/

namespace OfflineSupply

namespace Text

/-- A text without carriage returns is read with the line breaks that it has. -/
theorem unifyBreaks_eq_self {cs : List Char} (h : '\r' ∉ cs) : unifyBreaks cs = cs := by
  induction cs with
  | nil => rfl
  | cons c cs ih =>
    rw [List.mem_cons, not_or] at h
    rw [unifyBreaks, if_neg (Ne.symm h.1), ih h.2]
    rintro rest rfl -
    exact h.1 rfl

end Text

namespace Json

variable {cs : List Char} {gap : String} {doc : Json}

theorem Opens.allBlank (h : Opens cs) : Text.allBlank cs = false := by
  obtain ⟨c, tail, rfl, hc⟩ := h
  have hall : ∀ c ∈ ['n', 't', 'f', '\x22', '[', '\x7b'], Text.isBlank c = false :=
    List.all_iff_forall_prop.mp (by decide)
  rw [Text.allBlank, List.all_cons, hall c hc, Bool.false_and]

theorem toList_render_append (spread : Spread) (doc : Json) (gap : String) :
    (doc.render spread ++ gap).toList = write spread 0 doc ++ gap.toList := by
  rw [render, String.toList_append, String.toList_ofList]

end Json

namespace RawText

@[simp]
theorem joined_ofString (text : String) : (ofString text).joined = ofString text :=
  joined_ofChars text.toList

theorem map_joined_ofString (texts : List String) :
    (texts.map ofString).map joined = texts.map ofString := by
  have hjoined : joined ∘ ofString = ofString := funext joined_ofString
  rw [List.map_map, hjoined]

theorem map_text_ofString (texts : List String) : (texts.map ofString).map text = texts := by
  have htext : text ∘ ofString = id := funext text_ofString
  rw [List.map_map, htext, List.map_id]

end RawText

namespace Manifest

variable {Image : Type} [ToRawText Image] {gap : String}

/-! ## The document of a manifest -/

/-- The document of a list of texts. -/
def listed (items : List RawText) : Json :=
  .array (items.map .string)

theorem textual_listed (items : List RawText) : (listed items).Textual := by
  apply Json.Textual.array
  intro item hitem
  rw [List.mem_map] at hitem
  obtain ⟨text, -, rfl⟩ := hitem
  exact .string text

theorem texts?_listed (items : List RawText) : (listed items).texts? = some items := by
  change (items.map Json.string).mapM Json.raw? = some items
  induction items with
  | nil => rfl
  | cons item items ih =>
    rw [List.map_cons, List.mapM_cons, Json.raw?, ih]
    rfl

theorem joined_listed (items : List RawText) :
    (listed items).joined = listed (items.map RawText.joined) := by
  rw [listed, listed, Json.joined]
  congr 1
  induction items with
  | nil => rfl
  | cons item items ih =>
    rw [List.map_cons, Json.joinedItems, ih]
    rfl

theorem document_eq (m : Manifest Image) : m.document = .object
    [(.ofString imagesCategory, listed (m.images.map ToRawText.raw)),
      (.ofString policiesCategory, listed (m.policies.map RawText.ofString)),
      (.ofString chartsCategory, listed (m.charts.map RawText.ofString))] := by
  simp only [document, Json.ofMembers, listed, List.map_cons, List.map_nil, List.map_map]
  rfl

theorem textual_document (m : Manifest Image) : m.document.Textual := by
  rw [document_eq]
  apply Json.Textual.object
  · change [RawText.ofString imagesCategory, .ofString policiesCategory,
      .ofString chartsCategory].Nodup
    decide
  · intro entry hentry
    simp only [List.mem_cons, List.not_mem_nil, or_false] at hentry
    rcases hentry with rfl | rfl | rfl <;> exact ⟨_, rfl⟩
  · intro entry hentry
    simp only [List.mem_cons, List.not_mem_nil, or_false] at hentry
    rcases hentry with rfl | rfl | rfl <;> exact textual_listed _

theorem category_of_get? {doc : Json} {name : String} {items : List RawText}
    (h : doc.get? name = some (listed items)) : category doc name = .ok items := by
  rw [category, h]
  simp only [texts?_listed]

/-- A manifest with the halves joined in its images. -/
def joined (m : Manifest RawText) : Manifest RawText :=
  { m with images := m.images.map RawText.joined }

/-- A manifest with its images as raw texts. -/
def toRaw (m : Manifest) : Manifest RawText :=
  { images := m.images.map RawText.ofString, policies := m.policies, charts := m.charts }

theorem map_raw (images : List RawText) : images.map ToRawText.raw = images :=
  List.map_id images

theorem joined_document (m : Manifest RawText) : m.document.joined = m.joined.document := by
  simp only [document_eq, map_raw, joined, Json.joined, Json.joinedMembers, joined_listed,
    RawText.map_joined_ofString, RawText.joined_ofString]

/-- A manifest's document holds the manifest. -/
theorem ofDocument_document (m : Manifest RawText) : ofDocument m.document = .ok m := by
  have himages : category m.document imagesCategory = .ok (m.images.map ToRawText.raw) :=
    category_of_get? (document_eq m ▸ rfl)
  have hpolicies : category m.document policiesCategory =
      .ok (m.policies.map RawText.ofString) := category_of_get? (document_eq m ▸ rfl)
  have hcharts : category m.document chartsCategory = .ok (m.charts.map RawText.ofString) :=
    category_of_get? (document_eq m ▸ rfl)
  rw [document_eq] at *
  rw [ofDocument, himages, hpolicies, hcharts, map_raw]
  simp only [bind, Except.bind, RawText.map_text_ofString]

/-! ## Its text -/

/-- The text of a manifest holds the manifest with the halves joined in its images, whatever gap
follows it. -/
theorem parseRaw_render_append (m : Manifest RawText)
    (hgap : ∀ c ∈ gap.toList, Json.isGap c = true) : parseRaw (m.render ++ gap) = .ok m.joined := by
  have hchars : (m.render ++ gap).toList =
      Json.write (.indented 2) 0 m.document ++ gap.toList := Json.toList_render_append _ _ _
  have hopens := ((textual_document m).opens_write (.indented 2) 0).append gap.toList
  have hdoc : Json.parse (m.render ++ gap) = .ok m.joined.document := by
    rw [Json.parse, hchars, ← joined_document]
    exact (textual_document m).parseChars_write (.indented 2) hgap
  rw [parseRaw, hchars, hopens.allBlank, hdoc]
  exact ofDocument_document m.joined

theorem render_toRaw (m : Manifest) : m.toRaw.render = m.render := by
  rw [render, render, document_eq, document_eq, toRaw, List.map_map]
  rfl

/-- Images without halves are read as they are. -/
theorem ofRaw_joined_toRaw (m : Manifest) : ofRaw m.toRaw.joined = m := by
  rw [ofRaw, joined, toRaw, RawText.map_joined_ofString, RawText.map_text_ofString]

/-- The text of a manifest holds the manifest, whatever gap follows it. -/
theorem parse_render_append (m : Manifest) (hgap : ∀ c ∈ gap.toList, Json.isGap c = true) :
    parse (m.render ++ gap) = .ok m := by
  rw [parse, ← render_toRaw, parseRaw_render_append m.toRaw hgap, Except.map, ofRaw_joined_toRaw]

theorem return_not_mem_render (m : Manifest Image) (hgap : '\r' ∉ gap.toList) :
    '\r' ∉ (m.render ++ gap).toList := by
  rw [render, Json.toList_render_append, List.mem_append, not_or]
  refine ⟨?_, hgap⟩
  intro hmem
  cases (textual_document m).tame_of_mem_write hmem with
  | inl hline => exact absurd hline (by decide)
  | inr hcontrol => exact absurd hcontrol (by decide)

end Manifest

/-! ## Files and devices -/

namespace FileTree

/-- A path at which nothing is kept. -/
def NamesDevice (t : FileTree) (p : Path) : Prop :=
  t.lookup p = .ok .outputDevice ∨ t.lookup p = .ok .nullDevice

/-- A path at which something can be written: it leads somewhere, and no directory is there. -/
def Takes (t : FileTree) (p : Path) : Prop :=
  ∃ at_, t.locate p = .ok at_ ∧ t.find? at_ ≠ some .directory

theorem write_isOk_iff {t : FileTree} {p : Path} {content : ByteArray} :
    (∃ t', t.write p content = .ok t') ↔ t.Takes p := by
  unfold write Takes
  cases t.locate p with
  | error problem => simp
  | ok at_ =>
    cases hfound : t.find? at_ with
    | none => simp [hfound]
    | some entry => cases entry <;> simp [hfound]

/-- A file is put where neither a directory nor a device is. -/
theorem write_eq_ok {t t' : FileTree} {p : Path} {content : ByteArray}
    (hdevice : ¬ t.NamesDevice p) (h : t.write p content = .ok t') :
    ∃ at_, t.locate p = .ok at_ ∧ t.find? at_ ≠ some .directory ∧
      t' = t.put at_ (.file content) := by
  unfold write at h
  cases hlocate : t.locate p with
  | error problem => simp [hlocate] at h
  | ok at_ =>
    simp only [hlocate] at h
    have hlookup (entry : FileEntry) (hfound : t.find? at_ = some entry) :
        t.lookup p = .ok entry := lookup_eq_ok.mpr ⟨at_, hlocate, hfound⟩
    refine ⟨at_, rfl, ?_⟩
    split at h
    · cases h
    · rename_i hfound
      exact absurd (.inl (hlookup _ hfound)) hdevice
    · rename_i hfound
      exact absurd (.inr (hlookup _ hfound)) hdevice
    · rename_i hdirectory _ _
      exact ⟨hdirectory, (Except.ok.inj h).symm⟩

/-- What is written where no device is can be read. -/
theorem read_of_write {t t' : FileTree} {p : Path} {content : ByteArray}
    (hdevice : ¬ t.NamesDevice p) (h : t.write p content = .ok t') : t'.read p = .ok content := by
  obtain ⟨at_, hlocate, hdirectory, rfl⟩ := write_eq_ok hdevice h
  have hroot : at_ ≠ [] := by
    rintro rfl
    exact hdirectory find?_nil
  have hlookup : (t.put at_ (.file content)).lookup p = .ok (.file content) :=
    lookup_eq_ok.mpr ⟨at_, locate_put_file hdirectory hlocate, find?_put_self hroot⟩
  rw [read, hlookup]

end FileTree

namespace Manifest

variable {Image : Type} [ToRawText Image] {m : Manifest Image} {p : Path} {host host' : Host}
  {s s' s₁ : Session}

theorem returns_store (hdevice : ¬ s.files.NamesDevice p) :
    Action.Returns host s (store p m) () s' ↔
      ∃ files, s.files.write p (m.render ++ "\n").toUTF8 = .ok files ∧ { s with files } = s' := by
  unfold store Action.writeText
  rw [Action.returns_files_bind]
  split
  · rename_i hlookup
    exact absurd (.inl hlookup) hdevice
  · exact Action.returns_changeFiles

/-- Storing returns where something can be written, and otherwise fails and changes nothing. -/
theorem ensures_store : Action.Ensures host s (store p m) fun r s' ↦
    (r = .ok () ∧ s.files.Takes p) ∨ (s' = s ∧ (∃ e, r = .error e) ∧ ¬ s.files.Takes p) := by
  unfold store Action.writeText
  rw [Action.ensures_files_bind]
  split
  · rename_i hlookup
    obtain ⟨at_, hlocate, hfound⟩ := FileTree.lookup_eq_ok.mp hlookup
    exact .inl ⟨rfl, at_, hlocate, by simp [hfound]⟩
  · rw [Action.ensures_changeFiles, ← FileTree.write_isOk_iff]
    cases s.files.write p (m.render ++ "\n").toUTF8 with
    | ok files => exact .inl ⟨rfl, files, rfl⟩
    | error e => exact .inr ⟨rfl, ⟨_, rfl⟩, by simp⟩

/-- The text that the file at a path is read as. -/
def Spells (t : FileTree) (file : Path) (text : String) : Prop :=
  ∃ octets written, t.read file = .ok octets ∧ Text.strictText? octets = some written ∧
    text = String.ofList (Text.unifyBreaks written.toList)

theorem run_files_bind {α : Type} {f : FileTree → Action α} :
    (Action.files >>= f).run host s = (f s.files).run host s := rfl

theorem run_fileText_of_spells {text : String} (h : Spells s.files p text) :
    (fileText p).run host s = (.ok text, s) := by
  obtain ⟨octets, written, hread, hwritten, rfl⟩ := h
  unfold fileText
  rw [run_files_bind]
  simp only [hread, hwritten]
  rfl

theorem parse_stored (m : Manifest) : parse (m.render ++ "\n") = .ok m :=
  parse_render_append m (List.all_iff_forall_prop.mp (by decide))

theorem spells_stored (m : Manifest Image) {t : FileTree} (hread : t.read p = .ok (m.render ++ "\n").toUTF8) :
    Spells t p (m.render ++ "\n") := by
  have hreturn : '\r' ∉ (m.render ++ "\n").toList := return_not_mem_render m (by decide)
  have htext : m.render ++ "\n" =
      String.ofList (Text.unifyBreaks (m.render ++ "\n").toList) := by
    rw [Text.unifyBreaks_eq_self hreturn, String.ofList_toList]
  exact ⟨_, _, hread, Text.strictText?_toUTF8 _, htext⟩

/-- The text that was stored is loaded. -/
theorem exists_returns_load {m : Manifest} (hread : s.files.read p = .ok (m.render ++ "\n").toUTF8) :
    ∃ s', Action.Returns host s (load p) m s' ∧ s'.files = s.files := by
  have htext : Action.Returns host s (fileText p) (m.render ++ "\n") s :=
    run_fileText_of_spells (spells_stored m hread)
  refine ⟨_, Action.returns_bind.mpr ⟨_, s, htext, Action.returns_bind.mpr
    ⟨m, s, Action.returns_ofExcept.mpr ⟨parse_stored m, rfl⟩,
      Action.returns_bind.mpr ⟨(), _, rfl, rfl⟩⟩⟩, rfl⟩

/-! ## From a file and back -/

/-- A manifest is read from its text; and where it could be stored at a path that names no device, it is
loaded from there with its lists in their order, on any host, as long as the files are as they were
left. -/
theorem parse_render_and_load_store (m : Manifest) :
    parse m.render = .ok m ∧
      ∀ (host host' : Host) (p : Path) (s s' s₁ : Session), ¬ s.files.NamesDevice p →
        Action.Returns host s (store p m) () s' → s₁.files = s'.files →
          ∃ s₂, Action.Returns host' s₁ (load p) m s₂ ∧ s₂.files = s'.files := by
  constructor
  · have hrender : m.render ++ "" = m.render := String.append_empty
    rw [← hrender]
    exact parse_render_append m (by simp)
  · intro host host' p s s' s₁ hdevice hstore hfiles
    obtain ⟨files, hwrite, rfl⟩ := (returns_store hdevice).mp hstore
    have hread : s₁.files.read p = .ok (m.render ++ "\n").toUTF8 := by
      rw [hfiles]
      exact FileTree.read_of_write hdevice hwrite
    obtain ⟨s₂, hload, hkept⟩ : ∃ s₂, Action.Returns host' s₁ (load p) m s₂ ∧
        s₂.files = s₁.files := exists_returns_load hread
    exact ⟨s₂, hload, hkept.trans hfiles⟩

/-- A host on which nothing happens. -/
def idleHost : Host where
  launch s _ := { files := s.files }
  fetch _ _ := .refused ""
  hasProgram _ := true
  scratchFile _ := Path.here
  stopwatch _ := "0"

/-- Texts with quotes, control characters and a character of two halves, one of them twice. -/
def crowdedManifest : Manifest where
  images := ["a\"b\\c/\n\r\t\u0001\u007f", "\u0000\u00e9\uffff𝄞", "a\"b\\c/\n\r\t\u0001\u007f"]
  charts := ["", "\u2028"]

def manifestFile : Path := { anchor := .here, names := ["manifest.json"] }

theorem crowdedManifest_stored_and_loaded :
    let s : Session := { files := .empty ["work"] }
    parse crowdedManifest.render = .ok crowdedManifest ∧ ¬ s.files.NamesDevice manifestFile ∧
      ∃ s' s₂, Action.Returns idleHost s (store manifestFile crowdedManifest) () s' ∧
        Action.Returns idleHost s' (load manifestFile) crowdedManifest s₂ ∧
          s₂.files = s'.files := by
  intro s
  have hlocate : s.files.locate manifestFile = .ok ["work", "manifest.json"] := by decide
  have hmissing : s.files.find? ["work", "manifest.json"] = none := by rfl
  have hlookup : s.files.lookup manifestFile = .error .missing := by rfl
  have hdevice : ¬ s.files.NamesDevice manifestFile := by
    rw [FileTree.NamesDevice, hlookup]
    simp
  have hwrite : s.files.write manifestFile (crowdedManifest.render ++ "\n").toUTF8 =
      .ok (s.files.put ["work", "manifest.json"]
        (.file (crowdedManifest.render ++ "\n").toUTF8)) := by
    rw [FileTree.write, hlocate]
    simp only [hmissing]
  obtain ⟨s', hstore⟩ : ∃ s', Action.Returns idleHost s (store manifestFile crowdedManifest) () s' :=
    ⟨_, (returns_store hdevice).mpr ⟨_, hwrite, rfl⟩⟩
  obtain ⟨hparse, hload⟩ := parse_render_and_load_store crowdedManifest
  obtain ⟨s₂, hloaded, hfiles⟩ := hload idleHost idleHost manifestFile s s' s' hdevice hstore rfl
  exact ⟨hparse, hdevice, s', s₂, hstore, hloaded, hfiles⟩

/-- The null device takes a manifest and gives none back. -/
theorem not_loaded_from_nullDevice :
    let p : Path := { anchor := .root, names := ["dev", "null"] }
    let files : FileTree :=
      { entries := [(["dev"], .directory), (["dev", "null"], .nullDevice)], directory := [] }
    let s : Session := { files }
    Action.Returns idleHost s (store p crowdedManifest) () s ∧
      ¬ ∃ s', Action.Returns idleHost s (load p) crowdedManifest s' := by
  intro p files s
  have hlookup : s.files.lookup p = .ok .nullDevice := by rfl
  constructor
  · rfl
  · rintro ⟨s', hload⟩
    have hfailed : (load p).run idleHost s = (.error (.manifest .empty), s) := by rfl
    rw [Action.Returns, hfailed] at hload
    simp at hload

end Manifest

end OfflineSupply
