import Mathlib.Logic.Relation
import OfflineSupply.Proofs.Discovery.Answering
import OfflineSupply.Proofs.Discovery.Asked
import OfflineSupply.Proofs.Manifest.Loading

/-!
# Listing writes all or nothing

The command that lists a release writes its file when the whole discovery has come to an end, and
does nothing after that.  So if it does not succeed, whatever stopped it, it has written nothing;
and if it does, the file holds the manifest that was discovered, whatever it held before.  Until
then the files change only as the processes of the discovery leave them, one after the other.

A rendered chart can name an image with a first half of a code point directly before a second one.
The file holds their codes, which are read as those of one character, so that another manifest is
read there than was discovered; every other manifest is read as it was.
-/

namespace OfflineSupply

open OfflineSupply.Action

variable {host : Host} {s s' : Session} {m : Manifest RawText} {output : Path} {withManager : Bool}

/-! ## What a discovery does to files -/

/-- The frame of actions that change the files by nothing but such steps. -/
def Session.Frame.stepwise (step : FileTree → FileTree → Prop) : Frame where
  keeps s s' := Relation.ReflTransGen step s.files s'.files
  of_untouched h := h.files ▸ .refl
  trans := Relation.ReflTransGen.trans

namespace Discovery

variable {d : Discovery} {t u : FileTree} {y : Location}

/-- A process of a question that finds some files and leaves others. -/
def Turns (d : Discovery) (host : Host) (t u : FileTree) : Prop :=
  ∃ (s : Session) (c : Command), d.Asks c ∧ s.files = t ∧ (host.launch s c).files = u

/-- A discovery changes the files only by the processes of its questions, one after the other. -/
theorem turns_build (d : Discovery) (host : Host) (s : Session) :
    Relation.ReflTransGen (d.Turns host) s.files (d.build.run host s).2.files := by
  have hspawn (c : Command) (hc : d.Asks c) : Keeps (.stepwise (d.Turns host)) host c.spawn := by
    intro s
    change Relation.ReflTransGen (d.Turns host) s.files (if c.isExpired then
      ({ files := s.files, exit := none } : Outcome) else host.launch s c).files
    split
    · exact .refl
    · exact .single ⟨s, c, hc, rfl, rfl⟩
  exact keeps_build hspawn (fun _ _ ↦ .refl) s

/-- A view of the files that no process of a question changes is the same after all of them. -/
theorem view_eq_of_turns {α : Type} (view : FileTree → α)
    (h : ∀ t u, d.Turns host t u → view u = view t)
    (hturns : Relation.ReflTransGen (d.Turns host) t u) : view u = view t := by
  induction hturns with
  | refl => rfl
  | tail _ hstep ih => exact (h _ _ hstep).trans ih

/-- No process of a question changes what is at a location. -/
def LeavesAlone (d : Discovery) (host : Host) (y : Location) : Prop :=
  ∀ t u, d.Turns host t u → u.find? y = t.find? y

theorem LeavesAlone.find?_eq (h : d.LeavesAlone host y)
    (hturns : Relation.ReflTransGen (d.Turns host) t u) : u.find? y = t.find? y :=
  view_eq_of_turns (·.find? y) h hturns

end Discovery

/-! ## What is written -/

namespace RawText

/-- No first half of a code point stands directly before a second one. -/
def Apart (t : RawText) : Prop :=
  t.points.IsChain fun p q ↦ p.join? q = none

theorem joinHalves_eq_self_iff {points : List CodePoint} :
    joinHalves points = points ↔ points.IsChain fun p q ↦ p.join? q = none := by
  fun_induction joinHalves points with
  | case1 => simp
  | case2 p => simp
  | case3 p q rest c hjoin ih =>
    obtain ⟨first, second, rfl, -⟩ := Json.join?_eq_some_iff.mp hjoin
    simp [hjoin]
  | case4 p q rest hjoin ih =>
    rw [List.isChain_cons_cons, List.cons.injEq, ih]
    simp [hjoin]

theorem joined_eq_self_iff {t : RawText} : t.joined = t ↔ t.Apart := by
  rw [Apart, ← joinHalves_eq_self_iff, joined, RawText.mk.injEq]

end RawText

namespace Manifest

/-- A manifest keeps its images when their halves are joined exactly if there is nothing to join. -/
theorem joined_eq_self_iff : m.joined = m ↔ ∀ image ∈ m.images, image.Apart := by
  have himages : m.images.map RawText.joined = m.images ↔
      ∀ image ∈ m.images, image.joined = image := by
    conv_lhs => rw [← List.map_id m.images, List.map_map]
    exact List.map_inj_left
  simp only [← RawText.joined_eq_self_iff, ← himages]
  exact ⟨fun h ↦ congrArg Manifest.images h, fun h ↦ congrArg (fun images ↦ { m with images }) h⟩

/-- Where no device is, what is stored is read as a text that holds the manifest with the halves
joined in its images, and nothing else has changed. -/
theorem spells_of_store (hdevice : ¬ s.files.NamesDevice output)
    (h : Returns host s (store output m) () s') :
    ∃ at_ text, s.files.locate output = .ok at_ ∧ Spells s'.files output text ∧
      parseRaw text = .ok m.joined ∧ ∀ y ≠ at_, s'.files.find? y = s.files.find? y := by
  obtain ⟨files, hwrite, rfl⟩ := (returns_store hdevice).mp h
  obtain ⟨at_, hlocate, -, hput⟩ := FileTree.write_eq_ok hdevice hwrite
  have hgap : ∀ c ∈ "\n".toList, Json.isGap c = true := List.all_iff_forall_prop.mp (by decide)
  refine ⟨at_, m.render ++ "\n", hlocate, ?_, parseRaw_render_append m hgap, ?_⟩
  · exact spells_stored m (FileTree.read_of_write hdevice hwrite)
  · intro y hy
    rw [hput]
    exact FileTree.find?_put_of_ne hy

end Manifest

/-! ## How the command ends -/

namespace CommandLine

/-- The session in which a listing begins its discovery. -/
def equipped (s : Session) : Session :=
  s.addLog
    { severity := .debug
      topic := .requirements
      message := "Found required tools: " ++ quotedNames [ChartStore.program] }

theorem run_requirePrograms :
    (requirePrograms [ChartStore.program]).run host s =
      if host.hasProgram ChartStore.program = true then (.ok (), equipped s)
      else (.error (.missingTools [ChartStore.program]), s) := by
  have hmissing : ([ChartStore.program].filter fun name ↦ !host.hasProgram name) =
      if host.hasProgram ChartStore.program = true then [] else [ChartStore.program] := by
    cases h : host.hasProgram ChartStore.program <;> simp [h]
  have hhost : Action.host.run host s = (.ok host, s) := rfl
  unfold requirePrograms
  rw [run_bind, hhost]
  dsimp only
  rw [hmissing]
  by_cases h : host.hasProgram ChartStore.program = true
  · rw [if_pos h, if_pos h]
    rfl
  · rw [if_neg h, if_neg h]
    rfl

/-- How the discovery of a listing ends, if the program is there. -/
def discovered (host : Host) (withManager : Bool) (s : Session) :
    Except Failure (Manifest RawText) × Session :=
  (Discovery.build { withCertificateManager := withManager }).run host (equipped s)

/-- The ways in which a listing ends: the program is missing, the discovery fails, the output cannot
be written, or what was discovered is stored. -/
inductive Listed (host : Host) (withManager : Bool) (output : Path) (s : Session) :
    Except Failure Unit → Session → Prop
  | unequipped (hprogram : host.hasProgram ChartStore.program = false) :
    Listed host withManager output s (.error (.missingTools [ChartStore.program])) s
  | undiscovered {e : Failure} {s₁ : Session}
      (hprogram : host.hasProgram ChartStore.program = true)
      (hfound : discovered host withManager s = (.error e, s₁)) :
    Listed host withManager output s (.error e) s₁
  | unwritten {m : Manifest RawText} {e : Failure} {s₁ : Session}
      (hprogram : host.hasProgram ChartStore.program = true)
      (hfound : discovered host withManager s = (.ok m, s₁)) (houtput : ¬ s₁.files.Takes output) :
    Listed host withManager output s (.error e) s₁
  | stored {m : Manifest RawText} {s₁ s₂ : Session}
      (hprogram : host.hasProgram ChartStore.program = true)
      (hfound : discovered host withManager s = (.ok m, s₁)) (houtput : s₁.files.Takes output)
      (hstore : Returns host s₁ (m.store output) () s₂) :
    Listed host withManager output s (.ok ()) s₂

theorem ensures_list : Ensures host s (list withManager output)
    (Listed host withManager output s) := by
  unfold list Ensures
  rw [run_bind, run_requirePrograms]
  by_cases hprogram : host.hasProgram ChartStore.program = true
  · rw [if_pos hprogram]
    dsimp only
    rw [run_bind]
    rcases hfound : (Discovery.build { withCertificateManager := withManager }).run host
      (equipped s) with ⟨e | m, s₁⟩
    · exact .undiscovered hprogram hfound
    · dsimp only
      have hended : Ensures host s₁ (m.store output) _ := Manifest.ensures_store
      unfold Ensures at hended
      rcases hstore : (m.store output).run host s₁ with ⟨r, s₂⟩
      rw [hstore] at hended
      rcases hended with ⟨hr, houtput⟩ | ⟨hs₂, ⟨e, hr⟩, houtput⟩
      · obtain rfl : r = .ok () := hr
        exact .stored hprogram hfound houtput hstore
      · obtain rfl : r = .error e := hr
        obtain rfl : s₂ = s₁ := hs₂
        exact .unwritten hprogram hfound houtput
  · rw [if_neg hprogram]
    exact .unequipped (Bool.eq_false_iff.mpr hprogram)

namespace Listed

variable {r : Except Failure Unit}

theorem ok_iff (h : Listed host withManager output s r s') :
    r = .ok () ↔ host.hasProgram ChartStore.program = true ∧
      (∃ m, (discovered host withManager s).1 = .ok m) ∧
        (discovered host withManager s).2.files.Takes output := by
  cases h with
  | unequipped hprogram => simp [hprogram]
  | undiscovered hprogram hfound => simp [hfound]
  | unwritten hprogram hfound houtput => simp [hfound, houtput]
  | stored hprogram hfound houtput => simp [hprogram, hfound, houtput]

theorem session_of_missing (h : Listed host withManager output s r s')
    (hmissing : host.hasProgram ChartStore.program = false) : s' = s := by
  cases h with
  | unequipped => rfl
  | undiscovered hprogram => simp [hmissing] at hprogram
  | unwritten hprogram => simp [hmissing] at hprogram
  | stored hprogram => simp [hmissing] at hprogram

/-- If the command fails, it was over before the discovery began or with its last process. -/
theorem session_of_failed (h : Listed host withManager output s r s') (hfailed : r ≠ .ok ()) :
    s' = s ∨ s' = (discovered host withManager s).2 := by
  cases h with
  | unequipped => exact .inl rfl
  | undiscovered _ hfound => exact .inr (by rw [hfound])
  | unwritten _ hfound => exact .inr (by rw [hfound])
  | stored => exact absurd rfl hfailed

theorem returns_store (h : Listed host withManager output s r s') (hok : r = .ok ())
    (hfound : (discovered host withManager s).1 = .ok m) :
    Returns host (discovered host withManager s).2 (m.store output) () s' := by
  cases h with
  | unequipped => simp at hok
  | undiscovered => simp at hok
  | unwritten => simp at hok
  | stored _ hfound' _ hstore =>
    rw [hfound'] at hfound ⊢
    rw [← Except.ok.inj hfound]
    exact hstore

end Listed

theorem exit_report_iff {level : Severity} {result : Except Failure Unit} :
    (report level result s).exit = .ok 0 ↔ result = .ok () := by
  cases result with
  | ok value => simp [report]
  | error e =>
    unfold report
    dsimp only
    split
    · simp
    · simp

/-- A command line that lists ends as its listing does. -/
theorem exists_listed {arguments : List String} {invocation : Invocation}
    (hparse : parse arguments = .ok invocation)
    (htask : invocation.task = .list withManager output) (host : Host) (s : Session) :
    ∃ r s', Listed host withManager output s r s' ∧
      ((run arguments host s).1.exit = .ok 0 ↔ r = .ok ()) ∧ (run arguments host s).2 = s' := by
  obtain ⟨r, s', hended⟩ : ∃ r s', (list withManager output).run host s = (r, s') := ⟨_, _, rfl⟩
  have hrun : run arguments host s = (report invocation.logLevel r s', s') := by
    apply run_of_perform hparse
    rw [htask]
    exact hended
  have hlisted : Ensures host s (list withManager output) _ := ensures_list
  unfold Ensures at hlisted
  rw [hended] at hlisted
  rw [hrun]
  exact ⟨r, s', hlisted, exit_report_iff, rfl⟩

/-- The command line that lists to a file. -/
theorem parse_list : parse ["list", "--output-file", "manifest.json"] =
    .ok { task := .list false Manifest.manifestFile } := by
  have hcommand : readArguments commonOptions true {}
      [("list", .plain), ("--output-file", .unknown), ("manifest.json", .plain)] =
        .ok { command := some ("list", ["--output-file", "manifest.json"]) } := by
    rw [readArguments]
    rfl
  have htask : readTask "list" ["--output-file", "manifest.json"] =
      .ok (.list false Manifest.manifestFile, []) := by
    change (refuse (some "list") (readArguments listOptions false {} _ >>= _)).map _ = _
    rw [readArguments_text rfl]
    rfl
  exact parse_of_readTask rfl hcommand htask

/-- The command line that lists to a file with the certificate manager. -/
theorem parse_list_manager : parse ["list", "--cert-manager", "--output-file", "manifest.json"] =
    .ok { task := .list true Manifest.manifestFile } := by
  have hcommand : readArguments commonOptions true {}
      [("list", .plain), ("--cert-manager", .unknown), ("--output-file", .unknown),
        ("manifest.json", .plain)] =
        .ok { command := some ("list", ["--cert-manager", "--output-file", "manifest.json"]) } := by
    rw [readArguments]
    rfl
  have htask : readTask "list" ["--cert-manager", "--output-file", "manifest.json"] =
      .ok (.list true Manifest.manifestFile, []) := by
    change (refuse (some "list") (readArguments listOptions false {} _ >>= _)).map _ = _
    rw [readArguments_switch rfl]
    change (refuse (some "list") (readArguments listOptions false _ _ >>= _)).map _ = _
    rw [readArguments_text rfl]
    rfl
  exact parse_of_readTask rfl hcommand htask

/-- The files before a listing, with another manifest in the output. -/
def listedBefore : Session where
  files := { entries := [(["manifest.json"], .file "[]".toUTF8)], directory := [] }

theorem takes_listedBefore : listedBefore.files.Takes Manifest.manifestFile := by
  have hlocate : listedBefore.files.locate Manifest.manifestFile = .ok ["manifest.json"] := by decide
  exact ⟨["manifest.json"], hlocate, by simp [listedBefore, FileTree.find?]⟩

theorem not_namesDevice_listedBefore :
    ¬ listedBefore.files.NamesDevice Manifest.manifestFile := by
  have hlookup : listedBefore.files.lookup Manifest.manifestFile = .ok (.file "[]".toUTF8) := rfl
  simp [FileTree.NamesDevice, hlookup]

/-- The processes of this host leave the files alone. -/
theorem files_build_publishing (d : Discovery) (s : Session) :
    (d.build.run Discovery.publishingHost s).2.files = s.files := by
  have hidle (t u : FileTree) (h : d.Turns Discovery.publishingHost t u) : u = t := by
    obtain ⟨s', c, -, rfl, rfl⟩ := h
    rfl
  exact Discovery.view_eq_of_turns id hidle (d.turns_build _ s)

end CommandLine

end OfflineSupply
