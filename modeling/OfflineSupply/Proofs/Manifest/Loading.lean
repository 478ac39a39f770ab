import OfflineSupply.CommandLine.Run
import OfflineSupply.Proofs.FileTree.Place
import OfflineSupply.Proofs.Json.LongNumber
import OfflineSupply.Proofs.Manifest.File

/-!
# Bad manifest files

A file that gives no manifest is told about as a fault of the manifest, and a command that was to
read it ends with the message and with the exit code one.  Three things are not told about: a path
that no file can have, because a name in it holds a NUL character, octets that are not UTF-8, and a
whole number with more digits than the limit.  Loading breaks off there, and so does the command.
-/

namespace OfflineSupply

variable {t : FileTree} {file : Path} {host : Host} {s s' : Session} {text : String} {e : Failure}
  {α β : Type}

namespace FileTree

/-- Reading is refused for a NUL character exactly if a name of the path holds one. -/
theorem read_nulInName_iff (t : FileTree) :
    (∃ cause, t.read file = .error cause ∧ cause.problem = .nulInName) ↔
      ∃ name ∈ file.names, '\x00' ∈ name.toList := by
  rw [← locate_eq_nulInName_iff (t := t)]
  unfold read lookup
  cases t.locate file with
  | error problem => simp
  | ok at_ =>
    cases hfound : t.find? at_ with
    | none => simp [hfound]
    | some entry => cases entry <;> simp [hfound]

end FileTree

namespace Manifest

/-! ## What is told about -/

/-- A value, or a fault of the manifest. -/
def Told (r : Except Failure α) : Prop :=
  (∃ value, r = .ok value) ∨ ∃ cause, r = .error (.manifest cause)

theorem told_ok (value : α) : Told (.ok value) := .inl ⟨value, rfl⟩

theorem told_manifest (cause : ManifestError) :
    Told (.error (.manifest cause) : Except Failure α) :=
  .inr ⟨cause, rfl⟩

theorem not_told_breakdown (cause : Breakdown) :
    ¬ Told (.error (.breakdown cause) : Except Failure α) := by
  simp [Told]

theorem Told.bind {r : Except Failure α} {f : α → Except Failure β} (h : Told r)
    (hf : ∀ value, Told (f value)) : Told (r >>= f) := by
  cases h with
  | inl hok =>
    obtain ⟨value, rfl⟩ := hok
    exact hf value
  | inr herror =>
    obtain ⟨cause, rfl⟩ := herror
    exact told_manifest cause

theorem Told.map {r : Except Failure α} (h : Told r) (f : α → β) : Told (r.map f) := by
  cases h with
  | inl hok =>
    obtain ⟨value, rfl⟩ := hok
    exact told_ok (f value)
  | inr herror =>
    obtain ⟨cause, rfl⟩ := herror
    exact told_manifest cause

/-! ## The manifest in a text -/

theorem told_category (doc : Json) (name : String) : Told (category doc name) := by
  unfold category
  split
  · exact told_ok _
  · split
    · exact told_ok _
    · exact told_manifest _

theorem told_ofDocument (doc : Json) : Told (ofDocument doc) := by
  unfold ofDocument
  split
  · apply (told_category _ _).bind
    intro images
    apply (told_category _ _).bind
    intro policies
    apply (told_category _ _).bind
    intro charts
    exact told_ok _
  · exact told_manifest _

theorem parse_of_tooLong {digits : Nat} (h : Json.parse text = .error (.integerTooLong digits)) :
    parse text = .error (.breakdown .numberTooLong) := by
  unfold parse parseRaw
  rw [Json.allBlank_of_parse h, h]
  rfl

/-- Whatever text has no number that is too long is told about, if it holds no manifest. -/
theorem told_parse (h : ∀ digits, Json.parse text ≠ .error (.integerTooLong digits)) :
    Told (parse text) := by
  have hraw : Told (parseRaw text) := by
    unfold parseRaw
    split
    · exact told_manifest _
    · split
      · rename_i digits hlong
        exact absurd hlong (h digits)
      · exact told_manifest _
      · exact told_ofDocument _
  exact hraw.map ofRaw

/-! ## The text of a file -/

/-- The path could be that of a file, and the octets that are read there, if any, are UTF-8. -/
structure Legible (t : FileTree) (file : Path) : Prop where
  names : ∀ name ∈ file.names, '\x00' ∉ name.toList
  octets : ∀ octets, t.read file = .ok octets → octets.IsValidUTF8

/-- A whole number in the text of a file is too long to be read. -/
def MeetsLongNumber (t : FileTree) (file : Path) : Prop :=
  ∃ text digits, Spells t file text ∧ Json.parse text = .error (.integerTooLong digits)

theorem run_fileText_of_unreadable {cause : FileError} (h : s.files.read file = .error cause)
    (hnul : cause.problem ≠ .nulInName) :
    (fileText file).run host s = (.error (.manifest (.unreadable file cause)), s) := by
  unfold fileText
  rw [run_files_bind]
  simp only [h, if_neg hnul]
  rfl

theorem run_fileText_of_not_legible (h : ¬ Legible s.files file) :
    ∃ cause, (fileText file).run host s = (.error (.breakdown cause), s) := by
  unfold fileText
  rw [run_files_bind]
  by_cases hnames : ∃ name ∈ file.names, '\x00' ∈ name.toList
  · obtain ⟨cause, hread, hnul⟩ := (FileTree.read_nulInName_iff s.files).mpr hnames
    simp only [hread, if_pos hnul]
    exact ⟨_, rfl⟩
  · obtain ⟨octets, hread, hoctets⟩ : ∃ octets, s.files.read file = .ok octets ∧
        ¬ octets.IsValidUTF8 := by
      by_contra hall
      refine h ⟨fun name hname hnul ↦ hnames ⟨name, hname, hnul⟩, fun octets hread ↦ ?_⟩
      by_contra hoctets
      exact hall ⟨octets, hread, hoctets⟩
    have hundecodable : Text.strictText? octets = none := dif_neg hoctets
    simp only [hread, hundecodable]
    exact ⟨_, rfl⟩

/-- Where a file is legible a text is read, or there is a problem with the file. -/
theorem Legible.spells_or_unreadable (h : Legible t file) :
    (∃ text, Spells t file text) ∨
      ∃ cause, t.read file = .error cause ∧ cause.problem ≠ .nulInName := by
  cases hread : t.read file with
  | error cause =>
    refine .inr ⟨cause, rfl, fun hnul ↦ ?_⟩
    obtain ⟨name, hname, hmem⟩ := (FileTree.read_nulInName_iff t).mp ⟨cause, hread, hnul⟩
    exact h.names name hname hmem
  | ok octets =>
    have hwritten : Text.strictText? octets = some _ := dif_pos (h.octets octets hread)
    exact .inl ⟨_, octets, _, hread, hwritten, rfl⟩

/-! ## Loading -/

theorem result_load_of_fileText (h : (fileText file).run host s = (.error e, s)) :
    ((load file).run host s).1 = .error e := by
  unfold load
  rw [Action.run_bind, h]

theorem result_load_of_spells (h : Spells s.files file text) :
    ((load file).run host s).1 = parse text := by
  unfold load
  rw [Action.run_bind, run_fileText_of_spells h]
  dsimp only
  cases parse text with
  | error e => rfl
  | ok m => rfl

theorem session_fileText : ((fileText file).run host s).2 = s := by
  unfold fileText
  rw [run_files_bind]
  split
  · split
    · rfl
    · rfl
  · split
    · rfl
    · rfl

/-- A session in which no manifest could be loaded is left as it was. -/
theorem run_load_of_error (h : ((load file).run host s).1 = .error e) :
    (load file).run host s = (.error e, s) := by
  -- Only a manifest that was loaded is logged.
  have hsession : ((load file).run host s).2 = s := by
    have htext : ((fileText file).run host s).2 = s := session_fileText
    unfold load at h ⊢
    rw [Action.run_bind] at h ⊢
    rcases hrun : (fileText file).run host s with ⟨e' | text, s₁⟩
    · rwa [hrun] at htext
    · rw [hrun] at h htext
      dsimp only at h ⊢
      cases hparse : parse text with
      | error e' => exact htext
      | ok m =>
        rw [hparse] at h
        contradiction
  exact Prod.ext h hsession

theorem told_load (hlegible : Legible s.files file) (hnumbers : ¬ MeetsLongNumber s.files file) :
    Told ((load file).run host s).1 := by
  cases hlegible.spells_or_unreadable with
  | inl hspells =>
    obtain ⟨text, htext⟩ := hspells
    rw [result_load_of_spells htext]
    apply told_parse
    intro digits hlong
    exact hnumbers ⟨text, digits, htext, hlong⟩
  | inr hunreadable =>
    obtain ⟨cause, hread, hnul⟩ := hunreadable
    rw [result_load_of_fileText (run_fileText_of_unreadable hread hnul)]
    exact told_manifest _

/-- Everything else breaks the work off. -/
theorem breaks_load (h : ¬ (Legible s.files file ∧ ¬ MeetsLongNumber s.files file)) :
    ∃ cause, ((load file).run host s).1 = .error (.breakdown cause) := by
  by_cases hlegible : Legible s.files file
  · obtain ⟨text, digits, htext, hlong⟩ := not_not.mp (not_and.mp h hlegible)
    rw [result_load_of_spells htext]
    exact ⟨_, parse_of_tooLong hlong⟩
  · obtain ⟨cause, hrun⟩ := run_fileText_of_not_legible hlegible
    exact ⟨cause, result_load_of_fileText hrun⟩

end Manifest

namespace CommandLine

/-- The manifest file that a task reads, if it reads one. -/
def Task.manifest? : Task → Option Path
  | .list _ _ => none
  | .pull file _ => some file
  | .push file _ => some file
  | .install file _ => some file

theorem run_withManifest_of_load (settings : Settings)
    (phase : Manifest → Settings → Action Unit)
    (h : (Manifest.load file).run host s = (.error e, s')) :
    (withManifest file settings phase).run host s = (.error e, s') := by
  unfold withManifest
  rw [Action.run_bind, h]

/-- A task that reads a manifest fails as loading it does. -/
theorem Task.run_perform_of_load {task : Task} (hfile : task.manifest? = some file)
    (h : (Manifest.load file).run host s = (.error e, s')) :
    task.perform.run host s = (.error e, s') := by
  cases task with
  | list withCertificateManager output => contradiction
  | pull path settings =>
    obtain rfl := Option.some.inj hfile
    exact run_withManifest_of_load settings _ h
  | push path settings =>
    obtain rfl := Option.some.inj hfile
    exact run_withManifest_of_load settings _ h
  | install path settings =>
    obtain rfl := Option.some.inj hfile
    unfold perform
    exact run_withManifest_of_load settings _ h

theorem run_of_perform {arguments : List String} {invocation : Invocation}
    {result : Except Failure Unit} (hparse : parse arguments = .ok invocation)
    (h : invocation.task.perform.run host s = (result, s')) :
    run arguments host s = (report invocation.logLevel result s', s') := by
  unfold run
  simp only [hparse, h]

variable {options : List Spec} {option : Spec}

/-- An option that takes any text is read with the argument behind it. -/
theorem readArguments_text (htakes : option.takes = .text []) (read : ReadLine OptionKey)
    (name text : String) :
    readArguments options false read [(name, .option { option, name }), (text, .plain)] =
      .ok (read.add { given := [(option.key, .text text)] }) := by
  have hread : Found.read options { option, name } = .ok { waiting := some option } := by
    simp [Found.read, readAlone, OptionSpec.takesText, htakes]
  have htext : textGiven option text = .ok (.text text) := by
    simp [textGiven, htakes]
  rw [readArguments, hread]
  change (orFault (textGiven option text) >>= _) = _
  rw [htext]
  change readArguments options false (read.add { given := [(option.key, .text text)] }) [] = _
  rw [readArguments]

/-- A switch is read alone. -/
theorem readArguments_switch (htakes : option.takes = .switch) (read : ReadLine OptionKey)
    (name : String) (rest : List (String × Kind OptionKey)) :
    readArguments options false read ((name, .option { option, name }) :: rest) =
      (checkHelp { given := [(option.key, switchGiven option name)] } >>= fun _ ↦
        readArguments options false (read.add { given := [(option.key, switchGiven option name)] })
          rest) := by
  have hread : Found.read options { option, name } =
      .ok { given := [(option.key, switchGiven option name)] } := by
    simp [Found.read, readAlone, OptionSpec.takesText, htakes]
  rw [readArguments, hread]
  rfl

/-- A command line whose first plain argument names a command is read as what that command reads. -/
theorem parse_of_readTask {arguments rest : List String} {name : String} {task : Task}
    {read : List (String × Kind OptionKey)} (hkinds : kinds commonOptions arguments = .ok read)
    (hcommand : readArguments commonOptions true {} read = .ok { command := some (name, rest) })
    (htask : readTask name rest = .ok (task, [])) : parse arguments = .ok { task } := by
  unfold parse
  rw [hkinds]
  change (refuse none (readArguments commonOptions true {} read) >>= _) = _
  rw [hcommand]
  change (readTask name rest >>= _) = _
  rw [htask]
  rfl

/-- The command line that pulls what is listed in a file. -/
theorem parse_pull : parse ["pull", "--list", "manifest.json"] =
    .ok { task := .pull Manifest.manifestFile {} } := by
  have hcommand : readArguments commonOptions true {}
      [("pull", .plain), ("--list", .unknown), ("manifest.json", .plain)] =
        .ok { command := some ("pull", ["--list", "manifest.json"]) } := by
    rw [readArguments]
    rfl
  have htask : readTask "pull" ["--list", "manifest.json"] =
      .ok (.pull Manifest.manifestFile {}, []) := by
    change (refuse (some "pull") (readArguments pullOptions false {} _ >>= _)).map _ = _
    rw [readArguments_text rfl]
    rfl
  exact parse_of_readTask rfl hcommand htask

end CommandLine

namespace Manifest

/-- Whatever is wrong with a file is told about exactly if the file is legible and the reader meets
no number there that is too long, for which the file has to hold so long a run of digits outside of
double quotes.  A command that was to read the file ends with the message and the exit code one if
the fault is told about, and breaks off if it is not. -/
theorem told_load_iff :
    (Told ((load file).run host s).1 ↔
      Legible s.files file ∧ ¬ MeetsLongNumber s.files file) ∧
    (MeetsLongNumber s.files file →
      ∃ text, Spells s.files file text ∧ Json.LongRun (Json.unquoted false text.toList)) ∧
    ∀ arguments invocation, CommandLine.parse arguments = .ok invocation →
      invocation.task.manifest? = some file →
        (∀ cause, ((load file).run host s).1 = .error (.manifest cause) →
          CommandLine.run arguments host s =
            ({ exit := .ok 1
               output := s.printed
               errors := CommandLine.logText invocation.logLevel s.log ++
                CommandLine.failureMark ++ cause.message ++ "\n" }, s)) ∧
        (¬ Told ((load file).run host s).1 →
          ∃ cause, (CommandLine.run arguments host s).1.exit = .error (.breakdown cause)) := by
  have htold : Told ((load file).run host s).1 ↔
      Legible s.files file ∧ ¬ MeetsLongNumber s.files file := by
    constructor
    · intro htold
      by_contra hother
      obtain ⟨cause, hresult⟩ := breaks_load hother
      rw [hresult] at htold
      exact not_told_breakdown cause htold
    · intro ⟨hlegible, hnumbers⟩
      exact told_load hlegible hnumbers
  refine ⟨htold, ?_, ?_⟩
  · intro ⟨text, digits, htext, hlong⟩
    exact ⟨text, htext, Json.longRun_of_parse hlong⟩
  · intro arguments invocation hparse hfile
    have hrun (e : Failure) (h : ((load file).run host s).1 = .error e) :
        CommandLine.run arguments host s =
          (CommandLine.report invocation.logLevel (.error e) s, s) :=
      CommandLine.run_of_perform hparse
        (CommandLine.Task.run_perform_of_load hfile (run_load_of_error h))
    constructor
    · intro cause hcause
      exact hrun _ hcause
    · intro huntold
      obtain ⟨cause, hcause⟩ := breaks_load (mt htold.mpr huntold)
      rw [hrun _ hcause]
      exact ⟨cause, rfl⟩

/-- A list is no manifest, which is told about. -/
theorem list_alone_told :
    let s : Session :=
      { files := { entries := [(["manifest.json"], .file "[]".toUTF8)], directory := [] } }
    Legible s.files manifestFile ∧ ¬ MeetsLongNumber s.files manifestFile ∧
      CommandLine.run ["pull", "--list", "manifest.json"] idleHost s =
        ({ exit := .ok 1
           output := ""
           errors := "kw-airgap error:  Manifest must be a JSON object, got list\n" }, s) := by
  intro s
  have hspells : Spells s.files manifestFile "[]" :=
    ⟨"[]".toUTF8, "[]", rfl, Text.strictText?_toUTF8 "[]", by decide⟩
  have htextual : (Json.array []).Textual := .array (by simp)
  have hgap : ∀ c ∈ ([] : List Char), Json.isGap c = true := by simp
  have hdoc : Json.parse "[]" = .ok (.array []) := htextual.parseChars_write .oneLine hgap
  have hresult : ((load manifestFile).run idleHost s).1 =
      .error (.manifest (.notAnObject (.array []))) := by
    rw [result_load_of_spells hspells, parse, parseRaw, hdoc]
    rfl
  have htold : Told ((load manifestFile).run idleHost s).1 := hresult ▸ told_manifest _
  obtain ⟨hlegible, hnumbers⟩ := told_load_iff.1.mp htold
  refine ⟨hlegible, hnumbers, ?_⟩
  exact (told_load_iff.2.2 _ _ CommandLine.parse_pull rfl).1 _ hresult

/-- An octet that starts no character breaks the command off. -/
theorem undecodable_untold :
    let s : Session :=
      { files := { entries := [(["manifest.json"], .file ⟨#[0xFF]⟩)], directory := [] } }
    ¬ Told ((load manifestFile).run idleHost s).1 ∧
      (CommandLine.run ["pull", "--list", "manifest.json"] idleHost s).1.exit =
        .error (.breakdown .undecodable) := by
  intro s
  have hload : (load manifestFile).run idleHost s = (.error (.breakdown .undecodable), s) := rfl
  have hperform : (CommandLine.Task.pull manifestFile {}).perform.run idleHost s =
      (.error (.breakdown .undecodable), s) := CommandLine.Task.run_perform_of_load rfl hload
  rw [hload, CommandLine.run_of_perform CommandLine.parse_pull hperform]
  exact ⟨not_told_breakdown _, rfl⟩

end Manifest

end OfflineSupply
