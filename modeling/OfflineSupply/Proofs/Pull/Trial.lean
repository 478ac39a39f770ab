import OfflineSupply.Proofs.Pull.Started

/-!
# A host to try histories on

On this host every process that is told to write a file writes the same content, whole or cut off,
and ends with the same code; other processes do nothing and succeed.
-/

namespace OfflineSupply.Pull

open FileTree

variable {content : ByteArray} {code : Int} {t : FileTree} {p : Path}

/-- The outcome of writing a file, if nothing but a file is in its place. -/
def writing (content : ByteArray) (code : Int) (t : FileTree) (p : Path) : Outcome :=
  match t.locate p with
  | .error _ => { files := t, exit := some 1 }
  | .ok at_ =>
    match t.find? at_ with
    | none => { files := t.put at_ (.file content), exit := some code }
    | some (.file _) => { files := t.put at_ (.file content), exit := some code }
    | some _ => { files := t, exit := some 1 }

/-- The file that a process is told to write. -/
def product? : List String → Option Path
  | [_, "pull", "--repo", _, chart, version, "--destination", directory] =>
    some ((Path.ofText directory).child
      (chart ++ "-" ++ String.ofList (version.toList.drop "--version=".length) ++ ".tgz"))
  | _ :: "save" :: "--output" :: target :: _ => some (Path.ofText target)
  | _ => none

/-- A host whose processes write what they are told to write. -/
def trialHost (content : ByteArray) (code : Int) : Host where
  launch s c :=
    match product? c.arguments with
    | none => { files := s.files }
    | some target => writing content code s.files target
  fetch _ _ := .refused ""
  hasProgram _ := true
  scratchFile _ := Path.here
  stopwatch _ := "0"

theorem writtenAt_writing : WrittenAt p t (writing content code t p).files := by
  unfold writing
  cases hlocate : t.locate p with
  | error problem => exact .refl p t
  | ok at_ =>
    have hput : WrittenAt p t (t.put at_ (.file content)) := .of_put hlocate
    simp only
    rcases t.find? at_ with _ | _ | _ | _ | _
    · exact hput
    · exact hput
    · exact .refl p t
    · exact .refl p t
    · exact .refl p t

theorem exists_file_of_writing (hne : t.place p ≠ [])
    (h : (writing content code t p).exit = some 0) :
    ∃ at_ content', t.locate p = .ok at_ ∧
      (writing content code t p).files.find? at_ = some (.file content') := by
  unfold writing at h ⊢
  cases hlocate : t.locate p with
  | error problem => simp [hlocate] at h
  | ok at_ =>
    have hat : at_ ≠ [] := place_of_locate hlocate ▸ hne
    simp only [hlocate] at h
    refine ⟨at_, content, rfl, ?_⟩
    simp only
    rcases hfound : t.find? at_ with _ | _ | _ | _ | _
    · exact find?_put_self hat
    · exact find?_put_self hat
    · simp [hfound] at h
    · simp [hfound] at h
    · simp [hfound] at h

/-- What was located before a process wrote is located afterwards. -/
theorem locate_writing {q : Path} {x : Location} (hlocate : t.locate q = .ok x) :
    (writing content code t p).files.locate q = .ok x := by
  unfold writing
  cases t.locate p with
  | error problem => exact hlocate
  | ok at_ =>
    simp only
    rcases hfound : t.find? at_ with _ | _ | _ | _ | _
    · exact locate_put_file (by simp [hfound]) hlocate
    · exact locate_put_file (by simp [hfound]) hlocate
    · exact hlocate
    · exact hlocate
    · exact hlocate

theorem exists?_writing {q : Path} (h : t.exists? q = true) :
    (writing content code t p).files.exists? q = true := by
  obtain ⟨at_, entry, hlocate, hfound⟩ := exists?_iff.mp h
  have hwritten : WrittenAt p t (writing content code t p).files := writtenAt_writing
  have hthere := hwritten.ne_none (x := at_) (by simp [hfound])
  obtain ⟨entry', hfound'⟩ := Option.ne_none_iff_exists'.mp hthere
  exact exists?_iff.mpr ⟨at_, entry', locate_writing hlocate, hfound'⟩

theorem exists_lookup_of_writing (hne : t.place p ≠ [])
    (h : (writing content code t p).exit = some 0) :
    ∃ content', (writing content code t p).files.lookup p = .ok (.file content') := by
  obtain ⟨at_, content', hlocate, hfile⟩ := exists_file_of_writing hne h
  exact ⟨content', lookup_eq_ok.mpr ⟨at_, locate_writing hlocate, hfile⟩⟩

/-! ## Calls on this host, in the working directory -/

variable {m : Manifest} {ref : Reference} {value : String}

def trialCall (m : Manifest) (content : ByteArray) (code : Int) : Call where
  host := trialHost content code
  manifest := m
  settings := {}

theorem product?_pull (k : Category) (entry : String) :
    product? (k.pull entry).arguments = none := by
  cases k <;> simp [Category.pull, product?]

theorem product?_save (k : Category) (entries : List String) :
    product? (k.save entries (k.unfinished {})).arguments = some (k.unfinished {}) := by
  have htarget : product? (k.save entries (k.unfinished {})).arguments =
      some (Path.ofText (k.unfinished {}).text) := by
    cases k <;> rfl
  have hpath : Path.ofText (k.unfinished {}).text = k.unfinished {} := by
    cases k <;> decide
  rw [htarget, hpath]

theorem product?_chartPull (h : Reference.ofChart value = .ok ref) :
    product? (chartPull Path.here ref).arguments = some (Path.here.child ref.archiveName) := by
  obtain ⟨version, hversion, -⟩ := Reference.slash_not_mem_version h
  have htarget : product? (chartPull Path.here ref).arguments =
      some ((Path.ofText Path.here.text).child (ref.name ++ "-" ++ String.ofList
        (("--version=" ++ ref.version.getD "").toList.drop "--version=".length) ++ ".tgz")) := rfl
  have hpinned : ("--version=" ++ version).toList.drop "--version=".length = version.toList := by
    rw [String.toList_append]
    exact List.drop_left' rfl
  have hhere : Path.ofText Path.here.text = Path.here := by
    decide
  rw [htarget, hhere, hversion, Option.getD_some, hpinned, String.ofList_toList,
    Reference.archiveName, hversion, Option.getD_some]

theorem launch_trialHost {session : Session} {command : Command}
    (h : product? command.arguments = some p) :
    (trialHost content code).launch session command = writing content code session.files p := by
  simp only [trialHost, h]

theorem launch_trialHost_of_none {session : Session} {command : Command}
    (h : product? command.arguments = none) :
    (trialHost content code).launch session command = { files := session.files } := by
  simp only [trialHost, h]

/-- What is there is there whatever is started. -/
theorem exists?_launch_trialHost {session : Session} {command : Command}
    (h : session.files.exists? p = true) :
    ((trialHost content code).launch session command).files.exists? p = true := by
  cases hproduct : product? command.arguments with
  | none => rwa [launch_trialHost_of_none hproduct]
  | some target =>
    rw [launch_trialHost hproduct]
    exact exists?_writing h

theorem confined_trialCall (m : Manifest) (content : ByteArray) (code : Int) :
    (trialCall m content code).Confined Path.here := by
  refine ⟨rfl, rfl, ?_, ?_, ?_⟩
  · intro k session entry _
    change Spares Path.here session.files
      ((trialHost content code).launch session (k.pull entry)).files
    rw [launch_trialHost_of_none (product?_pull k entry)]
    exact .refl _ _
  · intro k session
    change WrittenAt (k.unfinished {}) session.files
      ((trialHost content code).launch session (k.save (k.entries m) (k.unfinished {}))).files
    rw [launch_trialHost (product?_save k (k.entries m))]
    exact writtenAt_writing
  · rintro ref session ⟨value, -, hvalue⟩
    change WrittenAt (Path.here.child ref.archiveName) session.files
      ((trialHost content code).launch session (chartPull Path.here ref)).files
    rw [launch_trialHost (product?_chartPull hvalue)]
    exact writtenAt_writing

theorem writesCharts_trialCall (m : Manifest) (content : ByteArray) (code : Int) :
    (trialCall m content code).WritesCharts := by
  rintro ref session ⟨value, -, hvalue⟩ hexit
  change ((trialHost content code).launch session (chartPull Path.here ref)).exit = some 0 at hexit
  change ∃ at_ content', session.files.locate (Path.here.child ref.archiveName) = .ok at_ ∧
    ((trialHost content code).launch session (chartPull Path.here ref)).files.find? at_ =
      some (.file content')
  rw [launch_trialHost (product?_chartPull hvalue)] at hexit ⊢
  refine exists_file_of_writing ?_ hexit
  rw [place_child (Reference.isName_archiveName hvalue)]
  simp

theorem writesArchives_trialCall (m : Manifest) (content : ByteArray) (code : Int) :
    (trialCall m content code).WritesArchives := by
  intro k session hexit
  change ((trialHost content code).launch session
    (k.save (k.entries m) (k.unfinished {}))).exit = some 0 at hexit
  change ∃ at_ content', session.files.locate (k.unfinished {}) = .ok at_ ∧
    ((trialHost content code).launch session
      (k.save (k.entries m) (k.unfinished {}))).files.find? at_ = some (.file content')
  rw [launch_trialHost (product?_save k (k.entries m))] at hexit ⊢
  refine exists_file_of_writing ?_ hexit
  rw [Category.place_unfinished]
  simp

/-! ## What the calls return -/

theorem writing_of_missing {at_ : List String} (hlocate : t.locate p = .ok at_)
    (hmissing : t.find? at_ = none) :
    writing content code t p = { files := t.put at_ (.file content), exit := some code } := by
  rw [writing, hlocate]
  simp only [hmissing]

/-- A process that writes into a vacant place ends well and writes no text. -/
theorem exits_writing {session : Session} {command : Command} {at_ : List String}
    (hproduct : product? command.arguments = some p) (hlocate : session.files.locate p = .ok at_)
    (hmissing : session.files.find? at_ = none) :
    Launch.Exits (trialHost content 0) { session, command } 0 "" "" := by
  have houtcome : Launch.outcome (trialHost content 0) { session, command } =
      { files := session.files.put at_ (.file content), exit := some 0 } := by
    rw [Launch.outcome, launch_trialHost hproduct, writing_of_missing hlocate hmissing]
  constructor <;> rw [houtcome] <;> rfl

/-- A chart whose file is missing is pulled. -/
theorem exists_returns_chart_trialHost {s : Session} {at_ : List String}
    (hvalue : Reference.ofChart value = .ok ref)
    (hlocate : s.files.locate (Path.here.child ref.archiveName) = .ok at_)
    (hmissing : s.files.find? at_ = none) :
    ∃ s', Action.Returns (trialHost content 0) s (chart {} ref) () s' ∧
      s'.files = s.files.put at_ (.file content) ∧
      s'.commands = s.commands ++ [chartPull Path.here ref] := by
  have habsent := exists?_eq_false hlocate hmissing
  obtain ⟨s₁, hlook, hfiles₁, hcommands₁⟩ : ∃ s₁, Action.Returns (trialHost content 0) s
      (isThere (Path.here.child ref.archiveName)) _ s₁ ∧ _ ∧ _ := exists_returns_isThere
  rw [habsent] at hlook
  let s₂ := s₁.addLog
    { severity := .info, topic := .pull, message := "Pulling chart " ++ ref.text }
  have hfiles₂ : s₂.files = s.files := hfiles₁
  have hproduct := product?_chartPull hvalue
  have hexits (session : Session) (hfiles : session.files = s₂.files) :
      Launch.Exits (trialHost content 0) { session, command := chartPull Path.here ref } 0 "" "" := by
    rw [hfiles₂] at hfiles
    rw [← hfiles] at hlocate hmissing
    exact exits_writing hproduct hlocate hmissing
  obtain ⟨s₃, l, hrun, hl⟩ := Command.exists_returns_run rfl hexits
  refine ⟨s₃, ?_, ?_, ?_⟩
  · exact Action.returns_bind.mpr ⟨false, s₁, hlook, Action.returns_bind.mpr ⟨(), s₂, rfl,
      Action.returns_bind.mpr ⟨"", s₃, hrun, rfl⟩⟩⟩
  · rw [hl.filesAfter, hl.outcome_eq, launch_trialHost hproduct, hl.filesBefore, hfiles₂,
      writing_of_missing hlocate hmissing]
  · rw [hl.commands, ← hcommands₁]
    rfl

/-- Of two charts with one file the first is pulled and the second is skipped. -/
theorem exists_returns_charts_trialHost {s : Session} {first second : Reference}
    {at_ : List String} (hrefs : m.chartReferences = .ok [first, second])
    (hsame : first.archiveName = second.archiveName)
    (hlocate : s.files.locate (Path.here.child first.archiveName) = .ok at_)
    (hmissing : s.files.find? at_ = none) :
    ∃ s', Action.Returns (trialHost content 0) s (charts m {}) () s' ∧
      s'.commands = s.commands ++ [chartPull Path.here first] := by
  obtain ⟨value, -, hvalue⟩ := (Manifest.mem_chartReferences_iff hrefs).mp List.mem_cons_self
  obtain ⟨s₁, hfirst, hfiles₁, hcommands₁⟩ : ∃ s₁, Action.Returns (trialHost content 0) s
      (chart {} first) () s₁ ∧ _ ∧ _ := exists_returns_chart_trialHost hvalue hlocate hmissing
  have hthere : s₁.files.exists? (Path.here.child second.archiveName) = true := by
    have hwritten : WrittenAt (Path.here.child first.archiveName) s.files s₁.files := by
      rw [hfiles₁]
      exact .of_put hlocate
    have hne : at_ ≠ [] := by
      rintro rfl
      simp [find?_nil] at hmissing
    have hfound : s₁.files.find? at_ = some (.file content) := by
      rw [hfiles₁]
      exact find?_put_self hne
    rw [← hsame]
    exact hwritten.exists?_of_file (exists?_eq_false hlocate hmissing) hlocate hfound
  obtain ⟨s₂, hsecond, -, hcommands₂⟩ : ∃ s₂, Action.Returns (trialHost content 0) s₁
      (chart {} second) () s₂ ∧ _ ∧ _ := exists_returns_chart_of_there hthere
  have hloop : Action.Returns (trialHost content 0) s ([first, second].forM (chart {})) () s₂ :=
    Action.returns_bind.mpr ⟨(), s₁, hfirst, Action.returns_bind.mpr ⟨(), s₂, hsecond, rfl⟩⟩
  refine ⟨s₂, ?_, hcommands₂.trans hcommands₁⟩
  exact Action.returns_bind.mpr ⟨_, s, Action.returns_ofExcept.mpr ⟨hrefs, rfl⟩, hloop⟩

/-- All charts are pulled or skipped, if their files can be located. -/
theorem exists_returns_forM_chart_trialHost {s : Session} {refs : List Reference}
    (hrefs : ∀ ref ∈ refs, ∃ value, Reference.ofChart value = .ok ref)
    (hlocate : ∀ ref ∈ refs,
      ∃ at_, s.files.locate (Path.here.child ref.archiveName) = .ok at_) :
    ∃ s', Action.Returns (trialHost content 0) s (refs.forM (chart {})) () s' := by
  induction refs generalizing s with
  | nil => exact ⟨s, rfl⟩
  | cons ref refs ih =>
    obtain ⟨⟨value, hvalue⟩, hmore⟩ := List.forall_mem_cons.mp hrefs
    obtain ⟨⟨at_, hat⟩, hlocated⟩ := List.forall_mem_cons.mp hlocate
    obtain ⟨s₁, hfirst, hkept⟩ : ∃ s₁, Action.Returns (trialHost content 0) s (chart {} ref) () s₁ ∧
        ∀ p x, s.files.locate p = .ok x → s₁.files.locate p = .ok x := by
      by_cases hthere : s.files.exists? (Path.here.child ref.archiveName) = true
      · obtain ⟨s₁, hfirst, hfiles, -⟩ : ∃ s₁, Action.Returns (trialHost content 0) s
            (chart {} ref) () s₁ ∧ _ ∧ _ := exists_returns_chart_of_there hthere
        exact ⟨s₁, hfirst, fun p x hp ↦ hfiles ▸ hp⟩
      · have hmissing := find?_eq_none_of_not_exists hthere hat
        obtain ⟨s₁, hfirst, hfiles, -⟩ : ∃ s₁, Action.Returns (trialHost content 0) s
            (chart {} ref) () s₁ ∧ _ ∧ _ := exists_returns_chart_trialHost hvalue hat hmissing
        refine ⟨s₁, hfirst, fun p x hp ↦ ?_⟩
        rw [hfiles]
        exact locate_put_file (by simp [hmissing]) hp
    have hlocated₁ : ∀ ref ∈ refs,
        ∃ at_, s₁.files.locate (Path.here.child ref.archiveName) = .ok at_ := by
      intro ref' href'
      obtain ⟨at_', hat'⟩ := hlocated ref' href'
      exact ⟨at_', hkept _ _ hat'⟩
    obtain ⟨s₂, hrest⟩ := ih hmore hlocated₁
    exact ⟨s₂, Action.returns_bind.mpr ⟨(), s₁, hfirst, hrest⟩⟩

end OfflineSupply.Pull
