import OfflineSupply.FileTree.Basic

/-!
# What is where after a change

Putting, dropping and moving entries are described by what is found at each location afterwards.
Trees are compared by what they hold and by their working directory, not by the order of their
entries.
-/

namespace OfflineSupply.FileTree

variable {t : FileTree} {at_ x source target : Location} {entry : FileEntry}

theorem find?_of_ne_nil (h : at_ ≠ []) :
    t.find? at_ = (t.entries.find? (·.1 == at_)).map (·.2) := by
  unfold find?
  rw [if_neg (by simpa using h)]

@[simp]
theorem find?_nil : t.find? [] = some .directory := rfl

/-- A tree as file systems have them: what is somewhere is in a directory. -/
def Rooted (t : FileTree) : Prop :=
  ∀ at_ x, x ≠ [] → t.find? (at_ ++ x) ≠ none → t.find? at_ = some .directory

/-- Nothing is below a location where nothing is. -/
theorem Rooted.vacant_below (h : t.Rooted) (hvacant : t.find? at_ = none) (x : Location) :
    t.find? (at_ ++ x) = none := by
  by_cases hx : x = []
  · rw [hx, List.append_nil, hvacant]
  · cases hfound : t.find? (at_ ++ x) with
    | none => rfl
    | some entry =>
      rw [h at_ x hx (by simp [hfound])] at hvacant
      simp at hvacant

/-- A tree is rooted if there are directories above each of its entries. -/
theorem rooted_of_entries (h : ∀ e ∈ t.entries, ∀ n < e.1.length,
    t.find? (e.1.take n) = some .directory) : t.Rooted := by
  intro at_ x hx hthere
  have hlength : at_.length < (at_ ++ x).length := by
    rw [List.length_append]
    have hpositive := List.length_pos_iff.mpr hx
    omega
  rw [find?_of_ne_nil (by simp [hx])] at hthere
  cases hfound : t.entries.find? (·.1 == at_ ++ x) with
  | none => simp [hfound] at hthere
  | some e =>
    have hat : e.1 = at_ ++ x := by simpa using List.find?_some hfound
    have habove := h e (List.mem_of_find?_eq_some hfound) at_.length (hat ▸ hlength)
    rwa [hat, List.take_left] at habove

/-! ## One entry put or dropped -/

theorem directory_put : (t.put at_ entry).directory = t.directory := by
  unfold put
  split <;> rfl

theorem find?_put_self (h : at_ ≠ []) : (t.put at_ entry).find? at_ = some entry := by
  rw [find?_of_ne_nil h]
  unfold put
  split
  · rename_i hany
    have hfun : ((fun e : Location × FileEntry ↦ e.1 == at_) ∘
        fun e ↦ if e.1 == at_ then (at_, entry) else e) = (·.1 == at_) := by
      funext e
      by_cases he : e.1 = at_ <;> simp [he]
    obtain ⟨found, hfound⟩ := Option.isSome_iff_exists.mp (List.find?_isSome.mpr
      (by simpa using hany : ∃ e ∈ t.entries, (e.1 == at_) = true))
    rw [List.find?_map, hfun, hfound]
    have hat : found.1 = at_ := by
      simpa using List.find?_some hfound
    simp [hat]
  · rename_i hany
    have hnone : t.entries.find? (·.1 == at_) = none := by
      rw [List.find?_eq_none]
      intro e he heq
      exact hany (List.any_eq_true.mpr ⟨e, he, heq⟩)
    rw [List.find?_append, hnone]
    simp

theorem find?_put_of_ne (h : x ≠ at_) : (t.put at_ entry).find? x = t.find? x := by
  by_cases hx : x = []
  · rw [hx, find?_nil, find?_nil]
  rw [find?_of_ne_nil hx, find?_of_ne_nil hx]
  unfold put
  split
  · have hfun : ((fun e : Location × FileEntry ↦ e.1 == x) ∘
        fun e ↦ if e.1 == at_ then (at_, entry) else e) = (·.1 == x) := by
      funext e
      by_cases he : e.1 = at_ <;> simp [he]
    rw [List.find?_map, hfun]
    cases hfound : t.entries.find? (·.1 == x) with
    | none => rfl
    | some found =>
      have hat : found.1 = x := by simpa using List.find?_some hfound
      simp [hat, h]
  · rw [List.find?_append]
    cases t.entries.find? (·.1 == x) with
    | none => simp [Ne.symm h]
    | some found => rfl

theorem find?_drop_self (h : at_ ≠ []) : (t.drop at_).find? at_ = none := by
  rw [find?_of_ne_nil h]
  simp [drop, List.find?_eq_none]

theorem find?_drop_of_ne (h : x ≠ at_) : (t.drop at_).find? x = t.find? x := by
  by_cases hx : x = []
  · rw [hx, find?_nil, find?_nil]
  rw [find?_of_ne_nil hx, find?_of_ne_nil hx]
  unfold drop
  rw [List.find?_filter]
  congr 2
  funext e
  by_cases he : e.1 = x <;> simp [he, h]

/-! ## Moving -/

theorem sibling_prefix_iff {name name' : String} :
    at_ ++ [name] <+: at_ ++ [name'] ↔ name = name' := by
  rw [List.prefix_append_right_inj]
  simp

theorem sibling_below_iff {name name' : String} :
    at_ ++ [name] <+: at_ ++ [name'] ++ x ↔ name = name' := by
  rw [List.append_assoc, List.prefix_append_right_inj]
  simp

/-- Where a location lies after a move. -/
def moved (source target at_ : Location) : Location :=
  if source.isPrefixOf at_ then target ++ at_.drop source.length else at_

theorem moved_below (h : source <+: at_) :
    moved source target at_ = target ++ at_.drop source.length :=
  if_pos (List.isPrefixOf_iff_prefix.mpr h)

theorem moved_apart (h : ¬ source <+: at_) : moved source target at_ = at_ :=
  if_neg fun h' ↦ h (List.isPrefixOf_iff_prefix.mp h')

theorem directory_move : (t.move source target).directory = t.directory := rfl

/-- After a move a location holds what the first entry that it kept and brought there held. -/
theorem find?_move (hx : x ≠ []) :
    (t.move source target).find? x =
      (t.entries.find? fun e ↦ decide (¬ target <+: e.1 ∧ moved source target e.1 = x)).map
        (·.2) := by
  have hentry (e : Location × FileEntry) :
      (if source.isPrefixOf e.1 then (target ++ e.1.drop source.length, e.2) else e) =
        (moved source target e.1, e.2) := by
    unfold moved
    split <;> rfl
  rw [find?_of_ne_nil hx]
  unfold move
  simp only [hentry, List.find?_map, List.find?_filter, Option.map_map, Function.comp_def]
  congr 2
  funext e
  rw [decide_eq_decide, ← List.isPrefixOf_iff_prefix, beq_iff_eq, Bool.not_eq_true,
    Bool.not_eq_true']

/-- The target of a move and what is below it get what was at the source and below. -/
theorem find?_move_below_target (hsource : source ++ x ≠ []) (h : ¬ target <+: source ++ x)
    (htarget : target ++ x ≠ []) : (t.move source target).find? (target ++ x) =
      t.find? (source ++ x) := by
  rw [find?_move htarget, find?_of_ne_nil hsource]
  congr 2
  funext e
  rw [Bool.eq_iff_iff, decide_eq_true_iff, beq_iff_eq]
  constructor
  · intro ⟨hkept, hmoved⟩
    by_cases hbelow : source <+: e.1
    · obtain ⟨rest, hrest⟩ := hbelow
      rw [← hrest, moved_below (List.prefix_append _ _), List.drop_left,
        List.append_cancel_left_eq] at hmoved
      rw [← hrest, hmoved]
    · rw [moved_apart hbelow] at hmoved
      exact absurd (hmoved ▸ List.prefix_append _ _) hkept
  · intro he
    rw [he]
    refine ⟨h, ?_⟩
    rw [moved_below (List.prefix_append _ _), List.drop_left]

/-- The target of a move gets what was at the source. -/
theorem find?_move_target (hsource : source ≠ []) (h : ¬ target <+: source)
    (htarget : target ≠ []) : (t.move source target).find? target = t.find? source := by
  have hmoved : (t.move source target).find? (target ++ []) = t.find? (source ++ []) :=
    find?_move_below_target (by rwa [List.append_nil]) (by rwa [List.append_nil])
      (by rwa [List.append_nil])
  rwa [List.append_nil, List.append_nil] at hmoved

/-- After a move nothing is left at the source and below it. -/
theorem find?_move_below_source (hsource : source ++ x ≠ []) (h : ¬ target <+: source ++ x) :
    (t.move source target).find? (source ++ x) = none := by
  rw [find?_move hsource, Option.map_eq_none_iff, List.find?_eq_none]
  intro e _
  rw [decide_eq_true_iff]
  intro ⟨_, hmoved⟩
  by_cases hbelow : source <+: e.1
  · rw [moved_below hbelow] at hmoved
    exact h ⟨_, hmoved⟩
  · rw [moved_apart hbelow] at hmoved
    exact hbelow (hmoved ▸ List.prefix_append _ _)

/-- After a move nothing is left at the source. -/
theorem find?_move_source (hsource : source ≠ []) (h : ¬ target <+: source) :
    (t.move source target).find? source = none := by
  have hmoved : (t.move source target).find? (source ++ []) = none :=
    find?_move_below_source (by rwa [List.append_nil]) (by rwa [List.append_nil])
  rwa [List.append_nil] at hmoved

/-- A move leaves alone what is neither below its source nor below its target. -/
theorem find?_move_apart (hsource : ¬ source <+: x) (htarget : ¬ target <+: x) :
    (t.move source target).find? x = t.find? x := by
  by_cases hx : x = []
  · rw [hx, find?_nil, find?_nil]
  rw [find?_move hx, find?_of_ne_nil hx]
  congr 2
  funext e
  rw [Bool.eq_iff_iff, decide_eq_true_iff, beq_iff_eq]
  constructor
  · rintro ⟨-, hmoved⟩
    by_cases hbelow : source <+: e.1
    · rw [moved_below hbelow] at hmoved
      exact absurd ⟨_, hmoved⟩ htarget
    · rwa [moved_apart hbelow] at hmoved
  · intro he
    rw [he]
    exact ⟨htarget, moved_apart hsource⟩

end OfflineSupply.FileTree
