import Mathlib.Data.Bool.AllAny
import Mathlib.Data.List.Nodup
import Mathlib.Data.List.TakeWhile
import OfflineSupply.Proofs.Json.Text

/-!
# Documents read back

A document without numbers and with different member names is read back from what was written of it,
on one line or indented, with the halves joined in its texts.  Each reader is followed from one item to
the next; the induction over the documents then needs only that what is read stops where the written
item stopped, for every rest that may follow it.
-/

namespace OfflineSupply

/-- Putting in entries with new and different keys appends them. -/
theorem putEntries_eq_append {α β : Type} [BEq α] [LawfulBEq α] (entries added : List (α × β))
    (h : ((entries ++ added).map (·.1)).Nodup) : putEntries entries added = entries ++ added := by
  induction added generalizing entries with
  | nil => rw [List.append_nil]; rfl
  | cons entry added ih =>
    have hnew : ¬ entries.any (·.1 == entry.1) = true := by
      intro hany
      rw [List.any_eq_true] at hany
      obtain ⟨old, hold, hkey⟩ := hany
      rw [List.map_append, List.map_cons, List.nodup_append] at h
      exact h.2.2 old.1 (List.mem_map_of_mem hold) entry.1 (by simp) (eq_of_beq hkey)
    have hput : putEntry entries entry.1 entry.2 = entries ++ [entry] := if_neg hnew
    calc
      putEntries entries (entry :: added)
          = putEntries (entries ++ [entry]) added := by
        rw [putEntries, List.foldl_cons, hput, ← putEntries]
      _ = entries ++ [entry] ++ added := by
        apply ih
        rwa [List.append_assoc, List.singleton_append]
      _ = entries ++ entry :: added := by rw [List.append_assoc, List.singleton_append]

namespace Json

mutual

/-- A document with the halves joined in all its texts. -/
def joined : Json → Json
  | string text => string text.joined
  | array items => array (joinedItems items)
  | object members => object (joinedMembers members)
  | doc => doc

def joinedItems : List Json → List Json
  | [] => []
  | item :: items => item.joined :: joinedItems items

def joinedMembers : List (RawText × Json) → List (RawText × Json)
  | [] => []
  | (name, member) :: members => (name.joined, member.joined) :: joinedMembers members

end

/-- The documents without numbers, in which every object has different names, all of characters. -/
inductive Textual : Json → Prop where
  | null : Textual null
  | bool (value : Bool) : Textual (bool value)
  | string (text : RawText) : Textual (string text)
  | array {items : List Json} (hitems : ∀ item ∈ items, Textual item) : Textual (array items)
  | object {members : List (RawText × Json)} (hnodup : (members.map (·.1)).Nodup)
      (hnames : ∀ entry ∈ members, ∃ cs, entry.1 = .ofChars cs)
      (hmembers : ∀ entry ∈ members, Textual entry.2) : Textual (object members)

variable {start cs body rest after : List Char} {spread : Spread} {level : Nat} {doc item : Json}
  {items : List Json} {name : RawText} {members : List (RawText × Json)}

/-! ## Gaps -/

theorem skipGap_append {gap : List Char} {c : Char} (hgap : ∀ c ∈ gap, isGap c = true)
    (hc : isGap c = false) : skipGap (gap ++ c :: cs) = c :: cs := by
  rw [skipGap, List.dropWhile_append_of_pos hgap, List.dropWhile_cons_of_neg (by simp [hc])]

theorem isGap_of_mem_edge (spread : Spread) (level : Nat) {c : Char}
    (h : c ∈ spread.edge level) : isGap c = true := by
  cases spread with
  | oneLine => simp [Spread.edge] at h
  | indented width =>
    rw [Spread.edge, List.mem_cons, List.mem_replicate] at h
    cases h with
    | inl hline => rw [hline]; rfl
    | inr hspace => rw [hspace.2]; rfl

/-- What stands between two items is a comma and a gap. -/
theorem between_eq_cons (spread : Spread) (level : Nat) :
    ∃ gap, spread.between level = ',' :: gap ∧ ∀ c ∈ gap, isGap c = true := by
  cases spread with
  | oneLine => exact ⟨[' '], rfl, List.all_iff_forall_prop.mp (by decide)⟩
  | indented width =>
    refine ⟨_, rfl, ?_⟩
    intro c hc
    exact isGap_of_mem_edge (.indented width) level hc

/-- A text begins with a character that opens a document. -/
def Opens (cs : List Char) : Prop :=
  ∃ c tail, cs = c :: tail ∧ c ∈ ['n', 't', 'f', '\x22', '[', '\x7b']

theorem Opens.append (h : Opens cs) (rest : List Char) : Opens (cs ++ rest) := by
  obtain ⟨c, tail, rfl, hc⟩ := h
  exact ⟨c, tail ++ rest, rfl, hc⟩

theorem Opens.head?_ne {c : Char} (h : Opens cs)
    (hc : c ∉ ['n', 't', 'f', '\x22', '[', '\x7b']) : cs.head? ≠ some c := by
  obtain ⟨d, tail, rfl, hd⟩ := h
  intro heq
  rw [List.head?_cons, Option.some_inj] at heq
  exact hc (heq ▸ hd)

theorem Opens.skipGap_append (h : Opens cs) (gap : List Char)
    (hgap : ∀ c ∈ gap, isGap c = true) : skipGap (gap ++ cs) = cs := by
  obtain ⟨c, tail, rfl, hc⟩ := h
  have hopen : ∀ c ∈ ['n', 't', 'f', '\x22', '[', '\x7b'], isGap c = false :=
    List.all_iff_forall_prop.mp (by decide)
  exact Json.skipGap_append hgap (hopen c hc)

theorem opens_writeText (text : RawText) : Opens (writeText text) :=
  ⟨'\x22', _, rfl, by decide⟩

theorem Textual.opens_write (h : Textual doc) (spread : Spread) (level : Nat) :
    Opens (write spread level doc) := by
  cases h with
  | null => rw [write]; exact ⟨'n', _, rfl, by decide⟩
  | bool value =>
    rw [write]
    cases value with
    | false => exact ⟨'f', _, rfl, by decide⟩
    | true => exact ⟨'t', _, rfl, by decide⟩
  | string text => rw [write]; exact opens_writeText _
  | @array items _ =>
    cases items with
    | nil => rw [write]; exact ⟨'[', _, rfl, by decide⟩
    | cons item items => rw [write]; exact ⟨'[', _, rfl, by decide⟩
  | @object members _ _ _ =>
    cases members with
    | nil => rw [write]; exact ⟨'\x7b', _, rfl, by decide⟩
    | cons entry members => rw [write]; exact ⟨'\x7b', _, rfl, by decide⟩

/-! ## One document -/

/-- A word is read as the document that it stands for. -/
theorem gives_readValue_word {c : Char} {word : List Char}
    (hc : c ∉ ['\x22', '[', '\x7b'])
    (hfind : wordValues.find? (fun entry ↦ entry.1.isPrefixOf (c :: word ++ rest)) =
      some (c :: word, doc)) : Gives (readValue (c :: word ++ rest)) doc rest := by
  simp only [List.mem_cons, List.not_mem_nil, or_false, not_or] at hc
  have hatom : readValue (c :: word ++ rest) = readAtom (c :: word ++ rest) := by
    rw [List.cons_append, readValue, if_neg hc.1, if_neg hc.2.1, if_neg hc.2.2]
  have hdrop : (c :: word ++ rest).drop (c :: word).length = rest := List.drop_left
  have hshorter : rest.length < (c :: word ++ rest).length := by
    rw [List.length_append, List.length_cons]
    omega
  refine ⟨hshorter, ?_⟩
  rw [hatom, readAtom, hfind]
  simp only [hdrop, hshorter, dif_pos]

theorem gives_readValue_string {text : RawText}
    (h : Gives (readText ('\x22' :: cs) [] cs) text rest) :
    Gives (readValue ('\x22' :: cs)) (.string text) rest := by
  obtain ⟨hshorter, htext⟩ := h
  rw [readValue, if_pos rfl, htext]
  exact ⟨_, rfl⟩

theorem gives_readValue_emptyArray : Gives (readValue ('[' :: ']' :: rest)) (.array []) rest := by
  rw [readValue, if_neg (by decide), if_pos rfl]
  exact ⟨_, rfl⟩

theorem gives_readValue_array (hbody : skipGap cs = body) (hopens : Opens body)
    (h : Gives (readItems body) items rest) : Gives (readValue ('[' :: cs)) (.array items) rest := by
  obtain ⟨hshorter, hitems⟩ := h
  subst hbody
  rw [readValue, if_neg (by decide), if_pos rfl]
  simp only
  split
  · rename_i hclose
    rw [hclose] at hopens
    exact absurd rfl (hopens.head?_ne (by decide))
  · rw [hitems]
    exact ⟨_, rfl⟩

theorem gives_readValue_emptyObject :
    Gives (readValue ('\x7b' :: '\x7d' :: rest)) (.object []) rest := by
  rw [readValue, if_neg (by decide), if_neg (by decide), if_pos rfl]
  exact ⟨_, rfl⟩

theorem gives_readValue_object (hbody : skipGap cs = body) (hopens : Opens body)
    (h : Gives (readMembers body) members rest) :
    Gives (readValue ('\x7b' :: cs)) (.object (putEntries [] members)) rest := by
  obtain ⟨hshorter, hmembers⟩ := h
  subst hbody
  rw [readValue, if_neg (by decide), if_neg (by decide), if_pos rfl]
  simp only
  split
  · rename_i hclose
    rw [hclose] at hopens
    exact absurd rfl (hopens.head?_ne (by decide))
  · rw [hmembers]
    exact ⟨_, rfl⟩

/-! ## Items and members -/

theorem gives_readItems_last (hitem : Gives (readValue cs) item after)
    (hclose : skipGap after = ']' :: rest) : Gives (readItems cs) [item] rest := by
  obtain ⟨hshorter, hread⟩ := hitem
  rw [readItems, hread]
  simp only
  split
  · rename_i hrest
    rw [hclose] at hrest
    obtain ⟨-, rfl⟩ := List.cons.inj hrest
    exact ⟨_, rfl⟩
  · rename_i hrest
    rw [hclose] at hrest
    simp at hrest
  · rename_i hno _
    exact absurd hclose (hno _)

theorem gives_readItems_more (hitem : Gives (readValue cs) item after)
    (hcomma : skipGap after = ',' :: body) (hitems : Gives (readItems (skipGap body)) items rest) :
    Gives (readItems cs) (item :: items) rest := by
  obtain ⟨hshorter, hread⟩ := hitem
  obtain ⟨hshorterItems, hreadItems⟩ := hitems
  rw [readItems, hread]
  simp only
  split
  · rename_i hrest
    rw [hcomma] at hrest
    simp at hrest
  · rename_i hrest
    rw [hcomma] at hrest
    obtain ⟨-, rfl⟩ := List.cons.inj hrest
    rw [hreadItems]
    exact ⟨_, rfl⟩
  · rename_i hno
    exact absurd hcomma (hno _)

/-- A member as far as the comma or the brace that follows it. -/
theorem gives_readMembers_last {afterName : List Char}
    (hname : Gives (readText ('\x22' :: cs) [] cs) name afterName)
    (hcolon : skipGap afterName = ':' :: body) (hitem : Gives (readValue (skipGap body)) item after)
    (hclose : skipGap after = '\x7d' :: rest) :
    Gives (readMembers ('\x22' :: cs)) [(name, item)] rest := by
  obtain ⟨hshorterName, hreadName⟩ := hname
  obtain ⟨hshorter, hread⟩ := hitem
  rw [readMembers, hreadName]
  simp only
  split
  · rename_i hrest
    rw [hcolon] at hrest
    obtain ⟨-, rfl⟩ := List.cons.inj hrest
    rw [hread]
    simp only
    split
    · rename_i hrest'
      rw [hclose] at hrest'
      obtain ⟨-, rfl⟩ := List.cons.inj hrest'
      exact ⟨_, rfl⟩
    · rename_i hrest'
      rw [hclose] at hrest'
      simp at hrest'
    · rename_i hno _
      exact absurd hclose (hno _)
  · rename_i hno
    exact absurd hcolon (hno _)

theorem gives_readMembers_more {afterName next : List Char}
    (hname : Gives (readText ('\x22' :: cs) [] cs) name afterName)
    (hcolon : skipGap afterName = ':' :: body) (hitem : Gives (readValue (skipGap body)) item after)
    (hcomma : skipGap after = ',' :: next)
    (hmembers : Gives (readMembers (skipGap next)) members rest) :
    Gives (readMembers ('\x22' :: cs)) ((name, item) :: members) rest := by
  obtain ⟨hshorterName, hreadName⟩ := hname
  obtain ⟨hshorter, hread⟩ := hitem
  obtain ⟨hshorterMembers, hreadMembers⟩ := hmembers
  rw [readMembers, hreadName]
  simp only
  split
  · rename_i hrest
    rw [hcolon] at hrest
    obtain ⟨-, rfl⟩ := List.cons.inj hrest
    rw [hread]
    simp only
    split
    · rename_i hrest'
      rw [hcomma] at hrest'
      simp at hrest'
    · rename_i hrest'
      rw [hcomma] at hrest'
      obtain ⟨-, rfl⟩ := List.cons.inj hrest'
      rw [hreadMembers]
      exact ⟨_, rfl⟩
    · rename_i hno
      exact absurd hcomma (hno _)
  · rename_i hno
    exact absurd hcolon (hno _)

/-! ## What was written -/

/-- A document is read back, in whatever spread and before whatever rest it was written. -/
def ReadsBack (doc : Json) : Prop :=
  ∀ (spread : Spread) (level : Nat) (rest : List Char),
    Gives (readValue (write spread level doc ++ rest)) doc.joined rest

theorem joined_of_name (hname : ∃ cs, name = .ofChars cs) : name.joined = name := by
  obtain ⟨cs, rfl⟩ := hname
  exact RawText.joined_ofChars cs

theorem names_joinedMembers (hnames : ∀ entry ∈ members, ∃ cs, entry.1 = .ofChars cs) :
    (joinedMembers members).map (·.1) = members.map (·.1) := by
  induction members with
  | nil => rfl
  | cons entry members ih =>
    obtain ⟨name, item⟩ := entry
    have hname : name.joined = name := joined_of_name (hnames _ List.mem_cons_self)
    have hrest := ih fun next hnext ↦ hnames next (List.mem_cons_of_mem _ hnext)
    rw [joinedMembers, List.map_cons, List.map_cons, hrest]
    exact congrArg (· :: _) hname

theorem gives_readValue_afterColon (h : Textual doc) (hread : ReadsBack doc) (spread : Spread)
    (level : Nat) (rest : List Char) :
    Gives (readValue (skipGap (' ' :: (write spread level doc ++ rest)))) doc.joined rest := by
  have hopens := (h.opens_write spread level).append rest
  have hskip : skipGap (' ' :: (write spread level doc ++ rest)) = write spread level doc ++ rest :=
    hopens.skipGap_append [' '] (List.all_iff_forall_prop.mp (by decide))
  rw [hskip]
  exact hread spread level rest

/-- The items from one on, up to the bracket that closes an outer level. -/
theorem gives_readItems_write (hitems : ∀ doc ∈ item :: items, Textual doc ∧ ReadsBack doc)
    (spread : Spread) (level outer : Nat) (rest : List Char) :
    Gives (readItems (write spread level item ++
      (writeItems spread level items ++ (spread.edge outer ++ ']' :: rest))))
      (joinedItems (item :: items)) rest := by
  induction items generalizing item with
  | nil =>
    have hclose : skipGap (writeItems spread level [] ++ (spread.edge outer ++ ']' :: rest)) =
        ']' :: rest := by
      rw [writeItems, List.nil_append]
      exact skipGap_append (fun c hc ↦ isGap_of_mem_edge spread outer hc) rfl
    exact gives_readItems_last ((hitems item (by simp)).2 spread level _) hclose
  | cons next items ih =>
    have hnext : ∀ doc ∈ next :: items, Textual doc ∧ ReadsBack doc := by
      intro doc hdoc
      exact hitems doc (List.mem_cons_of_mem item hdoc)
    obtain ⟨gap, hbetween, hgap⟩ := between_eq_cons spread level
    have hopens : Opens (write spread level next ++
        (writeItems spread level items ++ (spread.edge outer ++ ']' :: rest))) :=
      ((hnext next (by simp)).1.opens_write spread level).append _
    apply gives_readItems_more ((hitems item (by simp)).2 spread level _)
    · rw [writeItems, hbetween]
      simp only [List.cons_append, List.append_assoc]
      rfl
    · rw [hopens.skipGap_append gap hgap]
      exact ih hnext

/-- The members from one on, up to the brace that closes an outer level. -/
theorem gives_readMembers_write
    (hnames : ∀ entry ∈ (name, item) :: members, ∃ cs, entry.1 = .ofChars cs)
    (hmembers : ∀ entry ∈ (name, item) :: members, Textual entry.2 ∧ ReadsBack entry.2)
    (spread : Spread) (level outer : Nat) (rest : List Char) :
    Gives (readMembers (writeText name ++ ':' :: ' ' :: (write spread level item ++
      (writeMembers spread level members ++ (spread.edge outer ++ '\x7d' :: rest)))))
      (joinedMembers ((name, item) :: members)) rest := by
  induction members generalizing name item with
  | nil =>
    obtain ⟨htextual, hread⟩ := hmembers _ (List.mem_cons_self)
    have hclose : skipGap (writeMembers spread level [] ++ (spread.edge outer ++ '\x7d' :: rest)) =
        '\x7d' :: rest := by
      rw [writeMembers, List.nil_append]
      exact skipGap_append (fun c hc ↦ isGap_of_mem_edge spread outer hc) rfl
    rw [writeText_eq, List.cons_append, List.append_assoc]
    exact gives_readMembers_last (gives_readText _ [] name.points _) rfl
      (gives_readValue_afterColon htextual hread spread level _) hclose
  | cons next members ih =>
    obtain ⟨nextName, nextItem⟩ := next
    obtain ⟨htextual, hread⟩ := hmembers _ (List.mem_cons_self)
    obtain ⟨gap, hbetween, hgap⟩ := between_eq_cons spread level
    have hrest := ih
      (fun entry hentry ↦ hnames entry (List.mem_cons_of_mem _ hentry))
      (fun entry hentry ↦ hmembers entry (List.mem_cons_of_mem _ hentry))
    rw [writeText_eq, List.cons_append, List.append_assoc]
    apply gives_readMembers_more (gives_readText _ [] name.points _) rfl
      (gives_readValue_afterColon htextual hread spread level _)
    · rw [writeMembers, hbetween]
      simp only [List.cons_append, List.append_assoc]
      rfl
    · rw [((opens_writeText nextName).append _).skipGap_append gap hgap]
      exact hrest

/-- Whatever is written of a document without numbers is read as that document, with halves joined. -/
theorem Textual.readsBack (h : Textual doc) : ReadsBack doc := by
  intro spread level rest
  induction h generalizing spread level rest with
  | null => exact gives_readValue_word (by decide) rfl
  | bool value =>
    cases value with
    | false => exact gives_readValue_word (by decide) rfl
    | true => exact gives_readValue_word (by decide) rfl
  | string text =>
    rw [write, writeText_eq, List.cons_append, List.append_assoc]
    exact gives_readValue_string (gives_readText _ [] text.points rest)
  | @array items hitems ih =>
    cases items with
    | nil => rw [write]; exact gives_readValue_emptyArray
    | cons item items =>
      have hbody := gives_readItems_write (fun doc hdoc ↦ ⟨hitems doc hdoc, ih doc hdoc⟩)
        spread (level + 1) level rest
      have hopens := ((hitems item (by simp)).opens_write spread (level + 1)).append
        (writeItems spread (level + 1) items ++ (spread.edge level ++ ']' :: rest))
      have hskip := hopens.skipGap_append (spread.edge (level + 1))
        fun c hc ↦ isGap_of_mem_edge spread (level + 1) hc
      have htext : write spread level (.array (item :: items)) ++ rest =
          '[' :: (spread.edge (level + 1) ++ (write spread (level + 1) item ++
            (writeItems spread (level + 1) items ++ (spread.edge level ++ ']' :: rest)))) := by
        rw [write]
        simp only [List.cons_append, List.append_assoc, List.nil_append]
      rw [htext]
      exact gives_readValue_array hskip hopens hbody
  | @object members hnodup hnames hmembers ih =>
    cases members with
    | nil => rw [write]; exact gives_readValue_emptyObject
    | cons entry members =>
      obtain ⟨name, item⟩ := entry
      have hbody := gives_readMembers_write hnames
        (fun doc hdoc ↦ ⟨hmembers doc hdoc, ih doc hdoc⟩) spread (level + 1) level rest
      have hopens := (opens_writeText name).append
        (':' :: ' ' :: (write spread (level + 1) item ++
          (writeMembers spread (level + 1) members ++ (spread.edge level ++ '\x7d' :: rest))))
      have hskip := hopens.skipGap_append (spread.edge (level + 1))
        fun c hc ↦ isGap_of_mem_edge spread (level + 1) hc
      have htext : write spread level (.object ((name, item) :: members)) ++ rest =
          '\x7b' :: (spread.edge (level + 1) ++ (writeText name ++ ':' :: ' ' ::
            (write spread (level + 1) item ++ (writeMembers spread (level + 1) members ++
              (spread.edge level ++ '\x7d' :: rest))))) := by
        rw [write]
        simp only [List.cons_append, List.append_assoc, List.nil_append]
      have hobject := gives_readValue_object hskip hopens hbody
      rw [← names_joinedMembers hnames] at hnodup
      have hput : putEntries [] (joinedMembers ((name, item) :: members)) =
          joinedMembers ((name, item) :: members) :=
        putEntries_eq_append [] _ hnodup
      rw [hput] at hobject
      rw [htext]
      exact hobject

/-- The text of a document without numbers holds that document, whatever gap follows it. -/
theorem Textual.parseChars_write (h : Textual doc) (spread : Spread) {gap : List Char}
    (hgap : ∀ c ∈ gap, isGap c = true) :
    parseChars (write spread 0 doc ++ gap) = .ok doc.joined := by
  have hopens := (h.opens_write spread 0).append gap
  have hstart : skipGap (write spread 0 doc ++ gap) = write spread 0 doc ++ gap :=
    hopens.skipGap_append [] (by simp)
  have hvalue : Gives (readValue (skipGap (write spread 0 doc ++ gap))) doc.joined gap := by
    rw [hstart]
    exact h.readsBack spread 0 gap
  have hend : skipGap gap = [] := List.dropWhile_eq_nil_iff.mpr hgap
  unfold parseChars
  split
  · rename_i hmark
    rw [hmark] at hopens
    exact absurd rfl (hopens.head?_ne (by decide))
  · obtain ⟨hshorter, hread⟩ := hvalue
    rw [hread]
    simp only [hend]

/-! ## No control characters -/

/-- A character that is a line feed or no control character. -/
def Tame (c : Char) : Prop :=
  c = '\n' ∨ 0x20 ≤ c.toNat

instance : DecidablePred Tame :=
  fun c ↦ inferInstanceAs (Decidable (c = '\n' ∨ 0x20 ≤ c.toNat))

theorem tame_of_all {cs : List Char} (h : cs.all (fun c ↦ decide (Tame c)) = true) {c : Char}
    (hc : c ∈ cs) : Tame c :=
  List.all_iff_forall_prop.mp h c hc

theorem tame_of_mem_edge {c : Char} (h : c ∈ spread.edge level) : Tame c := by
  cases spread with
  | oneLine => simp [Spread.edge] at h
  | indented width =>
    rw [Spread.edge, List.mem_cons, List.mem_replicate] at h
    cases h with
    | inl hline => exact .inl hline
    | inr hspace => rw [hspace.2]; exact .inr (by decide)

theorem tame_of_mem_between {c : Char} (h : c ∈ spread.between level) : Tame c := by
  cases spread with
  | oneLine =>
    have hword : c ∈ [',', ' '] := h
    exact tame_of_all (by decide) hword
  | indented width =>
    rw [Spread.between, List.mem_cons] at h
    cases h with
    | inl hcomma => rw [hcomma]; exact .inr (by decide)
    | inr hgap =>
      have hedge : c ∈ (Spread.indented width).edge level := hgap
      exact tame_of_mem_edge hedge

theorem tame_of_mem_writeItems
    (hitems : ∀ item ∈ items, ∀ level, ∀ c ∈ write spread level item, Tame c) {c : Char}
    (h : c ∈ writeItems spread level items) : Tame c := by
  induction items with
  | nil => simp [writeItems] at h
  | cons item items ih =>
    rw [writeItems, List.mem_append, List.mem_append] at h
    rcases h with (hbetween | hitem) | hrest
    · exact tame_of_mem_between hbetween
    · exact hitems item (by simp) level c hitem
    · exact ih (fun next hnext ↦ hitems next (List.mem_cons_of_mem item hnext)) hrest

theorem tame_of_mem_writeMembers
    (hmembers : ∀ entry ∈ members, ∀ level, ∀ c ∈ write spread level entry.2, Tame c) {c : Char}
    (h : c ∈ writeMembers spread level members) : Tame c := by
  induction members with
  | nil => simp [writeMembers] at h
  | cons entry members ih =>
    obtain ⟨name, item⟩ := entry
    simp only [writeMembers, List.mem_append, List.mem_cons] at h
    rcases h with ((hbetween | hname) | rfl | rfl | hitem) | hrest
    · exact tame_of_mem_between hbetween
    · exact .inr (le_toNat_of_mem_writeText hname)
    · exact .inr (by decide)
    · exact .inr (by decide)
    · exact hmembers _ List.mem_cons_self level c hitem
    · exact ih (fun next hnext ↦ hmembers next (List.mem_cons_of_mem _ hnext)) hrest

/-- A document without numbers is written without control characters other than line feeds. -/
theorem Textual.tame_of_mem_write (h : Textual doc) {c : Char} (hc : c ∈ write spread level doc) :
    Tame c := by
  induction h generalizing level c with
  | null =>
    rw [write] at hc
    exact tame_of_all (by decide) hc
  | bool value =>
    rw [write] at hc
    cases value <;> exact tame_of_all (by decide) hc
  | string text =>
    rw [write] at hc
    exact .inr (le_toNat_of_mem_writeText hc)
  | @array items hitems ih =>
    cases items with
    | nil =>
      rw [write] at hc
      exact tame_of_all (by decide) hc
    | cons item items =>
      simp only [write, List.mem_append, List.mem_cons, List.not_mem_nil, or_false] at hc
      rcases hc with ((((rfl | hedge) | hitem) | hrest) | hedge) | rfl
      · exact .inr (by decide)
      · exact tame_of_mem_edge hedge
      · exact ih item (by simp) hitem
      · exact tame_of_mem_writeItems
          (fun next hnext level c hc ↦ ih next (List.mem_cons_of_mem item hnext) hc) hrest
      · exact tame_of_mem_edge hedge
      · exact .inr (by decide)
  | @object members hnodup hnames hmembers ih =>
    cases members with
    | nil =>
      rw [write] at hc
      exact tame_of_all (by decide) hc
    | cons entry members =>
      obtain ⟨name, item⟩ := entry
      simp only [write, List.mem_append, List.mem_cons, List.not_mem_nil, or_false] at hc
      rcases hc with (((((rfl | hedge) | hname) | rfl | rfl | hitem) | hrest) | hedge) | rfl
      · exact .inr (by decide)
      · exact tame_of_mem_edge hedge
      · exact .inr (le_toNat_of_mem_writeText hname)
      · exact .inr (by decide)
      · exact .inr (by decide)
      · exact ih _ List.mem_cons_self hitem
      · exact tame_of_mem_writeMembers
          (fun next hnext level c hc ↦ ih next (List.mem_cons_of_mem _ hnext) hc) hrest
      · exact tame_of_mem_edge hedge
      · exact .inr (by decide)

end Json

end OfflineSupply
