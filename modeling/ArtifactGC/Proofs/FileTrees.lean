import ArtifactGC.Local.FileTree
import ArtifactGC.Proofs.Machines
import Mathlib.Data.List.Basic

/-!
# Files of a file tree

A file tree is a machine on which a file keeps its text while storage is used at locations that do
not lead to the file itself or to a directory above it. `FileTree.host_guards` says so for files
whose path goes straight down.
-/

namespace ArtifactGC.FileTree

variable {t t' : FileTree}

/-! ## Following names -/

/-- Where a name leads from a directory. -/
def climb (directory : List String) (name : String) : List String :=
  if name = "." then directory else if name = ".." then directory.dropLast else directory ++ [name]

/-- Where names lead does not depend on the tree, as far as they can be followed. -/
theorem eq_of_follow {names start reached : List String} (h : t.follow start names = .ok reached) :
    reached = names.foldl climb start := by
  induction names generalizing start with
  | nil => exact (Except.ok.inj h).symm
  | cons name names ih =>
    rw [List.foldl_cons, climb]
    rw [follow] at h
    split at h
    · cases h
    · cases h
    · split at h
      · rw [if_pos ‹_›]
        exact ih h
      · rw [if_neg ‹_›]
        split at h
        · rw [if_pos ‹_›]
          exact ih h
        · rw [if_neg ‹_›]
          split at h
          · cases h
          · exact ih h

/-- Names that go straight down a tree. -/
def GoesDown (names : List String) : Prop := ∀ name ∈ names, name ≠ "." ∧ name ≠ ".."

instance (names : List String) : Decidable (GoesDown names) :=
  inferInstanceAs (Decidable (∀ name ∈ names, _))

/-- Names that go down lead to what they name. -/
theorem foldl_climb {names : List String} (hdown : GoesDown names) (start : List String) :
    names.foldl climb start = start ++ names := by
  induction names generalizing start with
  | nil => rw [List.foldl_nil, List.append_nil]
  | cons name names ih =>
    obtain ⟨⟨hdot, hdots⟩, hrest⟩ := List.forall_mem_cons.mp hdown
    rw [List.foldl_cons, climb, if_neg hdot, if_neg hdots, ih hrest, List.append_assoc]
    rfl

/-- Names that go down are followed the same in trees that agree above the last of them. -/
theorem follow_congr {names : List String} (hdown : GoesDown names) {start : List String}
    (h : ∀ above, above <+: names → above ≠ names →
      t'.entry? (start ++ above) = t.entry? (start ++ above)) :
    t'.follow start names = t.follow start names := by
  induction names generalizing start with
  | nil => rfl
  | cons name names ih =>
    obtain ⟨⟨hdot, hdots⟩, hrest⟩ := List.forall_mem_cons.mp hdown
    have hstart := h [] List.nil_prefix (List.cons_ne_nil _ _).symm
    rw [List.append_nil] at hstart
    rw [follow, follow, hstart]
    split
    · rfl
    · rfl
    · rw [if_neg hdot, if_neg hdots, if_neg hdot, if_neg hdots]
      split
      · rfl
      · refine ih hrest fun above habove hne => ?_
        have hcons := h (name :: above) (List.cons_prefix_cons.mpr ⟨rfl, habove⟩)
          fun heq => hne (List.cons.inj heq).2
        rwa [List.append_cons] at hcons

/-! ## Entries -/

/-- Keys that are kept are looked up as before, the others are gone. -/
theorem lookup_filter {κ β : Type} [BEq κ] [LawfulBEq κ] (keep : κ → Bool) (key : κ)
    (entries : List (κ × β)) :
    (entries.filter fun e => keep e.1).lookup key =
      if keep key then entries.lookup key else none := by
  induction entries with
  | nil => simp
  | cons e entries ih =>
    obtain ⟨key', value⟩ := e
    rw [List.filter_cons, List.lookup_cons]
    by_cases hkey : key = key'
    · subst hkey
      cases hkeep : keep key with
      | true => simp
      | false => simpa [hkeep] using ih
    · have hne : (key == key') = false := beq_eq_false_iff_ne.mpr hkey
      rw [hne]
      cases keep key' with
      | true => simpa [List.lookup_cons, hne] using ih
      | false => simpa using ih

variable {names file : List String}

/-- What is not below names stays when they are removed. -/
theorem entry?_without (h : ¬ names <+: file) : entry? (t.without names) file = t.entry? file := by
  have hkeep : ¬ names.isPrefixOf file = true := mt List.isPrefixOf_iff_prefix.mp h
  unfold entry? without
  rw [lookup_filter (fun key => decide (¬ names.isPrefixOf key = true)),
    if_pos (decide_eq_true hkeep)]

/-- What is not below a directory stays when it is emptied. -/
theorem entry?_emptied (h : ¬ names <+: file) : entry? (t.emptied names) file = t.entry? file := by
  have hkeep : ¬ (names.isPrefixOf file = true ∧ file ≠ names) :=
    fun hbelow => h (List.isPrefixOf_iff_prefix.mp hbelow.1)
  unfold entry? emptied
  rw [lookup_filter (fun key => decide (¬ (names.isPrefixOf key = true ∧ key ≠ names))),
    if_pos (decide_eq_true hkeep)]

/-- An entry that is set is there, and the others stay. -/
theorem entry?_set {entry : FileTreeEntry} (hnames : names ≠ []) :
    entry? (t.set names entry) file = if file = names then some entry else t.entry? file := by
  unfold entry? set
  rw [List.lookup_append, lookup_filter (fun key => decide (key ≠ names)), List.lookup_cons]
  by_cases h : file = names
  · subst h
    simp [hnames]
  · have hne : (file == names) = false := beq_eq_false_iff_ne.mpr h
    simp [h, hne]

/-! ## Files -/

/-- The names that a path leads to which goes straight down. -/
def below (cwd : List String) (parsed : ParsedPath) : List String :=
  (if parsed.absolute then [] else cwd) ++ parsed.names

section Files

variable {cwd : List String} {path : String} {parsed : ParsedPath}
  (hparsed : ParsedPath.ofText path = .ok parsed) (hdown : GoesDown parsed.names)
include hparsed hdown

/-- A path that goes down leads to the same in trees that agree along it. -/
theorem locate_congr
    (h : ∀ above, above <+: below cwd parsed → t'.entry? above = t.entry? above) :
    t'.locate cwd path = t.locate cwd path := by
  have halong (above : List String) (habove : above <+: parsed.names) :
      t'.entry? ((if parsed.absolute then [] else cwd) ++ above) =
        t.entry? ((if parsed.absolute then [] else cwd) ++ above) :=
    h _ ((List.prefix_append_right_inj _).mpr habove)
  unfold locate
  rw [hparsed]
  dsimp only [bind, Except.bind]
  rw [follow_congr hdown fun above habove _ => halong above habove]
  cases hfollow : t.follow (if parsed.absolute then [] else cwd) parsed.names with
  | error e => rfl
  | ok names =>
    have hnames : names = below cwd parsed :=
      (eq_of_follow hfollow).trans (foldl_climb hdown _)
    dsimp only
    rw [hnames, h _ List.prefix_rfl]

/-- A path that goes down is read the same in trees that agree along it. -/
theorem readText_congr
    (h : ∀ above, above <+: below cwd parsed → t'.entry? above = t.entry? above) :
    t'.readText cwd path = t.readText cwd path := by
  rw [readText, readText, locate_congr hparsed hdown h]

end Files

/-- What a path leads to is reached by following its names. -/
theorem follow_of_locate {cwd names : List String} {path : String} {entry : FileTreeEntry}
    (h : t.locate cwd path = .ok (names, entry)) :
    ∃ parsed, ParsedPath.ofText path = .ok parsed ∧
      t.follow (if parsed.absolute then [] else cwd) parsed.names = .ok names ∧
      t.entry? names = some entry ∧ (parsed.wantsDirectory = true → entry = .directory) := by
  unfold locate at h
  cases hparsed : ParsedPath.ofText path with
  | error e =>
    rw [hparsed] at h
    cases h
  | ok parsed =>
    rw [hparsed] at h
    dsimp only [bind, Except.bind] at h
    cases hfollow : t.follow (if parsed.absolute then [] else cwd) parsed.names with
    | error e =>
      rw [hfollow] at h
      cases h
    | ok reached =>
      rw [hfollow] at h
      dsimp only at h
      split at h
      · cases h
      · rename_i content hentry
        split at h
        · cases h
        · rename_i hfile
          cases h
          exact ⟨parsed, rfl, hfollow, hentry, fun hwants => absurd hwants hfile⟩
      · rename_i hentry
        cases h
        exact ⟨parsed, rfl, hfollow, hentry, fun _ => rfl⟩

/-- A location leads neither to a file nor to a directory above it. -/
def Avoids (cwd file : List String) (location : String) : Prop :=
  ∀ t names entry, locate t cwd location = .ok (names, entry) → ¬ names <+: file

/-- A location avoids a file if its names do not lead above it. -/
theorem avoids_of_ofText {cwd file : List String} {location : String} {parsed : ParsedPath}
    (hparsed : ParsedPath.ofText location = .ok parsed)
    (h : ¬ parsed.names.foldl climb (if parsed.absolute then [] else cwd) <+: file) :
    Avoids cwd file location := by
  intro t names entry hlocate
  obtain ⟨parsed', hparsed', hfollow, _, _⟩ := follow_of_locate hlocate
  obtain rfl : parsed' = parsed := Except.ok.inj (hparsed'.symm.trans hparsed)
  rwa [eq_of_follow hfollow]

/-- The directory that is removed by its path is the one that the path leads to. -/
theorem withoutDirectory_eq {location : String} {rest : FileTree} {cwd names : List String}
    {entry : FileTreeEntry} (hlocate : t.locate cwd location = .ok (names, entry))
    (h : t'.withoutDirectory cwd location = .ok rest) : rest = t'.without names := by
  obtain ⟨parsed, hparsed, hfollow, _, _⟩ := follow_of_locate hlocate
  unfold withoutDirectory at h
  rw [hparsed] at h
  dsimp only [bind, Except.bind] at h
  split at h
  · cases h
  · rename_i name hlast
    split at h
    · cases h
    · rename_i parent hparent
      split at h
      · cases h
      · cases h
      · split at h
        · cases h
        · split at h
          · cases h
          · rename_i hdot hdots
            cases h
            have hnames : parsed.names.dropLast ++ [name] = parsed.names :=
              List.dropLast_append_getLast? name hlast
            have hreached := eq_of_follow hfollow
            rw [← hnames, List.foldl_append, ← eq_of_follow hparent, List.foldl_cons, climb,
              if_neg hdot, if_neg hdots] at hreached
            rw [hreached]
            rfl

section Guards

variable {cwd : List String} {path : String} {parsed : ParsedPath}
  (hparsed : ParsedPath.ofText path = .ok parsed) (hdown : GoesDown parsed.names)
include hparsed hdown

/-- A file stays as it is when something is removed that is not above it. -/
theorem readText_without {names : List String} (h : ¬ names <+: below cwd parsed) :
    (t.without names).readText cwd path = t.readText cwd path :=
  readText_congr hparsed hdown fun _ habove => entry?_without fun hnames => h (hnames.trans habove)

/-- A file stays as it is when a directory is emptied that is not above it. -/
theorem readText_emptied {names : List String} (h : ¬ names <+: below cwd parsed) :
    (t.emptied names).readText cwd path = t.readText cwd path :=
  readText_congr hparsed hdown fun _ habove => entry?_emptied fun hnames => h (hnames.trans habove)

variable {location : String} (havoids : Avoids cwd (below cwd parsed) location)
include havoids

/-- A file stays as it is when a file is removed elsewhere. -/
theorem readText_removeFile :
    (t.removeFile cwd location).2.readText cwd path = t.readText cwd path := by
  unfold removeFile
  split
  · rfl
  · rfl
  · rename_i names _ hlocate
    exact readText_without hparsed hdown (havoids _ _ _ hlocate)

/-- A file stays as it is when a directory is removed elsewhere. -/
theorem readText_removeTree :
    (t.removeTree cwd location).2.readText cwd path = t.readText cwd path := by
  unfold removeTree
  split
  · rfl
  · rfl
  · rename_i names hlocate
    have hnames := havoids _ _ _ hlocate
    split
    · rename_i rest hrest
      dsimp only
      rw [withoutDirectory_eq hlocate hrest, readText_without hparsed hdown hnames,
        readText_emptied hparsed hdown hnames]
    · exact readText_emptied hparsed hdown hnames

end Guards

/-- A file that is read is where the names of its path lead. -/
theorem follow_of_readText {cwd : List String} {path content : String}
    (h : t.readText cwd path = .ok content) :
    ∃ parsed names, ParsedPath.ofText path = .ok parsed ∧
      t.follow (if parsed.absolute then [] else cwd) parsed.names = .ok names ∧
      t.entry? names = some (.file content) ∧ ¬ parsed.wantsDirectory = true := by
  unfold readText at h
  cases hlocate : t.locate cwd path with
  | error e =>
    rw [hlocate] at h
    cases h
  | ok found =>
    obtain ⟨names, entry⟩ := found
    rw [hlocate] at h
    obtain ⟨parsed, hparsed, hfollow, hentry, hwants⟩ := follow_of_locate hlocate
    cases entry with
    | directory => cases h
    | file old =>
      cases h
      exact ⟨parsed, names, hparsed, hfollow, hentry, fun hwanted => nomatch hwants hwanted⟩

/-- The file where the names of its path lead is read. -/
theorem readText_of_follow {cwd names : List String} {path content : String} {parsed : ParsedPath}
    (hparsed : ParsedPath.ofText path = .ok parsed)
    (hfollow : t.follow (if parsed.absolute then [] else cwd) parsed.names = .ok names)
    (hentry : t.entry? names = some (.file content)) (hfile : ¬ parsed.wantsDirectory = true) :
    t.readText cwd path = .ok content := by
  unfold readText locate
  rw [hparsed]
  dsimp only [bind, Except.bind]
  rw [hfollow]
  dsimp only
  rw [hentry]
  dsimp only
  rw [if_neg hfile]

/-- A file that can be read can be replaced, and then the new text is read. -/
theorem writeText_of_readText {cwd : List String} {path old text : String} {parsed : ParsedPath}
    (hparsed : ParsedPath.ofText path = .ok parsed) (hdown : GoesDown parsed.names)
    (h : t.readText cwd path = .ok old) :
    (t.writeText cwd path text).1 = .ok () ∧
      (t.writeText cwd path text).2.readText cwd path = .ok text := by
  obtain ⟨parsed', names, hparsed', hfollow, hentry, hfile⟩ := follow_of_readText h
  obtain rfl : parsed' = parsed := Except.ok.inj (hparsed'.symm.trans hparsed)
  have hnames : names = (if parsed'.absolute then [] else cwd) ++ parsed'.names :=
    (eq_of_follow hfollow).trans (foldl_climb hdown _)
  have hne : names ≠ [] := by
    rintro rfl
    cases hentry
  have hwritten : t.writeText cwd path text = (.ok (), t.set names (.file text)) := by
    unfold writeText
    rw [hparsed]
    dsimp only
    rw [hfollow]
    dsimp only
    rw [hentry]
    exact if_neg hfile
  have hstill : (t.set names (.file text)).follow (if parsed'.absolute then [] else cwd)
      parsed'.names = .ok names := by
    rw [← hfollow]
    refine follow_congr hdown fun above _ habove => ?_
    rw [entry?_set hne, if_neg]
    exact fun heq => habove (List.append_cancel_left (heq.trans hnames))
  have hset : entry? (t.set names (.file text)) names = some (.file text) := by
    rw [entry?_set hne, if_pos rfl]
  rw [hwritten]
  exact ⟨rfl, readText_of_follow hparsed hstill hset hfile⟩

/-- On a file tree a file whose path goes down is guarded against what is done at locations that
lead neither to it nor above it. -/
theorem host_guards {cwd : List String} {path : String} {parsed : ParsedPath}
    (hparsed : ParsedPath.ofText path = .ok parsed) (hdown : GoesDown parsed.names) :
    (host cwd).Guards path (Avoids cwd (below cwd parsed)) where
  preserves _ := {
    kindAt := fun _ h => h
    removeFile := fun havoids h => (readText_removeFile hparsed hdown havoids).trans h
    removeTree := fun havoids h => (readText_removeTree hparsed hdown havoids).trans h
    note := fun h => h }
  readText h := h
  writeText h := writeText_of_readText hparsed hdown h

end ArtifactGC.FileTree
