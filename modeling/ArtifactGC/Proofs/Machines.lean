import ArtifactGC.Local.Host

/-!
# What is asked of a machine

A machine is a record of operations, here with a state of any type. `Host.recorded` is the same
machine with a record of what it is asked, so that what a command leaves alone can be said of it.
What the operations do to the state is up to the machine: `Host.Preserves` says what storage at some
paths and log entries leave alone, and `Host.Guards` says that a file holds its text until it is
written, and then the text that was written.
-/

namespace ArtifactGC

/-- What is asked of a machine. -/
inductive HostCall where
  /-- What there is at a path. -/
  | kindAt (path : String)
  /-- Remove a file. -/
  | removeFile (path : String)
  /-- Remove a directory and everything below it. -/
  | removeTree (path : String)
  /-- The text of a file. -/
  | readText (path : String)
  /-- Create or replace a file. -/
  | writeText (path content : String)
  /-- Take note of a log entry. -/
  | note (entry : LogEntry)
deriving DecidableEq, Repr

/-- The call uses storage at one of some paths, or is a log entry. -/
def HostCall.Within (paths : String → Prop) : HostCall → Prop
  | .kindAt path | .removeFile path | .removeTree path => paths path
  | .note _ => True
  | .readText _ | .writeText .. => False

namespace Host

variable {σ : Type} (host : Host (StateM σ))

/-- An operation that remembers for what it was called. -/
def remembering {α : Type} (call : HostCall) (operation : StateM σ α) :
    StateM (σ × List HostCall) α :=
  fun (s, calls) => ((operation s).1, (operation s).2, calls ++ [call])

/-- The machine with a record of what it is asked. -/
def recorded : Host (StateM (σ × List HostCall)) where
  kindAt path := remembering (.kindAt path) (host.kindAt path)
  removeFile path := remembering (.removeFile path) (host.removeFile path)
  removeTree path := remembering (.removeTree path) (host.removeTree path)
  readText path := remembering (.readText path) (host.readText path)
  writeText path content := remembering (.writeText path content) (host.writeText path content)
  note entry := remembering (.note entry) (host.note entry)

end Host

/-- After an action the next one goes on. -/
theorem bind_of_eq {σ α β : Type} {action : StateM σ α} {next : α → StateM σ β} {s s' : σ} {a : α}
    (h : action s = (a, s')) : (action >>= next) s = next a s' := by
  change (match action s with | (a, s) => next a s) = _
  rw [h]

/-- The first action does what the second one does, and records what the machine is asked. -/
def Records {σ α : Type} (recorded : StateM (σ × List HostCall) α) (action : StateM σ α) : Prop :=
  ∀ s calls, ∃ calls', recorded (s, calls) = ((action s).1, (action s).2, calls')

section Records

variable {σ α β : Type}

theorem records_pure (a : α) : Records (pure a : StateM (σ × List HostCall) α) (pure a) :=
  fun _ calls => ⟨calls, rfl⟩

theorem records_remembering (call : HostCall) (operation : StateM σ α) :
    Records (Host.remembering call operation) operation :=
  fun _ calls => ⟨calls ++ [call], rfl⟩

/-- Actions in sequence are recorded when both are. -/
theorem Records.bind {recorded : StateM (σ × List HostCall) α} {action : StateM σ α}
    {recorded' : α → StateM (σ × List HostCall) β} {action' : α → StateM σ β}
    (h : Records recorded action) (h' : ∀ a, Records (recorded' a) (action' a)) :
    Records (recorded >>= recorded') (action >>= action') := by
  intro s calls
  obtain ⟨calls₁, hfirst⟩ := h s calls
  obtain ⟨calls₂, hrest⟩ := h' (action s).1 (action s).2 calls₁
  exact ⟨calls₂, (bind_of_eq hfirst).trans hrest⟩

/-- What a recorded action does is done without the record. -/
theorem Records.of_eq {recorded : StateM (σ × List HostCall) α} {action : StateM σ α}
    (h : Records recorded action) {s s' : σ} {calls calls' : List HostCall} {a : α}
    (hrun : recorded (s, calls) = (a, s', calls')) : action s = (a, s') := by
  obtain ⟨calls'', heq⟩ := h s calls
  have hsame : ((action s).1, (action s).2, calls'') = (a, s', calls') := heq.symm.trans hrun
  obtain ⟨ha, hrest⟩ := Prod.mk.inj hsame
  exact Prod.ext ha (Prod.mk.inj hrest).1

end Records

namespace Host

variable {σ : Type} (host : Host (StateM σ))

/-- A file holds a text, which is what reading it would give. -/
def Holds (path text : String) (s : σ) : Prop := (host.readText path s).1 = .ok text

/-- Storage at some paths and log entries leave a property of the machine alone. -/
structure Preserves (paths : String → Prop) (J : σ → Prop) : Prop where
  /-- To ask what there is at one of the paths. -/
  kindAt : ∀ {path s}, paths path → J s → J (host.kindAt path s).2
  /-- To remove a file at one of the paths. -/
  removeFile : ∀ {path s}, paths path → J s → J (host.removeFile path s).2
  /-- To remove a directory at one of the paths. -/
  removeTree : ∀ {path s}, paths path → J s → J (host.removeTree path s).2
  /-- To take note of a log entry. -/
  note : ∀ {entry s}, J s → J (host.note entry s).2

/-- A file that can be read holds its text whatever is done at some paths, and it can be written. -/
structure Guards (file : String) (paths : String → Prop) : Prop where
  /-- Storage at the paths and log entries do not change it. -/
  preserves : ∀ text, host.Preserves paths (host.Holds file text)
  /-- To read a file does not change it. -/
  readText : ∀ {path text s}, host.Holds file text s → host.Holds file text (host.readText path s).2
  /-- It can be replaced, and then holds the new text. -/
  writeText : ∀ {old text s}, host.Holds file old s →
    (host.writeText file text s).1 = .ok () ∧ host.Holds file text (host.writeText file text s).2

variable {host} {paths : String → Prop} {J : σ → Prop}

/-- What is preserved at more paths is preserved at fewer. -/
theorem Preserves.mono {paths' : String → Prop} (h : host.Preserves paths J)
    (hpaths : ∀ path, paths' path → paths path) : host.Preserves paths' J where
  kindAt hpath := h.kindAt (hpaths _ hpath)
  removeFile hpath := h.removeFile (hpaths _ hpath)
  removeTree hpath := h.removeTree (hpaths _ hpath)
  note := h.note

/-- What is guarded against more paths is guarded against fewer. -/
theorem Guards.mono {file : String} {paths' : String → Prop} (h : host.Guards file paths)
    (hpaths : ∀ path, paths' path → paths path) : host.Guards file paths' where
  preserves text := (h.preserves text).mono hpaths
  readText := h.readText
  writeText := h.writeText

/-- Storage at some paths and log entries add only such calls to the record. -/
theorem Preserves.recorded (h : host.Preserves paths J) (calls : List HostCall) :
    host.recorded.Preserves paths fun t =>
      J t.1 ∧ ∃ more, t.2 = calls ++ more ∧ ∀ call ∈ more, call.Within paths := by
  have hadd (call : HostCall) (hcall : call.Within paths) {done : List HostCall}
      (hdone : ∃ more, done = calls ++ more ∧ ∀ call ∈ more, call.Within paths) :
      ∃ more, done ++ [call] = calls ++ more ∧ ∀ call ∈ more, call.Within paths := by
    obtain ⟨more, rfl, hmore⟩ := hdone
    refine ⟨more ++ [call], List.append_assoc _ _ _, fun c hc => ?_⟩
    rcases List.mem_append.mp hc with hc | hc
    · exact hmore c hc
    · rw [List.mem_singleton.mp hc]
      exact hcall
  exact {
    kindAt := fun hpath ⟨hJ, hdone⟩ => ⟨h.kindAt hpath hJ, hadd (.kindAt _) hpath hdone⟩
    removeFile := fun hpath ⟨hJ, hdone⟩ => ⟨h.removeFile hpath hJ, hadd (.removeFile _) hpath hdone⟩
    removeTree := fun hpath ⟨hJ, hdone⟩ => ⟨h.removeTree hpath hJ, hadd (.removeTree _) hpath hdone⟩
    note := fun ⟨hJ, hdone⟩ => ⟨h.note hJ, hadd (.note _) trivial hdone⟩ }

end Host

end ArtifactGC
