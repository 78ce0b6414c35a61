import ArtifactGC.Proofs.Recording
import ArtifactGC.Proofs.Transcripts

/-!
# A purge accounts for every artifact

Whatever storage answers, a purge settles the fate of each live artifact by itself: it asks about
the location of the artifact only, in a fixed order, and the answers decide the fate. When all fates
are settled, the records of the artifacts that did not fail are written in one batch, if there are
any. `purge_accounts_for_live_artifacts` says so for services that answer in any way.
-/

namespace ArtifactGC

/-! ## One artifact -/

/-- What is exchanged with storage to remove what is at a location, and the answer that this comes
to. A directory is removed with everything below it, and a file by itself; where it cannot be told
which of them is there, nothing is removed. -/
inductive Removes (uri : String) : List Exchange → Except StorageError Unit → Prop where
  /-- The check for a directory fails. -/
  | unchecked (e : StorageError) :
    Removes uri [⟨.isDirectory uri, some (.error e)⟩] (.error e)
  /-- The location is no directory. -/
  | file (answer : Except StorageError Unit) :
    Removes uri [⟨.isDirectory uri, some (.ok false)⟩, ⟨.remove uri, some answer⟩] answer
  /-- The location is a directory. -/
  | directory (answer : Except StorageError Unit) :
    Removes uri [⟨.isDirectory uri, some (.ok true)⟩, ⟨.removeRecursive uri, some answer⟩] answer

/-- What is exchanged with storage about a live artifact, and the fate that the artifact meets. -/
inductive Settles (a : Artifact) : List Exchange → Fate → Prop where
  /-- An artifact that is owned outside the pipeline is left alone. -/
  | external (hexternal : a.isExternal = true) : Settles a [] .markedExternal
  /-- The artifact is removed. -/
  | removed {exchanges : List Exchange} (hexternal : a.isExternal = false)
    (hremoves : Removes a.uri exchanges (.ok ())) : Settles a exchanges .deleted
  /-- The removal fails, and nothing is there. -/
  | gone {exchanges : List Exchange} {e : StorageError} (hexternal : a.isExternal = false)
    (hremoves : Removes a.uri exchanges (.error e)) :
    Settles a (exchanges ++ [⟨.isPresent a.uri, some (.ok false)⟩]) .deleted
  /-- The removal fails, and it is not said that nothing is there. -/
  | remains {exchanges : List Exchange} {e : StorageError} {answer : Except StorageError Bool}
    (hexternal : a.isExternal = false) (hremoves : Removes a.uri exchanges (.error e))
    (hanswer : answer ≠ .ok false) :
    Settles a (exchanges ++ [⟨.isPresent a.uri, some answer⟩]) .failed

variable {exchanges : List Exchange}

/-- A removal is one of those that are listed, unless services break down. -/
theorem removes_of_yields {uri : String} {how : Ending (Except StorageError Unit)}
    (h : (removeFromStorage uri).Yields exchanges how) (hcrash : how ≠ .crashed) :
    ∃ answer, how = .returned answer ∧ Removes uri exchanges answer := by
  rcases h with ⟨_, rfl⟩ | ⟨checked, rest, rfl, hrest⟩
  · exact absurd rfl hcrash
  · rcases checked with e | _ | _
    · obtain ⟨rfl, rfl⟩ := hrest
      exact ⟨_, rfl, .unchecked e⟩
    · rcases hrest with ⟨_, rfl⟩ | ⟨answer, _, rfl, rfl, rfl⟩
      · exact absurd rfl hcrash
      · exact ⟨answer, rfl, .file answer⟩
    · rcases hrest with ⟨_, rfl⟩ | ⟨answer, _, rfl, rfl, rfl⟩
      · exact absurd rfl hcrash
      · exact ⟨answer, rfl, .directory answer⟩

/-- A fate is settled in one of the listed ways, unless services break down. -/
theorem settles_of_yields {a : Artifact} {how : Ending Fate}
    (h : (settle a).Yields exchanges how) (hcrash : how ≠ .crashed) :
    ∃ fate, how = .returned fate ∧ Settles a exchanges fate := by
  unfold settle at h
  split at h
  · rename_i hexternal
    obtain ⟨rfl, rfl⟩ := h
    exact ⟨_, rfl, .external hexternal⟩
  · rename_i hexternal
    rw [Bool.not_eq_true] at hexternal
    rcases h.bind with ⟨answer, first, rest, rfl, hfirst, hrest⟩ | ⟨e, hfailed, _⟩ | ⟨_, rfl⟩
    · obtain ⟨_, ⟨⟩, hremoves⟩ := removes_of_yields hfirst nofun
      cases answer with
      | ok _ =>
        obtain ⟨rfl, rfl⟩ := hrest
        rw [List.append_nil]
        exact ⟨_, rfl, .removed hexternal hremoves⟩
      | error e =>
        rcases hrest with ⟨_, rfl⟩ | ⟨present, _, rfl, hrest⟩
        · exact absurd rfl hcrash
        · rcases present with e' | _ | _
          · obtain ⟨rfl, rfl⟩ := hrest
            exact ⟨_, rfl, .remains hexternal hremoves nofun⟩
          · obtain ⟨rfl, rfl⟩ := hrest
            exact ⟨_, rfl, .gone hexternal hremoves⟩
          · obtain ⟨rfl, rfl⟩ := hrest
            exact ⟨_, rfl, .remains hexternal hremoves nofun⟩
    · obtain ⟨_, ⟨⟩, _⟩ := removes_of_yields hfailed nofun
    · exact absurd rfl hcrash

/-- External are exactly the artifacts that are owned outside the pipeline. -/
theorem Settles.markedExternal_iff {a : Artifact} {fate : Fate} (h : Settles a exchanges fate) :
    fate = .markedExternal ↔ a.isExternal = true := by
  cases h with
  | external hexternal => exact iff_of_true rfl hexternal
  | removed hexternal _ => simp [hexternal]
  | gone hexternal _ => simp [hexternal]
  | remains hexternal _ _ => simp [hexternal]

/-! ## All artifacts -/

/-- The account of a live artifact. -/
structure Account where
  /-- The artifact. -/
  artifact : Artifact
  /-- What is exchanged with storage about it. -/
  exchanges : List Exchange
  /-- The fate that it meets. -/
  fate : Fate
  /-- The exchanges settle the fate. -/
  settles : Settles artifact exchanges fate

namespace Account

/-- All that is exchanged with storage. -/
def dialogue (accounts : List Account) : List Exchange := (accounts.map (·.exchanges)).flatten

/-- The records of the artifacts that did not fail, marked deleted. -/
def written (accounts : List Account) : List Artifact :=
  (accounts.filter (·.fate ≠ .failed)).map fun x => { x.artifact with state := .deleted }

/-- The fates of the artifacts. -/
def fates (accounts : List Account) : List (Artifact × Fate) :=
  accounts.map fun x => (x.artifact, x.fate)

theorem changedRecords_fates (accounts : List Account) :
    changedRecords (fates accounts) = written accounts := by
  rw [changedRecords, fates, written, List.filter_map, List.map_map]
  rfl

theorem withFate_fates (fate : Fate) (accounts : List Account) :
    withFate fate (fates accounts) =
      (accounts.filter (·.fate = fate)).map (·.artifact.id) := by
  rw [withFate, fates, List.filter_map, List.map_map]
  rfl

end Account

/-- A report sums up some accounts: each artifact is listed once, under its fate, and the artifacts
of one fate are in their order. -/
structure PurgeReport.SumsUp (report : PurgeReport) (accounts : List Account) : Prop where
  /-- Deleted artifacts are listed as deleted. -/
  deleted : report.deleted = (accounts.filter (·.fate = .deleted)).map (·.artifact.id)
  /-- Artifacts that are owned outside the pipeline are listed as external. -/
  markedExternal :
    report.markedExternal = (accounts.filter (·.artifact.isExternal)).map (·.artifact.id)
  /-- Artifacts that could not be removed are listed as failed. -/
  failed : report.failed = (accounts.filter (·.fate = .failed)).map (·.artifact.id)
  /-- None is lost, and none is listed twice. -/
  perm : (report.deleted ++ report.markedExternal ++ report.failed).Perm
    (accounts.map (·.artifact.id))

/-- The report on the fates of some artifacts sums up the accounts of them. -/
theorem sumsUp_reportOf (accounts : List Account) :
    (reportOf (Account.fates accounts)).SumsUp accounts where
  deleted := Account.withFate_fates .deleted accounts
  markedExternal := by
    refine (Account.withFate_fates .markedExternal accounts).trans (congrArg _ ?_)
    refine List.filter_congr fun x _ => ?_
    rw [Bool.eq_iff_iff, decide_eq_true_eq]
    exact x.settles.markedExternal_iff
  failed := Account.withFate_fates .failed accounts
  perm := by
    have hperm := perm_reportOf (Account.fates accounts)
    rwa [Account.fates, List.map_map] at hperm

/-- The records of some artifacts change unless all of them failed. -/
theorem changedRecords_eq_nil {settled : List (Artifact × Fate)} : changedRecords settled = [] ↔
    (reportOf settled).deleted = [] ∧ (reportOf settled).markedExternal = [] := by
  rw [← List.append_eq_nil_iff, ← PurgeReport.marked,
    ← List.map_eq_nil_iff (f := fun r : Artifact => r.id), List.eq_nil_iff_forall_not_mem,
    List.eq_nil_iff_forall_not_mem]
  exact forall_congr' fun id => not_congr map_id_changedRecords

/-- The fates of live artifacts are settled one after another, unless services break down. -/
theorem accounts_of_yields {as : List Artifact} {how : Ending (List (Artifact × Fate))}
    (h : (settleAll as).Yields exchanges how) (hcrash : how ≠ .crashed) :
    ∃ accounts, how = .returned (Account.fates accounts) ∧ accounts.map (·.artifact) = as ∧
      exchanges = Account.dialogue accounts := by
  induction as generalizing exchanges how with
  | nil =>
    obtain ⟨rfl, rfl⟩ := h
    exact ⟨[], rfl, rfl, rfl⟩
  | cons a as ih =>
    rcases h.bind with ⟨fate, first, rest, rfl, hfirst, hrest⟩ | ⟨e, hfailed, _⟩ | ⟨_, rfl⟩
    · obtain ⟨_, ⟨⟩, hsettles⟩ := settles_of_yields hfirst nofun
      rcases hrest.bind with ⟨settled, others, _, rfl, hothers, rfl, rfl⟩ | ⟨e, hfailed, _⟩ |
        ⟨_, rfl⟩
      · obtain ⟨accounts, ⟨⟩, rfl, rfl⟩ := ih hothers nofun
        refine ⟨⟨a, first, fate, hsettles⟩ :: accounts, rfl, rfl, ?_⟩
        rw [List.append_nil]
        rfl
      · obtain ⟨_, ⟨⟩, _⟩ := ih hfailed nofun
      · exact absurd rfl hcrash
    · obtain ⟨_, ⟨⟩, _⟩ := settles_of_yields hfailed nofun
    · exact absurd rfl hcrash

/-- Whatever services answer, a purge accounts for each live artifact that it is given, in their
order, and for no other one. What it exchanges with storage is what its accounts say, and it reports
the sum of them. If an artifact is deleted or external, one batch is written after that, with
exactly the records of these artifacts marked deleted; where it is refused, the purge fails with the
error of the store. -/
theorem purge_accounts_for_live_artifacts {σ : Type} (services : Services σ)
    (hanswers : ∀ request s, (services.answer request s).1 ≠ none) (artifacts : List Artifact)
    (s : σ) :
    let run := (purge artifacts).run services s
    ∃ (accounts : List Account) (report : PurgeReport),
      accounts.map (·.artifact) = artifacts.filter (·.isLive) ∧ report.SumsUp accounts ∧
      ((report.deleted = [] ∧ report.markedExternal = [] ∧
          run.exchanges = Account.dialogue accounts ∧ run.ending = .returned report) ∨
        ((report.deleted ≠ [] ∨ report.markedExternal ≠ []) ∧ ∃ answer,
          run.exchanges =
            Account.dialogue accounts ++ [⟨.put (Account.written accounts), some answer⟩] ∧
          ((answer = .ok () ∧ run.ending = .returned report) ∨
            ∃ e, answer = .error e ∧ run.ending = .failed (.store e)))) := by
  intro run
  have hcrash : run.ending ≠ .crashed := Procedure.ending_ne_crashed hanswers _ s
  have hyields : (purge artifacts).Yields run.exchanges run.ending :=
    Procedure.yields_run services _ s
  rcases hyields.bind with ⟨settled, first, rest, hexchanges, hfirst, hrest⟩ | ⟨e, hfailed, _⟩ |
    ⟨_, hcrashed⟩
  · obtain ⟨accounts, ⟨⟩, hartifacts, rfl⟩ := accounts_of_yields hfirst nofun
    refine ⟨accounts, reportOf (Account.fates accounts), hartifacts, sumsUp_reportOf accounts, ?_⟩
    dsimp only at hrest
    split at hrest
    · rename_i hnone
      obtain ⟨hdeleted, hexternal⟩ := changedRecords_eq_nil.mp hnone
      obtain ⟨rfl, hending⟩ := hrest
      rw [List.append_nil] at hexchanges
      exact .inl ⟨hdeleted, hexternal, hexchanges, hending⟩
    · rename_i hsome
      rw [changedRecords_eq_nil, not_and_or] at hsome
      rw [Account.changedRecords_fates] at hrest
      refine .inr ⟨hsome, ?_⟩
      rcases hrest with ⟨_, hcrashed⟩ | ⟨answer, _, rfl, hrest⟩
      · exact absurd hcrashed hcrash
      · cases answer with
        | ok _ =>
          obtain ⟨rfl, hending⟩ := hrest
          exact ⟨.ok (), hexchanges, .inl ⟨rfl, hending⟩⟩
        | error e =>
          obtain ⟨rfl, hending⟩ := hrest
          exact ⟨.error e, hexchanges, .inr ⟨e, rfl, hending⟩⟩
  · obtain ⟨_, ⟨⟩, _⟩ := accounts_of_yields hfailed nofun
  · exact absurd hcrashed hcrash

/-- Of seven models one is deleted already and one is external. Of the others one is removed, twice
as it is given twice, one vanishes while its removal fails, and it cannot be said of one whether it
is a directory, but nothing is there. One is protected, and of another one it cannot be said whether
it is still there. -/
theorem models_are_accounted_for :
    let external := (model 1 "/1").markExternal
    let removed := model 2 "/2"
    let vanishing := model 3 "/3"
    let absent := model 4 "/4"
    let guarded := model 5 "/5"
    let unknown := model 6 "/6"
    let deleted := (model 7 "/7").markDeleted
    let models := [unknown, removed, deleted, external, vanishing, guarded, absent, removed]
    let storage := ((((Storage.empty.addFile "/2").addDirectory "/3").addFile "/5").vanishOnRemove
      "/3" |>.failStat "/4").protect "/5" |>.failPresence "/6"
    let services := Memory.services .normal
    let run := (purge models).run services ⟨.empty, storage⟩
    let report : PurgeReport := ⟨[⟨2⟩, ⟨3⟩, ⟨4⟩, ⟨2⟩], [⟨1⟩], [⟨6⟩, ⟨5⟩]⟩
    (∀ request m, (services.answer request m).1 ≠ none) ∧ run.ending = .returned report ∧
      ∃ accounts : List Account,
        accounts.map (·.artifact) =
          [unknown, removed, external, vanishing, guarded, absent, removed] ∧
        report.SumsUp accounts ∧ run.exchanges = Account.dialogue accounts ++
          [⟨.put (Account.written accounts), some (.ok ())⟩] := by
  intro external removed vanishing absent guarded unknown deleted models storage services run report
  have hanswers : ∀ request m, (services.answer request m).1 ≠ none :=
    Memory.answer_ne_none fun _ => nofun
  have hending : run.ending = .returned report := by decide +kernel
  obtain ⟨accounts, report', hartifacts, hsum, hend⟩ :=
    purge_accounts_for_live_artifacts services hanswers models ⟨.empty, storage⟩
  refine ⟨hanswers, hending, accounts, hartifacts.trans (by decide +kernel), ?_⟩
  rcases hend with ⟨hnone, _, _, hreturned⟩ | ⟨_, answer, hexchanges, ⟨rfl, hreturned⟩ |
    ⟨e, _, hfailed⟩⟩
  · obtain rfl := Ending.returned.inj (hending.symm.trans hreturned)
    cases hnone
  · obtain rfl := Ending.returned.inj (hending.symm.trans hreturned)
    exact ⟨hsum, hexchanges⟩
  · cases hending.symm.trans hfailed

end ArtifactGC
