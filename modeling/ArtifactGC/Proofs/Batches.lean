import ArtifactGC.Proofs.Abort
import ArtifactGC.Proofs.Effects
import ArtifactGC.Proofs.Transcripts

/-!
# What a pass writes

A pass writes records at most once, and nothing comes after that: its report then lists the
artifacts of these records as deleted or external, and where nothing is written, no report lists
any. Each record that is written is that of an artifact which passes the policy and the filter of an
output key, marked deleted. All of this is said of transcripts, so that it holds of a pass among
others as well. The main statements are `ends_with_batch`, `mem_batch_of_markedBy` and
`passesUnder_of_batch`.
-/

namespace ArtifactGC

variable {exchanges before later : List Exchange} {batch : List Artifact}

/-! ## Purges -/

/-- What is exchanged by a purge that may end in some way: if records are written, that comes last,
and a report lists the artifacts of these records; otherwise no report lists any. -/
inductive WritesLast : List Exchange → Ending PurgeReport → Prop where
  /-- No record is written. -/
  | unwritten {exchanges : List Exchange} {how : Ending PurgeReport}
      (hnone : ∀ batch, ⟨.put batch, some (.ok ())⟩ ∉ exchanges)
      (hreport : ∀ report, how = .returned report → report.marked = []) :
      WritesLast exchanges how
  /-- Records are written. -/
  | written {before : List Exchange} {batch : List Artifact} {report : PurgeReport}
      (hbefore : ∀ x ∈ before, ∀ other, x.request ≠ .put other)
      (hreport : ∀ id, id ∈ report.marked ↔ id ∈ batch.map (·.id)) :
      WritesLast (before ++ [⟨.put batch, some (.ok ())⟩]) (.returned report)

section Purge

variable {as : List Artifact} {how : Ending PurgeReport}

/-- What comes before and writes no record makes no difference. -/
theorem WritesLast.after (h : WritesLast exchanges how)
    (hbefore : ∀ x ∈ before, ∀ other, x.request ≠ .put other) :
    WritesLast (before ++ exchanges) how := by
  cases h with
  | unwritten hnone hreport =>
    refine .unwritten (fun batch hmem => ?_) hreport
    rcases List.mem_append.mp hmem with hmem | hmem
    · exact hbefore _ hmem batch rfl
    · exact hnone batch hmem
  | written hbefore' hreport =>
    rw [← List.append_assoc]
    exact .written (List.forall_mem_append.mpr ⟨hbefore, hbefore'⟩) hreport

/-- Where no record is written and there is no report, there is nothing to list. -/
theorem WritesLast.of_not_returned (hnone : ∀ x ∈ exchanges, ∀ other, x.request ≠ .put other)
    (hnot : ∀ report, how ≠ .returned report) : WritesLast exchanges how :=
  .unwritten (fun batch hmem => hnone _ hmem batch rfl) fun report hreport =>
    absurd hreport (hnot report)

/-- Storage is used before records are written. -/
theorem ne_put_of_yields_settleAll {how : Ending (List (Artifact × Fate))}
    (h : (settleAll as).Yields exchanges how) :
    ∀ x ∈ exchanges, ∀ other, x.request ≠ .put other := by
  intro x hx other hput
  have hused := (keeps_settleAll_storage as).asks_of_yields h x hx
  rw [hput] at hused
  cases hused

/-- A purge writes last. -/
theorem writesLast_of_yields_purge (h : (purge as).Yields exchanges how) :
    WritesLast exchanges how := by
  rcases h.bind_cases with ⟨settled, first, rest, rfl, hfirst, hrest⟩ | ⟨hnot, _, _, hfirst⟩
  · have hstorage := ne_put_of_yields_settleAll hfirst
    dsimp only at hrest
    split at hrest
    · rename_i hnil
      obtain ⟨rfl, rfl⟩ := hrest
      refine (WritesLast.unwritten (fun _ => List.not_mem_nil) ?_).after hstorage
      rintro _ ⟨⟩
      refine List.eq_nil_iff_forall_not_mem.mpr fun id hid => ?_
      rw [← map_id_changedRecords, hnil] at hid
      cases hid
    · rcases hrest with ⟨rfl, rfl⟩ | ⟨answer, _, rfl, hrest⟩
      · exact .after (.unwritten (by simp) (by simp)) hstorage
      · cases answer with
        | error e =>
          obtain ⟨rfl, rfl⟩ := hrest
          exact .after (.unwritten (by simp) (by simp)) hstorage
        | ok _ =>
          obtain ⟨rfl, rfl⟩ := hrest
          exact .written hstorage fun id => map_id_changedRecords.symm
  · exact .of_not_returned (ne_put_of_yields_settleAll hfirst) hnot

/-- A report lists no artifact twice as deleted or external if none was given twice. -/
theorem keeps_purge_distinct (hnodup : (as.map (·.id)).Nodup) :
    (purge as).Keeps (.ofAsks fun _ => True)
      fun r => ∀ report, r = .ok report → report.marked.Nodup := by
  refine keeps_purge (fun _ _ _ _ => ⟨trivial, trivial, trivial, trivial⟩)
    (fun _ _ => trivial) (fun settled hsettled => ?_) fun _ => nofun
  rintro _ ⟨⟩
  have hperm := perm_reportOf settled
  have hids : settled.map (·.1.id) = (as.filter (·.isLive)).map (·.id) := by
    rw [← hsettled, List.map_map]
    rfl
  have hlive : ((as.filter (·.isLive)).map (·.id)).Nodup :=
    hnodup.sublist (List.filter_sublist.map _)
  rw [← hids, ← hperm.nodup_iff] at hlive
  exact hlive.sublist (List.sublist_append_left _ _)

end Purge

/-! ## Passes -/

/-- What is answered is what was exchanged. -/
def Contract.exchanged (exchanges : List Exchange) : Contract where
  asks _ := True
  answers request answer := ⟨request, some answer⟩ ∈ exchanges

section Passes

variable {uid : NodeUid} {node : NodeSpec} {how : Ending Outcome}

/-- A pass that is refused or has no policy exchanges nothing, and any other one what a search and
purge exchange. -/
theorem yields_pass (h : (pass uid node).Yields exchanges how) :
    (exchanges = [] ∧
        (how = .failed (.nodeMismatch node.id uid.nodeId) ∨ how = .returned .noPolicy)) ∨
      ∃ purged, (candidates uid node.policies >>= purge).Yields exchanges purged ∧
        how = purged.toOutcome := by
  rcases pass_cases uid node with ⟨_, hpass⟩ | ⟨_, _, hpass⟩ | ⟨hid, hpolicies⟩
  · rw [hpass] at h
    exact .inl ⟨h.1, .inl h.2⟩
  · rw [hpass] at h
    exact .inl ⟨h.1, .inr h.2⟩
  · rw [pass_eq hid hpolicies] at h
    have hconclude {r : Except Failure PurgeReport} {rest : List Exchange}
        (hrest : (conclude r).Yields rest how) : rest = [] ∧ how = .returned (.ofResult r) := by
      cases r <;> exact hrest
    rcases h.bind with ⟨r, first, rest, rfl, hfirst, hrest⟩ | ⟨e, hfailed, _⟩ | ⟨hcrashed, rfl⟩
    · obtain ⟨rfl, rfl⟩ := hconclude hrest
      obtain ⟨purged, hpurged, hr⟩ := Procedure.Yields.attempt hfirst
      rw [List.append_nil]
      refine .inr ⟨purged, hpurged, ?_⟩
      cases purged <;> cases hr <;> rfl
    · obtain ⟨purged, _, hr⟩ := Procedure.Yields.attempt hfailed
      cases purged <;> cases hr
    · obtain ⟨purged, hpurged, hr⟩ := Procedure.Yields.attempt hcrashed
      refine .inr ⟨purged, hpurged, ?_⟩
      cases purged <;> cases hr
      rfl

/-- A search asks nothing but queries, so it writes no record. -/
theorem ne_put_of_yields_candidates {policies : KeyMap Policy} {how : Ending (List Artifact)}
    (h : (candidates uid policies).Yields exchanges how) :
    ∀ x ∈ exchanges, ∀ other, x.request ≠ .put other := by
  intro x hx other hput
  have hquery := Procedure.Keeps.asks_of_yields (keeps_candidates_origin (c := .ofAsks
    Request.IsQuery) (Contract.allowsSearch_of_queries (fun _ h => h) uid) policies) h x hx
  rw [hput] at hquery
  cases hquery

/-- A search and purge write last. -/
theorem writesLast_of_yields {purged : Ending PurgeReport}
    (h : (candidates uid node.policies >>= purge).Yields exchanges purged) :
    WritesLast exchanges purged := by
  rcases h.bind_cases with ⟨found, first, rest, rfl, hfirst, hrest⟩ | ⟨hnot, _, _, hfirst⟩
  · exact (writesLast_of_yields_purge hrest).after (ne_put_of_yields_candidates hfirst)
  · exact .of_not_returned (ne_put_of_yields_candidates hfirst) hnot

/-- A pass that writes records exchanges nothing after that and ends with a report, which lists the
artifacts of these records, and no other ones, as deleted or external. -/
theorem ends_with_batch
    (h : (pass uid node).Yields (before ++ ⟨.put batch, some (.ok ())⟩ :: later) how) :
    later = [] ∧ ∃ report, how = .returned (.collected report) ∧
      ∀ id, id ∈ report.marked ↔ id ∈ batch.map (·.id) := by
  have hmem : ⟨.put batch, some (.ok ())⟩ ∈
      before ++ (⟨.put batch, some (.ok ())⟩ : Exchange) :: later :=
    List.mem_append_right _ List.mem_cons_self
  rcases yields_pass h with ⟨hnil, _⟩ | ⟨purged, hyields, rfl⟩
  · rw [hnil] at hmem
    cases hmem
  · have hlast := writesLast_of_yields hyields
    generalize hall : before ++ (⟨.put batch, some (.ok ())⟩ : Exchange) :: later = all
      at hlast hmem
    cases hlast with
    | unwritten hnone hreport => exact absurd hmem (hnone batch)
    | @written before' batch' report hbefore hreport =>
      rcases later.eq_nil_or_concat with rfl | ⟨later, y, rfl⟩
      · obtain ⟨_, hput⟩ := List.append_inj' hall rfl
        cases hput
        exact ⟨rfl, report, rfl, hreport⟩
      · -- nothing before the last exchange writes records
        rw [List.concat_eq_append, ← List.cons_append, ← List.append_assoc] at hall
        obtain ⟨rfl, _⟩ := List.append_inj' hall rfl
        exact absurd rfl (hbefore _ (List.mem_append_right _ List.mem_cons_self) batch)

/-- Whatever a pass reports as deleted or external is in the records that it writes. -/
theorem mem_batch_of_markedBy (h : (pass uid node).Yields exchanges how) {id : ArtifactId}
    (hid : id ∈ markedBy how.toResult) :
    ∃ batch, ⟨.put batch, some (.ok ())⟩ ∈ exchanges ∧ id ∈ batch.map (·.id) := by
  rcases yields_pass h with ⟨_, rfl | rfl⟩ | ⟨purged, hyields, rfl⟩
  · cases hid
  · cases hid
  · cases writesLast_of_yields hyields with
    | unwritten hnone hreport =>
      cases purged with
      | returned report =>
        rw [show markedBy _ = report.marked from rfl, hreport report rfl] at hid
        cases hid
      | failed e => cases hid
      | crashed => cases hid
    | written hbefore hreport =>
      exact ⟨_, List.mem_append_right _ List.mem_cons_self, (hreport id).mp hid⟩

/-- No pass reports an artifact twice as deleted or external. -/
theorem nodup_markedBy (h : (pass uid node).Yields exchanges how) :
    (markedBy how.toResult).Nodup := by
  rcases yields_pass h with ⟨_, rfl | rfl⟩ | ⟨purged, hyields, rfl⟩
  · exact .nil
  · exact .nil
  · cases purged with
    | failed e => exact .nil
    | crashed => exact .nil
    | returned report =>
      rcases hyields.bind_cases with ⟨found, first, rest, _, hfirst, hrest⟩ | ⟨hnot, _⟩
      · have hfound := ((keeps_candidates_distinct uid node.policies).of_yields hfirst
          fun _ _ _ _ => trivial).2 (.ok found) rfl found rfl
        exact ((keeps_purge_distinct hfound).of_yields hrest
          fun _ _ _ _ => trivial).2 (.ok report) rfl report rfl
      · exact absurd rfl (hnot report)

/-- What a pass writes are records of artifacts that pass the policy and the filter of some output
key, marked deleted. -/
theorem passesUnder_of_batch (h : (pass uid node).Yields exchanges how) {x : Exchange}
    (hx : x ∈ exchanges) (hbatch : x.request = .put batch) {r : Artifact} (hr : r ∈ batch) :
    ∃ a, (Contract.exchanged exchanges).PassesUnder uid node.policies a ∧
      r = { a with state := .deleted } := by
  rcases yields_pass h with ⟨rfl, _⟩ | ⟨purged, hyields, _⟩
  · cases hx
  · rcases hyields.bind_cases with ⟨found, first, rest, rfl, hfirst, hrest⟩ | ⟨_, _, _, hfirst⟩
    · have hanswers : ∀ y ∈ first, ∀ answer, y.answer = some answer →
          (Contract.exchanged (first ++ rest)).answers y.request answer := by
        intro y hy answer hanswer
        have hwhole : y = ⟨y.request, some answer⟩ := by rw [← hanswer]
        exact List.mem_append_left rest (hwhole ▸ hy)
      have hfound := (Procedure.Keeps.of_yields (keeps_candidates_origin (c := .exchanged
        (first ++ rest)) (fun _ _ => trivial) node.policies) hfirst hanswers).2 (.ok found) rfl
      rcases List.mem_append.mp hx with hx | hx
      · exact absurd hbatch (ne_put_of_yields_candidates hfirst x hx batch)
      · have hpurges := (keeps_purge_purges found).asks_of_yields hrest x hx
        rw [hbatch] at hpurges
        obtain ⟨a, ha, _, hr⟩ := hpurges r hr
        exact ⟨a, onlyFinds_ok.mp hfound a ha, hr⟩
    · exact absurd hbatch (ne_put_of_yields_candidates hfirst x hx batch)

end Passes

end ArtifactGC
