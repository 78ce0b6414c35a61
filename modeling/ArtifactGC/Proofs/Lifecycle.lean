import ArtifactGC.Proofs.Batches
import ArtifactGC.Proofs.Interleaving

/-!
# What passes side by side do to the records

Let a store answer with the live artifacts that it holds, and a filter answer candidates as it was
asked about them. However passes are interleaved, each record that one of them writes is that of an
artifact which was live when the pass asked for live artifacts, marked deleted. So nothing but the
state of a record ever changes, deleted artifacts stay deleted, and only a pass that reports an
artifact deletes it. Two passes report the same artifact only if they overlap: then each of them has
asked for live artifacts before the other one wrote. `faithful_of_interleaves` collects what is
needed of the passes, and the lemmas on `Passes.Faithful` draw these conclusions.
-/

namespace ArtifactGC

/-! ## Records that are written -/

/-- The artifacts whose records are written. -/
def Exchange.written : Exchange → List ArtifactId
  | ⟨.put batch, some (.ok ())⟩ => batch.map (·.id)
  | _ => []

theorem Exchange.mem_written {x : Exchange} {id : ArtifactId} : id ∈ x.written ↔
    ∃ batch, x = ⟨.put batch, some (.ok ())⟩ ∧ id ∈ batch.map (·.id) := by
  constructor
  · intro h
    unfold written at h
    split at h
    · exact ⟨_, rfl, h⟩
    · cases h
  · rintro ⟨batch, rfl, h⟩
    exact h

/-- The artifacts whose records are written in some exchanges. -/
def writtenIn (exchanges : List (Nat × Exchange)) : List ArtifactId :=
  exchanges.flatMap fun x => x.2.written

theorem mem_writtenIn {exchanges : List (Nat × Exchange)} {id : ArtifactId} :
    id ∈ writtenIn exchanges ↔
      ∃ i batch, (i, ⟨.put batch, some (.ok ())⟩) ∈ exchanges ∧ id ∈ batch.map (·.id) := by
  rw [writtenIn, List.mem_flatMap]
  constructor
  · rintro ⟨⟨i, x⟩, hx, hid⟩
    obtain ⟨batch, rfl, hid⟩ := Exchange.mem_written.mp hid
    exact ⟨i, batch, hx, hid⟩
  · rintro ⟨i, batch, hx, hid⟩
    exact ⟨_, hx, hid⟩

section Answers

variable {σ : Type} {services : Services σ} {s : σ}

/-- An exchange is answered after those before it. -/
theorem Services.Answers.of_append {before later : List (Nat × Exchange)} {i : Nat} {x : Exchange}
    (h : services.Answers s ((before ++ (i, x) :: later).map (·.2))) :
    (services.answer x.request (services.replay s (before.map (·.2)))).1 = x.answer := by
  rw [List.map_append, Services.answers_append] at h
  exact h.2.1

/-- One more exchange is answered. -/
theorem Services.replay_concat (before : List (Nat × Exchange)) (i : Nat) (x : Exchange) :
    services.replay s ((before ++ [(i, x)]).map (·.2)) =
      (services.answer x.request (services.replay s (before.map (·.2)))).2 := by
  rw [List.map_append, Services.replay_append]
  rfl

end Answers

/-- Where records are written, the store has written them, and elsewhere it is as it was. -/
theorem store_of_answer {τ : Type} {c : Conditions} {filter : FilterService τ} {x : Exchange}
    {s : Memory × τ}
    (hanswer : (((Memory.services c).withFilter filter).answer x.request s).1 = x.answer) :
    let after := (((Memory.services c).withFilter filter).answer x.request s).2.1.store
    (∃ batch, x = ⟨.put batch, some (.ok ())⟩ ∧ after = s.1.store.put batch) ∨
      (x.written = [] ∧ after = s.1.store) := by
  obtain ⟨request, answer⟩ := x
  cases request with
  | liveOutputs node => exact .inr ⟨rfl, congrArg Memory.store (Memory.underFault_unchanged _ _ _)⟩
  | events ids => exact .inr ⟨rfl, congrArg Memory.store (Memory.underFault_unchanged _ _ _)⟩
  | executions ids => exact .inr ⟨rfl, congrArg Memory.store (Memory.underFault_unchanged _ _ _)⟩
  | unusedInGroups usage cs => exact .inr ⟨rfl, rfl⟩
  | isDirectory uri | isPresent uri | remove uri | removeRecursive uri => exact .inr ⟨rfl, rfl⟩
  | put batch =>
    rcases Memory.underFault_change (c.fault .put) s.1
      { s.1 with store := s.1.store.put batch } with ⟨hdone, hstate⟩ | ⟨hrefused, hstate⟩
    · obtain rfl : answer = some (.ok ()) := hanswer.symm.trans hdone
      exact .inl ⟨batch, rfl, congrArg Memory.store hstate⟩
    · refine .inr ⟨?_, congrArg Memory.store hstate⟩
      refine List.eq_nil_iff_forall_not_mem.mpr fun id hid => ?_
      obtain ⟨_, hput, _⟩ := Exchange.mem_written.mp hid
      cases hput
      exact hrefused hanswer

/-! ## Passes that overlap -/

/-- The pass at one place asks for live artifacts before the pass at another place writes
records. -/
def Passes.AsksBefore {σ : Type} (all : Passes σ) (i j : Nat) : Prop :=
  ∃ uid answer batch, [(i, (⟨.liveOutputs uid, answer⟩ : Exchange)),
    (j, ⟨.put batch, some (.ok ())⟩)].Sublist all.exchanges

/-- Two passes overlap: each of them asks for live artifacts before the other one writes. -/
def Passes.Overlap {σ : Type} (all : Passes σ) (i j : Nat) : Prop :=
  all.AsksBefore i j ∧ all.AsksBefore j i

/-- Where exchanges are in the order of their passes, no passes overlap. -/
theorem not_overlap_of_sorted {σ : Type} {all : Passes σ}
    (h : all.exchanges.Pairwise fun x y => x.1 ≤ y.1) {i j : Nat} (hne : i ≠ j) :
    ¬ all.Overlap i j := by
  rintro ⟨⟨_, _, _, hij⟩, ⟨_, _, _, hji⟩⟩
  have hle : i ≤ j := List.rel_of_pairwise_cons (h.sublist hij) (List.mem_singleton.mpr rfl)
  have hge : j ≤ i := List.rel_of_pairwise_cons (h.sublist hji) (List.mem_singleton.mpr rfl)
  exact hne (Nat.le_antisymm hle hge)

/-! ## Faithful passes -/

/-- The artifacts that some passes report as deleted or external. -/
def Passes.marked {σ : Type} (all : Passes σ) : List ArtifactId :=
  all.results.flatMap fun r => markedBy r.2

section Faithful

variable {τ : Type} {services : Services (Memory × τ)} {s : Memory × τ}
  {all : Passes (Memory × τ)}

/-- Passes that leave this behind have changed records only as they may: services that write what
they are asked to write have answered all exchanges. What a pass writes are records of artifacts,
marked deleted, that were live when it asked for live artifacts before, and these artifacts it
reports, each of them once, and no other ones. -/
structure Passes.Faithful (services : Services (Memory × τ)) (s : Memory × τ)
    (all : Passes (Memory × τ)) : Prop where
  /-- The services write as they answer. -/
  writes {x : Exchange} {s : Memory × τ} (h : (services.answer x.request s).1 = x.answer) :
    (∃ batch, x = ⟨.put batch, some (.ok ())⟩ ∧
        (services.answer x.request s).2.1.store = s.1.store.put batch) ∨
      (x.written = [] ∧ (services.answer x.request s).2.1.store = s.1.store)
  /-- The services answer. -/
  answers : services.Answers s (all.exchanges.map (·.2))
  /-- The state is that after the answers. -/
  state : services.replay s (all.exchanges.map (·.2)) = all.state
  /-- What is written was live when it was asked for. -/
  live {before later : List (Nat × Exchange)} {i : Nat} {batch : List Artifact} {r : Artifact}
    (h : all.exchanges = before ++ (i, ⟨.put batch, some (.ok ())⟩) :: later) (hr : r ∈ batch) :
    ∃ asked rest uid answer a, before = asked ++ (i, ⟨.liveOutputs uid, answer⟩) :: rest ∧
      r = { a with state := .deleted } ∧
      (services.replay s (asked.map (·.2))).1.store.live? a.id = some a
  /-- What a pass writes it reports. -/
  reported {i : Nat} {batch : List Artifact}
    (h : (i, ⟨.put batch, some (.ok ())⟩) ∈ all.exchanges) :
    ∃ uid report, all.results[i]? = some (uid, .ok (.collected report)) ∧
      ∀ id, id ∈ report.marked ↔ id ∈ batch.map (·.id)
  /-- What a pass reports it has written. -/
  written {i : Nat} {uid : NodeUid} {result : Except Failure Outcome} {id : ArtifactId}
    (h : all.results[i]? = some (uid, result)) (hid : id ∈ markedBy result) :
    ∃ batch, (i, ⟨.put batch, some (.ok ())⟩) ∈ all.exchanges ∧ id ∈ batch.map (·.id)
  /-- No pass reports an artifact twice. -/
  nodup {i : Nat} {uid : NodeUid} {result : Except Failure Outcome}
    (h : all.results[i]? = some (uid, result)) : (markedBy result).Nodup

namespace Passes.Faithful

variable (h : all.Faithful services s)
include h

/-- An exchange marks what it writes, if what was exchanged before has marked what was written. -/
private theorem marks_of_prefixes {before later : List (Nat × Exchange)} {i : Nat} {x : Exchange}
    (hsplit : all.exchanges = before ++ (i, x) :: later)
    (hprefixes : ∀ {asked rest : List (Nat × Exchange)}, before = asked ++ rest →
      s.1.store.Marks (writtenIn asked) (services.replay s (asked.map (·.2))).1.store) :
    (services.replay s (before.map (·.2))).1.store.Marks x.written
      (services.replay s ((before ++ [(i, x)]).map (·.2))).1.store := by
  have hanswers := h.answers
  rw [hsplit] at hanswers
  rw [Services.replay_concat]
  rcases h.writes hanswers.of_append with ⟨batch, rfl, hstore⟩ | ⟨hnone, hstore⟩
  · rw [hstore]
    refine Store.marks_put fun r hr => ?_
    -- the record was live when the pass asked, so it is the one from the start
    obtain ⟨asked, rest, uid, answer, a, hasked, rfl, hlive⟩ := h.live hsplit hr
    obtain ⟨_, hfirst⟩ := (hprefixes hasked).live_of_live hlive
    have hstored : s.1.store.artifacts.find? a.id = some a := (Store.live?_eq_some.mp hfirst).1
    have hbefore := hprefixes (List.append_nil before).symm
    exact ⟨_, hbefore.find?_eq.trans (congrArg (Option.map _) hstored),
      Artifact.deleted_markedIn.symm⟩
  · rw [hnone, hstore]
    exact .refl _

/-- Whatever was exchanged so far has marked what was written so far. -/
theorem marks_prefix {before later : List (Nat × Exchange)}
    (hsplit : all.exchanges = before ++ later) :
    s.1.store.Marks (writtenIn before) (services.replay s (before.map (·.2))).1.store := by
  induction hlength : before.length using Nat.strongRecOn generalizing before later with
  | ind n ih =>
    rcases before.eq_nil_or_concat with rfl | ⟨init, ⟨i, x⟩, rfl⟩
    · exact .refl _
    · rw [List.concat_eq_append] at hsplit hlength ⊢
      rw [List.append_assoc, List.singleton_append] at hsplit
      rw [List.length_append, List.length_singleton] at hlength
      have hprefixes {asked rest : List (Nat × Exchange)} (hasked : init = asked ++ rest) :
          s.1.store.Marks (writtenIn asked) (services.replay s (asked.map (·.2))).1.store := by
        have hshorter : asked.length < n := by
          rw [hasked, List.length_append] at hlength
          omega
        rw [hasked, List.append_assoc] at hsplit
        exact ih asked.length hshorter hsplit rfl
      have hwritten : writtenIn (init ++ [(i, x)]) = writtenIn init ++ x.written := by
        simp [writtenIn]
      rw [hwritten]
      exact (hprefixes (List.append_nil init).symm).trans (h.marks_of_prefixes hsplit hprefixes)

/-- Every exchange marks what it writes, and changes nothing else in the records. -/
theorem marks_exchange {before later : List (Nat × Exchange)} {i : Nat} {x : Exchange}
    (hsplit : all.exchanges = before ++ (i, x) :: later) :
    (services.replay s (before.map (·.2))).1.store.Marks x.written
      (services.replay s ((before ++ [(i, x)]).map (·.2))).1.store := by
  refine h.marks_of_prefixes hsplit fun {asked rest} hasked => ?_
  rw [hasked, List.append_assoc] at hsplit
  exact h.marks_prefix hsplit

/-- What is live before an exchange and deleted after it is reported by the pass that makes the
exchange. -/
theorem reported_of_isDeleted {before later : List (Nat × Exchange)} {i : Nat} {x : Exchange}
    (hsplit : all.exchanges = before ++ (i, x) :: later) {id : ArtifactId} {a : Artifact}
    (hlive : (services.replay s (before.map (·.2))).1.store.live? id = some a)
    (hdeleted : (services.replay s ((before ++ [(i, x)]).map (·.2))).1.store.IsDeleted id) :
    ∃ uid report, all.results[i]? = some (uid, .ok (.collected report)) ∧
      (id ∈ report.deleted ∨ id ∈ report.markedExternal) := by
  have hwritten : id ∈ x.written := (h.marks_exchange hsplit).mem_of_isDeleted hlive hdeleted
  obtain ⟨batch, rfl, hid⟩ := Exchange.mem_written.mp hwritten
  obtain ⟨uid, report, hresult, hreport⟩ :=
    h.reported (hsplit ▸ List.mem_append_right before List.mem_cons_self)
  exact ⟨uid, report, hresult, List.mem_append.mp ((hreport id).mpr hid)⟩

/-- What is written was live at the start, and was not written before the pass asked for it. -/
theorem live_of_written {before later : List (Nat × Exchange)} {i : Nat} {batch : List Artifact}
    (hsplit : all.exchanges = before ++ (i, ⟨.put batch, some (.ok ())⟩) :: later)
    {id : ArtifactId} (hid : id ∈ batch.map (·.id)) :
    (∃ a, s.1.store.live? id = some a) ∧ ∃ asked rest uid answer,
      before = asked ++ (i, ⟨.liveOutputs uid, answer⟩) :: rest ∧ id ∉ writtenIn asked := by
  obtain ⟨r, hr, rfl⟩ := List.mem_map.mp hid
  obtain ⟨asked, rest, uid, answer, a, rfl, rfl, hlive⟩ := h.live hsplit hr
  rw [List.append_assoc] at hsplit
  obtain ⟨hnew, hfirst⟩ := (h.marks_prefix hsplit).live_of_live hlive
  exact ⟨⟨a, hfirst⟩, asked, rest, uid, answer, rfl, hnew⟩

/-- Two passes that write the same artifact overlap: the one asks before the other one writes. -/
theorem asksBefore {i j : Nat} {batch batch' : List Artifact}
    (hi : (i, ⟨.put batch, some (.ok ())⟩) ∈ all.exchanges)
    (hj : (j, ⟨.put batch', some (.ok ())⟩) ∈ all.exchanges) {id : ArtifactId}
    (hid : id ∈ batch.map (·.id)) (hid' : id ∈ batch'.map (·.id)) (hne : i ≠ j) :
    all.AsksBefore i j := by
  obtain ⟨before, later, hsplit⟩ := List.append_of_mem hi
  obtain ⟨_, asked, rest, uid, answer, rfl, hnew⟩ := h.live_of_written hsplit hid
  refine ⟨uid, answer, batch', ?_⟩
  rw [hsplit, List.append_assoc] at hj ⊢
  refine List.sublist_append_of_sublist_right ((List.singleton_sublist.mpr ?_).cons_cons _)
  rcases List.mem_append.mp hj with hj | hj
  · exact absurd (mem_writtenIn.mpr ⟨j, batch', hj, hid'⟩) hnew
  · rcases List.mem_cons.mp hj with hj | hj
    · exact absurd (congrArg Prod.fst hj).symm hne
    · exact hj

/-- Passes that report the same artifact overlap. -/
theorem overlap {i j : Nat} {uid uid' : NodeUid} {result result' : Except Failure Outcome}
    (hi : all.results[i]? = some (uid, result)) (hj : all.results[j]? = some (uid', result'))
    {id : ArtifactId} (hid : id ∈ markedBy result) (hid' : id ∈ markedBy result') (hne : i ≠ j) :
    all.Overlap i j := by
  obtain ⟨batch, hbatch, hid⟩ := h.written hi hid
  obtain ⟨batch', hbatch', hid'⟩ := h.written hj hid'
  exact ⟨h.asksBefore hbatch hbatch' hid hid' hne, h.asksBefore hbatch' hbatch hid' hid hne.symm⟩

/-- Passes report what they write. -/
theorem mem_marked {id : ArtifactId} : id ∈ all.marked ↔ id ∈ writtenIn all.exchanges := by
  rw [Passes.marked, List.mem_flatMap, mem_writtenIn]
  constructor
  · rintro ⟨⟨uid, result⟩, hresult, hid⟩
    obtain ⟨i, hi⟩ := List.getElem?_of_mem hresult
    obtain ⟨batch, hbatch, hid⟩ := h.written hi hid
    exact ⟨i, batch, hbatch, hid⟩
  · rintro ⟨i, batch, hbatch, hid⟩
    obtain ⟨uid, report, hresult, hreport⟩ := h.reported hbatch
    exact ⟨_, List.mem_of_getElem? hresult, (hreport id).mpr hid⟩

/-- In the end what the passes report is marked, and nothing else. -/
theorem marks : s.1.store.Marks all.marked all.state.1.store := by
  have hmarks := h.marks_prefix (List.append_nil _).symm
  rw [h.state] at hmarks
  exact hmarks.congr fun _ => h.mem_marked.symm

/-- Whatever is reported was live at the start. -/
theorem live_of_marked {id : ArtifactId} (hid : id ∈ all.marked) :
    ∃ a, s.1.store.live? id = some a := by
  obtain ⟨i, batch, hbatch, hid⟩ := mem_writtenIn.mp (h.mem_marked.mp hid)
  obtain ⟨before, later, hsplit⟩ := List.append_of_mem hbatch
  exact (h.live_of_written hsplit hid).1

/-- Passes that do not overlap report no artifact twice. -/
theorem nodup_marked (hnone : ∀ i j, i ≠ j → ¬ all.Overlap i j) : all.marked.Nodup := by
  rw [Passes.marked, List.nodup_flatMap]
  refine ⟨fun r hr => ?_, List.pairwise_iff_getElem.mpr fun i j hi hj hlt => ?_⟩
  · obtain ⟨i, hi⟩ := List.getElem?_of_mem hr
    exact h.nodup hi
  · intro id hid hid'
    exact hnone i j (Nat.ne_of_lt hlt) (h.overlap (List.getElem?_eq_getElem hi)
      (List.getElem?_eq_getElem hj) hid hid' (Nat.ne_of_lt hlt))

end Passes.Faithful

end Faithful

/-! ## Services that are honest -/

section Honest

variable {τ : Type} {c : Conditions} {filter : FilterService τ} (hlive : c.liveOverride = none)
  (hfilter : filter.PreservesRecords) {s : Memory × τ}
include hlive hfilter

/-- Let live artifacts be answered as the store holds them when it is asked, and candidates as the
filter is asked about them. Then what passes the policy and the filter of an output key is live when
live artifacts are asked for. -/
theorem live_of_passesUnder {all : Passes (Memory × τ)} {before later : List (Nat × Exchange)}
    {uid : NodeUid} {i : Nat} {live : LiveOutputs} {key : String} {policy : Policy} {a : Artifact}
    (hanswers : ((Memory.services c).withFilter filter).Answers s (all.exchanges.map (·.2)))
    (hsplit : all.exchanges = before ++ (i, ⟨.liveOutputs uid, some (.ok live)⟩) :: later)
    (hpasses : (Contract.exchanged (exchangesOf i all.exchanges)).Passes policy
      (liveUnder live key) a) {policies : KeyMap Policy}
    (hpolicy : policies.find? key = some policy) :
    (((Memory.services c).withFilter filter).replay s
      (before.map (·.2))).1.store.live? a.id = some a := by
  have hhonest (m : Memory) : ((Memory.services c).withFilter filter).Honours
      (.listing m.store fun cs a => a ∈ cs) (·.1 = m) := services_honours_listing hlive m hfilter
  obtain ⟨notKept, hcollect, hid, returned, hreturned, ha⟩ := hpasses
  have hasked := hanswers
  rw [hsplit] at hasked
  obtain ⟨before', later', hsplit'⟩ := List.append_of_mem (mem_exchangesOf.mp hreturned)
  rw [hsplit'] at hanswers
  have hlisted := (hhonest _).answers rfl (by trivial) hasked.of_append
  have hadmitted := (hhonest _).answers rfl (by trivial) hanswers.of_append
  obtain ⟨key, notKept, hcollects, _, hmem⟩ := exists_collects_of_passesUnder
    ⟨live, key, policy, hlisted, hpolicy, notKept, hcollect, hid, returned, hadmitted, ha⟩
  exact hcollects.live? hmem

/-- Interleaved passes are faithful. -/
theorem faithful_of_interleaves {nodes : List (NodeUid × NodeSpec)} {all : Passes (Memory × τ)}
    (h : all.Interleaves ((Memory.services c).withFilter filter) nodes s) :
    all.Faithful ((Memory.services c).withFilter filter) s where
  writes := store_of_answer
  answers := h.answers
  state := h.state
  live {before later i batch r} hsplit hr := by
    obtain ⟨uid, node, how, hyields, _⟩ := h.of_exchange
      (hsplit ▸ List.mem_append_right before List.mem_cons_self)
    have hown : exchangesOf i all.exchanges =
        exchangesOf i before ++ ⟨.put batch, some (.ok ())⟩ :: exchangesOf i later := by
      rw [hsplit, exchangesOf_append, exchangesOf_cons_self]
    obtain ⟨a, ⟨live, key, policy, hasked, hpolicy, hpasses⟩, hr⟩ := passesUnder_of_batch hyields
      (hown ▸ List.mem_append_right _ List.mem_cons_self) rfl hr
    change ⟨.liveOutputs uid, some (.ok live)⟩ ∈ exchangesOf i all.exchanges at hasked
    rw [hown] at hyields hasked
    -- the pass writes last, so it has asked before
    rw [(ends_with_batch hyields).1] at hasked
    rcases List.mem_append.mp hasked with hasked | hasked
    · obtain ⟨asked, rest, rfl⟩ := List.append_of_mem (mem_exchangesOf.mp hasked)
      refine ⟨asked, rest, uid, _, a, rfl, hr, ?_⟩
      rw [List.append_assoc] at hsplit
      exact live_of_passesUnder hlive hfilter h.answers hsplit hpasses hpolicy
    · cases congrArg Exchange.request (List.mem_singleton.mp hasked)
  reported {i batch} hx := by
    obtain ⟨uid, node, how, hyields, hresult⟩ := h.of_exchange hx
    obtain ⟨before, later, hown⟩ := List.append_of_mem (mem_exchangesOf.mpr hx)
    rw [hown] at hyields
    obtain ⟨_, report, rfl, hreport⟩ := ends_with_batch hyields
    exact ⟨uid, report, hresult, hreport⟩
  written {i uid result id} hresult hid := by
    obtain ⟨node, how, hyields, rfl⟩ := h.of_result hresult
    obtain ⟨batch, hbatch, hid⟩ := mem_batch_of_markedBy hyields hid
    exact ⟨batch, mem_exchangesOf.mp hbatch, hid⟩
  nodup {i uid result} hresult := by
    obtain ⟨node, how, hyields, rfl⟩ := h.of_result hresult
    exact nodup_markedBy hyields

end Honest

end ArtifactGC
