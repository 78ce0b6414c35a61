import ArtifactGC.Proofs.Retention
import ArtifactGC.Proofs.Services

/-!
# The newest artifacts stay

Retention by recency looks up a cutoff time in the sorted times of publication. The place where it
looks is there whenever something may be dropped, and what is dropped has a rank: at least as many
artifacts as are to be kept were published later. `newest_are_kept` says so, and what follows for
the number of artifacts that are kept, for those that were published at the same time, and for the
oldest one that is kept.
-/

namespace ArtifactGC

/-- The artifacts that a rule keeps, in their order. -/
def recent (rule : RecencyRule) (artifacts : List Artifact) : List Artifact :=
  artifacts.filter (· ∉ notRecent rule artifacts)

variable {rule : RecencyRule} {artifacts : List Artifact} {a b : Artifact}

/-- Kept are the artifacts after which too few others were published. -/
theorem mem_recent : a ∈ recent rule artifacts ↔
    a ∈ artifacts ∧ (0 < rule.limit → publishedAfter a.createTime artifacts < rule.limit) := by
  rw [recent, List.mem_filter, decide_eq_true_eq, mem_notRecent]
  refine and_congr_right fun ha => ?_
  rw [not_and, not_and, Nat.not_le]
  exact ⟨fun h => h ha, fun h _ => h⟩

/-- Where something is dropped, at least as many artifacts are kept as have to be. -/
theorem limit_le_length_recent (h : notRecent rule artifacts ≠ []) :
    rule.limit ≤ (recent rule artifacts).length := by
  obtain ⟨d, hd, hnewest⟩ := exists_newest h
  -- whatever was published after the newest one that is dropped is kept
  have hkept : publishedAfter d.createTime artifacts ≤
      artifacts.countP (· ∉ notRecent rule artifacts) := by
    refine List.countP_mono_left fun b _ hlater => decide_eq_true fun hdropped => ?_
    exact absurd hlater (ne_true_of_eq_false (hnewest b hdropped))
  calc rule.limit ≤ publishedAfter d.createTime artifacts := (mem_notRecent.mp hd).2.2
    _ ≤ artifacts.countP (· ∉ notRecent rule artifacts) := hkept
    _ = (recent rule artifacts).length := List.countP_eq_length_filter

/-- Where nothing is dropped, all artifacts are kept. -/
theorem recent_eq_self (h : notRecent rule artifacts = []) : recent rule artifacts = artifacts := by
  rw [recent, h]
  simp

/-- As many artifacts are kept as have to be, or all. -/
theorem min_le_length_recent :
    min rule.limit artifacts.length ≤ (recent rule artifacts).length := by
  by_cases h : notRecent rule artifacts = []
  · rw [recent_eq_self h]
    exact Nat.min_le_right _ _
  · exact Nat.le_trans (Nat.min_le_left _ _) (limit_le_length_recent h)

/-- Artifacts that were published at the same time are kept together. -/
theorem mem_recent_of_tied (ha : a ∈ recent rule artifacts) (hb : b ∈ artifacts)
    (htied : b.createTime = a.createTime) : b ∈ recent rule artifacts := by
  rw [mem_recent] at ha ⊢
  rw [htied]
  exact ⟨hb, ha.2⟩

/-- Where something is dropped, fewer artifacts are kept that are newer than a kept one than have to
be kept. -/
theorem publishedAfter_recent_lt (h : notRecent rule artifacts ≠ [])
    (ha : a ∈ recent rule artifacts) :
    publishedAfter a.createTime (recent rule artifacts) < rule.limit := by
  obtain ⟨d, hd⟩ := List.exists_mem_of_ne_nil _ h
  calc publishedAfter a.createTime (recent rule artifacts)
      ≤ publishedAfter a.createTime artifacts := List.filter_sublist.countP_le
    _ < rule.limit := (mem_recent.mp ha).2 (mem_notRecent.mp hd).2.1

/-- Keeping a number of newest artifacts looks up the cutoff time at a place that is there, and only
if there are more. It drops, in their order, exactly the artifacts after which at least that
number, if it is positive, were published. So at least that number is kept, or all are; what was
published together is kept together; and where something is dropped, fewer of the kept ones than
that number are newer than the oldest of them. A policy that selects the number collects what is
dropped. -/
theorem newest_are_kept (number : Int64) (artifacts : List Artifact) :
    let keep := number.toInt.toNat
    let times := sortTimes (artifacts.map (·.createTime))
    let dropped := notRecent ⟨number⟩ artifacts
    let kept := recent ⟨number⟩ artifacts
    (0 < number.toInt ∧ number.toInt < artifacts.length → keep ≤ artifacts.length ∧
      ∃ h : artifacts.length - keep < times.length,
        cutoff? keep artifacts = some times[artifacts.length - keep]) ∧
    (dropped = artifacts.filter fun a =>
      0 < number.toInt ∧ number.toInt ≤ publishedAfter a.createTime artifacts) ∧
    min number.toInt artifacts.length ≤ kept.length ∧
    (∀ a ∈ kept, ∀ b ∈ artifacts, b.createTime = a.createTime → b ∈ kept) ∧
    (dropped ≠ [] → ∃ oldest ∈ kept,
      (∀ a ∈ kept, a.createTime.isBefore oldest.createTime = false) ∧
      publishedAfter oldest.createTime kept < number.toInt) ∧
    ∀ policy, policy.retention = .ok (.recency ⟨number⟩) →
      artifactsToCollect policy artifacts = .ok dropped := by
  intro keep times dropped kept
  have hlimit : (⟨number⟩ : RecencyRule).limit = keep := rfl
  refine ⟨?_, ?_, ?_, ?_, ?_, ?_⟩
  · rintro ⟨hpositive, hmore⟩
    have hkeep : 0 < keep ∧ keep < artifacts.length := by omega
    exact ⟨Nat.le_of_lt hkeep.2, exists_cutoff hkeep.1 hkeep.2⟩
  · refine (notRecent_eq_filter _ _).trans (List.filter_congr fun a _ => ?_)
    rw [hlimit, decide_eq_decide]
    omega
  · have hmin : min keep artifacts.length ≤ kept.length := min_le_length_recent
    omega
  · intro a ha b hb htied
    exact mem_recent_of_tied ha hb htied
  · intro hdropped
    have hpositive : 0 < keep := by
      obtain ⟨d, hd⟩ := List.exists_mem_of_ne_nil _ hdropped
      exact (mem_notRecent.mp hd).2.1
    have hmany : keep ≤ kept.length := limit_le_length_recent hdropped
    have hsome : kept ≠ [] := List.ne_nil_of_length_pos (Nat.lt_of_lt_of_le hpositive hmany)
    obtain ⟨oldest, holdest, hfirst⟩ := exists_oldest hsome
    have hfewer : publishedAfter oldest.createTime kept < keep :=
      publishedAfter_recent_lt hdropped holdest
    exact ⟨oldest, holdest, hfirst, by omega⟩
  · intro policy hpolicy
    exact artifactsToCollect_of_recency hpolicy

/-- Of four models two are to be kept. Two were published in the same second, so that three are
kept, and one of these is newer than the oldest. -/
theorem models_of_one_second_are_kept :
    let first := model 1 "/1"
    let second := model 2 "/2"
    let twin := { model 2 "/twin" with id := ⟨4⟩ }
    let third := model 3 "/3"
    let models := [third, second, first, twin]
    notRecent ⟨2⟩ models = [first] ∧ recent ⟨2⟩ models = [third, second, twin] ∧
      second.createTime = twin.createTime ∧ second ∈ recent ⟨2⟩ models ∧
      ∃ oldest ∈ [third, second, twin],
        (∀ a ∈ [third, second, twin], a.createTime.isBefore oldest.createTime = false) ∧
        publishedAfter oldest.createTime [third, second, twin] < 2 := by
  intro first second twin third models
  have hdropped : notRecent ⟨2⟩ models = [first] := by decide +kernel
  have hkept : recent ⟨2⟩ models = [third, second, twin] := by decide +kernel
  obtain ⟨_, _, _, htied, holdest, _⟩ := newest_are_kept 2 models
  rw [hdropped, hkept] at holdest
  obtain ⟨oldest, hmem, hfirst, hnewer⟩ := holdest nofun
  have hsecond : second ∈ recent ⟨2⟩ models :=
    htied twin (by rw [hkept]; simp) second (by simp [models]) rfl
  exact ⟨hdropped, hkept, rfl, hsecond, oldest, hmem, hfirst, Int.ofNat_lt.mp hnewer⟩

end ArtifactGC
