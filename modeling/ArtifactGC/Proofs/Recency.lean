import ArtifactGC.Retention.Recency
import Mathlib.Data.Finset.Max
import Mathlib.Data.List.Count

/-!
# Retention by recency is retention by rank

The cutoff time is found by sorting, but what it decides can be said by counting: an artifact is
not kept when at least as many artifacts as have to be kept were published strictly later.
-/

namespace ArtifactGC

/-- How many artifacts a rule keeps; zero means all. -/
def RecencyRule.limit (rule : RecencyRule) : Nat := rule.numArtifacts.toInt.toNat

/-- How many of some artifacts were published later than a point in time. -/
def publishedAfter (t : Instant) (artifacts : List Artifact) : Nat :=
  artifacts.countP fun a => t.isBefore a.createTime

namespace Instant

theorem isBefore_iff {t u : Instant} : t.isBefore u = true ↔ t.orderKey < u.orderKey := by
  simp [isBefore]

theorem isBefore_eq_false {t u : Instant} : t.isBefore u = false ↔ u.orderKey ≤ t.orderKey := by
  simp [isBefore]

end Instant

/-- The later a point in time, the fewer artifacts were published after it. -/
theorem publishedAfter_anti {t u : Instant} (h : u.isBefore t = false) (artifacts : List Artifact) :
    publishedAfter u artifacts ≤ publishedAfter t artifacts := by
  rw [Instant.isBefore_eq_false] at h
  refine List.countP_mono_left fun a _ hlater => ?_
  rw [Instant.isBefore_iff] at hlater ⊢
  exact Int.lt_of_le_of_lt h hlater

/-- Of some artifacts there is a newest one. -/
theorem exists_newest {artifacts : List Artifact} (h : artifacts ≠ []) :
    ∃ a ∈ artifacts, ∀ b ∈ artifacts, a.createTime.isBefore b.createTime = false := by
  obtain ⟨a, ha, hnewest⟩ := Finset.exists_max_image artifacts.toFinset
    (·.createTime.orderKey) (List.toFinset_nonempty_iff _ |>.mpr h)
  refine ⟨a, List.mem_toFinset.mp ha, fun b hb => ?_⟩
  exact Instant.isBefore_eq_false.mpr (hnewest b (List.mem_toFinset.mpr hb))

/-- Of some artifacts there is an oldest one. -/
theorem exists_oldest {artifacts : List Artifact} (h : artifacts ≠ []) :
    ∃ a ∈ artifacts, ∀ b ∈ artifacts, b.createTime.isBefore a.createTime = false := by
  obtain ⟨a, ha, holdest⟩ := Finset.exists_min_image artifacts.toFinset
    (·.createTime.orderKey) (List.toFinset_nonempty_iff _ |>.mpr h)
  refine ⟨a, List.mem_toFinset.mp ha, fun b hb => ?_⟩
  exact Instant.isBefore_eq_false.mpr (holdest b (List.mem_toFinset.mpr hb))

private theorem perm_insertTime (t : Instant) (us : List Instant) :
    (insertTime t us).Perm (t :: us) := by
  induction us with
  | nil => exact .refl _
  | cons u us ih =>
    unfold insertTime
    split
    · exact (ih.cons u).trans (.swap t u us)
    · exact .refl _

/-- Sorting keeps all times. -/
theorem perm_sortTimes (times : List Instant) : (sortTimes times).Perm times := by
  induction times with
  | nil => exact .refl _
  | cons t ts ih => exact (perm_insertTime t _).trans (ih.cons t)

private theorem pairwise_insertTime (t : Instant) {us : List Instant}
    (h : us.Pairwise fun u v => u.orderKey ≤ v.orderKey) :
    (insertTime t us).Pairwise fun u v => u.orderKey ≤ v.orderKey := by
  induction us with
  | nil => simp [insertTime]
  | cons u us ih =>
    obtain ⟨hu, hus⟩ := List.pairwise_cons.mp h
    unfold insertTime
    split
    · rename_i hbefore
      have hlt : u.orderKey < t.orderKey := Instant.isBefore_iff.mp hbefore
      refine List.pairwise_cons.mpr ⟨fun v hv => ?_, ih hus⟩
      rcases List.mem_cons.mp ((perm_insertTime t us).subset hv) with rfl | hv
      · omega
      · exact hu v hv
    · rename_i hbefore
      have hle : t.orderKey ≤ u.orderKey := by
        rw [Instant.isBefore_iff] at hbefore
        omega
      refine List.pairwise_cons.mpr ⟨fun v hv => ?_, h⟩
      rcases List.mem_cons.mp hv with rfl | hv
      · exact hle
      · exact Int.le_trans hle (hu v hv)

/-- Sorted times ascend. -/
theorem pairwise_sortTimes (times : List Instant) :
    (sortTimes times).Pairwise fun u v => u.orderKey ≤ v.orderKey := by
  induction times with
  | nil => exact .nil
  | cons t ts ih => exact pairwise_insertTime t ih

/-- In ascending times, whether one comes after a point in time is a matter of how many do. -/
theorem isBefore_getElem_iff {times : List Instant}
    (h : times.Pairwise fun u v => u.orderKey ≤ v.orderKey) (t : Instant) {i : Nat}
    (hi : i < times.length) :
    t.isBefore times[i] = true ↔ times.length - i ≤ times.countP t.isBefore := by
  induction times generalizing i with
  | nil => simp at hi
  | cons u us ih =>
    obtain ⟨hu, hus⟩ := List.pairwise_cons.mp h
    have hall (hlt : t.isBefore u = true) : us.countP t.isBefore = us.length := by
      rw [List.countP_eq_length]
      intro v hv
      have hle := hu v hv
      rw [Instant.isBefore_iff] at hlt ⊢
      omega
    have hmost : us.countP t.isBefore ≤ us.length := List.countP_le_length
    cases i with
    | zero =>
      rw [List.getElem_cons_zero]
      by_cases hlt : t.isBefore u = true
      · simp [hlt, hall hlt]
      · rw [List.countP_cons_of_neg hlt, List.length_cons]
        exact iff_of_false hlt (by omega)
    | succ i =>
      have hi : i < us.length := by simpa using hi
      rw [List.getElem_cons_succ, ih hus hi, List.length_cons]
      by_cases hlt : t.isBefore u = true
      · rw [List.countP_cons_of_pos hlt, hall hlt]
        omega
      · rw [List.countP_cons_of_neg hlt]
        omega

/-- Sorting keeps the number of times. -/
@[simp] theorem length_sortTimes (times : List Instant) :
    (sortTimes times).length = times.length :=
  (perm_sortTimes times).length_eq

/-- With more artifacts than are kept, the place of the cutoff time among the sorted times is
there. -/
theorem exists_cutoff {keep : Nat} {artifacts : List Artifact} (hpositive : 0 < keep)
    (hmore : keep < artifacts.length) :
    ∃ h : artifacts.length - keep < (sortTimes (artifacts.map (·.createTime))).length,
      cutoff? keep artifacts =
        some (sortTimes (artifacts.map (·.createTime)))[artifacts.length - keep] := by
  have hi : artifacts.length - keep < (sortTimes (artifacts.map (·.createTime))).length := by
    rw [length_sortTimes, List.length_map]
    omega
  exact ⟨hi, List.getElem?_eq_getElem hi⟩

/-- With more artifacts than are kept, the cutoff time decides. -/
private theorem notRecent_of_cutoff {rule : RecencyRule} {artifacts : List Artifact} {t : Instant}
    (hkeep : ¬ (rule.limit = 0 ∨ artifacts.length ≤ rule.limit))
    (hcutoff : cutoff? rule.limit artifacts = some t) :
    notRecent rule artifacts = artifacts.filter (·.createTime.isBefore t) := by
  unfold RecencyRule.limit at hkeep hcutoff
  rw [notRecent, if_neg hkeep, hcutoff]

/-- Not kept, in their order, are the artifacts after which at least as many were published as are
kept. -/
theorem notRecent_eq_filter (rule : RecencyRule) (artifacts : List Artifact) :
    notRecent rule artifacts = artifacts.filter fun a =>
      0 < rule.limit ∧ rule.limit ≤ publishedAfter a.createTime artifacts := by
  by_cases hkeep : rule.limit = 0 ∨ artifacts.length ≤ rule.limit
  · have hnone : notRecent rule artifacts = [] := if_pos hkeep
    rw [hnone, eq_comm, List.filter_eq_nil_iff]
    intro a ha
    have hlater : publishedAfter a.createTime artifacts < artifacts.length := by
      refine List.countP_lt_length_iff.mpr ⟨a, ha, ?_⟩
      simp [Instant.isBefore]
    rw [decide_eq_true_eq]
    omega
  · have hpositive : 0 < rule.limit := by omega
    have hmore : rule.limit < artifacts.length := by omega
    obtain ⟨hi, hcutoff⟩ := exists_cutoff hpositive hmore
    rw [notRecent_of_cutoff hkeep hcutoff]
    refine List.filter_congr fun a _ => ?_
    have hcount : (sortTimes (artifacts.map (·.createTime))).countP a.createTime.isBefore =
        publishedAfter a.createTime artifacts := by
      rw [(perm_sortTimes _).countP_eq, List.countP_map]
      rfl
    rw [Bool.eq_iff_iff, isBefore_getElem_iff (pairwise_sortTimes _) _ hi, hcount,
      length_sortTimes, List.length_map, decide_eq_true_eq]
    omega

/-- An artifact is not kept when at least as many artifacts as are kept were published later. -/
theorem mem_notRecent {rule : RecencyRule} {artifacts : List Artifact} {a : Artifact} :
    a ∈ notRecent rule artifacts ↔ a ∈ artifacts ∧ 0 < rule.limit ∧
      rule.limit ≤ publishedAfter a.createTime artifacts := by
  rw [notRecent_eq_filter, List.mem_filter, decide_eq_true_eq]

end ArtifactGC
