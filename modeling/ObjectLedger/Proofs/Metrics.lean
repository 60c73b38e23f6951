import Mathlib.Algebra.GroupWithZero.Nat
import Mathlib.Data.String.Basic
import ObjectLedger.Metrics

/-!
# Counts

Labels are kept in ascending order, so the count of a label is the one that was raised, and one more under
a label is one more in all. What is counted of executions is put apart from the other metrics.
-/

namespace ObjectLedger

namespace LabelledCounts

variable {label other : String} {counts : LabelledCounts}

/-- Labels in ascending order, none of them twice. -/
def Ascending (counts : LabelledCounts) : Prop := counts.Pairwise fun a b => a.1 < b.1

theorem count_cons (l : String) (n : Nat) :
    count label ((l, n) :: counts) = if label = l then n else count label counts := by
  rw [count, List.lookup_cons]
  split_ifs with h
  · simp [h]
  · rw [beq_false_of_ne h]
    rfl

theorem count_eq_zero (h : ∀ entry ∈ counts, label ≠ entry.1) : count label counts = 0 := by
  rw [count, List.lookup_eq_none_iff.mpr fun entry hentry => by simpa using h entry hentry]
  rfl

theorem sum_bump (label : String) (counts : LabelledCounts) :
    ((counts.bump label).map Prod.snd).sum = (counts.map Prod.snd).sum + 1 := by
  induction counts with
  | nil => rfl
  | cons entry counts ih =>
    obtain ⟨l, n⟩ := entry
    rw [bump]
    split_ifs
    · simp only [List.map_cons, List.sum_cons]
      omega
    · simp only [List.map_cons, List.sum_cons]
      omega
    · simp only [List.map_cons, List.sum_cons, ih]
      omega

theorem label_of_mem_bump {entry : String × Nat} (h : entry ∈ counts.bump label) :
    entry.1 = label ∨ ∃ entry' ∈ counts, entry'.1 = entry.1 := by
  induction counts with
  | nil => exact .inl (List.mem_singleton.mp h ▸ rfl)
  | cons first counts ih =>
    obtain ⟨l, n⟩ := first
    rw [bump] at h
    split_ifs at h with hlt heq
    · rcases List.mem_cons.mp h with rfl | h
      · exact .inl rfl
      · exact .inr ⟨_, h, rfl⟩
    · rcases List.mem_cons.mp h with rfl | h
      · exact .inl heq.symm
      · exact .inr ⟨_, List.mem_cons_of_mem _ h, rfl⟩
    · rcases List.mem_cons.mp h with rfl | h
      · exact .inr ⟨_, List.mem_cons_self, rfl⟩
      · obtain hlabel | ⟨entry', hentry', hsame⟩ := ih h
        · exact .inl hlabel
        · exact .inr ⟨entry', List.mem_cons_of_mem _ hentry', hsame⟩

theorem Ascending.bump (h : counts.Ascending) (label : String) : (counts.bump label).Ascending := by
  induction counts with
  | nil => exact List.pairwise_singleton _ _
  | cons first counts ih =>
    obtain ⟨l, n⟩ := first
    obtain ⟨hfirst, hcounts⟩ := List.pairwise_cons.mp h
    rw [LabelledCounts.bump]
    split_ifs with hlt heq
    · refine List.pairwise_cons.mpr ⟨fun entry hentry => ?_, h⟩
      rcases List.mem_cons.mp hentry with rfl | hentry
      · exact hlt
      · exact hlt.trans (hfirst entry hentry)
    · exact List.pairwise_cons.mpr ⟨hfirst, hcounts⟩
    · refine List.pairwise_cons.mpr ⟨fun entry hentry => ?_, ih hcounts⟩
      obtain hlabel | ⟨entry', hentry', hsame⟩ := label_of_mem_bump hentry
      · rw [hlabel]
        exact lt_of_le_of_ne (not_lt.mp hlt) (Ne.symm heq)
      · exact hsame ▸ hfirst entry' hentry'

theorem count_bump (h : counts.Ascending) (label other : String) :
    count other (counts.bump label) = count other counts + if other = label then 1 else 0 := by
  induction counts with
  | nil =>
    rw [bump, count_cons]
    exact (Nat.zero_add _).symm
  | cons first counts ih =>
    obtain ⟨l, n⟩ := first
    obtain ⟨hfirst, hcounts⟩ := List.pairwise_cons.mp h
    rw [bump]
    by_cases hlt : label < l
    · have hnew : count label ((l, n) :: counts) = 0 := by
        refine count_eq_zero fun entry hentry => ?_
        rcases List.mem_cons.mp hentry with rfl | hentry
        · exact hlt.ne
        · exact (hlt.trans (hfirst entry hentry)).ne
      rw [if_pos hlt, count_cons]
      split_ifs with hother
      · rw [hother, hnew]
      · rfl
    · rw [if_neg hlt]
      by_cases heq : label = l
      · rw [if_pos heq, count_cons, count_cons, heq]
        split_ifs <;> rfl
      · rw [if_neg heq, count_cons, count_cons, ih hcounts]
        split_ifs with hl hother
        · exact absurd (hother.symm.trans hl) heq
        · rfl
        · rfl
        · rfl

end LabelledCounts

/-- What is counted of executions. -/
structure Tally where
  total : Nat := 0
  success : Nat := 0
  failedStatus : Nat := 0
  errors : LabelledCounts := []
  resets : Nat := 0

def Metrics.tally (m : Metrics) : Tally where
  total := m.executionsTotal
  success := m.executionsSuccess
  failedStatus := m.executionsFailedStatus
  errors := m.submissionErrors
  resets := m.cacheResets

end ObjectLedger
