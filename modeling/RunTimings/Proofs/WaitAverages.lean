import Mathlib.Algebra.BigOperators.Group.List.Basic
import RunTimings.Proofs.CheckedRuns
import RunTimings.Proofs.WaitRuns

/-! # Averages over any lists of waits

    An analysis adds up lists with one wait for each cycle.  The totals take any
    lists: where one is too short it leaves a total as it is, and what it has
    beyond the last total is lost.

    * `averages_of_lists` — an average is the sum of what the lists have in its
      place (`totals_of_lists`) over the number of lists, and there are none
      exactly if there was no list.
    * **`averages_of_added_waits`** — this, in any order of the lists, and without
      a sum out of 128 bits on the way. -/

namespace RunTimings

/-- **AVERAGES**: each total over the number of lists, if there are lists. -/
theorem averages_of_lists (cycles : Nat) (lists : List (List Int)) :
    (WaitTotals.ofLists cycles lists).averages
      = if lists = [] then none
        else some ((List.range cycles).map fun cycle =>
          Float.ofInt (waitsInPlace cycle lists).sum / Float.ofNat lists.length) := by
  simp only [WaitTotals.averages]
  rw [participants_of_lists, totals_of_lists, List.map_map]
  simp only [List.length_eq_zero_iff]
  rfl

/-- What the lists have in one place does not depend on their order, but for the
    order in which they have it. -/
theorem waitsInPlace_perm {order lists : List (List Int)} (hperm : order.Perm lists)
    (cycle : Nat) : (waitsInPlace cycle order).Perm (waitsInPlace cycle lists) :=
  hperm.filterMap _

theorem averages_of_perm (cycles : Nat) {order lists : List (List Int)}
    (hperm : order.Perm lists) :
    (WaitTotals.ofLists cycles order).averages = (WaitTotals.ofLists cycles lists).averages := by
  have hnil : order = [] ↔ lists = [] := by
    rw [← List.length_eq_zero_iff, hperm.length_eq, List.length_eq_zero_iff]
  have hsum : ∀ cycle, (waitsInPlace cycle order).sum = (waitsInPlace cycle lists).sum :=
    fun cycle => (waitsInPlace_perm hperm cycle).sum_eq
  rw [averages_of_lists, averages_of_lists, hperm.length_eq]
  simp only [hnil, hsum]

/-- **ANY LISTS OF WAITS**: after any lists there are no averages exactly if there
    was no list; else there is one for each cycle, the exact sum of what the lists
    have in its place over their number, both rounded first.  The order of the
    lists is of no account, and less than `2 ^ 64` lists of 64-bit waits have no
    sum out of 128 bits on the way. -/
theorem averages_of_added_waits (cycles : Nat) (lists : List (List Int)) :
    ((WaitTotals.ofLists cycles lists).averages = none ↔ lists = [])
      ∧ (lists ≠ [] → ∃ averages, (WaitTotals.ofLists cycles lists).averages = some averages
        ∧ averages.length = cycles
        ∧ ∀ cycle < cycles, averages[cycle]?
          = some (Float.ofInt (waitsInPlace cycle lists).sum / Float.ofNat lists.length))
      ∧ (∀ order : List (List Int), order.Perm lists →
        (WaitTotals.ofLists cycles order).averages = (WaitTotals.ofLists cycles lists).averages)
      ∧ (Unsigned64 lists.length → (∀ waits ∈ lists, ∀ wait ∈ waits, Signed64 wait) →
        lists.foldlM WaitTotals.addChecked (WaitTotals.zero cycles)
          = .ok (WaitTotals.ofLists cycles lists)) := by
  have haverages := averages_of_lists cycles lists
  refine ⟨?_, ?_, fun order => averages_of_perm cycles, foldlM_addChecked_zero cycles lists⟩
  · rw [haverages]
    by_cases hnone : lists = []
    · rw [if_pos hnone]
      exact iff_of_true rfl hnone
    · rw [if_neg hnone]
      exact iff_of_false nofun hnone
  · intro hsome
    rw [if_neg hsome] at haverages
    refine ⟨_, haverages, by rw [List.length_map, List.length_range], ?_⟩
    intro cycle hcycle
    rw [List.getElem?_map, List.getElem?_range hcycle]
    rfl

-- a list too short for the second place and one too long: both count as participants
example : (WaitTotals.ofLists 2 [[60], [20, 10, 7]]).averages = some [40.0, 5.0] := by
  decide +kernel

end RunTimings
