/-!
# Ranges of code points — character classes as sorted tables

A class of characters is given by a table of closed ranges of code points, in ascending order. The
search stops at the first range that begins above the code point, so a character near the front of
the code space is decided by the first entries.

Main statement: on a sorted table the search answers whether some range holds the code point
(`covers_iff`).
-/

namespace RunTimings.Text

/-- Closed ranges of code points. -/
abbrev Ranges := List (Nat × Nat)

/-- Whether a code point lies in one of the ranges of a sorted table. -/
def Ranges.covers : Ranges → Nat → Bool
  | [], _ => false
  | (low, high) :: rest, n =>
    if n < low then false else if n ≤ high then true else Ranges.covers rest n

/-- No range is empty, and each begins above the end of every range before it. -/
def Ranges.Sorted (table : Ranges) : Prop :=
  (∀ r ∈ table, r.1 ≤ r.2) ∧ table.Pairwise fun r s => r.2 < s.1

theorem Ranges.covers_iff {table : Ranges} (sorted : table.Sorted) (n : Nat) :
    table.covers n = true ↔ ∃ r ∈ table, r.1 ≤ n ∧ n ≤ r.2 := by
  induction table with
  | nil => simp [covers]
  | cons r rest ih =>
    obtain ⟨filled, above⟩ := sorted
    have head : r.1 ≤ r.2 := filled r (by simp)
    have later : ∀ s ∈ rest, r.2 < s.1 := (List.pairwise_cons.1 above).1
    have tail := ih ⟨fun s hs => filled s (by simp [hs]), (List.pairwise_cons.1 above).2⟩
    rw [covers]
    split
    · constructor
      · simp
      · rintro ⟨s, hs, low, _⟩
        rcases List.mem_cons.1 hs with rfl | hs
        · omega
        · have := later s hs
          omega
    · split
      · refine ⟨fun _ => ⟨r, by simp, by omega, by omega⟩, fun _ => rfl⟩
      · rw [tail]
        constructor
        · rintro ⟨s, hs, h⟩
          exact ⟨s, by simp [hs], h⟩
        · rintro ⟨s, hs, h⟩
          rcases List.mem_cons.1 hs with rfl | hs
          · omega
          · exact ⟨s, hs, h⟩

end RunTimings.Text
