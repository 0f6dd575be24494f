/-!
# The ranges of 64-bit numbers

Steps and cycle indices are unsigned, timestamps and waits signed numbers of 64 bits. All arithmetic
is on unbounded integers; these two ranges say which numbers a log may bring and which totals may be
kept.
-/

namespace RunTimings

/-- The number fits 64 bits without a sign. -/
abbrev Unsigned64 (n : Nat) : Prop :=
  n < 0x10000000000000000

/-- The number fits 64 bits with a sign. -/
abbrev Signed64 (n : Int) : Prop :=
  -0x8000000000000000 ≤ n ∧ n < 0x8000000000000000

/-- The difference of two numbers without a sign bit fits. -/
theorem Signed64.sub {a b : Int} (ha : Signed64 a) (hb : Signed64 b) (a0 : 0 ≤ a) (b0 : 0 ≤ b) :
    Signed64 (a - b) := by
  obtain ⟨_, ha⟩ := ha
  obtain ⟨_, hb⟩ := hb
  constructor <;> omega

end RunTimings
