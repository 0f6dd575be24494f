import RunTimings.Text.Ranges

/-!
# Blank characters — the White_Space property

Blank characters separate the last number of a marker from the text before it, and those that end a
line do not count. The class is Unicode's White_Space; the line feed belongs to it.
-/

namespace RunTimings.Text

/-- The code points with the property White_Space. -/
def blankRanges : Ranges :=
  [(0x0009, 0x000d), (0x0020, 0x0020), (0x0085, 0x0085), (0x00a0, 0x00a0), (0x1680, 0x1680),
   (0x2000, 0x200a), (0x2028, 0x2029), (0x202f, 0x202f), (0x205f, 0x205f), (0x3000, 0x3000)]

/-- Whether a character is blank. -/
def isBlank (c : Char) : Bool :=
  blankRanges.covers c.toNat

/-- A text without the blank characters at its end. -/
def trimEnd (text : List Char) : List Char :=
  (text.reverse.dropWhile isBlank).reverse

/-- What the trimming takes away is blank, and what it leaves does not end in a blank. -/
theorem exists_trimEnd_append (text : List Char) :
    ∃ blanks, text = trimEnd text ++ blanks ∧ (∀ c ∈ blanks, isBlank c = true) ∧
      ∀ c ∈ (trimEnd text).getLast?, isBlank c = false := by
  refine ⟨(text.reverse.takeWhile isBlank).reverse, ?_, ?_, ?_⟩
  · rw [trimEnd, ← List.reverse_append, List.takeWhile_append_dropWhile, List.reverse_reverse]
  · intro c hc
    rw [List.mem_reverse] at hc
    exact List.all_eq_true.1 List.all_takeWhile c hc
  · intro c hc
    rw [trimEnd, List.getLast?_reverse] at hc
    have := List.head?_dropWhile_not isBlank text.reverse
    grind

end RunTimings.Text
