import RunTimings.Text.Escape

/-!
# Inert text — nothing in it steers a terminal

Names from outside may stand in a line that goes to a terminal. The controls that a terminal obeys
are therefore shown by number: bell, backspace, form feed, escape and delete, and the controls from
U+0080 to U+009F. All other characters stay as they are.

Main statements: no control that steers is left (`not_steers_of_mem_inert`), and a text without them
is not changed (`inert_of_not_steers`).
-/

namespace RunTimings.Text

/-- The controls of one byte that a terminal obeys. -/
def isShortControl (c : Char) : Bool :=
  c = '\x07' || c = '\x08' || c = '\x0c' || c = '\x1b' || c = '\x7f'

/-- The controls from U+0080 to U+009F. -/
def isLongControl (c : Char) : Bool :=
  0x80 ≤ c.toNat && c.toNat ≤ 0x9f

/-- Whether a terminal may obey a character instead of showing it. -/
def steers (c : Char) : Bool :=
  isShortControl c || isLongControl c

/-- A character, or its number if it steers. -/
def inertChar (c : Char) : List Char :=
  if isShortControl c then byteEscape c.toNat
  else if isLongControl c then codePointEscape c
  else [c]

/-- A text with all that steers shown by number. -/
def inert (text : List Char) : List Char :=
  text.flatMap inertChar

/-- A text without anything that steers stays as it is. -/
theorem inert_of_not_steers {text : List Char} (h : ∀ c ∈ text, steers c = false) :
    inert text = text := by
  induction text with
  | nil => rfl
  | cons c rest ih =>
    have plain : isShortControl c = false ∧ isLongControl c = false := by
      simpa [steers] using h c (by simp)
    rw [inert, List.flatMap_cons, ← inert, ih fun d hd => h d (by simp [hd]), inertChar, plain.1,
      plain.2]
    rfl

/-- A hexadecimal digit does not steer. -/
theorem not_steers_digitChar (n : Nat) : steers (Nat.digitChar n) = false := by
  by_cases small : n < 16
  · exact (by decide : ∀ k : Fin 16, steers (Nat.digitChar k) = false) ⟨n, small⟩
  · have star : Nat.digitChar n = '*' := by
      unfold Nat.digitChar
      repeat rw [if_neg (by omega)]
    rw [star]
    rfl

theorem not_steers_of_mem_inertChar {c d : Char} (h : d ∈ inertChar c) : steers d = false := by
  rw [inertChar] at h
  split at h
  · rw [byteEscape, List.mem_cons, List.mem_cons, List.mem_cons, List.mem_singleton] at h
    rcases h with rfl | rfl | rfl | rfl
    · rfl
    · rfl
    · exact not_steers_digitChar _
    · exact not_steers_digitChar _
  · split at h
    · rcases mem_codePointEscape h with ⟨k, rfl⟩ | rfl | rfl | rfl | rfl
      · exact not_steers_digitChar k
      all_goals rfl
    · rw [List.mem_singleton] at h
      simp_all [steers]

/-- Nothing is left that steers. -/
theorem not_steers_of_mem_inert {text : List Char} {c : Char} (h : c ∈ inert text) :
    steers c = false := by
  obtain ⟨_, _, h⟩ := List.mem_flatMap.1 h
  exact not_steers_of_mem_inertChar h

end RunTimings.Text
