/-!
# Escapes — characters written by number

A character or byte that cannot stand for itself is written by its number in hexadecimal.
-/

namespace RunTimings.Text

/-- A code point between braces. -/
def codePointEscape (c : Char) : List Char :=
  '\\' :: 'u' :: '\x7b' :: (Nat.toDigits 16 c.toNat ++ ['\x7d'])

/-- A byte with two digits. -/
def byteEscape (byte : Nat) : List Char :=
  ['\\', 'x', Nat.digitChar (byte / 16), Nat.digitChar (byte % 16)]

theorem mem_toDigitsCore {base fuel n : Nat} {after : List Char} {c : Char}
    (h : c ∈ Nat.toDigitsCore base fuel n after) : (∃ k, c = Nat.digitChar k) ∨ c ∈ after := by
  induction fuel generalizing n after with
  | zero => exact .inr h
  | succ fuel ih =>
    rw [Nat.toDigitsCore] at h
    split at h
    · rcases List.mem_cons.1 h with rfl | h
      · exact .inl ⟨_, rfl⟩
      · exact .inr h
    · rcases ih h with digit | h
      · exact .inl digit
      · rcases List.mem_cons.1 h with rfl | h
        · exact .inl ⟨_, rfl⟩
        · exact .inr h

/-- Besides digits, an escape has only the backslash, its letter and braces. -/
theorem mem_codePointEscape {c d : Char} (h : d ∈ codePointEscape c) :
    (∃ k, d = Nat.digitChar k) ∨ d = '\\' ∨ d = 'u' ∨ d = '\x7b' ∨ d = '\x7d' := by
  rw [codePointEscape, List.mem_cons, List.mem_cons, List.mem_cons, List.mem_append,
    List.mem_singleton] at h
  rcases h with h | h | h | h | h
  · exact .inr (.inl h)
  · exact .inr (.inr (.inl h))
  · exact .inr (.inr (.inr (.inl h)))
  · rcases mem_toDigitsCore h with digit | h
    · exact .inl digit
    · exact absurd h (by simp)
  · exact .inr (.inr (.inr (.inr h)))

end RunTimings.Text
