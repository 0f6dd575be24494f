import Mathlib.Data.String.Basic
import Mathlib.Order.Monotone.Basic
import RunTimings.Proofs.Utf8Texts

/-! # The order of bytes — texts compared by their UTF-8

    Texts are compared character by character, and rows of bytes byte by byte.
    UTF-8 is made so that the two orders are one: of two characters, the one with
    the smaller number has the smaller byte where their bytes first differ.

    * `Precedes` — two rows of bytes differ at some place, and there the first has
      the smaller byte; so it comes first whatever follows (`Precedes.append_lt`).
    * `Carries` — the count of the bytes bounds the first of them and the number;
      among as many bytes the bits decide (`precedes_of_bitsAfter`).
    * `precedes_of_spelled` — bytes that spell a smaller number precede those that
      spell a greater one.
    * **`encode_lt_encode_iff`** — one text comes before another exactly if its
      bytes do. -/

namespace RunTimings.Text.Utf8

open String (utf8EncodeChar)

/-! ## Rows of bytes -/

/-- The first of two rows of bytes has the smaller byte where they first differ. -/
def Precedes (a b : List UInt8) : Prop :=
  ∃ common x y more more', a = common ++ x :: more ∧ b = common ++ y :: more' ∧ x < y

/-- What comes first comes first with anything behind it. -/
theorem Precedes.append_lt {a b : List UInt8} (h : Precedes a b) (rest rest' : List UInt8) :
    a ++ rest < b ++ rest' := by
  obtain ⟨common, x, y, more, more', rfl, rfl, hlt⟩ := h
  rw [List.append_assoc, List.append_assoc]
  exact List.append_left_lt (.rel hlt)

theorem precedes_of_first {a b : UInt8} (h : a < b) (more more' : List UInt8) :
    Precedes (a :: more) (b :: more') :=
  ⟨[], a, b, more, more', rfl, rfl, h⟩

/-- A byte in front that is the same changes nothing. -/
theorem Precedes.cons {a b : List UInt8} (h : Precedes a b) (first : UInt8) :
    Precedes (first :: a) (first :: b) := by
  obtain ⟨common, x, y, more, more', rfl, rfl, hlt⟩ := h
  exact ⟨first :: common, x, y, more, more', rfl, rfl, hlt⟩

/-- Two bytes come in one order or the other, or are the same. -/
theorem byte_cases (a b : UInt8) : a < b ∨ a = b ∨ b.toNat < a.toNat := by
  rcases Nat.lt_trichotomy a.toNat b.toNat with hlt | heq | hgt
  · exact .inl hlt
  · exact .inr (.inl (UInt8.toNat_inj.mp heq))
  · exact .inr (.inr hgt)

/-! ## Numbers of as many bytes -/

/-- The least first byte in front of so many others. -/
def leastFirst : Nat → Nat
  | 0 => 0
  | 1 => 0xc0
  | 2 => 0xe0
  | 3 => 0xf0
  | _ => 0xf8

/-- The least number that needs so many bytes behind the first. -/
def leastNumber : Nat → Nat
  | 0 => 0
  | 1 => 0x80
  | 2 => 0x800
  | 3 => 0x10000
  | _ => 0x110000

theorem leastFirst_mono : Monotone leastFirst := by
  refine monotone_nat_of_le_succ ?_
  rintro (_ | _ | _ | _ | count) <;> simp [leastFirst]

theorem leastNumber_mono : Monotone leastNumber := by
  refine monotone_nat_of_le_succ ?_
  rintro (_ | _ | _ | _ | count) <;> simp [leastNumber]

/-- A first byte and the bytes behind it, by their count: the bounds on the first
    byte and on the number, and the number as the value of the bits. -/
structure Carries (a : UInt8) (tails : List UInt8) (n : Nat) : Prop where
  tail : ∀ b ∈ tails, IsTail b
  first : leastFirst tails.length ≤ a.toNat ∧ a.toNat < leastFirst (tails.length + 1)
  number : leastNumber tails.length ≤ n ∧ n < leastNumber (tails.length + 1)
  value : n = bitsAfter (a.toNat - leastFirst tails.length) tails

/-- Bytes that spell a number carry it. -/
theorem Spelled.carries {bytes : List UInt8} {n : Nat} (h : Spelled bytes n) :
    ∃ a tails, bytes = a :: tails ∧ Carries a tails n := by
  cases h with
  | @one a first =>
      refine ⟨a, [], rfl, nofun, ?_, ?_, rfl⟩ <;>
        simp only [List.length_nil, leastFirst, leastNumber] <;> omega
  | @two a b first second =>
      obtain ⟨hlow, hhigh⟩ := id second
      refine ⟨a, [b], rfl, by simpa using second, ?_, ?_, rfl⟩ <;>
        simp only [List.length_cons, List.length_nil, leastFirst, leastNumber] <;> omega
  | @three a b c first second low high third =>
      obtain ⟨hlow, hhigh⟩ := id second
      obtain ⟨hlow', hhigh'⟩ := id third
      refine ⟨a, [b, c], rfl, by simpa using ⟨second, third⟩, ?_, ?_, rfl⟩ <;>
        simp only [List.length_cons, List.length_nil, leastFirst, leastNumber] <;> omega
  | @four a b c d first second low high third fourth =>
      obtain ⟨hlow, hhigh⟩ := id second
      obtain ⟨hlow', hhigh'⟩ := id third
      obtain ⟨hlow'', hhigh''⟩ := id fourth
      refine ⟨a, [b, c, d], rfl, by simpa using ⟨second, third, fourth⟩, ?_, ?_, rfl⟩ <;>
        simp only [List.length_cons, List.length_nil, leastFirst, leastNumber] <;> omega

theorem bitsAfter_cons (bits : Nat) (b : UInt8) (more : List UInt8) :
    bitsAfter bits (b :: more) = bitsAfter (bits * 64 + (b.toNat - 0x80)) more := by
  simp only [bitsAfter, List.foldl_cons]

/-- The bits in front decide, since no byte behind them carries more than six. -/
theorem bitsAfter_lt {tails tails' : List UInt8} (hlength : tails.length = tails'.length)
    (htail : ∀ b ∈ tails, IsTail b) {bits bits' : Nat} (hlt : bits < bits') :
    bitsAfter bits tails < bitsAfter bits' tails' := by
  induction tails generalizing bits bits' tails' with
  | nil =>
      rw [List.length_eq_zero_iff.mp hlength.symm]
      exact hlt
  | cons b tails ih =>
      obtain ⟨b', tails', rfl⟩ := List.exists_cons_of_length_eq_add_one hlength.symm
      obtain ⟨hb, htails⟩ := List.forall_mem_cons.mp htail
      obtain ⟨hlow, hhigh⟩ := hb
      rw [bitsAfter_cons, bitsAfter_cons]
      exact ih (Nat.succ.inj hlength) htails (by omega)

/-- Behind the same bits the smaller value has the smaller byte first. -/
theorem precedes_of_bitsAfter {tails tails' : List UInt8} (hlength : tails.length = tails'.length)
    (htail : ∀ b ∈ tails', IsTail b) {bits : Nat}
    (hlt : bitsAfter bits tails < bitsAfter bits tails') : Precedes tails tails' := by
  induction tails generalizing bits tails' with
  | nil =>
      rw [List.length_eq_zero_iff.mp hlength.symm] at hlt
      exact absurd hlt (Nat.lt_irrefl _)
  | cons b tails ih =>
      obtain ⟨b', tails', rfl⟩ := List.exists_cons_of_length_eq_add_one hlength.symm
      obtain ⟨hb, htails⟩ := List.forall_mem_cons.mp htail
      obtain ⟨hlow, hhigh⟩ := hb
      have hrest := Nat.succ.inj hlength
      rw [bitsAfter_cons, bitsAfter_cons] at hlt
      rcases byte_cases b b' with h | rfl | h
      · exact precedes_of_first h _ _
      · exact (ih hrest htails hlt).cons b
      · have hgt : bits * 64 + (b'.toNat - 0x80) < bits * 64 + (b.toNat - 0x80) := by omega
        exact absurd hlt (Nat.lt_asymm (bitsAfter_lt hrest.symm htails hgt))

/-- **NUMBERS**: bytes that spell a smaller number precede those that spell a
    greater one. -/
theorem precedes_of_spelled {bytes bytes' : List UInt8} {n m : Nat} (h : Spelled bytes n)
    (h' : Spelled bytes' m) (hlt : n < m) : Precedes bytes bytes' := by
  obtain ⟨a, tails, rfl, hcarries⟩ := h.carries
  obtain ⟨a', tails', rfl, hcarries'⟩ := h'.carries
  rcases Nat.lt_trichotomy tails.length tails'.length with hless | hsame | hmore
  · -- fewer bytes begin with a smaller one
    have hbound : leastFirst (tails.length + 1) ≤ _ := leastFirst_mono hless
    have hfirst := hcarries.first
    have hfirst' := hcarries'.first
    exact precedes_of_first (UInt8.lt_iff_toNat_lt.mpr (by omega)) _ _
  · have hvalue := hcarries'.value
    rw [← hsame] at hvalue
    rw [hcarries.value, hvalue] at hlt
    rcases byte_cases a a' with hfirst | rfl | hfirst
    · exact precedes_of_first hfirst _ _
    · exact (precedes_of_bitsAfter hsame hcarries'.tail hlt).cons a
    · have hbound := hsame ▸ hcarries'.first.1
      have hgt := bitsAfter_lt hsame.symm hcarries'.tail
        (show a'.toNat - leastFirst tails.length < a.toNat - leastFirst tails.length by omega)
      exact absurd hlt (Nat.lt_asymm hgt)
  · -- more bytes spell a greater number
    have hbound : leastNumber (tails'.length + 1) ≤ _ := leastNumber_mono hmore
    have hnumber := hcarries.number
    have hnumber' := hcarries'.number
    omega

/-! ## Texts -/

/-- The bytes of a smaller character precede those of a greater one. -/
theorem precedes_of_lt {c d : Char} (h : c < d) :
    Precedes (utf8EncodeChar c) (utf8EncodeChar d) :=
  precedes_of_spelled (spelled_utf8EncodeChar c) (spelled_utf8EncodeChar d) h

/-- A text that comes before another has its bytes before those of the other. -/
theorem encode_lt_encode {text other : List Char} (h : text < other) :
    encode text < encode other := by
  induction text generalizing other with
  | nil =>
      cases other with
      | nil => exact absurd h (List.lt_irrefl _)
      | cons d other =>
          obtain ⟨first, more, hbytes, -⟩ := (spelled_utf8EncodeChar d).head_not_tail
          rw [encode_cons, hbytes]
          exact .nil
  | cons c text ih =>
      cases other with
      | nil => exact absurd h (List.not_lt_nil _)
      | cons d other =>
          rw [encode_cons, encode_cons]
          rcases List.cons_lt_cons_iff.mp h with hlt | ⟨rfl, hrest⟩
          · exact (precedes_of_lt hlt).append_lt _ _
          · exact List.append_left_lt (ih hrest)

/-- **ONE ORDER**: a text comes before another exactly if its bytes come before
    those of the other. -/
theorem encode_lt_encode_iff {text other : List Char} :
    encode text < encode other ↔ text < other := by
  constructor
  · intro h
    rcases lt_trichotomy text other with hlt | rfl | hgt
    · exact hlt
    · exact absurd h (List.lt_irrefl _)
    · exact absurd h (List.lt_asymm (encode_lt_encode hgt))
  · exact encode_lt_encode

end RunTimings.Text.Utf8
