import Mathlib.Data.List.Basic
import RunTimings.Text.Utf8

/-! # Text among bytes — what a whole character leaves alone

    A byte sequence is read as its parts: whole characters, and broken bytes that
    are none.  The parts are told apart by the bytes alone, wherever they stand:

    * `Spelled` — which bytes spell which number, by the count of the bytes; they
      are those that spell a character (`spelled_utf8EncodeChar`,
      `utf8EncodeChar_of_spelled`).
    * **`flatMap_bytes_fragments`** — reading loses nothing: the bytes of the parts
      are the bytes that were read.
    * **`fragments_append_char`** — a whole character is a part of its own, also
      behind the beginning of another one: no byte of it is drawn into what is
      broken before it, and what follows it is read afresh.
    * `decode_append_encode` — so text behind any bytes is read as it is written,
      and bytes that are read without a broken part are those of the text that
      they are read as (`decode?_eq_some_iff`).
    * `bytes_split` — where a text is shown that holds no replacement character,
      there are the bytes of that text, and broken bytes are beside them. -/

namespace RunTimings.Text.Utf8

open String (utf8EncodeChar)

/-! ## The bytes of a character -/

/-- A byte that can stand behind the first of a character. -/
def IsTail (b : UInt8) : Prop :=
  0x80 ≤ b.toNat ∧ b.toNat ≤ 0xbf

/-- Bytes that spell a number: the first tells how many there are, the second is
    bounded where the number would need fewer bytes, be a surrogate or lie beyond
    the last code point, and each behind the first carries six bits. -/
inductive Spelled : List UInt8 → Nat → Prop
  | one {a : UInt8} (first : a.toNat < 0x80) : Spelled [a] a.toNat
  | two {a b : UInt8} (first : 0xc2 ≤ a.toNat ∧ a.toNat < 0xe0) (second : IsTail b) :
      Spelled [a, b] ((a.toNat - 0xc0) * 64 + (b.toNat - 0x80))
  | three {a b c : UInt8} (first : 0xe0 ≤ a.toNat ∧ a.toNat < 0xf0) (second : IsTail b)
      (low : a.toNat = 0xe0 → 0xa0 ≤ b.toNat) (high : a.toNat = 0xed → b.toNat ≤ 0x9f)
      (third : IsTail c) :
      Spelled [a, b, c] (((a.toNat - 0xe0) * 64 + (b.toNat - 0x80)) * 64 + (c.toNat - 0x80))
  | four {a b c d : UInt8} (first : 0xf0 ≤ a.toNat ∧ a.toNat < 0xf5) (second : IsTail b)
      (low : a.toNat = 0xf0 → 0x90 ≤ b.toNat) (high : a.toNat = 0xf4 → b.toNat ≤ 0x8f)
      (third : IsTail c) (fourth : IsTail d) :
      Spelled [a, b, c, d]
        ((((a.toNat - 0xf0) * 64 + (b.toNat - 0x80)) * 64 + (c.toNat - 0x80)) * 64
          + (d.toNat - 0x80))

theorem toNat_val_ofNat {n : Nat} (h : n < 0xd800 ∨ 0xdfff < n ∧ n < 0x110000) :
    (Char.ofNat n).val.toNat = n := by
  have hvalid : n.isValidChar := h
  rw [Char.ofNat, dif_pos hvalid]
  rfl

theorem ofNat_eq_of_eq_toNat {n : Nat} {b : UInt8} (h : n = b.toNat) : UInt8.ofNat n = b := by
  rw [h, UInt8.ofNat_toNat]

theorem toNat_ofNat_of_lt {n : Nat} (h : n < 0x100) : (UInt8.ofNat n).toNat = n := by
  rw [UInt8.toNat_ofNat', Nat.mod_eq_of_lt h]

/-- Bytes that spell a number are those of the character with that number. -/
theorem utf8EncodeChar_of_spelled {bytes : List UInt8} {n : Nat} (h : Spelled bytes n) :
    utf8EncodeChar (Char.ofNat n) = bytes := by
  cases h with
  | one first =>
      rw [utf8EncodeChar, toNat_val_ofNat (by omega), if_pos (by omega), UInt8.ofNat_toNat]
  | two first second =>
      obtain ⟨hlow, hhigh⟩ := second
      simp only [utf8EncodeChar]
      rw [toNat_val_ofNat (by omega), if_neg (by omega), if_pos (by omega)]
      simp only [List.cons.injEq, and_true]
      refine ⟨?_, ?_⟩ <;> exact ofNat_eq_of_eq_toNat (by omega)
  | three first second low high third =>
      obtain ⟨hlow, hhigh⟩ := second
      obtain ⟨hlow', hhigh'⟩ := third
      simp only [utf8EncodeChar]
      rw [toNat_val_ofNat (by omega), if_neg (by omega), if_neg (by omega), if_pos (by omega)]
      simp only [List.cons.injEq, and_true]
      refine ⟨?_, ?_, ?_⟩ <;> exact ofNat_eq_of_eq_toNat (by omega)
  | four first second low high third fourth =>
      obtain ⟨hlow, hhigh⟩ := second
      obtain ⟨hlow', hhigh'⟩ := third
      obtain ⟨hlow'', hhigh''⟩ := fourth
      simp only [utf8EncodeChar]
      rw [toNat_val_ofNat (by omega), if_neg (by omega), if_neg (by omega), if_neg (by omega)]
      simp only [List.cons.injEq, and_true]
      refine ⟨?_, ?_, ?_, ?_⟩ <;> exact ofNat_eq_of_eq_toNat (by omega)

/-- The bytes of a character spell its number. -/
theorem spelled_utf8EncodeChar (c : Char) : Spelled (utf8EncodeChar c) c.toNat := by
  have hvalid : c.toNat < 0xd800 ∨ 0xdfff < c.toNat ∧ c.toNat < 0x110000 := c.valid
  have hval : c.val.toNat = c.toNat := rfl
  simp only [utf8EncodeChar, hval]
  generalize c.toNat = n at hvalid
  have of_eq : ∀ {bytes m}, Spelled bytes m → m = n → Spelled bytes n := fun h heq => heq ▸ h
  by_cases hone : n ≤ 0x7f
  · rw [if_pos hone]
    have first : (UInt8.ofNat n).toNat = n := toNat_ofNat_of_lt (by omega)
    exact of_eq (.one (by omega)) first
  rw [if_neg hone]
  have last : (UInt8.ofNat (n % 0x40 + 0x80)).toNat = n % 0x40 + 0x80 :=
    toNat_ofNat_of_lt (by omega)
  by_cases htwo : n ≤ 0x7ff
  · rw [if_pos htwo]
    have first : (UInt8.ofNat (n / 64 % 0x20 + 0xc0)).toNat = n / 64 % 0x20 + 0xc0 :=
      toNat_ofNat_of_lt (by omega)
    refine of_eq (.two ?_ ?_) ?_ <;> simp only [first, last, IsTail] <;> omega
  rw [if_neg htwo]
  have third : (UInt8.ofNat (n / 64 % 0x40 + 0x80)).toNat = n / 64 % 0x40 + 0x80 :=
    toNat_ofNat_of_lt (by omega)
  by_cases hthree : n ≤ 0xffff
  · rw [if_pos hthree]
    have first : (UInt8.ofNat (n / 4096 % 0x10 + 0xe0)).toNat = n / 4096 % 0x10 + 0xe0 :=
      toNat_ofNat_of_lt (by omega)
    refine of_eq (.three ?_ ?_ ?_ ?_ ?_) ?_ <;> simp only [first, third, last, IsTail] <;> omega
  rw [if_neg hthree]
  have first : (UInt8.ofNat (n / 262144 % 0x08 + 0xf0)).toNat = n / 262144 % 0x08 + 0xf0 :=
    toNat_ofNat_of_lt (by omega)
  have second : (UInt8.ofNat (n / 4096 % 0x40 + 0x80)).toNat = n / 4096 % 0x40 + 0x80 :=
    toNat_ofNat_of_lt (by omega)
  refine of_eq (.four ?_ ?_ ?_ ?_ ?_ ?_) ?_ <;>
    simp only [first, second, third, last, IsTail] <;> omega

/-- A small byte stands for itself wherever it occurs. -/
theorem Spelled.eq_of_mem {bytes : List UInt8} {n : Nat} (h : Spelled bytes n) {b : UInt8}
    (hmem : b ∈ bytes) (hsmall : b.toNat < 0x80) : n = b.toNat := by
  have htail : ∀ {c : UInt8}, IsTail c → b ≠ c := by
    rintro c ⟨hlow, -⟩ rfl
    omega
  have hfirst : ∀ {a : UInt8}, 0xc2 ≤ a.toNat → b ≠ a := by
    rintro a hlow rfl
    omega
  cases h with
  | one first => rw [List.mem_singleton.mp hmem]
  | two first second =>
      refine absurd hmem ?_
      simp only [List.mem_cons, List.not_mem_nil, or_false, not_or]
      exact ⟨hfirst (by omega), htail second⟩
  | three first second low high third =>
      refine absurd hmem ?_
      simp only [List.mem_cons, List.not_mem_nil, or_false, not_or]
      exact ⟨hfirst (by omega), htail second, htail third⟩
  | four first second low high third fourth =>
      refine absurd hmem ?_
      simp only [List.mem_cons, List.not_mem_nil, or_false, not_or]
      exact ⟨hfirst (by omega), htail second, htail third, htail fourth⟩

/-! ## A character begun -/

theorem isTail_iff {b : UInt8} : IsTail b ↔ 0x80 ≤ b ∧ b ≤ 0xbf := by
  simp only [IsTail, UInt8.le_iff_toNat_le, UInt8.reduceToNat]

theorem lead_of_one {a : UInt8} (h : a.toNat < 0x80) : lead a = .whole (Char.ofNat a.toNat) := by
  simp only [lead, UInt8.lt_iff_toNat_lt, UInt8.reduceToNat]
  rw [if_pos h]

theorem lead_of_two {a : UInt8} (h : 0xc2 ≤ a.toNat ∧ a.toNat < 0xe0) :
    lead a = .more ⟨[a], 1, 0x80, 0xbf, a.toNat - 0xc0⟩ := by
  simp only [lead, UInt8.lt_iff_toNat_lt, UInt8.reduceToNat]
  rw [if_neg (by omega), if_neg (by omega), if_pos (by omega)]

theorem lead_of_three {a : UInt8} (h : 0xe0 ≤ a.toNat ∧ a.toNat < 0xf0) :
    lead a = .more ⟨[a], 2, if a = 0xe0 then 0xa0 else 0x80, if a = 0xed then 0x9f else 0xbf,
      a.toNat - 0xe0⟩ := by
  simp only [lead, UInt8.lt_iff_toNat_lt, UInt8.reduceToNat]
  rw [if_neg (by omega), if_neg (by omega), if_neg (by omega), if_pos (by omega)]

theorem lead_of_four {a : UInt8} (h : 0xf0 ≤ a.toNat ∧ a.toNat < 0xf5) :
    lead a = .more ⟨[a], 3, if a = 0xf0 then 0x90 else 0x80, if a = 0xf4 then 0x8f else 0xbf,
      a.toNat - 0xf0⟩ := by
  simp only [lead, UInt8.lt_iff_toNat_lt, UInt8.reduceToNat]
  rw [if_neg (by omega), if_neg (by omega), if_neg (by omega), if_neg (by omega),
    if_pos (by omega)]

theorem lead_of_none {a : UInt8} (h : 0x80 ≤ a.toNat ∧ a.toNat < 0xc2 ∨ 0xf5 ≤ a.toNat) :
    lead a = .wrong := by
  simp only [lead, UInt8.lt_iff_toNat_lt, UInt8.reduceToNat]
  rw [if_neg (by omega)]
  by_cases hlow : a.toNat < 0xc2
  · rw [if_pos hlow]
  · rw [if_neg hlow, if_neg (by omega), if_neg (by omega), if_neg (by omega)]

/-- Every byte is a whole character, the first of two, three or four, or neither. -/
theorem lead_cases (a : UInt8) :
    a.toNat < 0x80 ∨ (0xc2 ≤ a.toNat ∧ a.toNat < 0xe0) ∨ (0xe0 ≤ a.toNat ∧ a.toNat < 0xf0)
      ∨ (0xf0 ≤ a.toNat ∧ a.toNat < 0xf5) ∨ 0x80 ≤ a.toNat ∧ a.toNat < 0xc2 ∨ 0xf5 ≤ a.toNat := by
  omega

/-- A byte that is the whole of a character is that of the character. -/
theorem encode_of_lead_whole {a : UInt8} {c : Char} (h : lead a = .whole c) :
    utf8EncodeChar c = [a] := by
  rcases lead_cases a with hone | htwo | hthree | hfour | hnone
  · rw [lead_of_one hone] at h
    cases h
    exact utf8EncodeChar_of_spelled (.one hone)
  · rw [lead_of_two htwo] at h; cases h
  · rw [lead_of_three hthree] at h; cases h
  · rw [lead_of_four hfour] at h; cases h
  · rw [lead_of_none hnone] at h; cases h

/-- The value of the bits after some more bytes, which carry six each. -/
def bitsAfter (bits : Nat) (more : List UInt8) : Nat :=
  more.foldl (fun bits b => bits * 64 + (b.toNat - 0x80)) bits

theorem bitsAfter_shifted (p : Pending) (b : UInt8) (more : List UInt8) :
    bitsAfter p.bits (b :: more) = bitsAfter (p.shifted b) more := by
  rw [bitsAfter, List.foldl_cons]
  rfl

/-- The bytes that complete a character begun: the next is one that may come, and
    behind it are as many as are owed besides. -/
structure Pending.Completes (p : Pending) (b : UInt8) (more : List UInt8) : Prop where
  next : p.low ≤ b ∧ b ≤ p.high
  size : p.owed = more.length + 1
  tails : ∀ c ∈ more, IsTail c

/-- A character that has been begun: something is owed, the next byte is not the
    first of a character, and whatever completes it spells the number of the
    bits. -/
structure Pending.Begun (p : Pending) : Prop where
  owes : 0 < p.owed
  tail : ∀ b, p.low ≤ b ∧ b ≤ p.high → IsTail b
  spells : ∀ b more, p.Completes b more →
    Spelled (p.seen.reverse ++ b :: more) (bitsAfter p.bits (b :: more))

/-- The bounds on a second byte, the lower one raised behind one first byte and
    the upper one lowered behind another. -/
theorem second_iff {a b lowest highest low high : UInt8} (hlow : 0x80 ≤ low) (hhigh : high ≤ 0xbf) :
    ((if a = lowest then low else 0x80) ≤ b ∧ b ≤ if a = highest then high else 0xbf)
      ↔ IsTail b ∧ (a.toNat = lowest.toNat → low.toNat ≤ b.toNat)
        ∧ (a.toNat = highest.toNat → b.toNat ≤ high.toNat) := by
  simp only [isTail_iff, UInt8.toNat_inj, ← UInt8.le_iff_toNat_le]
  split <;> split <;> grind

theorem second_of_three_iff {a b : UInt8} :
    ((if a = 0xe0 then 0xa0 else 0x80) ≤ b ∧ b ≤ if a = 0xed then 0x9f else 0xbf)
      ↔ IsTail b ∧ (a.toNat = 0xe0 → 0xa0 ≤ b.toNat) ∧ (a.toNat = 0xed → b.toNat ≤ 0x9f) :=
  second_iff (by decide) (by decide)

theorem second_of_four_iff {a b : UInt8} :
    ((if a = 0xf0 then 0x90 else 0x80) ≤ b ∧ b ≤ if a = 0xf4 then 0x8f else 0xbf)
      ↔ IsTail b ∧ (a.toNat = 0xf0 → 0x90 ≤ b.toNat) ∧ (a.toNat = 0xf4 → b.toNat ≤ 0x8f) :=
  second_iff (by decide) (by decide)

/-- What a first byte begins. -/
theorem begun_of_lead {a : UInt8} {p : Pending} (h : lead a = .more p) :
    p.Begun ∧ p.seen = [a] := by
  rcases lead_cases a with hone | htwo | hthree | hfour | hnone
  · rw [lead_of_one hone] at h; cases h
  · rw [lead_of_two htwo] at h
    cases h
    refine ⟨⟨Nat.succ_pos _, fun b hb => isTail_iff.mpr hb, ?_⟩, rfl⟩
    rintro b more ⟨hnext, hsize, -⟩
    obtain rfl : more = [] := List.length_eq_zero_iff.mp (by simpa using hsize.symm)
    exact .two htwo (isTail_iff.mpr hnext)
  · rw [lead_of_three hthree] at h
    cases h
    refine ⟨⟨Nat.succ_pos _, fun b hb => (second_of_three_iff.mp hb).1, ?_⟩, rfl⟩
    rintro b more ⟨hnext, hsize, htails⟩
    obtain ⟨c, rfl⟩ : ∃ c, more = [c] := List.length_eq_one_iff.mp (by simpa using hsize.symm)
    obtain ⟨hsecond, hlow, hhigh⟩ := second_of_three_iff.mp hnext
    exact .three hthree hsecond hlow hhigh (htails c (by simp))
  · rw [lead_of_four hfour] at h
    cases h
    refine ⟨⟨Nat.succ_pos _, fun b hb => (second_of_four_iff.mp hb).1, ?_⟩, rfl⟩
    rintro b more ⟨hnext, hsize, htails⟩
    obtain ⟨c, d, rfl⟩ : ∃ c d, more = [c, d] := List.length_eq_two.mp (by simpa using hsize.symm)
    obtain ⟨hsecond, hlow, hhigh⟩ := second_of_four_iff.mp hnext
    exact .four hfour hsecond hlow hhigh (htails c (by simp)) (htails d (by simp))
  · rw [lead_of_none hnone] at h; cases h

/-- The character begun, with one more byte. -/
def Pending.extended (p : Pending) (b : UInt8) : Pending :=
  ⟨b :: p.seen, p.owed - 1, 0x80, 0xbf, p.shifted b⟩

/-- With one byte more it is still begun, if more than one was owed. -/
theorem Pending.Begun.extended {p : Pending} (h : p.Begun) {b : UInt8}
    (hnext : p.low ≤ b ∧ b ≤ p.high) (hmore : ¬ p.owed ≤ 1) : (p.extended b).Begun := by
  have howed : (p.extended b).owed = p.owed - 1 := rfl
  refine ⟨by omega, fun c hc => isTail_iff.mpr hc, ?_⟩
  rintro c more ⟨hc, hsize, htails⟩
  have hcompletes : p.Completes b (c :: more) :=
    ⟨hnext, by rw [List.length_cons]; omega,
      List.forall_mem_cons.mpr ⟨isTail_iff.mpr hc, htails⟩⟩
  have hseen : (p.extended b).seen.reverse ++ c :: more = p.seen.reverse ++ b :: c :: more := by
    simp [Pending.extended]
  rw [hseen]
  have hspells := h.spells b (c :: more) hcompletes
  rw [bitsAfter_shifted] at hspells
  exact hspells

/-- The last byte that is owed ends the character. -/
theorem Pending.Begun.encode {p : Pending} (h : p.Begun) {b : UInt8}
    (hnext : p.low ≤ b ∧ b ≤ p.high) (hlast : p.owed ≤ 1) :
    utf8EncodeChar (Char.ofNat (p.shifted b)) = p.seen.reverse ++ [b] := by
  have howes := h.owes
  have hcompletes : p.Completes b [] :=
    ⟨hnext, by rw [List.length_nil]; omega, fun _ hmem => nomatch hmem⟩
  exact utf8EncodeChar_of_spelled (h.spells b [] hcompletes)

/-! ## The parts -/

/-- The bytes of a part. -/
def Fragment.bytes : Fragment → List UInt8
  | .char c => utf8EncodeChar c
  | .broken bytes => bytes

/-- The bytes of the parts are those that were read, and before them those of the
    character begun. -/
theorem flatMap_bytes_fragmentsFrom (bytes : List UInt8) :
    (fragmentsFrom none bytes).flatMap Fragment.bytes = bytes
      ∧ ∀ p : Pending, p.Begun →
        (fragmentsFrom (some p) bytes).flatMap Fragment.bytes = p.seen.reverse ++ bytes := by
  induction bytes with
  | nil => exact ⟨rfl, fun p _ => by simp [fragmentsFrom, Fragment.bytes]⟩
  | cons b rest ih =>
      obtain ⟨ihnone, ihsome⟩ := ih
      have hnone : (fragmentsFrom none (b :: rest)).flatMap Fragment.bytes = b :: rest := by
        simp only [fragmentsFrom]
        cases hlead : lead b with
        | whole c =>
            simp only [List.flatMap_cons, Fragment.bytes]
            rw [ihnone, encode_of_lead_whole hlead, List.singleton_append]
        | more p =>
            obtain ⟨hbegun, hseen⟩ := begun_of_lead hlead
            simp only
            rw [ihsome p hbegun, hseen, List.reverse_singleton, List.singleton_append]
        | wrong =>
            simp only [List.flatMap_cons, Fragment.bytes]
            rw [ihnone, List.singleton_append]
      refine ⟨hnone, fun p hp => ?_⟩
      by_cases hnext : p.low ≤ b ∧ b ≤ p.high
      · rw [fragmentsFrom, if_pos hnext]
        by_cases hlast : p.owed ≤ 1
        · rw [if_pos hlast, List.flatMap_cons, Fragment.bytes, ihnone, hp.encode hnext hlast,
            List.append_assoc, List.singleton_append]
        · rw [if_neg hlast]
          have hseen : (p.extended b).seen.reverse ++ rest = p.seen.reverse ++ b :: rest := by
            simp [Pending.extended]
          rw [← hseen]
          exact ihsome (p.extended b) (hp.extended hnext hlast)
      · rw [fragmentsFrom_some_of_refused hnext, List.flatMap_cons, hnone, Fragment.bytes]

/-- **NOTHING LOST**: the bytes of the parts are the bytes that were read. -/
theorem flatMap_bytes_fragments (bytes : List UInt8) :
    (fragments bytes).flatMap Fragment.bytes = bytes :=
  (flatMap_bytes_fragmentsFrom bytes).1

/-! ## Whole characters -/

/-- Bytes that spell a character are read as the character. -/
theorem fragmentsFrom_none_of_spelled {bytes : List UInt8} {n : Nat} (h : Spelled bytes n)
    (rest : List UInt8) :
    fragmentsFrom none (bytes ++ rest) = .char (Char.ofNat n) :: fragmentsFrom none rest := by
  cases h with
  | one first => simp only [List.cons_append, List.nil_append, fragmentsFrom, lead_of_one first]
  | two first second =>
      simp only [List.cons_append, List.nil_append, fragmentsFrom, lead_of_two first]
      rw [if_pos (isTail_iff.mp second), if_pos (by decide)]
      rfl
  | three first second low high third =>
      have hnext := second_of_three_iff.mpr ⟨second, low, high⟩
      simp only [List.cons_append, List.nil_append, fragmentsFrom, lead_of_three first]
      rw [if_pos hnext, if_neg (by decide), if_pos (isTail_iff.mp third), if_pos (by decide)]
      rfl
  | four first second low high third fourth =>
      have hnext := second_of_four_iff.mpr ⟨second, low, high⟩
      simp only [List.cons_append, List.nil_append, fragmentsFrom, lead_of_four first]
      rw [if_pos hnext, if_neg (by decide), if_pos (isTail_iff.mp third), if_neg (by decide),
        if_pos (isTail_iff.mp fourth), if_pos (by decide)]
      rfl

/-- The first of the bytes that spell a character is not one that stands behind
    another. -/
theorem Spelled.head_not_tail {bytes : List UInt8} {n : Nat} (h : Spelled bytes n) :
    ∃ a more, bytes = a :: more ∧ ¬ IsTail a := by
  cases h with
  | one first => exact ⟨_, _, rfl, fun htail => by have := htail.1; omega⟩
  | two first => exact ⟨_, _, rfl, fun htail => by have := htail.2; omega⟩
  | three first => exact ⟨_, _, rfl, fun htail => by have := htail.2; omega⟩
  | four first => exact ⟨_, _, rfl, fun htail => by have := htail.2; omega⟩

theorem fragmentsFrom_none_char (c : Char) (rest : List UInt8) :
    fragmentsFrom none (utf8EncodeChar c ++ rest) = .char c :: fragmentsFrom none rest := by
  rw [fragmentsFrom_none_of_spelled (spelled_utf8EncodeChar c), Char.ofNat_toNat]

/-- A character begun is broken off by another one. -/
theorem fragmentsFrom_some_char {p : Pending} (h : p.Begun) (c : Char) (rest : List UInt8) :
    fragmentsFrom (some p) (utf8EncodeChar c ++ rest)
      = .broken p.seen.reverse :: .char c :: fragmentsFrom none rest := by
  obtain ⟨a, more, hbytes, htail⟩ := (spelled_utf8EncodeChar c).head_not_tail
  rw [← fragmentsFrom_none_char, hbytes, List.cons_append,
    fragmentsFrom_some_of_refused fun hnext => htail (h.tail a hnext)]

/-- Whether or not a character has been begun, what follows a whole one is read
    afresh. -/
theorem fragmentsFrom_append_char (bytes : List UInt8) (c : Char) (rest : List UInt8) :
    fragmentsFrom none (bytes ++ (utf8EncodeChar c ++ rest))
        = fragmentsFrom none bytes ++ .char c :: fragmentsFrom none rest
      ∧ ∀ p : Pending, p.Begun →
        fragmentsFrom (some p) (bytes ++ (utf8EncodeChar c ++ rest))
          = fragmentsFrom (some p) bytes ++ .char c :: fragmentsFrom none rest := by
  induction bytes with
  | nil => exact ⟨fragmentsFrom_none_char c rest, fun p hp => fragmentsFrom_some_char hp c rest⟩
  | cons b bytes ih =>
      obtain ⟨ihnone, ihsome⟩ := ih
      have hnone : fragmentsFrom none (b :: bytes ++ (utf8EncodeChar c ++ rest))
          = fragmentsFrom none (b :: bytes) ++ .char c :: fragmentsFrom none rest := by
        rw [List.cons_append]
        simp only [fragmentsFrom]
        cases hlead : lead b with
        | whole d => simp only [ihnone, List.cons_append]
        | more p => exact ihsome p (begun_of_lead hlead).1
        | wrong => simp only [ihnone, List.cons_append]
      refine ⟨hnone, fun p hp => ?_⟩
      by_cases hnext : p.low ≤ b ∧ b ≤ p.high
      · rw [List.cons_append, fragmentsFrom, if_pos hnext, fragmentsFrom, if_pos hnext]
        by_cases hlast : p.owed ≤ 1
        · rw [if_pos hlast, if_pos hlast, ihnone, List.cons_append]
        · rw [if_neg hlast, if_neg hlast]
          exact ihsome _ (hp.extended hnext hlast)
      · -- refused here and there, the byte is read as if nothing had been begun
        have hrefused := fragmentsFrom_some_of_refused hnext
        calc fragmentsFrom (some p) (b :: bytes ++ (utf8EncodeChar c ++ rest))
            = .broken p.seen.reverse
                :: fragmentsFrom none (b :: bytes ++ (utf8EncodeChar c ++ rest)) := hrefused _
          _ = .broken p.seen.reverse :: fragmentsFrom none (b :: bytes)
                ++ .char c :: fragmentsFrom none rest := by rw [hnone, List.cons_append]
          _ = fragmentsFrom (some p) (b :: bytes) ++ .char c :: fragmentsFrom none rest := by
                rw [hrefused]

/-- **A WHOLE CHARACTER** is a part of its own, whatever the bytes before it and
    behind it, and these are read as if they stood alone. -/
theorem fragments_append_char (bytes : List UInt8) (c : Char) (rest : List UInt8) :
    fragments (bytes ++ (utf8EncodeChar c ++ rest))
      = fragments bytes ++ .char c :: fragments rest :=
  (fragmentsFrom_append_char bytes c rest).1

@[simp] theorem encode_nil : encode [] = [] := rfl

theorem encode_cons (c : Char) (text : List Char) :
    encode (c :: text) = utf8EncodeChar c ++ encode text := rfl

theorem encode_append (text more : List Char) :
    encode (text ++ more) = encode text ++ encode more :=
  List.flatMap_append

/-- Text behind any bytes is read as the text. -/
theorem fragments_append_encode (bytes : List UInt8) (text : List Char) :
    fragments (bytes ++ encode text) = fragments bytes ++ text.map .char := by
  induction text generalizing bytes with
  | nil => simp
  | cons c text ih =>
      have htext : fragments (encode text) = text.map .char := ih []
      rw [encode_cons, fragments_append_char, htext, List.map_cons]

theorem decode_append_encode (bytes : List UInt8) (text : List Char) :
    decode (bytes ++ encode text) = decode bytes ++ text := by
  rw [decode, fragments_append_encode, List.map_append, List.map_map]
  exact congrArg (decode bytes ++ ·) (List.map_id text)

theorem fragments_encode (text : List Char) : fragments (encode text) = text.map .char :=
  fragments_append_encode [] text

theorem decode_encode (text : List Char) : decode (encode text) = text :=
  decode_append_encode [] text

/-- Parts that are whole characters come from the bytes of these. -/
theorem flatMap_bytes_map_char (text : List Char) :
    (text.map Fragment.char).flatMap Fragment.bytes = encode text := by
  rw [List.flatMap_map]
  rfl

theorem fragments_eq_map_char_iff {bytes : List UInt8} {text : List Char} :
    fragments bytes = text.map .char ↔ bytes = encode text := by
  constructor
  · intro h
    rw [← flatMap_bytes_fragments bytes, h, flatMap_bytes_map_char]
  · rintro rfl
    exact fragments_encode text

/-! ## Text -/

/-- Bytes that are those of a text. -/
def IsText (bytes : List UInt8) : Prop :=
  ∃ text, bytes = encode text

theorem mapM_whole?_eq_some_iff {parts : List Fragment} {text : List Char} :
    parts.mapM Fragment.whole? = some text ↔ parts = text.map .char := by
  induction parts generalizing text with
  | nil => cases text <;> simp
  | cons part parts ih =>
      cases part with
      | char c => cases text <;> simp [Fragment.whole?, Option.bind_eq_some_iff, ih, and_comm]
      | broken bytes => cases text <;> simp [Fragment.whole?]

/-- **TEXT**: what is read without a broken part is the text whose bytes were
    read. -/
theorem decode?_eq_some_iff {bytes : List UInt8} {text : List Char} :
    decode? bytes = some text ↔ bytes = encode text := by
  rw [decode?, mapM_whole?_eq_some_iff, fragments_eq_map_char_iff]

theorem isSome_decode?_iff {bytes : List UInt8} :
    (decode? bytes).isSome = true ↔ IsText bytes := by
  simp only [Option.isSome_iff_exists, decode?_eq_some_iff, IsText]

instance (bytes : List UInt8) : Decidable (IsText bytes) :=
  decidable_of_iff _ isSome_decode?_iff

theorem IsText.append {a b : List UInt8} (ha : IsText a) (hb : IsText b) : IsText (a ++ b) := by
  obtain ⟨text, rfl⟩ := ha
  obtain ⟨more, rfl⟩ := hb
  exact ⟨text ++ more, (encode_append text more).symm⟩

/-! ## Broken bytes among text -/

/-- The character that is shown for broken bytes. -/
def replacement : Char :=
  Char.ofNat 0xfffd

/-- Parts without a broken one among them, told by what is shown. -/
theorem eq_map_char_of_shown {parts : List Fragment} {text : List Char}
    (h : parts.map Fragment.shown = text) (hwhole : replacement ∉ text) :
    parts = text.map .char := by
  induction parts generalizing text with
  | nil => rw [← h]; rfl
  | cons part parts ih =>
      subst h
      rw [List.map_cons, List.mem_cons, not_or] at hwhole
      cases part with
      | char c => rw [List.map_cons, List.map_cons, ← ih rfl hwhole.2]; rfl
      | broken bytes => exact absurd rfl hwhole.1

/-- Bytes that are shown without a replacement character are text. -/
theorem isText_of_decode {bytes : List UInt8} (h : replacement ∉ decode bytes) :
    IsText bytes :=
  ⟨decode bytes, fragments_eq_map_char_iff.mp (eq_map_char_of_shown rfl h)⟩

/-- **WHERE TEXT IS SHOWN** that holds no replacement character, there is the text;
    the broken bytes are before it, or between it and more such text. -/
theorem parts_split {parts : List Fragment} {front text middle tail : List Char}
    (h : parts.map Fragment.shown = front ++ (text ++ (middle ++ tail)))
    (htext : replacement ∉ text) (htail : replacement ∉ tail) :
    ∃ before between : List Fragment,
      parts = before ++ (text.map .char ++ (between ++ tail.map .char))
        ∧ before.map Fragment.shown = front := by
  obtain ⟨before, _, rfl, hfront, h⟩ := List.map_eq_append_iff.mp h
  obtain ⟨shown, _, rfl, hshown, h⟩ := List.map_eq_append_iff.mp h
  obtain ⟨between, last, rfl, -, hlast⟩ := List.map_eq_append_iff.mp h
  refine ⟨before, between, ?_, hfront⟩
  rw [eq_map_char_of_shown hshown htext, eq_map_char_of_shown hlast htail]

/-- The same of the bytes that are shown. -/
theorem bytes_split {bytes : List UInt8} {front text middle tail : List Char}
    (h : decode bytes = front ++ (text ++ (middle ++ tail)))
    (htext : replacement ∉ text) (htail : replacement ∉ tail) :
    ∃ before between : List UInt8,
      bytes = before ++ (encode text ++ (between ++ encode tail))
        ∧ (front = [] → before = []) := by
  obtain ⟨before, between, hparts, hfront⟩ := parts_split h htext htail
  refine ⟨before.flatMap Fragment.bytes, between.flatMap Fragment.bytes, ?_, ?_⟩
  · conv_lhs => rw [← flatMap_bytes_fragments bytes, hparts]
    simp only [List.flatMap_append, flatMap_bytes_map_char]
  · intro hnil
    have hbefore : before = [] := List.map_eq_nil_iff.mp (hfront.trans hnil)
    rw [hbefore]
    rfl

end RunTimings.Text.Utf8
