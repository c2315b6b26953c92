import Mathlib.Data.List.Forall2
import Mathlib.Data.Nat.Digits.Defs
import TraceProfile.Number.Numeral

/-!
# What the readers of numerals accept

A numeral is said here by its digits: each character is that of a digit of the base, letters in
either case, and the digits have the value (`Number.Numeral`). The readers accept exactly that, with
a plus sign in front where one is allowed (`readUnsigned?_eq_some_iff`). They have no bound: however
long a numeral is, its value is read.

What is written for a number is one of its numerals (`numeral_toDigits`), so it is read back as that
number.
-/

namespace TraceProfile.Number

/-- The character stands for a digit of the base; letters count in either case. -/
def IsDigit (base : Nat) (c : Char) (digit : Nat) : Prop :=
  digit < base ∧ (c = digit.digitChar ∨ c = digit.digitChar.toUpper)

/-- The text is one or more digits, the most significant one first, that have the value. -/
def Numeral (base : Nat) (text : List Char) (value : Nat) : Prop :=
  ∃ digits : List Nat, digits ≠ [] ∧ List.Forall₂ (IsDigit base) text digits ∧
    Nat.ofDigits base digits.reverse = value

/-- The text is a numeral of the value, maybe after a plus sign. -/
inductive Unsigned (base : Nat) : List Char → Nat → Prop where
  /-- There is no sign. -/
  | plain {text : List Char} {value : Nat} (h : Numeral base text value) : Unsigned base text value
  /-- There is a plus sign. -/
  | plus {text : List Char} {value : Nat} (h : Numeral base text value) :
      Unsigned base ('+' :: text) value

variable {base : Nat}

/-! ## Digits -/

theorem le_iff_toNat_le {c c' : Char} : c ≤ c' ↔ c.toNat ≤ c'.toNat := by
  rw [Char.le_def, UInt32.le_iff_toNat_le]
  rfl

/-- From ten on the digits are letters, in the order of the alphabet. -/
theorem toNat_digitChar_add_ten : ∀ i < 6, (i + 10).digitChar.toNat = 'a'.toNat + i ∧
    (i + 10).digitChar.toUpper.toNat = 'A'.toNat + i := by
  decide

theorem digitValue?_digitChar : ∀ digit < 16, digitValue? 16 digit.digitChar = some digit ∧
    digitValue? 16 digit.digitChar.toUpper = some digit := by
  decide

/-- The digits of a smaller base are the digits of base 16 below it. -/
theorem digitValue?_eq_some_iff_lt (hbase : base ≤ 16) {c : Char} {digit : Nat} :
    digitValue? base c = some digit ↔ digit < base ∧ digitValue? 16 c = some digit := by
  simp only [digitValue?]
  grind

theorem isDigit_of_digitValue? {c : Char} {digit : Nat} (h : digitValue? 16 c = some digit) :
    IsDigit 16 c digit := by
  simp only [digitValue?, Option.ite_none_right_eq_some, Option.some.injEq, le_iff_toNat_le,
    Char.reduceToNat] at h
  obtain ⟨hlt, hdigit⟩ := h
  rw [hdigit] at hlt
  refine ⟨hlt, ?_⟩
  split_ifs at hdigit with hdecimal hlower hupper
  · refine .inl (Char.toNat_inj.1 ?_)
    rw [Nat.toNat_digitChar_of_lt_ten (by omega)]
    omega
  · obtain ⟨i, rfl⟩ := Nat.exists_eq_add_of_le' (show 10 ≤ digit by omega)
    refine .inl (Char.toNat_inj.1 ?_)
    rw [(toNat_digitChar_add_ten i (by omega)).1]
    simp only [Char.reduceToNat]
    omega
  · obtain ⟨i, rfl⟩ := Nat.exists_eq_add_of_le' (show 10 ≤ digit by omega)
    refine .inr (Char.toNat_inj.1 ?_)
    rw [(toNat_digitChar_add_ten i (by omega)).2]
    simp only [Char.reduceToNat]
    omega
  · omega

theorem digitValue?_eq_some_iff (hbase : base ≤ 16) {c : Char} {digit : Nat} :
    digitValue? base c = some digit ↔ IsDigit base c digit := by
  rw [digitValue?_eq_some_iff_lt hbase]
  constructor
  · rintro ⟨hlt, h⟩
    exact ⟨hlt, (isDigit_of_digitValue? h).2⟩
  · rintro ⟨hlt, hc⟩
    obtain ⟨hlower, hupper⟩ := digitValue?_digitChar digit (Nat.lt_of_lt_of_le hlt hbase)
    rcases hc with rfl | rfl
    · exact ⟨hlt, hlower⟩
    · exact ⟨hlt, hupper⟩

/-! ## Numerals -/

/-- The digits that are left, read onto the value of those before them. -/
theorem extendNumeral?_eq_some_iff (hbase : base ≤ 16) {text : List Char} {before value : Nat} :
    extendNumeral? base before text = some value ↔
      ∃ digits, List.Forall₂ (IsDigit base) text digits ∧
        digits.foldl (fun n digit => n * base + digit) before = value := by
  induction text generalizing before with
  | nil => simp [extendNumeral?]
  | cons c text ih =>
    rw [extendNumeral?]
    constructor
    · intro h
      split at h
      · next digit hdigit =>
        obtain ⟨digits, htext, hvalue⟩ := ih.1 h
        exact ⟨digit :: digits, .cons ((digitValue?_eq_some_iff hbase).1 hdigit) htext, hvalue⟩
      · exact absurd h (by simp)
    · rintro ⟨_, htext, hvalue⟩
      cases htext with
      | cons hdigit htext =>
        rw [(digitValue?_eq_some_iff hbase).2 hdigit]
        exact ih.2 ⟨_, htext, hvalue⟩

/-- The value of digits of which the most significant one comes first. -/
theorem ofDigits_reverse (base : Nat) (digits : List Nat) :
    Nat.ofDigits base digits.reverse = digits.foldl (fun n digit => n * base + digit) 0 := by
  rw [Nat.ofDigits_eq_foldr, List.foldr_reverse]
  congr 1
  funext n digit
  rw [Nat.cast_id, Nat.add_comm, Nat.mul_comm]

theorem readNumeral?_eq_some_iff (hbase : base ≤ 16) {text : List Char} {value : Nat} :
    readNumeral? base text = some value ↔ Numeral base text value := by
  rw [Numeral]
  simp only [ofDigits_reverse]
  cases text with
  | nil => simp [readNumeral?]
  | cons c text =>
    rw [readNumeral?, List.isEmpty_cons, if_neg Bool.false_ne_true,
      extendNumeral?_eq_some_iff hbase]
    refine exists_congr fun digits => ⟨?_, And.right⟩
    rintro ⟨htext, hvalue⟩
    refine ⟨?_, htext, hvalue⟩
    rintro rfl
    cases htext

/-- A numeral does not begin with a sign. -/
theorem not_numeral_plus (hbase : base ≤ 16) {text : List Char} {value : Nat} :
    ¬Numeral base ('+' :: text) value := by
  rintro ⟨_, -, hdigits, -⟩
  cases hdigits with
  | cons hplus _ =>
    have hdigit := (digitValue?_eq_some_iff hbase).2 hplus
    have hnone : digitValue? 16 '+' = none := rfl
    exact absurd ((digitValue?_eq_some_iff_lt hbase).1 hdigit).2 (by simp [hnone])

theorem readUnsigned?_eq_some_iff (hbase : base ≤ 16) {text : List Char} {value : Nat} :
    readUnsigned? base text = some value ↔ Unsigned base text value := by
  unfold readUnsigned?
  split
  · next rest =>
    rw [readNumeral?_eq_some_iff hbase]
    constructor
    · exact .plus
    · intro h
      cases h with
      | plain h => exact absurd h (not_numeral_plus hbase)
      | plus h => exact h
  · next hplus =>
    rw [readNumeral?_eq_some_iff hbase]
    constructor
    · exact .plain
    · intro h
      cases h with
      | plain h => exact h
      | plus h => exact absurd rfl (hplus _)

/-! ## Written numerals -/

/-- One more digit at the end. -/
theorem Numeral.concat {text : List Char} {value digit : Nat} {c : Char}
    (h : Numeral base text value) (hc : IsDigit base c digit) :
    Numeral base (text ++ [c]) (base * value + digit) := by
  obtain ⟨digits, -, htext, rfl⟩ := h
  refine ⟨digits ++ [digit], by simp, ?_, ?_⟩
  · exact List.rel_append htext (.cons hc .nil)
  · rw [List.reverse_concat, Nat.ofDigits_cons, Nat.add_comm]

/-- What is written for a number is a numeral of it. -/
theorem numeral_toDigits (hbase : 1 < base) (n : Nat) : Numeral base (Nat.toDigits base n) n := by
  induction n using Nat.strongRecOn with
  | ind n ih =>
    rw [Nat.toDigits_eq_if hbase]
    split
    · next hlt => exact ⟨[n], by simp, .cons ⟨hlt, .inl rfl⟩ .nil, by simp⟩
    · next hle =>
      have hpos : 0 < n := by omega
      have hdigit : IsDigit base (n % base).digitChar (n % base) :=
        ⟨Nat.mod_lt n (by omega), .inl rfl⟩
      have hconcat := (ih (n / base) (Nat.div_lt_self hpos hbase)).concat hdigit
      rwa [Nat.div_add_mod] at hconcat

end TraceProfile.Number
