import BinlogCdc.Core.Digits

/-!
# Numerals without leading zeros

A numeration fixes the digits of a base. A numeral without leading zeros is determined by
its value, and its length is bounded by a number of places exactly when its value is below
the power of the base.
-/

namespace BinlogCdc.Core

/-- The digits of a positional system. -/
structure Numeration (α : Type) where
  /-- The base. -/
  base : Nat
  /-- The value of a digit. -/
  digit : α → Nat
  /-- The digit of value zero. -/
  zero : α
  /-- The digits. -/
  IsDigit : α → Prop
  one_lt_base : 1 < base
  digit_lt : ∀ d, IsDigit d → digit d < base
  digit_inj : ∀ d e, IsDigit d → IsDigit e → digit d = digit e → d = e
  isDigit_zero : IsDigit zero
  digit_zero : digit zero = 0

namespace Numeration

variable {α : Type} (system : Numeration α)

/-- The value of a numeral. -/
abbrev value (numeral : List α) : Nat := positionalValue system.base system.digit numeral

/-- All members of a list are digits. -/
def Digits (numeral : List α) : Prop := ∀ d ∈ numeral, system.IsDigit d

/-- The numeral does not begin with a zero. -/
def Trimmed (numeral : List α) : Prop := numeral.head? ≠ some system.zero

variable {system} {numeral left right : List α}

theorem base_pos : 0 < system.base := Nat.lt_trans Nat.zero_lt_one system.one_lt_base

theorem Digits.of_cons {d : α} (h : system.Digits (d :: numeral)) : system.Digits numeral :=
  fun e he => h e (List.mem_cons_of_mem d he)

theorem Digits.append (hleft : system.Digits left) (hright : system.Digits right) :
    system.Digits (left ++ right) := by
  intro d hd
  rcases List.mem_append.mp hd with hd | hd
  · exact hleft d hd
  · exact hright d hd

theorem Digits.zeros (count : Nat) : system.Digits (List.replicate count system.zero) := by
  intro d hd
  rw [List.eq_of_mem_replicate hd]
  exact system.isDigit_zero

theorem value_lt (h : system.Digits numeral) : system.value numeral < system.base ^ numeral.length :=
  positionalValue_lt fun d hd => system.digit_lt d (h d hd)

/-- Trailing zeros multiply the value by a power of the base. -/
theorem value_append_zeros (numeral : List α) (count : Nat) :
    system.value (numeral ++ List.replicate count system.zero) =
      system.value numeral * system.base ^ count := by
  have hzeros := positionalValue_replicate_append system.base system.digit system.digit_zero count []
  rw [List.append_nil] at hzeros
  rw [value, positionalValue_append, hzeros, List.length_replicate]
  rfl

/-- Numerals of one length and one value are equal. -/
theorem eq_of_length_eq (hleft : system.Digits left) (hright : system.Digits right)
    (hlength : left.length = right.length) (h : system.value left = system.value right) :
    left = right := by
  induction left generalizing right with
  | nil => exact (List.length_eq_zero_iff.mp hlength.symm).symm
  | cons d left ih =>
    cases right with
    | nil => cases hlength
    | cons e right =>
      have hlength' : left.length = right.length := Nat.succ.inj hlength
      have hl := value_lt hleft.of_cons
      have hr := value_lt hright.of_cons
      rw [← hlength'] at hr
      rw [value, value, positionalValue_cons, positionalValue_cons, ← hlength'] at h
      have hpos : 0 < system.base ^ left.length := Nat.pow_pos base_pos
      -- The leading digits are the quotients by the weight of the rest.
      have hdigit : system.digit d = system.digit e := by
        have hquotient := congrArg (· / system.base ^ left.length) h
        simpa only [Nat.mul_comm _ (system.base ^ left.length), Nat.mul_add_div hpos,
          Nat.div_eq_of_lt hl, Nat.div_eq_of_lt hr, Nat.add_zero] using hquotient
      have htail : system.value left = system.value right := by
        rw [hdigit] at h
        exact Nat.add_left_cancel h
      rw [system.digit_inj d e (hleft d (by simp)) (hright e (by simp)) hdigit,
        ih hleft.of_cons hright.of_cons hlength' htail]

/-- A numeral without leading zeros is at least the weight of its first place. -/
theorem pow_le_value {d : α} (h : system.Digits (d :: numeral))
    (htrimmed : system.Trimmed (d :: numeral)) :
    system.base ^ numeral.length ≤ system.value (d :: numeral) := by
  have hd : system.digit d ≠ 0 := by
    intro hzero
    apply htrimmed
    rw [List.head?_cons, system.digit_inj d system.zero (h d (by simp)) system.isDigit_zero
      (hzero.trans system.digit_zero.symm)]
  rw [value, positionalValue_cons]
  calc system.base ^ numeral.length = 1 * system.base ^ numeral.length := (Nat.one_mul _).symm
    _ ≤ system.digit d * system.base ^ numeral.length :=
        Nat.mul_le_mul_right _ (Nat.pos_of_ne_zero hd)
    _ ≤ _ := Nat.le_add_right _ _

/-- Without leading zeros the number of places bounds the value and the other way round. -/
theorem length_le_iff (h : system.Digits numeral) (htrimmed : system.Trimmed numeral)
    (count : Nat) : numeral.length ≤ count ↔ system.value numeral < system.base ^ count := by
  constructor
  · intro hle
    exact Nat.lt_of_lt_of_le (value_lt h) (Nat.pow_le_pow_right base_pos hle)
  · intro hlt
    cases numeral with
    | nil => exact Nat.zero_le count
    | cons d numeral =>
      have hpow := Nat.lt_of_le_of_lt (pow_le_value h htrimmed) hlt
      exact (Nat.pow_lt_pow_iff_right system.one_lt_base).mp hpow

/-- A numeral without leading zeros is determined by its value. -/
theorem eq_of_value_eq (hleft : system.Digits left) (hright : system.Digits right)
    (htrimmed : system.Trimmed left) (htrimmed' : system.Trimmed right)
    (h : system.value left = system.value right) : left = right := by
  apply eq_of_length_eq hleft hright ?_ h
  apply Nat.le_antisymm
  · rw [length_le_iff hleft htrimmed, h]
    exact value_lt hright
  · rw [length_le_iff hright htrimmed', ← h]
    exact value_lt hleft

/-- The last digit decides divisibility by the base. -/
theorem eq_zero_of_base_dvd {d : α} (hd : system.IsDigit d)
    (h : system.base ∣ system.value (numeral ++ [d])) : d = system.zero := by
  rw [value, positionalValue_append] at h
  have hone : positionalValue system.base system.digit [d] = system.digit d := by
    simp [positionalValue]
  rw [hone, List.length_singleton, Nat.pow_one] at h
  have hdvd : system.base ∣ system.digit d := (Nat.dvd_add_right (Dvd.intro_left _ rfl)).mp h
  have hzero := Nat.eq_zero_of_dvd_of_lt hdvd (system.digit_lt d hd)
  exact system.digit_inj d system.zero hd system.isDigit_zero (hzero.trans system.digit_zero.symm)

end Numeration

end BinlogCdc.Core
