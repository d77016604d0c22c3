import Mathlib

/-!
# Positional numerals in lexicographic order

Numerals are read most significant digit first. Numerals of one length are ordered
as their values are. A shorter numeral precedes a longer one exactly when its value
is at most the value of the longer one's leading digits, which is a quotient by a
power of the base.
-/

namespace BinlogCdc.Core

section Positional

variable {α : Type} (base : Nat) (digit : α → Nat)

/-- The value of a numeral, most significant digit first. -/
def positionalValue (numeral : List α) : Nat :=
  numeral.foldl (fun value d => base * value + digit d) 0

private theorem foldl_positional (numeral : List α) (value : Nat) :
    numeral.foldl (fun value d => base * value + digit d) value =
      value * base ^ numeral.length + positionalValue base digit numeral := by
  induction numeral generalizing value with
  | nil => simp [positionalValue]
  | cons d numeral ih =>
    rw [positionalValue, List.foldl_cons, List.foldl_cons, ih (base * value + digit d),
      ih (base * 0 + digit d), List.length_cons]
    ring

/-- A leading digit weighs the power of the base given by the digits after it. -/
theorem positionalValue_cons (d : α) (numeral : List α) :
    positionalValue base digit (d :: numeral) =
      digit d * base ^ numeral.length + positionalValue base digit numeral := by
  rw [positionalValue, List.foldl_cons, foldl_positional]
  simp

/-- Appending digits shifts the value by their number of places. -/
theorem positionalValue_append (numeral more : List α) :
    positionalValue base digit (numeral ++ more) =
      positionalValue base digit numeral * base ^ more.length +
        positionalValue base digit more := by
  rw [positionalValue, List.foldl_append, foldl_positional]
  rfl

/-- Leading zeros do not change the value. -/
theorem positionalValue_replicate_append {zero : α} (hzero : digit zero = 0) (count : Nat)
    (numeral : List α) :
    positionalValue base digit (List.replicate count zero ++ numeral) =
      positionalValue base digit numeral := by
  induction count with
  | zero => rfl
  | succ count ih =>
    rw [List.replicate_succ, List.cons_append, positionalValue_cons, hzero, ih]
    simp

variable {base digit}

/-- A numeral of proper digits stays below the power of the base given by its length. -/
theorem positionalValue_lt {numeral : List α} (hdigits : ∀ d ∈ numeral, digit d < base) :
    positionalValue base digit numeral < base ^ numeral.length := by
  induction numeral with
  | nil => simp [positionalValue]
  | cons d numeral ih =>
    have hd : digit d + 1 ≤ base := hdigits d (by simp)
    have hrest := ih fun e he => hdigits e (by simp [he])
    have hmul := Nat.mul_le_mul_right (base ^ numeral.length) hd
    rw [positionalValue_cons, List.length_cons, Nat.pow_succ, Nat.mul_comm (base ^ _) base]
    calc digit d * base ^ numeral.length + positionalValue base digit numeral
        < digit d * base ^ numeral.length + base ^ numeral.length :=
          Nat.add_lt_add_left hrest _
      _ = (digit d + 1) * base ^ numeral.length := by ring
      _ ≤ base * base ^ numeral.length := hmul

/-- The leading digits of a numeral are the quotient by the weight of the dropped ones. -/
theorem positionalValue_take {numeral : List α} (hdigits : ∀ d ∈ numeral, digit d < base)
    (count : Nat) :
    positionalValue base digit (numeral.take count) =
      positionalValue base digit numeral / base ^ (numeral.length - count) := by
  have hdrop : positionalValue base digit (numeral.drop count) <
      base ^ (numeral.length - count) := by
    have h : positionalValue base digit (numeral.drop count) < base ^ (numeral.drop count).length :=
      positionalValue_lt fun d hd => hdigits d (List.mem_of_mem_drop hd)
    rwa [List.length_drop] at h
  have hsplit := positionalValue_append base digit (numeral.take count) (numeral.drop count)
  rw [List.take_append_drop, List.length_drop] at hsplit
  rw [hsplit, Nat.mul_comm, Nat.mul_add_div (Nat.zero_lt_of_lt hdrop),
    Nat.div_eq_of_lt hdrop, Nat.add_zero]

variable [LinearOrder α]

/-- Numerals of one length are ordered as their values are. -/
theorem lt_iff_positionalValue_lt {left right : List α}
    (hmono : ∀ d ∈ left, ∀ e ∈ right, d < e ↔ digit d < digit e)
    (hinj : ∀ d ∈ left, ∀ e ∈ right, d = e ↔ digit d = digit e)
    (hleft : ∀ d ∈ left, digit d < base) (hright : ∀ e ∈ right, digit e < base)
    (hlen : left.length = right.length) :
    left < right ↔ positionalValue base digit left < positionalValue base digit right := by
  induction left generalizing right with
  | nil =>
    cases right with
    | nil => simp
    | cons e right => simp at hlen
  | cons d left ih =>
    cases right with
    | nil => simp at hlen
    | cons e right =>
      have hlen' : left.length = right.length := by simpa using hlen
      have htail := ih
        (fun d hd e he => hmono d (by simp [hd]) e (List.mem_cons_of_mem _ he))
        (fun d hd e he => hinj d (by simp [hd]) e (List.mem_cons_of_mem _ he))
        (fun d hd => hleft d (by simp [hd]))
        (fun e he => hright e (List.mem_cons_of_mem _ he)) hlen'
      have hl : positionalValue base digit left < base ^ left.length :=
        positionalValue_lt fun d hd => hleft d (by simp [hd])
      have hr : positionalValue base digit right < base ^ right.length :=
        positionalValue_lt fun e he => hright e (by simp [he])
      rw [List.cons_lt_cons_iff, htail, hmono d (by simp) e (by simp),
        hinj d (by simp) e (by simp), positionalValue_cons, positionalValue_cons, hlen']
      rw [hlen'] at hl
      -- The leading digits decide unless they agree, since a tail is below one leading unit.
      rcases Nat.lt_trichotomy (digit d) (digit e) with h | h | h
      · have hmul := Nat.mul_le_mul_right (base ^ right.length) (Nat.succ_le_of_lt h)
        rw [Nat.succ_mul] at hmul
        constructor
        · intro _
          omega
        · intro _
          exact Or.inl h
      · simp [h]
      · have hmul := Nat.mul_le_mul_right (base ^ right.length) (Nat.succ_le_of_lt h)
        rw [Nat.succ_mul] at hmul
        constructor
        · rintro (hlt | ⟨heq, -⟩) <;> omega
        · intro hlt
          omega

/-- A strictly shorter list precedes a longer one unless it exceeds the longer one's start. -/
theorem lt_iff_not_take_lt {left right : List α} (hlen : left.length < right.length) :
    left < right ↔ ¬ right.take left.length < left := by
  induction left generalizing right with
  | nil =>
    cases right with
    | nil => simp at hlen
    | cons e right => simp
  | cons d left ih =>
    cases right with
    | nil => simp at hlen
    | cons e right =>
      have htail := ih (Nat.lt_of_succ_lt_succ hlen)
      simp only [List.length_cons, List.take_succ_cons, List.cons_lt_cons_iff, htail]
      rcases lt_trichotomy d e with h | h | h
      · simp [h, h.ne', not_lt_of_gt h]
      · simp [h]
      · simp [h, h.ne', not_lt_of_gt h]

/-- A common start does not take part in a comparison. -/
theorem append_lt_append_left_iff (start left right : List α) :
    start ++ left < start ++ right ↔ left < right := by
  induction start with
  | nil => rfl
  | cons d start ih => simpa using ih

end Positional

end BinlogCdc.Core
