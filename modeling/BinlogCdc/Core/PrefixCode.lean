import Mathlib

/-!
# Prefix codes

A code spells each letter by a word, and a text by the words of its letters. If no word is a
prefix of another, a text is determined by its spelling.
-/

namespace BinlogCdc.Core

variable {α β : Type*}

/-- No word of the code is a prefix of the word of another letter. -/
def PrefixFree (code : α → List β) : Prop := ∀ a b, code a <+: code b → a = b

namespace PrefixFree

variable {code : α → List β}

/-- A code is prefix-free if the first letter of a spelling can be read off its start. -/
theorem of_lead {lead : List β → Option α} (h : ∀ a rest, lead (code a ++ rest) = some a) :
    PrefixFree code := by
  intro a b ⟨rest, hrest⟩
  have ha : lead (code b) = some a := hrest ▸ h a rest
  have hb : lead (code b) = some b := by
    simpa using h b []
  exact Option.some.inj (ha.symm.trans hb)

/-- Two spellings with one start begin with the same letter. -/
theorem eq_of_append_eq (h : PrefixFree code) {a b : α} {front back : List β}
    (heq : code a ++ front = code b ++ back) : a = b := by
  have ha : code a <+: code b ++ back := ⟨front, heq⟩
  rcases List.prefix_or_prefix_of_prefix ha (List.prefix_append (code b) back) with hab | hba
  · exact h a b hab
  · exact (h b a hba).symm

/-- A text is determined by its spelling, if no word is empty. -/
theorem flatMap_injective (h : PrefixFree code) (hne : ∀ a, code a ≠ []) :
    Function.Injective fun letters : List α => letters.flatMap code := by
  intro left
  induction left with
  | nil =>
    intro right heq
    cases right with
    | nil => rfl
    | cons b right =>
      have hempty : code b = [] ∧ right.flatMap code = [] := by simpa using heq.symm
      exact absurd hempty.1 (hne b)
  | cons a left ih =>
    intro right heq
    cases right with
    | nil =>
      have hempty : code a = [] ∧ left.flatMap code = [] := by simpa using heq
      exact absurd hempty.1 (hne a)
    | cons b right =>
      have hwords : code a ++ left.flatMap code = code b ++ right.flatMap code := by
        simpa only [List.flatMap_cons] using heq
      have hletter : a = b := h.eq_of_append_eq hwords
      subst hletter
      rw [ih (List.append_cancel_left hwords)]

end PrefixFree

end BinlogCdc.Core
