import BinlogCdc.Sql.Statement

/-!
# Searches in a text

Where a text is split by the first occurrence of a pattern: of one character, of a pattern in an
extended text, and of a pattern whose last character is its only mark, which cannot lie across a
mark of the text.
-/

namespace BinlogCdc.Text

/-! ## One character -/

theorem splitOnce_singleton {c : Char} {before : Text} (h : c ∉ before) (after : Text) :
    splitOnce [c] (before ++ c :: after) = some (before, after) := by
  induction before with
  | nil => simp [splitOnce]
  | cons d before ih =>
    rw [List.mem_cons, not_or] at h
    have hnot : [c].isPrefixOf (d :: (before ++ c :: after)) = false := by
      simp [List.isPrefixOf, h.1]
    rw [List.cons_append, splitOnce, if_neg (by simp [hnot]), ih h.2]
    rfl

theorem splitOnce_singleton_eq_none {c : Char} {text : Text} (h : c ∉ text) :
    splitOnce [c] text = none := by
  induction text with
  | nil => rfl
  | cons d text ih =>
    rw [List.mem_cons, not_or] at h
    have hnot : [c].isPrefixOf (d :: text) = false := by
      simp [List.isPrefixOf, h.1]
    rw [splitOnce, if_neg (by simp [hnot]), ih h.2]
    rfl

/-- Up to a character that a text may hold itself. -/
theorem takeWhile_append_stop {c : Char} (text after : Text) :
    (text ++ c :: after).takeWhile (· ≠ c) = text.takeWhile (· ≠ c) := by
  induction text with
  | nil => simp
  | cons d text ih =>
    by_cases hd : d = c
    · simp [hd]
    · simp only [List.cons_append, List.takeWhile_cons, ne_eq, hd, not_false_eq_true, decide_true,
        if_true]
      exact congrArg (d :: ·) ih

theorem takeWhile_append_of_mem {c : Char} {text : Text} (h : c ∈ text) (after : Text) :
    (text ++ after).takeWhile (· ≠ c) = text.takeWhile (· ≠ c) := by
  obtain ⟨front, back, rfl⟩ := List.append_of_mem h
  rw [List.append_assoc, List.cons_append, takeWhile_append_stop, takeWhile_append_stop]

/-- The text before the first occurrence of a character that occurs. -/
theorem splitOnce_singleton_of_mem {c : Char} {text : Text} (h : c ∈ text) :
    ∃ after, splitOnce [c] text = some (text.takeWhile (· ≠ c), after) := by
  obtain ⟨before, after, rfl, hbefore⟩ := List.eq_append_cons_of_mem h
  have hall : before.takeWhile (· ≠ c) = before :=
    List.takeWhile_eq_self_iff.mpr fun d hd => decide_eq_true fun heq => hbefore (heq ▸ hd)
  exact ⟨after, by rw [takeWhile_append_stop, hall, splitOnce_singleton hbefore]⟩

/-! ## Extended texts -/

/-- The parts make up the text. -/
theorem eq_of_splitOnce {pattern text before after : Text}
    (h : splitOnce pattern text = some (before, after)) : text = before ++ (pattern ++ after) := by
  induction text generalizing before with
  | nil =>
    by_cases hempty : pattern.isEmpty = true
    · rw [splitOnce, if_pos hempty] at h
      obtain ⟨rfl, rfl⟩ := Prod.mk.inj (Option.some.inj h)
      rw [List.isEmpty_iff.mp hempty]
      rfl
    · rw [splitOnce, if_neg hempty] at h
      cases h
  | cons c text ih =>
    by_cases hstart : pattern.isPrefixOf (c :: text) = true
    · rw [splitOnce, if_pos hstart] at h
      obtain ⟨rfl, rfl⟩ := Prod.mk.inj (Option.some.inj h)
      obtain ⟨rest, hrest⟩ := List.isPrefixOf_iff_prefix.mp hstart
      rw [← hrest, List.drop_left]
      rfl
    · rw [splitOnce, if_neg hstart] at h
      obtain ⟨⟨front, back⟩, hsplit, heq⟩ := Option.map_eq_some_iff.mp h
      obtain ⟨rfl, rfl⟩ := Prod.mk.inj heq
      rw [ih hsplit]
      rfl

/-- More text after the first occurrence leaves it the first. -/
theorem splitOnce_append {pattern text before after : Text}
    (h : splitOnce pattern text = some (before, after)) (more : Text) :
    splitOnce pattern (text ++ more) = some (before, after ++ more) := by
  induction text generalizing before with
  | nil =>
    by_cases hempty : pattern.isEmpty = true
    · rw [splitOnce, if_pos hempty] at h
      obtain ⟨rfl, rfl⟩ := Prod.mk.inj (Option.some.inj h)
      obtain rfl := List.isEmpty_iff.mp hempty
      cases more <;> simp [splitOnce]
    · rw [splitOnce, if_neg hempty] at h
      cases h
  | cons c text ih =>
    by_cases hstart : pattern.isPrefixOf (c :: text) = true
    · rw [splitOnce, if_pos hstart] at h
      obtain ⟨rfl, rfl⟩ := Prod.mk.inj (Option.some.inj h)
      obtain ⟨rest, hrest⟩ := List.isPrefixOf_iff_prefix.mp hstart
      have hlonger : pattern.isPrefixOf (c :: (text ++ more)) = true :=
        List.isPrefixOf_iff_prefix.mpr ⟨rest ++ more, by
          rw [← List.append_assoc, hrest, List.cons_append]⟩
      rw [List.cons_append, splitOnce, if_pos hlonger, ← List.cons_append, ← hrest,
        List.append_assoc, List.drop_left, List.drop_left]
    · rw [splitOnce, if_neg hstart] at h
      obtain ⟨⟨front, back⟩, hsplit, heq⟩ := Option.map_eq_some_iff.mp h
      obtain ⟨rfl, rfl⟩ := Prod.mk.inj heq
      have hnone : ¬pattern.isPrefixOf (c :: (text ++ more)) = true := by
        -- The pattern is no longer than the text that it occurs in.
        have hlength : pattern.length ≤ (c :: text).length := by
          rw [eq_of_splitOnce hsplit, List.length_cons, List.length_append, List.length_append]
          omega
        intro hlonger
        have hprefix := List.prefix_of_prefix_length_le (List.isPrefixOf_iff_prefix.mp hlonger)
          (List.prefix_append (c :: text) more) hlength
        exact hstart (List.isPrefixOf_iff_prefix.mpr hprefix)
      rw [List.cons_append, splitOnce, if_neg hnone, ih hsplit]
      rfl

/-! ## Marked patterns -/

section Marked

variable {mark : Char} {pattern text : Text}

/-- Texts before their first marks are compared as far as the marks. -/
theorem eq_of_marked_prefix {more rest : Text} (hpattern : mark ∉ pattern) (htext : mark ∉ text)
    (h : pattern ++ mark :: more <+: text ++ mark :: rest) : pattern = text := by
  induction pattern generalizing text with
  | nil =>
    cases text with
    | nil => rfl
    | cons d text =>
      obtain ⟨heq, -⟩ := List.cons_prefix_cons.mp h
      exact absurd (heq ▸ List.mem_cons_self) htext
  | cons c pattern ih =>
    rw [List.mem_cons, not_or] at hpattern
    cases text with
    | nil =>
      obtain ⟨heq, -⟩ := List.cons_prefix_cons.mp h
      exact absurd heq.symm hpattern.1
    | cons d text =>
      rw [List.mem_cons, not_or] at htext
      obtain ⟨rfl, hrest⟩ := List.cons_prefix_cons.mp h
      rw [ih hpattern.2 htext.2 hrest]

/-- A pattern with one mark at its end does not begin before the first mark of a text, unless the
text up to there ends in it. -/
theorem splitOnce_marked_append (hpattern : mark ∉ pattern) (htext : mark ∉ text)
    (hend : ¬pattern <:+ text) (rest : Text) :
    splitOnce (pattern ++ [mark]) (text ++ mark :: rest) =
      (splitOnce (pattern ++ [mark]) rest).map fun parts => (text ++ mark :: parts.1, parts.2) := by
  have hstart : ∀ front, front <:+ text →
      ¬(pattern ++ [mark]).isPrefixOf (front ++ mark :: rest) = true := by
    intro front hfront hprefix
    have heq := eq_of_marked_prefix hpattern (fun hmem => htext (hfront.subset hmem))
      (List.isPrefixOf_iff_prefix.mp hprefix)
    exact hend (heq ▸ hfront)
  induction text with
  | nil =>
    have hnot := hstart [] (List.suffix_refl _)
    rw [List.nil_append] at hnot
    rw [List.nil_append, splitOnce, if_neg hnot]
    rfl
  | cons c text ih =>
    rw [List.mem_cons, not_or] at htext
    have hnot := hstart (c :: text) (List.suffix_refl _)
    rw [List.cons_append] at hnot
    rw [List.cons_append, splitOnce, if_neg hnot, ih htext.2
      (fun hsuffix => hend (hsuffix.trans (List.suffix_cons c text)))
      (fun front hfront => hstart front (hfront.trans (List.suffix_cons c text))), Option.map_map]
    rfl

theorem splitOnce_self (hpattern : pattern ≠ []) (rest : Text) :
    splitOnce pattern (pattern ++ rest) = some ([], rest) := by
  obtain ⟨c, more, rfl⟩ := List.exists_cons_of_ne_nil hpattern
  have hprefix : (c :: more).isPrefixOf (c :: (more ++ rest)) = true :=
    List.isPrefixOf_iff_prefix.mpr (List.prefix_append (c :: more) rest)
  rw [List.cons_append, splitOnce, if_pos hprefix, ← List.cons_append, List.drop_left]

/-- After a marked text that it does not occur in, a marked pattern is found where it was put. -/
theorem splitOnce_marked_next (hpattern : mark ∉ pattern)
    (hnone : splitOnce (pattern ++ [mark]) (text ++ [mark]) = none) (rest : Text) :
    splitOnce (pattern ++ [mark]) (text ++ mark :: (pattern ++ [mark] ++ rest)) =
      some (text ++ [mark], rest) := by
  have hself : splitOnce (pattern ++ [mark]) (pattern ++ [mark] ++ rest) = some ([], rest) :=
    splitOnce_self (by simp) rest
  induction text with
  | nil =>
    have hnot : ¬(pattern ++ [mark]).isPrefixOf
        (mark :: (pattern ++ [mark] ++ rest)) = true := by
      intro hprefix
      cases pattern with
      | nil => simp [splitOnce] at hnone
      | cons c pattern =>
        obtain ⟨heq, -⟩ := List.cons_prefix_cons.mp (List.isPrefixOf_iff_prefix.mp hprefix)
        exact hpattern (heq ▸ List.mem_cons_self)
    rw [List.nil_append, splitOnce, if_neg hnot, hself]
    rfl
  | cons c text ih =>
    rw [List.cons_append, splitOnce] at hnone
    by_cases hstart : (pattern ++ [mark]).isPrefixOf (c :: (text ++ [mark])) = true
    · rw [if_pos hstart] at hnone
      cases hnone
    · rw [if_neg hstart] at hnone
      have hnot : ¬(pattern ++ [mark]).isPrefixOf
          (c :: (text ++ mark :: (pattern ++ [mark] ++ rest))) = true := by
        intro hlonger
        have hwhole : c :: (text ++ mark :: (pattern ++ [mark] ++ rest)) =
            c :: (text ++ [mark]) ++ (pattern ++ [mark] ++ rest) := by
          simp only [List.cons_append, List.append_assoc, List.nil_append]
        rw [hwhole] at hlonger
        rcases List.prefix_or_prefix_of_prefix (List.isPrefixOf_iff_prefix.mp hlonger)
          (List.prefix_append _ _) with hshort | hlong
        · exact hstart (List.isPrefixOf_iff_prefix.mpr hshort)
        · -- The mark of the text would lie inside the pattern, before its own.
          rcases List.prefix_concat_iff.mp hlong with heq | hinside
          · exact hstart (List.isPrefixOf_iff_prefix.mpr ⟨[], by rw [heq, List.append_nil]⟩)
          · exact hpattern (hinside.subset (by simp))
      rw [List.cons_append, splitOnce, if_neg hnot, ih (Option.map_eq_none_iff.mp hnone)]
      rfl

end Marked

end BinlogCdc.Text
