import Mathlib

/-!
# Patterns with wildcards

A pattern is read with an escape character: a character after it stands for itself, and the other
wildcards stand for one character or any run of characters. Characters are compared as a collation
compares them. An escaped text followed by the wildcard for a run matches the texts that start with it.
-/

namespace BinlogCdc.Core

/-- The parts of a pattern. -/
inductive LikeToken where
  | many
  | one
  | literal (character : Char)
deriving DecidableEq, Repr

/-- A character that is not escaped. -/
def likeToken (character : Char) : LikeToken :=
  if character = '%' then .many
  else if character = '_' then .one
  else .literal character

/-- Read a pattern; an escape character at its end stands for itself. -/
def readLike (escape : Char) : List Char → List LikeToken
  | [] => []
  | [character] => [if character = escape then .literal character else likeToken character]
  | character :: next :: rest =>
    if character = escape then .literal next :: readLike escape rest
    else likeToken character :: readLike escape (next :: rest)

/-- Whether a text matches the parts of a pattern. -/
def likeMatches (same : Char → Char → Bool) : List LikeToken → List Char → Bool
  | [], text => text.isEmpty
  | .many :: tokens, text => text.tails.any (likeMatches same tokens)
  | .one :: tokens, _ :: text => likeMatches same tokens text
  | .one :: _, [] => false
  | .literal wanted :: tokens, character :: text =>
    same wanted character && likeMatches same tokens text
  | .literal _ :: _, [] => false

/-- A text whose wildcards and escape characters are escaped. -/
def escapeLike (escape : Char) (text : List Char) : List Char :=
  text.flatMap fun character =>
    if character = escape ∨ character = '%' ∨ character = '_' then [escape, character]
    else [character]

/-! ## Escaped texts -/

/-- An escaped character is read as itself. -/
theorem readLike_escape (escape character : Char) (rest : List Char) :
    readLike escape (escape :: character :: rest) = .literal character :: readLike escape rest := by
  rw [readLike, if_pos rfl]

theorem readLike_plain {escape character : Char} (hescape : character ≠ escape)
    (hmany : character ≠ '%') (hone : character ≠ '_') (rest : List Char) :
    readLike escape (character :: rest) = .literal character :: readLike escape rest := by
  have htoken : likeToken character = .literal character := by
    rw [likeToken, if_neg hmany, if_neg hone]
  cases rest with
  | nil => simp only [readLike, if_neg hescape, htoken]
  | cons next rest => rw [readLike, if_neg hescape, htoken]

/-- An escaped text is read as its characters. -/
theorem readLike_escapeLike (escape : Char) (text rest : List Char) :
    readLike escape (escapeLike escape text ++ rest) =
      text.map LikeToken.literal ++ readLike escape rest := by
  induction text with
  | nil => rfl
  | cons character text ih =>
    have hcons : escapeLike escape (character :: text) =
        (if character = escape ∨ character = '%' ∨ character = '_' then [escape, character]
          else [character]) ++ escapeLike escape text := rfl
    rw [hcons, List.append_assoc]
    by_cases hspecial : character = escape ∨ character = '%' ∨ character = '_'
    · rw [if_pos hspecial, List.cons_append, List.singleton_append, readLike_escape, ih]
      rfl
    · rw [if_neg hspecial, List.singleton_append]
      simp only [not_or] at hspecial
      rw [readLike_plain hspecial.1 hspecial.2.1 hspecial.2.2, ih]
      rfl

/-! ## Matching -/

/-- A run of any characters matches every text. -/
theorem likeMatches_many (same : Char → Char → Bool) (text : List Char) :
    likeMatches same [.many] text = true := by
  rw [likeMatches, List.any_eq_true]
  refine ⟨[], ?_, rfl⟩
  rw [List.mem_tails]
  exact List.nil_suffix

/-- The pattern matches the texts that start as it does. -/
theorem likeMatches_begins (same : Char → Char → Bool) (wanted text : List Char) :
    likeMatches same (wanted.map LikeToken.literal ++ [.many]) text = true ↔
      ∃ start rest, text = start ++ rest ∧
        List.Forall₂ (fun want character => same want character = true) wanted start := by
  induction wanted generalizing text with
  | nil =>
    constructor
    · intro _
      exact ⟨[], text, rfl, .nil⟩
    · intro _
      exact likeMatches_many same text
  | cons want wanted ih =>
    rw [List.map_cons, List.cons_append]
    cases text with
    | nil =>
      rw [likeMatches]
      constructor
      · intro h
        cases h
      · rintro ⟨start, rest, htext, hsame⟩
        cases hsame with
        | cons => cases htext
    | cons character text =>
      rw [likeMatches, Bool.and_eq_true, ih]
      constructor
      · rintro ⟨hwant, start, rest, rfl, hsame⟩
        exact ⟨character :: start, rest, rfl, .cons hwant hsame⟩
      · rintro ⟨start, rest, htext, hsame⟩
        cases hsame with
        | cons hwant hsame =>
          obtain ⟨rfl, hrest⟩ := List.cons.inj htext
          exact ⟨hwant, _, rest, hrest, hsame⟩

/-- Equal characters: the pattern matches the texts that start with the wanted one. -/
theorem likeMatches_begins_eq (wanted text : List Char) :
    likeMatches (· == ·) (wanted.map LikeToken.literal ++ [.many]) text = true ↔
      wanted <+: text := by
  rw [likeMatches_begins]
  constructor
  · rintro ⟨start, rest, rfl, hsame⟩
    have heq : List.Forall₂ (fun want character => want = character) wanted start :=
      hsame.imp fun _ _ h => eq_of_beq h
    rw [List.forall₂_eq_eq_eq] at heq
    rw [heq]
    exact List.prefix_append start rest
  · rintro ⟨rest, rfl⟩
    refine ⟨wanted, rest, rfl, ?_⟩
    exact List.forall₂_same.mpr fun character _ => beq_self_eq_true character

end BinlogCdc.Core
