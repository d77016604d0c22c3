import BinlogCdc.Binlog.Coordinate
import BinlogCdc.Core.Digits

/-!
# File names in string order and in sequence order

A source server names its binlog files by a base name and a decimal sequence padded
with zeros to six digits. The coordinate guards compare these names as strings,
lost-binlog recovery compares the parsed sequences. Both orders are reduced to the
positional values of the suffixes, which gives the exact pairs of sequences on which
the two comparisons agree.
-/

namespace BinlogCdc

/-- The decimal suffix of a binlog file name, padded with zeros to six digits. -/
def sequenceSuffix (sequence : Nat) : List Char :=
  List.replicate (6 - (Nat.toDigits 10 sequence).length) '0' ++ Nat.toDigits 10 sequence

/-- The number of digits in the suffix of a sequence. -/
def suffixWidth (sequence : Nat) : Nat := max 6 (Nat.toDigits 10 sequence).length

/-- A binlog file name with a given base, as the server assigns it. -/
structure BinlogFileName (base : String) where
  /-- The sequence number of the file. -/
  sequence : Nat
  /-- Sequences are unsigned 64-bit numbers. -/
  sequence_lt : sequence < 2 ^ 64

/-- The file name in the binlog index. -/
def BinlogFileName.render {base : String} (name : BinlogFileName base) : String :=
  base ++ "." ++ String.ofList (sequenceSuffix name.sequence)

/-- A checkpoint placed in a named file. -/
def Checkpoint.inFile {base : String} (checkpoint : Checkpoint) (name : BinlogFileName base) :
    Checkpoint :=
  { checkpoint with sourceFile := name.render }

/-- The pairs of sequences whose suffixes are in string order exactly as in numeric order:
suffixes of one width, or a shorter suffix that is at most the start of the longer one. -/
def SuffixOrderFaithful (left right : Nat) : Prop :=
  suffixWidth left = suffixWidth right ∨
  (suffixWidth left < suffixWidth right ∧
    left ≤ right / 10 ^ (suffixWidth right - suffixWidth left)) ∨
  (suffixWidth right < suffixWidth left ∧
    right ≤ left / 10 ^ (suffixWidth left - suffixWidth right))

/-- All four coordinate guards decide about two checkpoints as lost-binlog recovery does. -/
structure CoordinateGuardsAgree (left right : Checkpoint) : Prop where
  /-- The stream's order. -/
  isBefore : binlogCoordinateIsBefore left.coordinate right.coordinate =
    sourceCoordinateAdvances left right
  /-- The check of the locked checkpoint against the start of a DDL event. -/
  predecessor : ∀ event : DdlEvent, event.binlogFile = right.sourceFile →
    event.eventStartPosition = right.sourcePosition →
    (ensureAutomaticDdlCheckpointPredecessor (some left) event = .ok () ↔
      sourceCoordinateAdvances right left = false)
  /-- The check that the stream checkpoint does not move backwards. -/
  advances : ensureCoordinateAdvances (some left) right.coordinate = .ok () ↔
    sourceCoordinateAdvances right left = false
  /-- The check that no event after an unresolved journal row is handled. -/
  noOvertake : ∀ barrier : JournalBarrier, barrier.binlogFile = left.sourceFile →
    barrier.eventStartPosition = left.sourcePosition →
    (enforceNoOvertake (some barrier) right.sourceFile right.sourcePosition = .ok () ↔
      sourceCoordinateAdvances left right = false)

/-! ## Reading the suffix back -/

/-- The value a list of decimal digit characters denotes. -/
abbrev decimalValue (digits : List Char) : Nat := Core.positionalValue 10 decimalDigit digits

private theorem decimalDigit_digitChar {n : Nat} (h : n < 10) :
    decimalDigit (Nat.digitChar n) = n := by
  rw [decimalDigit, Nat.toNat_digitChar_of_lt_ten h]
  exact Nat.add_sub_cancel_left 48 n

/-- Every character of a suffix is a decimal digit. -/
theorem isDigit_of_mem_sequenceSuffix {sequence : Nat} {c : Char}
    (h : c ∈ sequenceSuffix sequence) : c.isDigit = true := by
  rcases List.mem_append.mp h with hzero | hdigit
  · rw [List.eq_of_mem_replicate hzero]
    decide
  · exact Nat.isDigit_of_mem_toDigits (by decide) (by decide) hdigit

/-- A suffix has the width of its sequence. -/
@[simp] theorem length_sequenceSuffix (sequence : Nat) :
    (sequenceSuffix sequence).length = suffixWidth sequence := by
  simp only [sequenceSuffix, suffixWidth, List.length_append, List.length_replicate]
  omega

theorem decimalValue_toDigits (n : Nat) : decimalValue (Nat.toDigits 10 n) = n := by
  induction n using Nat.strongRecOn with
  | ind n ih =>
    by_cases h : n < 10
    · rw [Nat.toDigits_of_lt_base h]
      simpa [decimalValue, Core.positionalValue] using decimalDigit_digitChar h
    · have hmod : n % 10 < 10 := Nat.mod_lt n (by decide)
      rw [Nat.toDigits_of_base_le (by decide) (by omega), decimalValue,
        Core.positionalValue_append, ← decimalValue, ih (n / 10) (by omega)]
      simp only [Core.positionalValue, List.foldl_cons, List.foldl_nil, List.length_singleton,
        decimalDigit_digitChar hmod]
      omega

/-- A suffix denotes its sequence. -/
@[simp] theorem decimalValue_sequenceSuffix (sequence : Nat) :
    decimalValue (sequenceSuffix sequence) = sequence := by
  rw [sequenceSuffix, decimalValue,
    Core.positionalValue_replicate_append 10 decimalDigit (by decide)]
  exact decimalValue_toDigits sequence

private theorem isDigit_bounds {c : Char} (h : c.isDigit = true) :
    48 ≤ c.toNat ∧ c.toNat ≤ 57 := by
  exact Char.isDigit_iff_toNat.mp h

theorem decimalDigit_lt {c : Char} (h : c.isDigit = true) : decimalDigit c < 10 := by
  have hc := isDigit_bounds h
  have hzero : '0'.toNat = 48 := by decide
  rw [decimalDigit, hzero]
  omega

private theorem decimalDigit_lt_iff {c d : Char} (hc : c.isDigit = true)
    (hd : d.isDigit = true) : c < d ↔ decimalDigit c < decimalDigit d := by
  have hcb := isDigit_bounds hc
  have hdb := isDigit_bounds hd
  have hlt : c < d ↔ c.toNat < d.toNat := by
    rw [Char.lt_def, UInt32.lt_iff_toNat_lt]
    rfl
  have hzero : '0'.toNat = 48 := by decide
  rw [hlt, decimalDigit, decimalDigit, hzero]
  omega

theorem decimalDigit_inj {c d : Char} (hc : c.isDigit = true) (hd : d.isDigit = true) :
    c = d ↔ decimalDigit c = decimalDigit d := by
  have hcb := isDigit_bounds hc
  have hdb := isDigit_bounds hd
  have hzero : '0'.toNat = 48 := by decide
  rw [← Char.toNat_inj, decimalDigit, decimalDigit, hzero]
  omega

private theorem rsplitOnce_eq_none {separator : Char} {text : List Char}
    (h : separator ∉ text) : rsplitOnce separator text = none := by
  induction text with
  | nil => rfl
  | cons c text ih =>
    simp only [List.mem_cons, not_or] at h
    simp [rsplitOnce, ih h.2, Ne.symm h.1]

/-- The last separator is the one before a text without separators. -/
theorem rsplitOnce_append {separator : Char} (before after : List Char)
    (h : separator ∉ after) :
    rsplitOnce separator (before ++ separator :: after) = some (before, after) := by
  induction before with
  | nil => simp [rsplitOnce, rsplitOnce_eq_none h]
  | cons c before ih => simp [rsplitOnce, ih]

/-- A text of at most 64 bits of decimal digits parses to the value it denotes. -/
theorem parseU64_eq_some {text : List Char} (hne : text ≠ [])
    (hdigits : ∀ c ∈ text, c.isDigit = true) (hlt : decimalValue text < 2 ^ 64) :
    parseU64 text = some (decimalValue text) := by
  cases text with
  | nil => exact absurd rfl hne
  | cons c text =>
    have hplus : c ≠ '+' := by
      rintro rfl
      exact absurd (hdigits '+' (by simp)) (by decide)
    have hall : (c :: text).all Char.isDigit = true := List.all_eq_true.mpr hdigits
    unfold parseU64
    split
    · next heq => exact absurd (List.cons.inj heq).1 hplus
    · simp only [hall, List.isEmpty_cons, Bool.not_true, Bool.or_self]
      exact if_pos hlt

@[simp] theorem toList_render {base : String} (name : BinlogFileName base) :
    name.render.toList = base.toList ++ '.' :: sequenceSuffix name.sequence := by
  simp [BinlogFileName.render]

/-- Recovery reads back the sequence of a server-assigned file name. -/
theorem binlogSequence_render {base : String} (name : BinlogFileName base) :
    binlogSequence name.render = some name.sequence := by
  have hdot : '.' ∉ sequenceSuffix name.sequence := fun h =>
    absurd (isDigit_of_mem_sequenceSuffix h) (by decide)
  have hne : sequenceSuffix name.sequence ≠ [] := by
    simp [sequenceSuffix, Nat.toDigits_ne_nil]
  have hparse := parseU64_eq_some hne (fun c hc => isDigit_of_mem_sequenceSuffix hc)
    (by simpa using name.sequence_lt)
  rw [decimalValue_sequenceSuffix] at hparse
  rw [binlogSequence, toList_render, rsplitOnce_append _ _ hdot]
  exact hparse

/-! ## The two orders -/

private theorem width_lt_imp_lt {left right : Nat} (h : suffixWidth left < suffixWidth right) :
    left < right := by
  by_contra hle
  have hwide : (Nat.toDigits 10 left).length ≤ suffixWidth left := le_max_right _ _
  have hpos : 0 < suffixWidth left := lt_of_lt_of_le (by decide) (le_max_left 6 _)
  have hleft := (Nat.length_toDigits_le_iff (by decide) hpos).mp hwide
  have hright : (Nat.toDigits 10 right).length ≤ suffixWidth left :=
    (Nat.length_toDigits_le_iff (by decide) hpos).mpr (lt_of_le_of_lt (not_lt.mp hle) hleft)
  have h6 : 6 ≤ suffixWidth left := le_max_left _ _
  simp only [suffixWidth] at h h6 hright
  omega

private theorem digits_lt_iff {left right : List Char}
    (hleft : ∀ c ∈ left, c.isDigit = true) (hright : ∀ c ∈ right, c.isDigit = true)
    (hlen : left.length = right.length) :
    left < right ↔ decimalValue left < decimalValue right :=
  Core.lt_iff_positionalValue_lt
    (fun c hc d hd => decimalDigit_lt_iff (hleft c hc) (hright d hd))
    (fun c hc d hd => decimalDigit_inj (hleft c hc) (hright d hd))
    (fun c hc => decimalDigit_lt (hleft c hc)) (fun d hd => decimalDigit_lt (hright d hd)) hlen

/-- Suffixes of one width are in string order as their sequences are in numeric order. -/
theorem sequenceSuffix_lt_iff {left right : Nat} (h : suffixWidth left = suffixWidth right) :
    sequenceSuffix left < sequenceSuffix right ↔ left < right := by
  have hlex := digits_lt_iff (fun c hc => isDigit_of_mem_sequenceSuffix hc)
    (fun c hc => isDigit_of_mem_sequenceSuffix hc)
    (show (sequenceSuffix left).length = (sequenceSuffix right).length by simpa using h)
  rwa [decimalValue_sequenceSuffix, decimalValue_sequenceSuffix] at hlex

/-- A shorter suffix precedes a longer one exactly when it is at most the longer one's start. -/
theorem sequenceSuffix_lt_iff_of_width_lt {left right : Nat}
    (h : suffixWidth left < suffixWidth right) :
    sequenceSuffix left < sequenceSuffix right ↔
      left ≤ right / 10 ^ (suffixWidth right - suffixWidth left) := by
  have hdigit : ∀ c ∈ sequenceSuffix right, c.isDigit = true :=
    fun c hc => isDigit_of_mem_sequenceSuffix hc
  have hstart := Core.positionalValue_take (fun c hc => decimalDigit_lt (hdigit c hc))
    (suffixWidth left)
  rw [length_sequenceSuffix] at hstart
  have hlen : ((sequenceSuffix right).take (suffixWidth left)).length =
      (sequenceSuffix left).length := by
    simp only [List.length_take, length_sequenceSuffix]
    omega
  have hlex := digits_lt_iff (fun c hc => hdigit c (List.mem_of_mem_take hc))
    (fun c hc => isDigit_of_mem_sequenceSuffix hc) hlen
  rw [decimalValue, hstart, ← decimalValue, decimalValue_sequenceSuffix,
    decimalValue_sequenceSuffix] at hlex
  rw [Core.lt_iff_not_take_lt (by simpa using h), length_sequenceSuffix, hlex, not_lt]

/-- File names of one base are ordered as their suffixes are. -/
theorem render_lt_iff {base : String} (left right : BinlogFileName base) :
    left.render < right.render ↔
      sequenceSuffix left.sequence < sequenceSuffix right.sequence := by
  rw [String.lt_iff, toList_render, toList_render, Core.append_lt_append_left_iff]
  simp

/-- File names of one base are equal exactly when their sequences are. -/
theorem render_inj {base : String} {left right : BinlogFileName base} :
    left.render = right.render ↔ left.sequence = right.sequence := by
  constructor
  · intro h
    have hseq := congrArg binlogSequence h
    simpa only [binlogSequence_render, Option.some.injEq] using hseq
  · intro h
    rw [BinlogFileName.render, BinlogFileName.render, h]

/-- Across different widths the file names follow the sequences exactly when the shorter
suffix is at most the start of the longer one. -/
theorem render_follows_of_width_lt {base : String} {left right : BinlogFileName base}
    (h : suffixWidth left.sequence < suffixWidth right.sequence) :
    (left.render < right.render ↔ left.sequence < right.sequence) ↔
      left.sequence ≤ right.sequence /
        10 ^ (suffixWidth right.sequence - suffixWidth left.sequence) := by
  rw [render_lt_iff, sequenceSuffix_lt_iff_of_width_lt h]
  simp only [width_lt_imp_lt h, iff_true]

/-- If one comparison of two file names follows the sequences, so does the reverse one. -/
theorem render_follows_symm {base : String} {left right : BinlogFileName base}
    (h : left.render < right.render ↔ left.sequence < right.sequence) :
    right.render < left.render ↔ right.sequence < left.sequence := by
  have hinj : left.render = right.render ↔ left.sequence = right.sequence := render_inj
  rcases lt_trichotomy left.sequence right.sequence with hlt | heq | hgt
  · simp [not_lt_of_gt hlt, not_lt_of_gt (h.mpr hlt)]
  · simp [heq, hinj.mpr heq]
  · have hne : left.render ≠ right.render := fun he => hgt.ne' (hinj.mp he)
    have hnot : ¬ left.render < right.render := fun he => not_lt_of_gt hgt (h.mp he)
    simpa [hgt] using lt_of_le_of_ne (not_lt.mp hnot) hne.symm

/-- String order of the file names follows the sequences exactly on the faithful pairs. -/
theorem render_follows_iff {base : String} (left right : BinlogFileName base) :
    (left.render < right.render ↔ left.sequence < right.sequence) ↔
      SuffixOrderFaithful left.sequence right.sequence := by
  unfold SuffixOrderFaithful
  rcases lt_trichotomy (suffixWidth left.sequence) (suffixWidth right.sequence) with h | h | h
  · rw [render_follows_of_width_lt h]
    simp [h, h.ne, not_lt_of_gt h]
  · simp only [render_lt_iff, sequenceSuffix_lt_iff h, h, true_or]
  · have hsymm : (left.render < right.render ↔ left.sequence < right.sequence) ↔
        (right.render < left.render ↔ right.sequence < left.sequence) :=
      ⟨render_follows_symm, render_follows_symm⟩
    rw [hsymm, render_follows_of_width_lt h]
    simp [h, h.ne', not_lt_of_gt h]

/-! ## The guards -/

/-- Recovery orders checkpoints in server-assigned files by sequence, then by position. -/
theorem sourceCoordinateAdvances_inFile {base : String} (left right : BinlogFileName base)
    (old new : Checkpoint) :
    sourceCoordinateAdvances (old.inFile left) (new.inFile right) = true ↔
      left.sequence < right.sequence ∨
        (left.sequence = right.sequence ∧ old.sourcePosition < new.sourcePosition) := by
  by_cases h : right.render = left.render
  · have hseq := render_inj.mp h
    simp [sourceCoordinateAdvances, Checkpoint.inFile, h, hseq]
  · have hseq : left.sequence ≠ right.sequence := fun he => h (render_inj.mpr he.symm)
    simp [sourceCoordinateAdvances, Checkpoint.inFile, h, hseq, binlogSequence_render]

/-- The stream orders checkpoints in server-assigned files by file name, then by position. -/
theorem binlogCoordinateIsBefore_inFile {base : String} (left right : BinlogFileName base)
    (old new : Checkpoint) :
    binlogCoordinateIsBefore (old.inFile left).coordinate (new.inFile right).coordinate = true ↔
      left.render < right.render ∨
        (left.sequence = right.sequence ∧ old.sourcePosition < new.sourcePosition) := by
  rw [binlogCoordinateIsBefore_iff]
  simp only [Checkpoint.inFile, Checkpoint.coordinate, render_inj]

private theorem follows_of_agree {base : String} {left right : BinlogFileName base}
    {old new : Checkpoint}
    (h : CoordinateGuardsAgree (old.inFile left) (new.inFile right)) :
    left.render < right.render ↔ left.sequence < right.sequence := by
  have hbefore := binlogCoordinateIsBefore_inFile left right old new
  rw [h.isBefore, sourceCoordinateAdvances_inFile] at hbefore
  by_cases heq : left.sequence = right.sequence
  · rw [render_inj.mpr heq, heq]
    simp
  · simpa [heq] using hbefore.symm

private theorem agree_of_follows {base : String} {left right : BinlogFileName base}
    (h : left.render < right.render ↔ left.sequence < right.sequence) (old new : Checkpoint) :
    CoordinateGuardsAgree (old.inFile left) (new.inFile right) := by
  have hforth := sourceCoordinateAdvances_inFile left right old new
  have hback := sourceCoordinateAdvances_inFile right left new old
  have hbefore := binlogCoordinateIsBefore_inFile left right old new
  have hafter := binlogCoordinateIsBefore_inFile right left new old
  rw [h, ← hforth] at hbefore
  rw [render_follows_symm h, ← hback] at hafter
  refine ⟨Bool.eq_iff_iff.mpr hbefore, ?_, ?_, ?_⟩
  · intro event hfile hposition
    rw [ensureAutomaticDdlCheckpointPredecessor_ok_iff, hfile, hposition,
      ← Bool.not_eq_true, hback]
    simp only [Checkpoint.inFile, render_inj, h]
    omega
  · rw [ensureCoordinateAdvances_ok_iff, ← Bool.not_eq_true, ← Bool.not_eq_true, hafter]
  · intro barrier hfile hposition
    rw [enforceNoOvertake_ok_iff, hfile, hposition, ← Bool.not_eq_true, ← Bool.not_eq_true]
    exact not_congr hbefore

/-- Recovery follows the sequences on all pairs of checkpoints; the four guards do so exactly
when the suffixes of the two files are ordered faithfully. -/
theorem coordinateGuardsAgree_iff {base : String} (left right : BinlogFileName base)
    (old new : Checkpoint) :
    (sourceCoordinateAdvances (old.inFile left) (new.inFile right) = true ↔
      left.sequence < right.sequence ∨
        (left.sequence = right.sequence ∧ old.sourcePosition < new.sourcePosition)) ∧
    (CoordinateGuardsAgree (old.inFile left) (new.inFile right) ↔
      SuffixOrderFaithful left.sequence right.sequence) := by
  refine ⟨sourceCoordinateAdvances_inFile left right old new, ?_⟩
  rw [← render_follows_iff]
  exact ⟨follows_of_agree, fun h => agree_of_follows h old new⟩

/-- The guards take the file after 999999 for an earlier one. -/
theorem guards_disagree_at_suffix_growth :
    ¬ ∀ (base : String) (left right : BinlogFileName base) (old new : Checkpoint),
      CoordinateGuardsAgree (old.inFile left) (new.inFile right) := by
  intro h
  have hagree := (h "mysql-bin" ⟨999999, by decide⟩ ⟨1000000, by decide⟩
    (coordinateCheckpoint ⟨"", 4⟩ "Xid") (coordinateCheckpoint ⟨"", 4⟩ "Xid")).isBefore
  exact absurd hagree (by decide)

end BinlogCdc
