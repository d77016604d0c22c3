import BinlogCdc.Binlog.SequenceOrder
import BinlogCdc.Core.Numeral
import BinlogCdc.Sql.Search
import BinlogCdc.Ddl.TypeReading

/-!
# Numeric defaults are exact

A literal of digits with an optional sign and fraction has an exact value. A default is
accepted exactly when its column can hold that value, and it is stored as the canonical text
of the value: no plus sign, no leading zeros, no negative zero, and as many fractional digits
as the column has. The canonical text is unique, so that normalizing it again changes nothing.
An integer column takes integer literals only.
-/

namespace BinlogCdc

namespace Ddl

open Text

/-! ## Literals and their values -/

/-- The decimal digits. -/
def decimalNumeration : Core.Numeration Char where
  base := 10
  digit := decimalDigit
  zero := '0'
  IsDigit c := c.isDigit = true
  one_lt_base := by decide
  digit_lt _ h := decimalDigit_lt h
  digit_inj _ _ hd he h := (decimalDigit_inj hd he).mpr h
  isDigit_zero := by decide
  digit_zero := by decide

/-- The value of a sign and the digits before and after a point. -/
def pointValue (negative : Bool) (whole fraction : Text) : ℚ :=
  (if negative then -1 else 1) *
    ((decimalNumeration.value (whole ++ fraction) : ℚ) / 10 ^ fraction.length)

/-- A literal of digits with an optional sign and an optional fraction. -/
structure NumericLiteral where
  /-- The sign, if it is written. -/
  sign : Option Char
  /-- The digits before the point. -/
  whole : Text
  /-- The digits after the point, if there is one. -/
  fraction : Option Text
  sign_mem : ∀ c ∈ sign, c = '+' ∨ c = '-'
  whole_ne : whole ≠ []
  whole_digits : decimalNumeration.Digits whole
  fraction_ne : ∀ digits ∈ fraction, digits ≠ []
  fraction_digits : ∀ digits ∈ fraction, decimalNumeration.Digits digits

namespace NumericLiteral

/-- The digits of the literal. -/
def digits (literal : NumericLiteral) : Text :=
  match literal.fraction with
  | none => literal.whole
  | some fraction => literal.whole ++ '.' :: fraction

/-- The text of the literal. -/
def text (literal : NumericLiteral) : Text := literal.sign.toList ++ literal.digits

/-- The literal has a minus sign. -/
def negative (literal : NumericLiteral) : Bool := literal.sign == some '-'

/-- The value of the literal. -/
def value (literal : NumericLiteral) : ℚ :=
  pointValue literal.negative literal.whole (literal.fraction.getD [])

end NumericLiteral

/-- An integer or decimal column type. -/
inductive NumericColumn where
  /-- An integer type. -/
  | integer (kind : Text) (hkind : kind ∈ integerKinds) (unsigned : Bool)
  /-- A decimal type. -/
  | decimal (precision scale : Nat) (hsize : IsDecimalSize precision scale)

namespace NumericColumn

/-- The text of the type. -/
def columnType : NumericColumn → Text
  | .integer kind _ unsigned => signedType kind unsigned
  | .decimal precision scale _ => decimalType precision scale

/-- The name of the type. -/
def dataType : NumericColumn → Text
  | .integer kind _ _ => kind
  | .decimal _ _ _ => "decimal".toList

/-- The fractional digits of the column. -/
def scale : NumericColumn → Nat
  | .integer _ _ _ => 0
  | .decimal _ scale _ => scale

/-- The column can hold a value: an integer in the range of the type, or a number with no more
fractional digits than the scale and no more digits in all than the precision. -/
def Represents (value : ℚ) : NumericColumn → Prop
  | .integer kind _ unsigned =>
    ∃ n : ℤ, value = n ∧ integerLower kind unsigned ≤ n ∧ n ≤ integerUpper kind unsigned
  | .decimal precision scale _ => ∃ n : ℤ, value = n / 10 ^ scale ∧ n.natAbs < 10 ^ precision

/-- The column takes the form of a literal: an integer column takes no fraction. -/
def Takes (literal : NumericLiteral) : NumericColumn → Prop
  | .integer _ _ _ => literal.fraction = none
  | .decimal _ _ _ => True

end NumericColumn

/-- The canonical writing of a number with a given number of fractional digits. -/
structure CanonicalNumber (scale : Nat) where
  /-- The number has a minus sign. -/
  negative : Bool
  /-- The digits before the point. -/
  whole : Text
  /-- The digits after the point. -/
  fraction : Text
  whole_digits : decimalNumeration.Digits whole
  whole_canonical : whole = ['0'] ∨ (whole ≠ [] ∧ decimalNumeration.Trimmed whole)
  fraction_digits : decimalNumeration.Digits fraction
  fraction_length : fraction.length = scale
  not_negative_zero : negative = true → decimalNumeration.value (whole ++ fraction) ≠ 0

namespace CanonicalNumber

variable {scale : Nat}

/-- The text of the number. -/
def text (number : CanonicalNumber scale) : Text :=
  (if number.negative then ['-'] else []) ++ number.whole ++
    (if scale = 0 then [] else '.' :: number.fraction)

/-- The value of the number. -/
def value (number : CanonicalNumber scale) : ℚ :=
  pointValue number.negative number.whole number.fraction

end CanonicalNumber

/-! ## Values -/

section Values

variable {negative negative' : Bool} {whole fraction : Text} {scale : Nat}

theorem pointValue_zeros_left (count : Nat) :
    pointValue negative (List.replicate count '0' ++ whole) fraction =
      pointValue negative whole fraction := by
  have hzeros := Core.positionalValue_replicate_append 10 decimalDigit (show decimalDigit '0' = 0 from rfl) count
    (whole ++ fraction)
  unfold pointValue
  rw [List.append_assoc, Core.Numeration.value]
  exact congrArg _ (congrArg (fun n : Nat => (n : ℚ) / 10 ^ fraction.length) hzeros)

theorem pointValue_zeros_right (count : Nat) :
    pointValue negative whole (fraction ++ List.replicate count '0') =
      pointValue negative whole fraction := by
  have hzeros : decimalNumeration.value (whole ++ (fraction ++ List.replicate count '0')) =
      decimalNumeration.value (whole ++ fraction) * 10 ^ count := by
    rw [← List.append_assoc]
    exact @Core.Numeration.value_append_zeros _ decimalNumeration _ count
  unfold pointValue
  rw [hzeros, List.length_append, List.length_replicate, pow_add, Nat.cast_mul, Nat.cast_pow]
  congr 1
  exact mul_div_mul_right _ _ (pow_ne_zero count (by norm_num))

theorem abs_pointValue :
    |pointValue negative whole fraction| =
      (decimalNumeration.value (whole ++ fraction) : ℚ) / 10 ^ fraction.length := by
  have hsign : |(if negative then -1 else 1 : ℚ)| = 1 := by
    cases negative <;> simp
  rw [pointValue, abs_mul, hsign, one_mul, abs_of_nonneg]
  positivity

/-- A value is a fraction with a power of ten if the digits agree over a common power. -/
theorem natAbs_of_pointValue_eq {n : ℤ} (h : pointValue negative whole fraction = n / 10 ^ scale) :
    decimalNumeration.value (whole ++ fraction) * 10 ^ scale = n.natAbs * 10 ^ fraction.length := by
  have habs := congrArg abs h
  rw [abs_pointValue, abs_div, abs_of_pos (show (0 : ℚ) < 10 ^ scale by positivity),
    div_eq_div_iff (by positivity) (by positivity)] at habs
  have hcast : (|(n : ℚ)|) = (n.natAbs : ℚ) := by
    rw [Nat.cast_natAbs, Int.cast_abs]
  rw [hcast] at habs
  exact_mod_cast habs

theorem pointValue_neg_iff :
    pointValue negative whole fraction < 0 ↔
      negative = true ∧ decimalNumeration.value (whole ++ fraction) ≠ 0 := by
  have hpow : (0 : ℚ) < 10 ^ fraction.length := by positivity
  unfold pointValue
  cases negative with
  | false =>
    simp only [Bool.false_eq_true, ite_false, one_mul, false_and, iff_false, not_lt]
    positivity
  | true =>
    simp only [ite_true, true_and, neg_mul, one_mul, neg_lt_zero, div_pos_iff_of_pos_right hpow,
      Nat.cast_pos]
    exact Nat.pos_iff_ne_zero

end Values

/-! ## Canonical texts -/

namespace CanonicalNumber

variable {scale : Nat} {number other : CanonicalNumber scale}

/-- The digits of a canonical number are its value times the power of ten. -/
theorem value_digits_eq (h : number.value = other.value) :
    decimalNumeration.value (number.whole ++ number.fraction) =
      decimalNumeration.value (other.whole ++ other.fraction) := by
  have habs := congrArg abs h
  rw [value, value, abs_pointValue, abs_pointValue, number.fraction_length, other.fraction_length,
    div_left_inj' (by positivity)] at habs
  exact_mod_cast habs

theorem negative_iff : number.negative = true ↔ number.value < 0 := by
  rw [value, pointValue_neg_iff]
  exact ⟨fun h => ⟨h, number.not_negative_zero h⟩, And.left⟩

/-- The digits before the point are zero only as a single zero. -/
theorem whole_eq_of_value_eq
    (h : decimalNumeration.value number.whole = decimalNumeration.value other.whole) :
    number.whole = other.whole := by
  have hpositive : ∀ {digits : Text}, decimalNumeration.Digits digits → digits ≠ [] →
      decimalNumeration.Trimmed digits → decimalNumeration.value digits ≠ 0 := by
    intro digits hdigits hne htrimmed
    cases digits with
    | nil => exact absurd rfl hne
    | cons d digits =>
      have hpow : 0 < decimalNumeration.base ^ digits.length :=
        Nat.pow_pos Core.Numeration.base_pos
      exact Nat.ne_of_gt (Nat.lt_of_lt_of_le hpow (Core.Numeration.pow_le_value hdigits htrimmed))
  have hzero : decimalNumeration.value ['0'] = 0 := by decide
  rcases number.whole_canonical with hleft | ⟨hleft, htrimmed⟩ <;>
    rcases other.whole_canonical with hright | ⟨hright, htrimmed'⟩
  · rw [hleft, hright]
  · rw [hleft, hzero] at h
    exact absurd h.symm (hpositive other.whole_digits hright htrimmed')
  · rw [hright, hzero] at h
    exact absurd h (hpositive number.whole_digits hleft htrimmed)
  · exact Core.Numeration.eq_of_value_eq number.whole_digits other.whole_digits htrimmed htrimmed' h

/-- A canonical number is determined by its value. -/
theorem eq_of_value_eq (h : number.value = other.value) : number = other := by
  have hdigits := value_digits_eq h
  have hl := Core.Numeration.value_lt number.fraction_digits
  have hr := Core.Numeration.value_lt other.fraction_digits
  have hbase : decimalNumeration.base = 10 := rfl
  rw [Core.Numeration.value, Core.Numeration.value, Core.positionalValue_append,
    Core.positionalValue_append, number.fraction_length, other.fraction_length] at hdigits
  rw [number.fraction_length] at hl
  rw [other.fraction_length] at hr
  have hpos : 0 < decimalNumeration.base ^ scale := Nat.pow_pos Core.Numeration.base_pos
  have hwhole : decimalNumeration.value number.whole = decimalNumeration.value other.whole := by
    have hquotient := congrArg (· / decimalNumeration.base ^ scale) hdigits
    simpa only [Nat.mul_comm _ (decimalNumeration.base ^ scale), Nat.mul_add_div hpos,
      Nat.div_eq_of_lt hl, Nat.div_eq_of_lt hr, Nat.add_zero] using hquotient
  have hfraction : number.fraction = other.fraction := by
    apply Core.Numeration.eq_of_length_eq number.fraction_digits other.fraction_digits
      (number.fraction_length.trans other.fraction_length.symm)
    rw [show Core.positionalValue decimalNumeration.base decimalNumeration.digit number.whole =
      Core.positionalValue decimalNumeration.base decimalNumeration.digit other.whole from hwhole]
      at hdigits
    exact Nat.add_left_cancel hdigits
  have hsign : number.negative = other.negative := by
    rw [Bool.eq_iff_iff, negative_iff, negative_iff, h]
  have hdigits' := whole_eq_of_value_eq hwhole
  cases number
  cases other
  simp only [mk.injEq]
  exact ⟨hsign, hdigits', hfraction⟩

/-- A canonical number is itself a literal. -/
def literal (number : CanonicalNumber scale) : NumericLiteral where
  sign := if number.negative then some '-' else none
  whole := number.whole
  fraction := if scale = 0 then none else some number.fraction
  sign_mem := by
    intro c hc
    split at hc
    · exact .inr (Option.some.inj hc).symm
    · cases hc
  whole_ne := by
    rcases number.whole_canonical with h | ⟨h, -⟩
    · rw [h]
      exact List.cons_ne_nil _ _
    · exact h
  whole_digits := number.whole_digits
  fraction_ne := by
    intro digits hdigits hempty
    split at hdigits
    · cases hdigits
    · next hscale =>
      apply hscale
      rw [← number.fraction_length, Option.some.inj hdigits, hempty]
      rfl
  fraction_digits := by
    intro digits hdigits
    split at hdigits
    · cases hdigits
    · rw [← Option.some.inj hdigits]
      exact number.fraction_digits

theorem text_literal : number.literal.text = number.text := by
  have hsign : number.literal.sign.toList = if number.negative then ['-'] else [] := by
    unfold literal
    by_cases hnegative : number.negative = true <;> simp [hnegative]
  have hdigits : number.literal.digits =
      number.whole ++ (if scale = 0 then [] else '.' :: number.fraction) := by
    unfold NumericLiteral.digits literal
    by_cases hscale : scale = 0 <;> simp [hscale]
  rw [NumericLiteral.text, hsign, hdigits, text, List.append_assoc]

theorem value_literal : number.literal.value = number.value := by
  unfold NumericLiteral.value value
  have hnegative : number.literal.negative = number.negative := by
    unfold NumericLiteral.negative literal
    by_cases hnegative : number.negative = true <;> simp [hnegative]
  have hfraction : number.literal.fraction.getD [] = number.fraction := by
    unfold literal
    by_cases hscale : scale = 0
    · have hempty := List.length_eq_zero_iff.mp (number.fraction_length.trans hscale)
      simp [hscale, hempty]
    · simp [hscale]
  rw [hnegative, hfraction]
  rfl

end CanonicalNumber

/-! ## Texts of types and literals -/

section Texts

theorem notMem_of_isDigit {c : Char} {digits : Text} (hc : c.isDigit = false)
    (h : decimalNumeration.Digits digits) : c ∉ digits := by
  intro hmem
  have hdigit : c.isDigit = true := h c hmem
  rw [hc] at hdigit
  cases hdigit

theorem digits_toDigits (number : Nat) : decimalNumeration.Digits (Nat.toDigits 10 number) :=
  fun _ hc => Nat.isDigit_of_mem_toDigits (by decide) (by decide) hc

theorem decimalType_eq (precision scale : Nat) :
    decimalType precision scale = "decimal(".toList ++
      ((Nat.toDigits 10 precision ++ ',' :: Nat.toDigits 10 scale) ++ [')']) := by
  unfold decimalType
  rw [List.append_assoc, List.append_assoc, List.append_assoc]

/-- The dimensions of a decimal type are read back from its text. -/
theorem parseDecimalDimensions_decimalType {precision scale : Nat}
    (hsize : IsDecimalSize precision scale) :
    parseDecimalDimensions (decimalType precision scale) = .ok (precision, scale) := by
  have htext : decimalType precision scale = "decimal(".toList ++
      ((Nat.toDigits 10 precision ++ ',' :: Nat.toDigits 10 scale) ++ [')']) :=
    decimalType_eq precision scale
  have hcomma : ',' ∉ Nat.toDigits 10 precision :=
    notMem_of_isDigit (by decide) (digits_toDigits precision)
  have hprecision : precision < 2 ^ 64 := by
    have hle := hsize.precision_le
    omega
  have hscale : scale < 2 ^ 64 := by
    have hle := hsize.scale_le
    omega
  have hbounds : (precision == 0 || precision > 65 || scale > 30 || scale > precision) = false := by
    simp [Nat.ne_of_gt hsize.positive, hsize.precision_le, hsize.scale_le, hsize.scale_le_precision]
  have hstrip := stripPrefix_append "decimal(".toList
    ((Nat.toDigits 10 precision ++ ',' :: Nat.toDigits 10 scale) ++ [')'])
  rw [← htext] at hstrip
  unfold parseDecimalDimensions
  rw [hstrip, Option.bind_eq_bind, Option.bind_some, stripSuffix_append, Option.bind_eq_bind,
    Option.bind_some, splitOnce_singleton hcomma, Option.bind_eq_bind, Option.bind_some]
  dsimp only
  rw [SyncSchema.parseU64_toDigits hprecision, Option.bind_some,
    SyncSchema.parseU64_toDigits hscale, Option.bind_some]
  exact if_neg (by rw [hbounds]; exact Bool.false_ne_true)

/-- A decimal type is none of the other numeric types. -/
theorem normalizeNumericDefault_decimalType (format : FloatFormat) (precision scale : Nat)
    (literal : Text) :
    normalizeNumericDefault format (decimalType precision scale) literal =
      normalizeDecimal (decimalType precision scale) false literal := by
  have htext : ∃ rest, decimalType precision scale = "decimal(".toList ++ (rest ++ [')']) :=
    ⟨_, decimalType_eq precision scale⟩
  obtain ⟨rest, htext⟩ := htext
  have hsuffix : " unsigned".toList.isSuffixOf (decimalType precision scale) = false := by
    rw [← Bool.not_eq_true, List.isSuffixOf_iff_suffix, htext]
    intro hsuffix
    obtain ⟨front, hfront⟩ := hsuffix
    have hlast := congrArg List.getLast? hfront
    rw [← List.append_assoc, List.getLast?_append, List.getLast?_append] at hlast
    simp at hlast
  have hnotMem : ∀ kinds : List Text, (∀ kind ∈ kinds, ')' ∉ kind) →
      kinds.contains (decimalType precision scale) = false := by
    intro kinds hkinds
    rw [← Bool.not_eq_true, List.contains_iff_mem]
    intro hmem
    apply hkinds _ hmem
    rw [htext]
    simp
  have hprefix : "decimal(".toList.isPrefixOf (decimalType precision scale) = true := by
    rw [List.isPrefixOf_iff_prefix, htext]
    exact List.prefix_append _ _
  unfold normalizeNumericDefault
  simp only [stripSuffix?, hsuffix, Bool.false_eq_true, ite_false, Option.getD_none,
    hnotMem integerKinds (by decide), hnotMem floatKinds (by decide), hprefix, ite_true]

/-- An integer type is taken apart into its kind and its sign. -/
theorem normalizeNumericDefault_signedType (format : FloatFormat) {kind : Text}
    (hkind : kind ∈ integerKinds) (unsigned : Bool) (literal : Text) :
    normalizeNumericDefault format (signedType kind unsigned) literal =
      normalizeInteger kind unsigned literal := by
  have hall : ∀ kind ∈ integerKinds, ∀ unsigned : Bool,
      " unsigned".toList.isSuffixOf (signedType kind unsigned) = unsigned ∧
        (stripSuffix? " unsigned".toList (signedType kind unsigned)).getD
          (signedType kind unsigned) = kind := by decide
  obtain ⟨hsuffix, hstrip⟩ := hall kind hkind unsigned
  have hcontains : integerKinds.contains kind = true := List.contains_iff_mem.mpr hkind
  unfold normalizeNumericDefault
  simp only [hsuffix, hstrip, hcontains, ite_true]

variable {literal : NumericLiteral}

/-- The digits of a literal begin with a digit. -/
theorem NumericLiteral.digits_cons (literal : NumericLiteral) :
    ∃ c rest, literal.digits = c :: rest ∧ c.isDigit = true := by
  obtain ⟨c, rest, hwhole⟩ := List.exists_cons_of_ne_nil literal.whole_ne
  have hc : c.isDigit = true := literal.whole_digits c (by simp [hwhole])
  cases hfraction : literal.fraction with
  | none => exact ⟨c, rest, by simp [digits, hfraction, hwhole], hc⟩
  | some fraction => exact ⟨c, rest ++ '.' :: fraction, by simp [digits, hfraction, hwhole], hc⟩

/-- The text of a literal by its sign. -/
theorem NumericLiteral.text_cases (literal : NumericLiteral) :
    (literal.text = literal.digits ∧ literal.negative = false) ∨
      (literal.text = '+' :: literal.digits ∧ literal.negative = false) ∨
      (literal.text = '-' :: literal.digits ∧ literal.negative = true) := by
  cases hsign : literal.sign with
  | none => exact .inl ⟨by simp [text, hsign], by simp [negative, hsign]⟩
  | some c =>
    obtain rfl | rfl := literal.sign_mem c hsign
    · exact .inr (.inl ⟨by simp [text, hsign], by simp [negative, hsign]⟩)
    · exact .inr (.inr ⟨by simp [text, hsign], by simp [negative, hsign]⟩)

theorem decimalSign_text : decimalSign false literal.text = .ok (literal.negative, literal.digits) := by
  obtain ⟨c, rest, hdigits, hc⟩ := literal.digits_cons
  rcases literal.text_cases with ⟨htext, hnegative⟩ | ⟨htext, hnegative⟩ | ⟨htext, hnegative⟩
  · have hminus : (c == '-') = false := by
      rw [beq_eq_false_iff_ne]
      rintro rfl
      cases hc
    have hplus : (c == '+') = false := by
      rw [beq_eq_false_iff_ne]
      rintro rfl
      cases hc
    rw [htext, hnegative, hdigits]
    simp [decimalSign, hminus, hplus]
  · rw [htext, hnegative]
    rfl
  · rw [htext, hnegative]
    rfl

theorem splitOnce_digits :
    (splitOnce ['.'] literal.digits).getD (literal.digits, []) =
      (literal.whole, literal.fraction.getD []) := by
  have hpoint : '.' ∉ literal.whole := notMem_of_isDigit (by decide) literal.whole_digits
  cases hfraction : literal.fraction with
  | none =>
    have hdigits : literal.digits = literal.whole := by simp [NumericLiteral.digits, hfraction]
    rw [hdigits, splitOnce_singleton_eq_none hpoint]
    rfl
  | some fraction =>
    have hdigits : literal.digits = literal.whole ++ '.' :: fraction := by
      simp [NumericLiteral.digits, hfraction]
    rw [hdigits, splitOnce_singleton hpoint]
    rfl

end Texts

/-! ## Significant digits -/

/-- Digits around a point without insignificant zeros. -/
structure IsSignificant (whole fraction : Text) : Prop where
  whole_digits : decimalNumeration.Digits whole
  whole_trimmed : decimalNumeration.Trimmed whole
  fraction_digits : decimalNumeration.Digits fraction
  fraction_trimmed : fraction.getLast? ≠ some '0'

section Significant

theorem eq_zeros_append_dropWhile (whole : Text) :
    ∃ count, whole = List.replicate count '0' ++ whole.dropWhile (· == '0') := by
  refine ⟨(whole.takeWhile (· == '0')).length, ?_⟩
  have hzeros : whole.takeWhile (· == '0') =
      List.replicate (whole.takeWhile (· == '0')).length '0' :=
    List.eq_replicate_of_mem fun c hc => by simpa using List.mem_takeWhile_imp hc
  rw [← hzeros, List.takeWhile_append_dropWhile]

theorem head?_dropWhile_zero (whole : Text) :
    (whole.dropWhile (· == '0')).head? ≠ some '0' := by
  intro h
  have hnot := List.head?_dropWhile_not (· == '0') whole
  rw [h] at hnot
  exact absurd hnot (by decide)

theorem eq_trimEndMatches_append_zeros (fraction : Text) :
    ∃ count, fraction = trimEndMatches (· == '0') fraction ++ List.replicate count '0' := by
  obtain ⟨count, hcount⟩ := eq_zeros_append_dropWhile fraction.reverse
  refine ⟨count, ?_⟩
  have hreverse := congrArg List.reverse hcount
  rwa [List.reverse_reverse, List.reverse_append, List.reverse_replicate] at hreverse

theorem getLast?_trimEndMatches_zero (fraction : Text) :
    (trimEndMatches (· == '0') fraction).getLast? ≠ some '0' := by
  unfold trimEndMatches
  rw [List.getLast?_reverse]
  exact head?_dropWhile_zero fraction.reverse

theorem isSignificant_trim {whole fraction : Text} (hwhole : decimalNumeration.Digits whole)
    (hfraction : decimalNumeration.Digits fraction) :
    IsSignificant (whole.dropWhile (· == '0')) (trimEndMatches (· == '0') fraction) where
  whole_digits := fun c hc => hwhole c ((List.dropWhile_sublist _).subset hc)
  whole_trimmed := head?_dropWhile_zero whole
  fraction_digits := by
    obtain ⟨count, hcount⟩ := eq_trimEndMatches_append_zeros fraction
    intro c hc
    apply hfraction
    rw [hcount]
    exact List.mem_append_left _ hc
  fraction_trimmed := getLast?_trimEndMatches_zero fraction

theorem pointValue_trim (negative : Bool) (whole fraction : Text) :
    pointValue negative (whole.dropWhile (· == '0')) (trimEndMatches (· == '0') fraction) =
      pointValue negative whole fraction := by
  obtain ⟨count, hcount⟩ := eq_zeros_append_dropWhile whole
  obtain ⟨count', hcount'⟩ := eq_trimEndMatches_append_zeros fraction
  conv_rhs => rw [hcount, hcount']
  rw [pointValue_zeros_left, pointValue_zeros_right]

variable {negative : Bool} {whole fraction : Text} {precision scale : Nat}

/-- Ten does not divide digits that end with a significant fraction. -/
theorem IsSignificant.not_ten_dvd (h : IsSignificant whole fraction) (hne : fraction ≠ []) :
    ¬ 10 ∣ decimalNumeration.value (whole ++ fraction) := by
  intro hdvd
  obtain ⟨front, d, rfl⟩ := (List.eq_nil_or_concat' fraction).resolve_left hne
  rw [← List.append_assoc] at hdvd
  have hd : decimalNumeration.IsDigit d := h.fraction_digits d (by simp)
  have hzero : d = '0' := Core.Numeration.eq_zero_of_base_dvd hd hdvd
  apply h.fraction_trimmed
  rw [List.getLast?_concat, hzero]

/-- Some digits around the point are not zero. -/
theorem IsSignificant.value_ne_zero (h : IsSignificant whole fraction)
    (hne : whole ≠ [] ∨ fraction ≠ []) : decimalNumeration.value (whole ++ fraction) ≠ 0 := by
  intro hzero
  rcases hne with hne | hne
  · obtain ⟨d, rest, rfl⟩ := List.exists_cons_of_ne_nil hne
    have hdigits : decimalNumeration.Digits (d :: (rest ++ fraction)) :=
      h.whole_digits.append h.fraction_digits
    have hpow := Core.Numeration.pow_le_value hdigits h.whole_trimmed
    have hpos : 0 < decimalNumeration.base ^ (rest ++ fraction).length :=
      Nat.pow_pos Core.Numeration.base_pos
    rw [List.cons_append] at hzero
    omega
  · apply h.not_ten_dvd hne
    rw [hzero]
    exact Nat.dvd_zero 10

/-- A number has few enough digits exactly when a column with these dimensions holds it. -/
theorem IsSignificant.represents_iff (h : IsSignificant whole fraction) (negative : Bool)
    (hscale : scale ≤ precision) :
    (∃ n : ℤ, pointValue negative whole fraction = n / 10 ^ scale ∧ n.natAbs < 10 ^ precision) ↔
      fraction.length ≤ scale ∧ whole.length ≤ precision - scale := by
  have hlength := Core.Numeration.length_le_iff h.whole_digits h.whole_trimmed
  have hvalue : decimalNumeration.value (whole ++ fraction) =
      decimalNumeration.value whole * 10 ^ fraction.length + decimalNumeration.value fraction :=
    Core.positionalValue_append _ _ whole fraction
  constructor
  · rintro ⟨n, hn, hlt⟩
    have hcross := natAbs_of_pointValue_eq hn
    have hfraction : fraction.length ≤ scale := by
      by_contra hlong
      have hne : fraction ≠ [] := by
        rintro rfl
        exact hlong (Nat.zero_le scale)
      apply h.not_ten_dvd hne
      obtain ⟨extra, hextra⟩ := Nat.exists_eq_add_of_lt (Nat.lt_of_not_le hlong)
      rw [hextra, Nat.add_assoc, Nat.pow_add, ← Nat.mul_assoc, Nat.mul_right_comm] at hcross
      have hcancel := Nat.eq_of_mul_eq_mul_right (Nat.pow_pos (by decide)) hcross
      rw [hcancel, Nat.pow_succ, ← Nat.mul_assoc]
      exact Nat.dvd_mul_left 10 _
    refine ⟨hfraction, (hlength _).mpr ?_⟩
    have hwhole : decimalNumeration.value whole * 10 ^ scale ≤ n.natAbs := by
      have hle : decimalNumeration.value whole * 10 ^ fraction.length * 10 ^ scale ≤
          n.natAbs * 10 ^ fraction.length := by
        rw [← hcross, hvalue]
        exact Nat.mul_le_mul_right _ (Nat.le_add_right _ _)
      rw [Nat.mul_right_comm] at hle
      exact Nat.le_of_mul_le_mul_right hle (Nat.pow_pos (by decide))
    have hpow : (10 : Nat) ^ precision = 10 ^ (precision - scale) * 10 ^ scale := by
      rw [← Nat.pow_add, Nat.sub_add_cancel hscale]
    rw [hpow] at hlt
    exact Nat.lt_of_mul_lt_mul_right (Nat.lt_of_le_of_lt hwhole hlt)
  · rintro ⟨hfraction, hwhole⟩
    refine ⟨(if negative then -1 else 1) *
      (decimalNumeration.value (whole ++ fraction) * 10 ^ (scale - fraction.length) : Nat), ?_, ?_⟩
    · have hpow : (10 : ℚ) ^ scale = 10 ^ (scale - fraction.length) * 10 ^ fraction.length := by
        rw [← pow_add, Nat.sub_add_cancel hfraction]
      unfold pointValue
      push_cast
      rw [hpow, mul_div_assoc, mul_comm ((10 : ℚ) ^ (scale - fraction.length)),
        mul_div_mul_right _ _ (pow_ne_zero _ (by norm_num))]
    · have hsign : ((if negative then -1 else 1) *
          (decimalNumeration.value (whole ++ fraction) * 10 ^ (scale - fraction.length) : Nat) :
            ℤ).natAbs =
          decimalNumeration.value (whole ++ fraction) * 10 ^ (scale - fraction.length) := by
        cases negative
        · simp only [Bool.false_eq_true, ite_false, one_mul, Int.natAbs_natCast]
        · simp only [ite_true, neg_mul, one_mul, Int.natAbs_neg, Int.natAbs_natCast]
      rw [hsign]
      have hlt := Core.Numeration.value_lt (h.whole_digits.append h.fraction_digits)
      calc decimalNumeration.value (whole ++ fraction) * 10 ^ (scale - fraction.length)
          < 10 ^ (whole ++ fraction).length * 10 ^ (scale - fraction.length) :=
            Nat.mul_lt_mul_of_pos_right hlt (Nat.pow_pos (by decide))
        _ = 10 ^ (whole.length + scale) := by
            rw [← Nat.pow_add, List.length_append, Nat.add_assoc, Nat.add_sub_cancel' hfraction]
        _ ≤ 10 ^ precision := Nat.pow_le_pow_right (by decide) (by omega)

/-- The canonical writing of significant digits. -/
def IsSignificant.canonical (h : IsSignificant whole fraction) (negative : Bool)
    (hfraction : fraction.length ≤ scale) : CanonicalNumber scale where
  negative := negative && (!whole.isEmpty || !fraction.isEmpty)
  whole := if whole.isEmpty then ['0'] else whole
  fraction := fraction ++ List.replicate (scale - fraction.length) '0'
  whole_digits := by
    split
    · exact List.forall_mem_singleton.mpr decimalNumeration.isDigit_zero
    · exact h.whole_digits
  whole_canonical := by
    split
    · exact .inl rfl
    · next hne => exact .inr ⟨by simpa using hne, h.whole_trimmed⟩
  fraction_digits := h.fraction_digits.append (Core.Numeration.Digits.zeros _)
  fraction_length := by
    rw [List.length_append, List.length_replicate, Nat.add_sub_cancel' hfraction]
  not_negative_zero := by
    intro hnegative
    have hne : whole ≠ [] ∨ fraction ≠ [] := by
      simpa using (Bool.and_eq_true_iff.mp hnegative).2
    have hdigits : decimalNumeration.value
        ((if whole.isEmpty then ['0'] else whole) ++
          (fraction ++ List.replicate (scale - fraction.length) '0')) =
        decimalNumeration.value (whole ++ fraction) * 10 ^ (scale - fraction.length) := by
      rw [← List.append_assoc]
      refine (@Core.Numeration.value_append_zeros _ decimalNumeration _ _).trans ?_
      cases whole with
      | nil =>
        exact congrArg (· * _) (Core.positionalValue_replicate_append 10 decimalDigit
          (show decimalDigit '0' = 0 from rfl) 1 fraction)
      | cons d rest => rfl
    rw [hdigits]
    exact Nat.mul_ne_zero (h.value_ne_zero hne) (Nat.ne_of_gt (Nat.pow_pos (by decide)))

theorem IsSignificant.value_canonical (h : IsSignificant whole fraction)
    (hfraction : fraction.length ≤ scale) :
    (h.canonical negative hfraction).value = pointValue negative whole fraction := by
  unfold CanonicalNumber.value canonical
  rw [pointValue_zeros_right]
  by_cases hwhole : whole = []
  · subst hwhole
    have hzero : pointValue negative (List.replicate 1 '0' ++ []) fraction =
        pointValue negative [] fraction := pointValue_zeros_left 1
    rw [List.append_nil] at hzero
    by_cases hempty : fraction = []
    · subst hempty
      cases negative <;> simp [pointValue, Core.positionalValue, decimalNumeration, decimalDigit]
    · have hnot : fraction.isEmpty = false := by simpa using hempty
      simpa [hnot] using hzero
  · have hnot : whole.isEmpty = false := by simpa using hwhole
    simp [hnot]

end Significant

/-! ## Normalization -/

section Normalization

variable {literal : NumericLiteral}

/-- A literal does not end with the point. -/
theorem NumericLiteral.point_not_suffix (literal : NumericLiteral) :
    ['.'].isSuffixOf literal.digits = false := by
  rw [← Bool.not_eq_true, List.isSuffixOf_iff_suffix]
  rintro ⟨front, hfront⟩
  have hlast : literal.digits.getLast? = some '.' := by
    rw [← hfront, List.getLast?_concat]
  have hdigit : ∀ {digits : Text}, decimalNumeration.Digits digits → digits.getLast? ≠ some '.' := by
    intro digits hdigits h
    exact notMem_of_isDigit (by decide) hdigits (List.mem_of_getLast? h)
  cases hfraction : literal.fraction with
  | none =>
    apply hdigit literal.whole_digits
    rw [← hlast, digits, hfraction]
  | some fraction =>
    apply hdigit (literal.fraction_digits fraction hfraction)
    have hdigits : literal.digits = literal.whole ++ '.' :: fraction := by rw [digits, hfraction]
    obtain ⟨front, d, rfl⟩ := (List.eq_nil_or_concat' fraction).resolve_left
      (literal.fraction_ne fraction hfraction)
    rw [← hlast, hdigits, List.getLast?_concat, ← List.cons_append, ← List.append_assoc,
      List.getLast?_concat]

theorem NumericLiteral.digits_getD (literal : NumericLiteral) :
    decimalNumeration.Digits (literal.fraction.getD []) := by
  cases hfraction : literal.fraction with
  | none => exact fun _ h => absurd h List.not_mem_nil
  | some fraction => exact literal.fraction_digits fraction hfraction

/-- The significant digits of a literal. -/
theorem NumericLiteral.significant (literal : NumericLiteral) :
    IsSignificant (literal.whole.dropWhile (· == '0'))
      (trimEndMatches (· == '0') (literal.fraction.getD [])) :=
  isSignificant_trim literal.whole_digits literal.digits_getD

theorem trimmedWhole_beq (whole : Text) :
    (trimmedWhole whole == ['0']) = (whole.dropWhile (· == '0')).isEmpty := by
  have hhead := head?_dropWhile_zero whole
  unfold trimmedWhole
  dsimp only
  generalize whole.dropWhile (· == '0') = trimmed at hhead
  cases trimmed with
  | nil => decide
  | cons c rest =>
    have hc : (c == '0') = false := by
      rw [beq_eq_false_iff_ne]
      rintro rfl
      exact hhead rfl
    simp [hc]

/-- A decimal literal is normalized if its significant digits fit, to their canonical text. -/
theorem normalizeDecimal_text {precision scale : Nat} (hsize : IsDecimalSize precision scale)
    (literal : NumericLiteral) :
    normalizeDecimal (decimalType precision scale) false literal.text =
      if h : (trimEndMatches (· == '0') (literal.fraction.getD [])).length ≤ scale ∧
          (literal.whole.dropWhile (· == '0')).length ≤ precision - scale then
        .ok (literal.significant.canonical literal.negative h.1).text
      else .error "decimal default out of range" := by
  have hvalid : (literal.whole.isEmpty || ['.'].isSuffixOf literal.digits ||
      !literal.whole.all Char.isDigit || !(literal.fraction.getD []).all Char.isDigit) = false := by
    have hall : literal.whole.all Char.isDigit = true := List.all_eq_true.mpr literal.whole_digits
    have hall' : (literal.fraction.getD []).all Char.isDigit = true :=
      List.all_eq_true.mpr literal.digits_getD
    have hne : literal.whole.isEmpty = false := by simpa using literal.whole_ne
    rw [literal.point_not_suffix, hall, hall', hne]
    rfl
  have hsignificant : (if trimmedWhole literal.whole == ['0'] then 0
      else (trimmedWhole literal.whole).length) = (literal.whole.dropWhile (· == '0')).length := by
    rw [trimmedWhole_beq]
    by_cases hempty : (literal.whole.dropWhile (· == '0')).isEmpty = true
    · rw [if_pos hempty, List.isEmpty_iff.mp hempty]
      rfl
    · rw [if_neg hempty, trimmedWhole, if_neg hempty]
  have hrefused : refuseIf false "invalid decimal default" = .ok () := rfl
  unfold normalizeDecimal
  rw [parseDecimalDimensions_decimalType hsize, ok_bind]
  dsimp only
  rw [decimalSign_text, ok_bind]
  dsimp only
  rw [splitOnce_digits]
  dsimp only
  rw [hvalid, hrefused, ok_bind, hsignificant]
  by_cases h : (trimEndMatches (· == '0') (literal.fraction.getD [])).length ≤ scale ∧
      (literal.whole.dropWhile (· == '0')).length ≤ precision - scale
  · have hfits : (decide ((trimEndMatches (· == '0') (literal.fraction.getD [])).length > scale) ||
        decide ((literal.whole.dropWhile (· == '0')).length > precision - scale)) = false := by
      simp only [Bool.or_eq_false_iff, decide_eq_false_iff_not, Nat.not_lt]
      exact h
    have hpasses : refuseIf false "decimal default out of range" = .ok () := rfl
    rw [dif_pos h, hfits, hpasses, ok_bind, bne, trimmedWhole_beq]
    unfold CanonicalNumber.text IsSignificant.canonical
    by_cases hscale : scale = 0
    · subst hscale
      simp [trimmedWhole, pure, Except.pure]
    · simp [hscale, trimmedWhole, pure, Except.pure]
  · have hfits : (decide ((trimEndMatches (· == '0') (literal.fraction.getD [])).length > scale) ||
        decide ((literal.whole.dropWhile (· == '0')).length > precision - scale)) = true := by
      rw [Bool.or_eq_true, decide_eq_true_iff, decide_eq_true_iff]
      omega
    rw [dif_neg h, hfits]
    rfl

end Normalization

/-! ## Integers -/

section Integers

variable {literal : NumericLiteral}

/-- The integer a literal without a fraction denotes. -/
def NumericLiteral.integer (literal : NumericLiteral) : Int :=
  (if literal.negative then -1 else 1) * (decimalNumeration.value literal.whole : Nat)

theorem NumericLiteral.value_of_fraction_none (h : literal.fraction = none) :
    literal.value = literal.integer := by
  unfold value integer pointValue
  rw [h]
  cases literal.negative <;> simp

theorem digitsValue_of_digits {digits : Text} (hne : digits ≠ [])
    (h : decimalNumeration.Digits digits) :
    digitsValue digits = some (decimalNumeration.value digits) := by
  have hall : digits.all Char.isDigit = true := List.all_eq_true.mpr h
  have hempty : digits.isEmpty = false := by simpa using hne
  unfold digitsValue
  rw [hall, hempty]
  rfl

theorem digitsValue_point (whole fraction : Text) : digitsValue (whole ++ '.' :: fraction) = none := by
  have hpoint : Char.isDigit '.' = false := by decide
  unfold digitsValue
  simp [hpoint]

/-- A literal is read as an integer of 128 bits if it has no fraction and is in range. -/
theorem parseI128_text :
    parseI128 literal.text = (match literal.fraction with
      | none => some literal.integer
      | some _ => none).filter fun value => -(2 ^ 127) ≤ value && value < 2 ^ 127 := by
  have hdigits : digitsValue literal.digits = match literal.fraction with
      | none => some (decimalNumeration.value literal.whole)
      | some _ => none := by
    unfold NumericLiteral.digits
    cases literal.fraction with
    | none => exact digitsValue_of_digits literal.whole_ne literal.whole_digits
    | some fraction => exact digitsValue_point _ _
  obtain ⟨c, rest, hcons, hc⟩ := literal.digits_cons
  unfold parseI128 NumericLiteral.integer
  rcases literal.text_cases with ⟨htext, hnegative⟩ | ⟨htext, hnegative⟩ | ⟨htext, hnegative⟩
  · have hminus : (c == '-') = false := by
      rw [beq_eq_false_iff_ne]
      rintro rfl
      cases hc
    have hplus : (c == '+') = false := by
      rw [beq_eq_false_iff_ne]
      rintro rfl
      cases hc
    rw [htext, hnegative, hcons]
    dsimp only
    rw [hminus, hplus, ← hcons, hdigits]
    cases literal.fraction <;> simp
  · rw [htext, hnegative]
    dsimp only
    rw [hdigits]
    cases literal.fraction <;> simp
  · rw [htext, hnegative]
    dsimp only
    rw [hdigits]
    cases literal.fraction <;> simp

/-- The ranges of the integer columns are within 128 bits. -/
theorem integer_range (kind : Text) (unsigned : Bool) :
    -(2 ^ 127) ≤ integerLower kind unsigned ∧ integerUpper kind unsigned < 2 ^ 127 := by
  have hbits : integerBits kind ∈ [8, 16, 24, 32, 64] := by
    unfold integerBits
    split_ifs <;> decide
  have hall : ∀ bits ∈ [8, 16, 24, 32, 64], ∀ unsigned : Bool,
      -(2 ^ 127 : Int) ≤ (if unsigned then 0 else -(2 ^ (bits - 1))) ∧
        (if unsigned then 2 ^ bits - 1 else 2 ^ (bits - 1) - 1) < (2 ^ 127 : Int) := by decide
  exact hall _ hbits unsigned

/-- An integer literal is normalized if it is in range, a literal with a fraction never. -/
theorem normalizeInteger_text (kind : Text) (unsigned : Bool) (literal : NumericLiteral) :
    normalizeInteger kind unsigned literal.text =
      match literal.fraction with
      | none =>
        if integerLower kind unsigned ≤ literal.integer ∧
            literal.integer ≤ integerUpper kind unsigned then .ok (integerText literal.integer)
        else if -(2 ^ 127) ≤ literal.integer ∧ literal.integer < 2 ^ 127 then
          .error "integer default out of range"
        else .error "invalid integer default"
      | some _ => .error "invalid integer default" := by
  obtain ⟨hlower, hupper⟩ := integer_range kind unsigned
  unfold normalizeInteger
  rw [parseI128_text]
  cases literal.fraction with
  | some fraction => rfl
  | none =>
    have hfilter : (decide (-(2 ^ 127) ≤ literal.integer) && decide (literal.integer < 2 ^ 127)) =
        decide (-(2 ^ 127) ≤ literal.integer ∧ literal.integer < 2 ^ 127) :=
      (Bool.decide_and _ _).symm
    dsimp only
    rw [Option.filter_some, hfilter]
    by_cases hrange : -(2 ^ 127) ≤ literal.integer ∧ literal.integer < 2 ^ 127
    · rw [if_pos (decide_eq_true hrange), if_pos hrange]
      simp only [Bool.and_eq_true, decide_eq_true_iff]
    · have hnot : ¬ (integerLower kind unsigned ≤ literal.integer ∧
          literal.integer ≤ integerUpper kind unsigned) := by
        rintro ⟨hl, hu⟩
        exact hrange ⟨le_trans hlower hl, lt_of_le_of_lt hu hupper⟩
      rw [if_neg hnot, if_neg hrange, if_neg (by simpa using hrange)]

theorem value_toDigits (number : Nat) : decimalNumeration.value (Nat.toDigits 10 number) = number :=
  decimalValue_toDigits number

/-- The text of a positive number has no leading zero. -/
theorem trimmed_toDigits {number : Nat} (h : number ≠ 0) :
    decimalNumeration.Trimmed (Nat.toDigits 10 number) := by
  induction number using Nat.strongRecOn with
  | ind number ih =>
    by_cases hsmall : number < 10
    · have hall : ∀ digit < 10, digit ≠ 0 → Nat.digitChar digit ≠ '0' := by decide
      rw [Nat.toDigits_of_lt_base hsmall]
      intro hhead
      exact hall number hsmall h (Option.some.inj hhead)
    · rw [Nat.toDigits_of_base_le (by decide) (Nat.le_of_not_lt hsmall), Core.Numeration.Trimmed,
        List.head?_append_of_ne_nil _ Nat.toDigits_ne_nil]
      exact ih (number / 10) (by omega) (by omega)

/-- The text of an integer is canonical. -/
def canonicalInteger (value : Int) : CanonicalNumber 0 where
  negative := decide (value < 0)
  whole := Nat.toDigits 10 value.natAbs
  fraction := []
  whole_digits := digits_toDigits _
  whole_canonical := by
    by_cases hzero : value.natAbs = 0
    · rw [hzero]
      exact .inl rfl
    · exact .inr ⟨Nat.toDigits_ne_nil, trimmed_toDigits hzero⟩
  fraction_digits := fun _ h => absurd h List.not_mem_nil
  fraction_length := rfl
  not_negative_zero := by
    intro hnegative
    rw [List.append_nil, value_toDigits]
    have hlt : value < 0 := of_decide_eq_true hnegative
    omega

theorem text_canonicalInteger (value : Int) : (canonicalInteger value).text = integerText value := by
  unfold CanonicalNumber.text canonicalInteger integerText
  simp

theorem value_canonicalInteger (value : Int) : (canonicalInteger value).value = value := by
  unfold CanonicalNumber.value canonicalInteger pointValue
  rw [List.append_nil, value_toDigits]
  by_cases hnegative : value < 0
  · have habs : (value.natAbs : ℚ) = -value := by
      rw [Nat.cast_natAbs, Int.cast_abs, abs_of_neg (by exact_mod_cast hnegative)]
    simp [hnegative, habs]
  · have habs : (value.natAbs : ℚ) = value := by
      rw [Nat.cast_natAbs, Int.cast_abs, abs_of_nonneg (by exact_mod_cast Int.not_lt.mp hnegative)]
    simp [hnegative, habs]

end Integers

/-! ## Exactness -/

section Exactness

variable {format : FloatFormat} {column : NumericColumn} {literal : NumericLiteral}

/-- An accepted literal is stored as the canonical text of its value. -/
theorem exists_canonical (format : FloatFormat) (htakes : column.Takes literal)
    (hrepresents : column.Represents literal.value) :
    ∃ number : CanonicalNumber column.scale, number.value = literal.value ∧
      normalizeNumericDefault format column.columnType literal.text = .ok number.text := by
  cases column with
  | integer kind hkind unsigned =>
    have hfraction : literal.fraction = none := htakes
    obtain ⟨n, hn, hlower, hupper⟩ := hrepresents
    rw [NumericLiteral.value_of_fraction_none hfraction] at hn
    obtain rfl : literal.integer = n := by exact_mod_cast hn
    refine ⟨canonicalInteger literal.integer, ?_, ?_⟩
    · exact (value_canonicalInteger _).trans (NumericLiteral.value_of_fraction_none hfraction).symm
    · rw [NumericColumn.columnType, normalizeNumericDefault_signedType format hkind,
        normalizeInteger_text, hfraction]
      dsimp only
      rw [if_pos ⟨hlower, hupper⟩]
      exact congrArg Except.ok (text_canonicalInteger literal.integer).symm
  | decimal precision scale hsize =>
    have hfits := (literal.significant.represents_iff _ hsize.scale_le_precision).mp (by
      rw [pointValue_trim]
      exact hrepresents)
    refine ⟨literal.significant.canonical literal.negative hfits.1, ?_, ?_⟩
    · exact (IsSignificant.value_canonical literal.significant hfits.1).trans (pointValue_trim _ _ _)
    · rw [NumericColumn.columnType, normalizeNumericDefault_decimalType,
        normalizeDecimal_text hsize, dif_pos hfits]
      rfl

/-- Only a literal the column takes, with a value it can hold, is accepted. -/
theorem takes_of_accepted {text : Text}
    (h : normalizeNumericDefault format column.columnType literal.text = .ok text) :
    column.Takes literal ∧ column.Represents literal.value := by
  cases column with
  | integer kind hkind unsigned =>
    rw [NumericColumn.columnType, normalizeNumericDefault_signedType format hkind,
      normalizeInteger_text] at h
    cases hfraction : literal.fraction with
    | some fraction =>
      rw [hfraction] at h
      cases h
    | none =>
      rw [hfraction] at h
      dsimp only at h
      split at h
      · next hrange =>
        exact ⟨hfraction, literal.integer, NumericLiteral.value_of_fraction_none hfraction, hrange⟩
      · split at h <;> cases h
  | decimal precision scale hsize =>
    rw [NumericColumn.columnType, normalizeNumericDefault_decimalType,
      normalizeDecimal_text hsize] at h
    split at h
    · next hfits =>
      have hrepresents := (literal.significant.represents_iff literal.negative
        hsize.scale_le_precision).mpr hfits
      rw [pointValue_trim] at hrepresents
      exact ⟨trivial, hrepresents⟩
    · cases h

/-- A canonical number has a form its column takes. -/
theorem CanonicalNumber.takes (number : CanonicalNumber column.scale) :
    column.Takes number.literal := by
  cases column with
  | integer kind hkind unsigned =>
    exact (if_pos rfl : (if (0 : Nat) = 0 then none else some number.fraction) = none)
  | decimal precision scale hsize => trivial

/-- A literal is accepted exactly when its column takes its form and holds its value, as the one
canonical text of the value, which normalizes to itself. -/
structure ExactDefault (format : FloatFormat) (column : NumericColumn) (literal : NumericLiteral) :
    Prop where
  accepted_iff : (∃ text, normalizeNumericDefault format column.columnType literal.text = .ok text) ↔
    column.Takes literal ∧ column.Represents literal.value
  canonical : ∀ text, normalizeNumericDefault format column.columnType literal.text = .ok text →
    ∃! number : CanonicalNumber column.scale, number.value = literal.value ∧ number.text = text
  unique : ∀ number other : CanonicalNumber column.scale, number.value = other.value →
    number.text = other.text
  idempotent : ∀ text, normalizeNumericDefault format column.columnType literal.text = .ok text →
    normalizeNumericDefault format column.columnType text = .ok text

theorem exactDefault (format : FloatFormat) (column : NumericColumn) (literal : NumericLiteral) :
    ExactDefault format column literal where
  accepted_iff := by
    constructor
    · rintro ⟨text, h⟩
      exact takes_of_accepted h
    · rintro ⟨htakes, hrepresents⟩
      obtain ⟨number, -, h⟩ := exists_canonical format htakes hrepresents
      exact ⟨number.text, h⟩
  canonical := by
    intro text h
    obtain ⟨htakes, hrepresents⟩ := takes_of_accepted h
    obtain ⟨number, hvalue, hnumber⟩ := exists_canonical format htakes hrepresents
    refine ⟨number, ⟨hvalue, Except.ok.inj (hnumber.symm.trans h)⟩, ?_⟩
    rintro other ⟨hother, -⟩
    exact CanonicalNumber.eq_of_value_eq (hother.trans hvalue.symm)
  unique := by
    intro number other h
    rw [CanonicalNumber.eq_of_value_eq h]
  idempotent := by
    intro text h
    obtain ⟨htakes, hrepresents⟩ := takes_of_accepted h
    obtain ⟨number, hvalue, hnumber⟩ := exists_canonical format htakes hrepresents
    obtain rfl : number.text = text := Except.ok.inj (hnumber.symm.trans h)
    -- The canonical text is a literal of the same value.
    have hsame : number.literal.value = literal.value :=
      CanonicalNumber.value_literal.trans hvalue
    obtain ⟨again, hagain, hnormal⟩ := exists_canonical format
      number.takes (by rw [hsame]; exact hrepresents)
    rw [CanonicalNumber.text_literal] at hnormal
    rw [hnormal, CanonicalNumber.eq_of_value_eq (hagain.trans (hsame.trans hvalue.symm))]

/-- The integer and decimal types of the type grammar. -/
theorem exists_numericColumn {columnType dataType : Text} (h : IsColumnType columnType dataType)
    (hnumeric : dataType ∈ integerKinds ∨ dataType = "decimal".toList) :
    ∃ column : NumericColumn, column.columnType = columnType ∧ column.dataType = dataType := by
  have hother : ∀ kinds ∈ [floatKinds, lengthKinds, temporalKinds, plainKinds, ["enum".toList]],
      ∀ kind ∈ kinds, ¬ (kind ∈ integerKinds ∨ kind = "decimal".toList) := by decide
  cases h with
  | integer hkind unsigned => exact ⟨.integer _ hkind unsigned, rfl, rfl⟩
  | decimal hsize => exact ⟨.decimal _ _ hsize, rfl, rfl⟩
  | float hkind => exact absurd hnumeric (hother floatKinds (by simp) _ hkind)
  | length hkind => exact absurd hnumeric (hother lengthKinds (by simp) _ hkind)
  | temporal hkind => exact absurd hnumeric (hother temporalKinds (by simp) _ hkind)
  | plain hkind => exact absurd hnumeric (hother plainKinds (by simp) _ hkind)
  | enumeration => exact absurd hnumeric (hother ["enum".toList] (by simp) _ (by simp))

/-- For every integer or decimal type the type parser accepts, a literal is normalized exactly if
the column takes its form and can hold its value, to the one canonical text of the value. -/
theorem normalizeNumericDefault_exact (format : FloatFormat) {tokens next : List DdlToken}
    {columnType dataType : Text} (h : parseColumnType tokens = .ok (columnType, dataType, next))
    (hnumeric : dataType ∈ integerKinds ∨ dataType = "decimal".toList) :
    ∃ column : NumericColumn, column.columnType = columnType ∧ column.dataType = dataType ∧
      ∀ literal : NumericLiteral, ExactDefault format column literal := by
  obtain ⟨column, hcolumn, hdata⟩ := exists_numericColumn (parseColumnType_ok h) hnumeric
  exact ⟨column, hcolumn, hdata, exactDefault format column⟩

theorem normalizeNumericDefault_exact_decimal :
    ∃ column : NumericColumn, column.columnType = "decimal(5,2)".toList ∧
      column.dataType = "decimal".toList ∧
      ∀ literal : NumericLiteral, ExactDefault emptyFormat column literal :=
  have hparsed : parseColumnType
      (["DECIMAL", "(", "5", ",", "2", ")"].map fun text => ⟨text.toList, false⟩) =
      .ok ("decimal(5,2)".toList, "decimal".toList, []) := by
    decide +kernel
  normalizeNumericDefault_exact emptyFormat hparsed (.inr rfl)

/-- One, written with a point. -/
def onePointZero : NumericLiteral where
  sign := none
  whole := ['1']
  fraction := some ['0']
  sign_mem := fun _ h => nomatch h
  whole_ne := by decide
  whole_digits := List.forall_mem_singleton.mpr (by decide : Char.isDigit '1' = true)
  fraction_ne := by
    rintro _ ⟨⟩
    decide
  fraction_digits := by
    rintro _ ⟨⟩
    exact List.forall_mem_singleton.mpr (by decide : Char.isDigit '0' = true)

/-- An integer column can hold one, but refuses it with a point. -/
theorem integer_refuses_point :
    parseColumnType [⟨"INT".toList, false⟩] = .ok ("int".toList, "int".toList, []) ∧
      (NumericColumn.integer "int".toList (by decide) false).Represents onePointZero.value ∧
      ¬ ∃ text, normalizeNumericDefault emptyFormat "int".toList onePointZero.text = .ok text := by
  refine ⟨by decide +kernel, ⟨1, ?_, by decide, by decide⟩, ?_⟩
  · simp [NumericLiteral.value, NumericLiteral.negative, pointValue, onePointZero,
      Core.positionalValue, decimalNumeration, decimalDigit]
  · rintro ⟨text, h⟩
    have hrefused : normalizeNumericDefault emptyFormat "int".toList onePointZero.text =
        .error "invalid integer default" := by decide +kernel
    rw [hrefused] at h
    cases h

end Exactness

end Ddl

end BinlogCdc
