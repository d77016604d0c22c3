import BinlogCdc.Binlog.CellReader

/-!
# Decimals in the binlog

A decimal of a precision and a scale is written in groups of nine digits, four bytes a group. The
first group of the integral part and the last group of the fraction have the digits that are left. The
sign is in the first bit, and a negative number has all its bits inverted. The reader makes the plain
text of the number of these bytes.
-/

namespace BinlogCdc.MysqlCdc

open BinlogCdc.Core

/-! ## The layout -/

/-- The text of a number, with as many digits behind the point as the scale says. -/
def decimalText (scale : Nat) (unscaled : Int) : Text :=
  (if unscaled < 0 then ['-'] else []) ++ Nat.toDigits 10 (unscaled.natAbs / 10 ^ scale) ++
    if scale = 0 then [] else '.' :: pad scale (unscaled.natAbs % 10 ^ scale)

/-- Groups of nine digits, the highest first. -/
def groupBytes : Nat → Nat → List UInt8
  | 0, _ => []
  | count + 1, number =>
    bigEndian 4 (number / 10 ^ (9 * count)) ++ groupBytes count (number % 10 ^ (9 * count))

/-- The bytes of a group of fewer than nine digits. -/
def packedWidth (digits : Nat) : Nat := (digits + 1) / 2

def integralBytes (digits number : Nat) : List UInt8 :=
  bigEndian (packedWidth (digits % 9)) (number / 10 ^ (9 * (digits / 9))) ++
    groupBytes (digits / 9) (number % 10 ^ (9 * (digits / 9)))

def fractionBytes (digits number : Nat) : List UInt8 :=
  groupBytes (digits / 9) (number / 10 ^ (digits % 9)) ++
    bigEndian (packedWidth (digits % 9)) (number % 10 ^ (digits % 9))

def magnitudeBytes (precision scale magnitude : Nat) : List UInt8 :=
  integralBytes (precision - scale) (magnitude / 10 ^ scale) ++
    fractionBytes scale (magnitude % 10 ^ scale)

/-- The first bit is inverted. -/
def flipSign : List UInt8 → List UInt8
  | [] => []
  | first :: others => (first ^^^ 0x80) :: others

def decimalBytes (precision scale : Nat) (unscaled : Int) : List UInt8 :=
  let bytes := magnitudeBytes precision scale unscaled.natAbs
  flipSign (if unscaled < 0 then bytes.map (· ^^^ 0xFF) else bytes)

/-- The metadata of a decimal column. -/
def decimalMetadata (precision scale : Nat) : UInt16 := UInt16.ofNat (precision + 256 * scale)

/-! ## Padded digits -/

/-- Digits of a width, which may be none. -/
def padded (width number : Nat) : Text := if width = 0 then [] else pad width number

theorem toDigits_digit {digit : Nat} (h : digit < 10) :
    Nat.toDigits 10 digit = [Nat.digitChar digit] :=
  Nat.toDigits_of_lt_base h

/-- A last digit is written behind the others. -/
theorem pad_succ {width number digit : Nat} (hpos : 0 < width ∨ 0 < number) (hdigit : digit < 10) :
    pad (width + 1) (10 * number + digit) = pad width number ++ [Nat.digitChar digit] := by
  by_cases hnumber : 0 < number
  · have hdigits : Nat.toDigits 10 (10 * number + digit) =
        Nat.toDigits 10 number ++ [Nat.digitChar digit] := by
      rw [← toDigits_digit hdigit, Nat.toDigits_append_toDigits (by decide) hnumber hdigit]
    rw [pad, pad, hdigits, List.length_append, List.length_singleton, Nat.add_sub_add_right,
      List.append_assoc]
  · obtain rfl : number = 0 := by omega
    obtain ⟨width, rfl⟩ : ∃ other, width = other + 1 := ⟨width - 1, by omega⟩
    have hzero : Nat.toDigits 10 0 = ['0'] := rfl
    rw [Nat.mul_zero, Nat.zero_add, pad, pad, toDigits_digit hdigit, hzero]
    simp [List.replicate_succ']

theorem padded_succ {width number digit : Nat} (hnumber : number < 10 ^ width) (hdigit : digit < 10) :
    padded (width + 1) (10 * number + digit) = padded width number ++ [Nat.digitChar digit] := by
  by_cases hwidth : width = 0
  · subst hwidth
    obtain rfl : number = 0 := by omega
    simp [padded, pad, toDigits_digit hdigit]
  · rw [padded, if_neg (by omega), padded, if_neg hwidth]
    exact pad_succ (Or.inl (by omega)) hdigit

/-- Digits of a width are written behind a number. -/
theorem pad_append (width number : Nat) {count low : Nat} (hpos : 0 < width ∨ 0 < number)
    (hlow : low < 10 ^ count) :
    pad (width + count) (number * 10 ^ count + low) = pad width number ++ padded count low := by
  induction count generalizing low with
  | zero =>
    obtain rfl : low = 0 := by omega
    simp [padded]
  | succ count ih =>
    have hquotient : low / 10 < 10 ^ count := Nat.div_lt_of_lt_mul (by rwa [← Nat.pow_succ'])
    have hsplit : number * 10 ^ (count + 1) + low =
        10 * (number * 10 ^ count + low / 10) + low % 10 := by
      rw [Nat.pow_succ]
      have hlow := Nat.div_add_mod low 10
      ring_nf
      omega
    have hpos' : 0 < width + count ∨ 0 < number * 10 ^ count + low / 10 := by
      rcases hpos with h | h
      · exact Or.inl (by omega)
      · exact Or.inr (Nat.add_pos_left (Nat.mul_pos h (Nat.pow_pos (by decide))) _)
    have hlast := padded_succ hquotient (Nat.mod_lt low (by decide : 0 < 10))
    rw [Nat.div_add_mod] at hlast
    rw [← Nat.add_assoc, hsplit, pad_succ hpos' (Nat.mod_lt low (by decide)), ih hquotient, hlast,
      List.append_assoc]

theorem padded_append {width number count low : Nat} (hnumber : number < 10 ^ width)
    (hlow : low < 10 ^ count) :
    padded (width + count) (number * 10 ^ count + low) = padded width number ++ padded count low := by
  by_cases hwidth : width = 0
  · subst hwidth
    obtain rfl : number = 0 := by omega
    simp [padded]
  · have hpad := pad_append width number (Or.inl (Nat.pos_of_ne_zero hwidth)) hlow
    simpa only [padded, if_neg hwidth, if_neg (show width + count ≠ 0 by omega)] using hpad

/-- The digits of a positive number and the digits of a width behind them. -/
theorem toDigits_append {number count low : Nat} (hnumber : 0 < number) (hlow : low < 10 ^ count) :
    Nat.toDigits 10 (number * 10 ^ count + low) = Nat.toDigits 10 number ++ padded count low := by
  have hpad := pad_append 0 number (Or.inr hnumber) hlow
  have hwidth : count ≤ (Nat.toDigits 10 (number * 10 ^ count + low)).length := by
    by_contra hshort
    have hle := (Nat.length_toDigits_le_iff (b := 10) (n := number * 10 ^ count + low) (k := count)
      (by decide) (by omega)).mp (by omega)
    have hge : 10 ^ count ≤ number * 10 ^ count := Nat.le_mul_of_pos_left _ hnumber
    omega
  rw [Nat.zero_add, pad, pad, Nat.zero_sub, List.replicate_zero, List.nil_append,
    Nat.sub_eq_zero_of_le hwidth, List.replicate_zero, List.nil_append] at hpad
  exact hpad

/-! ## Reading the groups -/

/-- What is known of the integral part when its digits so far make a number. -/
def integralState (sign : Text) (number : Nat) : Bool × Text :=
  (decide (0 < number), if 0 < number then sign ++ Nat.toDigits 10 number else sign)

theorem integralState_zero (sign : Text) : integralState sign 0 = (false, sign) := rfl

theorem integralState_pos (sign : Text) {number : Nat} (h : 0 < number) :
    integralState sign number = (true, sign ++ Nat.toDigits 10 number) := by
  rw [integralState, if_pos h, decide_eq_true h]

theorem reads_readBe {width number : Nat} (h : number < 256 ^ width) :
    Reads (readBe width) (bigEndian width number) number :=
  reads_beNumber _ h

theorem readIntegralGroups_succ (count : Nat) (started : Bool) (result : Text) :
    readIntegralGroups (count + 1) started result = readBe 4 >>= fun number =>
      if started then readIntegralGroups count true (result ++ pad 9 number)
      else if 0 < number then readIntegralGroups count true (result ++ Nat.toDigits 10 number)
      else readIntegralGroups count started result := rfl

/-- A group moves the integral part to the number with nine more digits. -/
theorem integralState_group (sign : Text) (count number : Nat) {group : Nat} (h : group < 10 ^ 9) :
    (if (integralState sign number).1 then
        readIntegralGroups count true ((integralState sign number).2 ++ pad 9 group)
      else if 0 < group then
        readIntegralGroups count true ((integralState sign number).2 ++ Nat.toDigits 10 group)
      else readIntegralGroups count (integralState sign number).1 (integralState sign number).2) =
    readIntegralGroups count (integralState sign (number * 10 ^ 9 + group)).1
      (integralState sign (number * 10 ^ 9 + group)).2 := by
  by_cases hnumber : 0 < number
  · have hpos : 0 < number * 10 ^ 9 + group := by omega
    rw [integralState_pos sign hnumber, integralState_pos sign hpos, if_pos rfl,
      toDigits_append hnumber h, List.append_assoc]
    rfl
  · obtain rfl : number = 0 := by omega
    rw [integralState_zero, Nat.zero_mul, Nat.zero_add, if_neg (by simp)]
    by_cases hgroup : 0 < group
    · rw [integralState_pos sign hgroup, if_pos hgroup]
    · obtain rfl : group = 0 := by omega
      rw [integralState_zero, if_neg (by simp)]

/-- The first group of some groups. -/
theorem group_lt {count number : Nat} (h : number < 10 ^ (9 * (count + 1))) :
    number / 10 ^ (9 * count) < 10 ^ 9 :=
  Nat.div_lt_of_lt_mul (by rwa [← Nat.pow_add, ← Nat.mul_succ])

theorem reads_readIntegralGroups (sign : Text) (count number : Nat) {low : Nat}
    (h : low < 10 ^ (9 * count)) :
    Reads (readIntegralGroups count (integralState sign number).1 (integralState sign number).2)
      (groupBytes count low) (integralState sign (number * 10 ^ (9 * count) + low)) := by
  induction count generalizing number low with
  | zero =>
    obtain rfl : low = 0 := by omega
    rw [Nat.mul_zero, Nat.pow_zero, Nat.mul_one, Nat.add_zero]
    exact .pure _
  | succ count ih =>
    have hgroup := group_lt h
    have hrest := ih (number * 10 ^ 9 + low / 10 ^ (9 * count))
      (Nat.mod_lt low (Nat.pow_pos (by decide)))
    rw [← integralState_group sign count number hgroup] at hrest
    have hsplit := Nat.div_add_mod' low (10 ^ (9 * count))
    have hnumber : (number * 10 ^ 9 + low / 10 ^ (9 * count)) * 10 ^ (9 * count) +
        low % 10 ^ (9 * count) = number * 10 ^ (9 * (count + 1)) + low := by
      rw [Nat.add_mul, Nat.mul_assoc, ← Nat.pow_add, Nat.add_assoc, hsplit, Nat.mul_succ,
        Nat.add_comm 9]
    rw [hnumber] at hrest
    rw [readIntegralGroups_succ]
    exact (reads_readBe (by omega)).bind hrest

theorem reads_readFractionGroups (count : Nat) (result : Text) {low : Nat}
    (h : low < 10 ^ (9 * count)) :
    Reads (readFractionGroups count result) (groupBytes count low)
      (result ++ padded (9 * count) low) := by
  induction count generalizing result low with
  | zero =>
    have hnone : result ++ padded (9 * 0) low = result := by simp [padded]
    rw [hnone]
    exact .pure _
  | succ count ih =>
    have hgroup := group_lt h
    have hlow : low % 10 ^ (9 * count) < 10 ^ (9 * count) := Nat.mod_lt low (Nat.pow_pos (by decide))
    have hdigits := padded_append hgroup hlow
    rw [Nat.div_add_mod', Nat.add_comm 9, ← Nat.mul_succ] at hdigits
    have hrest := ih (result ++ pad 9 (low / 10 ^ (9 * count))) hlow
    rw [List.append_assoc] at hrest
    rw [hdigits]
    exact (reads_readBe (by omega)).bind hrest

/-! ## The first and the last group -/

/-- A group of fewer than nine digits leaves the first bit of its bytes free. -/
theorem pow_le_packedWidth {digits : Nat} (h : digits < 9) (hpos : 0 < digits) :
    10 ^ digits ≤ 128 * 256 ^ (packedWidth digits - 1) ∧ 0 < packedWidth digits ∧
      packedWidth digits ≤ 4 := by
  interval_cases digits <;> decide

/-- A group of fewer than nine digits, which is there if it has a digit. -/
theorem reads_readPacked {digits number : Nat} (h : digits < 9) (hpos : 0 < digits)
    (hnumber : number < 10 ^ digits) :
    Reads (readUintBe (packedWidth digits)) (bigEndian (packedWidth digits) number) number ∧
      number % 2 ^ 32 = number := by
  obtain ⟨hle, hwidth, hfour⟩ := pow_le_packedWidth h hpos
  have hpow : 256 ^ packedWidth digits = 256 * 256 ^ (packedWidth digits - 1) := by
    rw [← Nat.pow_succ', Nat.succ_eq_add_one, Nat.sub_add_cancel hwidth]
  have hfull : 256 ^ packedWidth digits ≤ 256 ^ 4 := Nat.pow_le_pow_right (by decide) hfour
  rw [readUintBe, if_pos ⟨hwidth, by omega⟩]
  exact ⟨reads_readBe (by omega), Nat.mod_eq_of_lt (by omega)⟩

theorem size_pos {digits : Nat} {size : UInt8} (h : digits < 9)
    (hsize : size.toNat = packedWidth digits) : 0 < size ↔ 0 < digits := by
  rw [UInt8.lt_iff_toNat_lt, hsize]
  change 0 < packedWidth digits ↔ 0 < digits
  unfold packedWidth
  omega

theorem reads_readLeadingGroup {digits number : Nat} {size : UInt8} (h : digits < 9)
    (hsize : size.toNat = packedWidth digits) (hnumber : number < 10 ^ digits) (sign : Text) :
    Reads (readLeadingGroup size sign) (bigEndian (packedWidth digits) number)
      (integralState sign number) := by
  by_cases hdigits : 0 < digits
  · obtain ⟨hread, hmod⟩ := reads_readPacked h hdigits hnumber
    rw [readLeadingGroup, if_pos ((size_pos h hsize).mpr hdigits), hsize]
    have hnext : Reads (if 0 < number % 2 ^ 32 then
          pure (true, sign ++ Nat.toDigits 10 (number % 2 ^ 32)) else pure (false, sign) :
        PayloadReader (Bool × Text)) [] (integralState sign number) := by
      rw [hmod]
      by_cases hzero : 0 < number
      · rw [if_pos hzero, integralState_pos sign hzero]
        exact .pure _
      · obtain rfl : number = 0 := by omega
        exact .pure _
    rw [← List.append_nil (bigEndian (packedWidth digits) number)]
    exact hread.bind hnext
  · obtain rfl : digits = 0 := by omega
    obtain rfl : number = 0 := by omega
    rw [readLeadingGroup, if_neg fun hpos => hdigits ((size_pos h hsize).mp hpos)]
    exact .pure _

theorem reads_readTrailingGroup {digits number : Nat} {size width : UInt8} (h : digits < 9)
    (hsize : size.toNat = packedWidth digits) (hwidth : width.toNat = digits)
    (hnumber : number < 10 ^ digits) (result : Text) :
    Reads (readTrailingGroup size width result) (bigEndian (packedWidth digits) number)
      (result ++ padded digits number) := by
  by_cases hdigits : 0 < digits
  · obtain ⟨hread, hmod⟩ := reads_readPacked h hdigits hnumber
    have hmap := hread.map fun number => result ++ pad digits (number % 2 ^ 32)
    rw [hmod] at hmap
    rw [readTrailingGroup, if_pos ((size_pos h hsize).mpr hdigits), hsize, hwidth, padded,
      if_neg (by omega)]
    exact hmap
  · obtain rfl : digits = 0 := by omega
    have hnone : result ++ padded 0 number = result := by simp [padded]
    rw [readTrailingGroup, if_neg fun hpos => hdigits ((size_pos h hsize).mp hpos), hnone]
    exact .pure _

/-! ## The text -/

/-- The numbers that the parser counts with, for the digits before and behind the point. -/
structure DecimalGroups (integral fraction : Nat) (uncompressedIntegral uncompressedFractional scale
    integralSize compressedFractional fractionalSize : UInt8) : Prop where
  uncompressedIntegral : uncompressedIntegral.toNat = integral / 9
  uncompressedFractional : uncompressedFractional.toNat = fraction / 9
  scale : scale.toNat = fraction
  integralSize : integralSize.toNat = packedWidth (integral % 9)
  compressedFractional : compressedFractional.toNat = fraction % 9
  fractionalSize : fractionalSize.toNat = packedWidth (fraction % 9)

section Text

variable {integral fraction whole part : Nat} {uncompressedIntegral uncompressedFractional scale
  integralSize compressedFractional fractionalSize : UInt8}

/-- The digits of the fraction stand behind a point. -/
theorem reads_fraction (h : DecimalGroups integral fraction uncompressedIntegral
      uncompressedFractional scale integralSize compressedFractional fractionalSize)
    (hpart : part < 10 ^ fraction) (result : Text) :
    Reads (readFractionGroups (fraction / 9) (if 0 < scale then result ++ ['.'] else result) >>=
        readTrailingGroup fractionalSize compressedFractional) (fractionBytes fraction part)
      (result ++ if fraction = 0 then [] else '.' :: pad fraction part) := by
  have hfraction := Nat.div_add_mod fraction 9
  have hhigh : part / 10 ^ (fraction % 9) < 10 ^ (9 * (fraction / 9)) :=
    Nat.div_lt_of_lt_mul (by rwa [← Nat.pow_add, Nat.add_comm, hfraction])
  have hlow : part % 10 ^ (fraction % 9) < 10 ^ (fraction % 9) :=
    Nat.mod_lt part (Nat.pow_pos (by decide))
  have hdigits := padded_append hhigh hlow
  rw [Nat.div_add_mod', hfraction] at hdigits
  have hpoint : 0 < scale ↔ fraction ≠ 0 := by
    rw [UInt8.lt_iff_toNat_lt, h.scale]
    exact Nat.pos_iff_ne_zero
  have htext : (if 0 < scale then result ++ ['.'] else result) ++
        padded (9 * (fraction / 9)) (part / 10 ^ (fraction % 9)) ++
          padded (fraction % 9) (part % 10 ^ (fraction % 9)) =
      result ++ if fraction = 0 then [] else '.' :: pad fraction part := by
    rw [List.append_assoc, ← hdigits]
    by_cases hzero : fraction = 0
    · rw [if_neg (fun hscale => hpoint.mp hscale hzero), if_pos hzero, padded, if_pos hzero]
    · rw [if_pos (hpoint.mpr hzero), if_neg hzero, padded, if_neg hzero, List.append_assoc]
      rfl
  rw [← htext]
  exact (reads_readFractionGroups (fraction / 9) _ hhigh).bind (reads_readTrailingGroup
    (Nat.mod_lt fraction (by decide)) h.fractionalSize h.compressedFractional hlow _)

theorem reads_readDecimalText (h : DecimalGroups integral fraction uncompressedIntegral
      uncompressedFractional scale integralSize compressedFractional fractionalSize)
    (hwhole : whole < 10 ^ integral) (hpart : part < 10 ^ fraction) (sign : Text) :
    Reads (readDecimalText sign uncompressedIntegral uncompressedFractional scale integralSize
        compressedFractional fractionalSize)
      (integralBytes integral whole ++ fractionBytes fraction part)
      (sign ++ Nat.toDigits 10 whole ++ if fraction = 0 then [] else '.' :: pad fraction part) := by
  have hintegral := Nat.div_add_mod integral 9
  have hlead : whole / 10 ^ (9 * (integral / 9)) < 10 ^ (integral % 9) :=
    Nat.div_lt_of_lt_mul (by rwa [← Nat.pow_add, hintegral])
  have hfirst := reads_readLeadingGroup (Nat.mod_lt integral (by decide)) h.integralSize hlead sign
  have hgroups := reads_readIntegralGroups sign (integral / 9) (whole / 10 ^ (9 * (integral / 9)))
    (Nat.mod_lt whole (Nat.pow_pos (by decide)))
  rw [Nat.div_add_mod'] at hgroups
  -- The integral part has a zero if it has nothing else.
  have hdigits : (if (integralState sign whole).1 then (integralState sign whole).2
      else (integralState sign whole).2 ++ ['0']) = sign ++ Nat.toDigits 10 whole := by
    by_cases hpos : 0 < whole
    · rw [integralState_pos sign hpos, if_pos rfl]
    · obtain rfl : whole = 0 := by omega
      rfl
  have hrest := reads_fraction h hpart (sign ++ Nat.toDigits 10 whole)
  rw [← hdigits] at hrest
  rw [readDecimalText, h.uncompressedIntegral, h.uncompressedFractional, integralBytes,
    List.append_assoc, ← hdigits]
  exact hfirst.bind (hgroups.bind hrest)

end Text

/-! ## The sign -/

/-- The first bit is free. -/
def FirstBitFree (bytes : List UInt8) : Prop := ∀ first ∈ bytes.head?, first.toNat < 128

theorem FirstBitFree.append {left right : List UInt8} (hleft : FirstBitFree left)
    (hright : FirstBitFree right) : FirstBitFree (left ++ right) := by
  cases left with
  | nil => exact hright
  | cons first others => exact hleft

theorem head?_bigEndian (width number : Nat) :
    (bigEndian (width + 1) number).head? = some (UInt8.ofNat (number / 256 ^ width % 256)) := by
  rw [Nat.add_comm, bigEndian_append]
  rfl

theorem firstBitFree_bigEndian {width number : Nat} (h : number < 128 * 256 ^ (width - 1)) :
    FirstBitFree (bigEndian width number) := by
  cases width with
  | zero =>
    rintro first ⟨⟩
  | succ width =>
    rintro first hfirst
    rw [head?_bigEndian] at hfirst
    obtain rfl := Option.some.inj hfirst
    have hquotient : number / 256 ^ width < 128 := Nat.div_lt_of_lt_mul (by rwa [Nat.mul_comm])
    generalize number / 256 ^ width = quotient at hquotient
    rw [UInt8.toNat_ofNat']
    omega

theorem firstBitFree_packed {digits number : Nat} (h : digits < 9) (hnumber : number < 10 ^ digits) :
    FirstBitFree (bigEndian (packedWidth digits) number) := by
  by_cases hpos : 0 < digits
  · exact firstBitFree_bigEndian (hnumber.trans_le (pow_le_packedWidth h hpos).1)
  · obtain rfl : digits = 0 := by omega
    rintro first ⟨⟩

theorem firstBitFree_groupBytes {count number : Nat} (h : number < 10 ^ (9 * count)) :
    FirstBitFree (groupBytes count number) := by
  cases count with
  | zero =>
    rintro first ⟨⟩
  | succ count =>
    have hgroup := group_lt h
    have hfirst : FirstBitFree (bigEndian 4 (number / 10 ^ (9 * count))) :=
      firstBitFree_bigEndian (by omega)
    intro first hmem
    rw [groupBytes, List.head?_append_of_ne_nil _ (by simp [bigEndian])] at hmem
    exact hfirst first hmem

/-- The number fits into the digits of the column. -/
theorem firstBitFree_magnitudeBytes {precision scale magnitude : Nat} (hscale : scale ≤ precision)
    (h : magnitude < 10 ^ precision) : FirstBitFree (magnitudeBytes precision scale magnitude) := by
  have hwhole : magnitude / 10 ^ scale < 10 ^ (precision - scale) :=
    Nat.div_lt_of_lt_mul (by rwa [← Nat.pow_add, Nat.add_sub_cancel' hscale])
  have hpart : magnitude % 10 ^ scale < 10 ^ scale := Nat.mod_lt _ (Nat.pow_pos (by decide))
  have hintegral := Nat.div_add_mod (precision - scale) 9
  have hfraction := Nat.div_add_mod scale 9
  refine FirstBitFree.append (FirstBitFree.append ?_ ?_) (FirstBitFree.append ?_ ?_)
  · exact firstBitFree_packed (Nat.mod_lt _ (by decide))
      (Nat.div_lt_of_lt_mul (by rwa [← Nat.pow_add, hintegral]))
  · exact firstBitFree_groupBytes (Nat.mod_lt _ (Nat.pow_pos (by decide)))
  · exact firstBitFree_groupBytes
      (Nat.div_lt_of_lt_mul (by rwa [← Nat.pow_add, Nat.add_comm, hfraction]))
  · exact firstBitFree_packed (Nat.mod_lt _ (by decide)) (Nat.mod_lt _ (Nat.pow_pos (by decide)))

theorem sign_byte (byte : UInt8) (h : byte.toNat < 128) :
    (byte ^^^ 0x80) &&& 0x80 ≠ 0 ∧ (byte ^^^ 0xFF ^^^ 0x80) &&& 0x80 = 0 := by
  have hall : ∀ number < 128, (UInt8.ofNat number ^^^ 0x80) &&& 0x80 ≠ 0 ∧
      (UInt8.ofNat number ^^^ 0xFF ^^^ 0x80) &&& 0x80 = 0 := by decide +kernel
  have hbyte := hall byte.toNat h
  rwa [UInt8.ofNat_toNat] at hbyte

theorem xor_xor (byte mask : UInt8) : byte ^^^ mask ^^^ mask = byte := by
  rw [UInt8.xor_assoc, UInt8.xor_self, UInt8.xor_zero]

/-- What the parser finds of a sign and of the bytes under it. -/
theorem sign_read {bytes : List UInt8} (hne : bytes ≠ []) (hfree : FirstBitFree bytes)
    (negative : Bool) :
    ∃ first others,
      flipSign (if negative then bytes.map (· ^^^ 0xFF) else bytes) = first :: others ∧
      (first &&& 0x80 == 0) = negative ∧
      (if negative then ((first ^^^ 0x80) :: others).map (· ^^^ 0xFF) else (first ^^^ 0x80) :: others) =
        bytes := by
  cases bytes with
  | nil => exact absurd rfl hne
  | cons byte bytes =>
    obtain ⟨hpositive, hnegative⟩ := sign_byte byte (hfree byte rfl)
    cases negative with
    | false =>
      refine ⟨byte ^^^ 0x80, bytes, rfl, beq_eq_false_iff_ne.mpr hpositive, ?_⟩
      rw [if_neg (by simp), xor_xor]
    | true =>
      refine ⟨byte ^^^ 0xFF ^^^ 0x80, bytes.map (· ^^^ 0xFF), rfl, beq_iff_eq.mpr hnegative, ?_⟩
      rw [if_pos rfl, List.map_cons, xor_xor, xor_xor, List.map_map]
      congr 1
      have hid : ((fun byte : UInt8 => byte ^^^ 0xFF) ∘ fun byte => byte ^^^ 0xFF) = id := by
        ext1 other
        exact xor_xor other 0xFF
      rw [hid, List.map_id]

/-! ## Whole decimals -/

theorem length_groupBytes (count number : Nat) : (groupBytes count number).length = 4 * count := by
  induction count generalizing number with
  | zero => rfl
  | succ count ih =>
    rw [groupBytes, List.length_append, length_bigEndian, ih]
    omega

theorem length_magnitudeBytes (precision scale magnitude : Nat) :
    (magnitudeBytes precision scale magnitude).length =
      4 * ((precision - scale) / 9) + packedWidth ((precision - scale) % 9) + 4 * (scale / 9) +
        packedWidth (scale % 9) := by
  simp only [magnitudeBytes, integralBytes, fractionBytes, List.length_append, length_bigEndian,
    length_groupBytes]
  omega

theorem length_decimalBytes (precision scale : Nat) (unscaled : Int) :
    (decimalBytes precision scale unscaled).length =
      (magnitudeBytes precision scale unscaled.natAbs).length := by
  have hflip : ∀ bytes : List UInt8, (flipSign bytes).length = bytes.length := by
    rintro (_ | _) <;> rfl
  rw [decimalBytes, hflip]
  split
  · exact List.length_map _
  · rfl

/-- The numbers of the parser, for the metadata of a decimal column. -/
theorem decimal_metadata {precision scale : Nat} (hprecision : precision < 256)
    (hscale : scale ≤ precision) :
    decimalMetadata precision scale &&& 0xFF = UInt16.ofNat precision ∧
      (decimalMetadata precision scale >>> 8).toUInt8 = UInt8.ofNat scale ∧
      (UInt16.ofNat precision - (UInt8.ofNat scale).toUInt16).toUInt8 =
        UInt8.ofNat (precision - scale) := by
  have hmetadata : (decimalMetadata precision scale).toNat = precision + 256 * scale := by
    rw [decimalMetadata, UInt16.toNat_ofNat']
    omega
  refine ⟨?_, ?_, ?_⟩
  · apply UInt16.toNat_inj.mp
    rw [UInt16.toNat_and, hmetadata, UInt16.toNat_ofNat']
    change (precision + 256 * scale) &&& (2 ^ 8 - 1) = _
    rw [Nat.and_two_pow_sub_one_eq_mod]
    omega
  · apply UInt8.toNat_inj.mp
    rw [UInt16.toNat_toUInt8, UInt16.toNat_shiftRight, hmetadata, UInt8.toNat_ofNat']
    change (precision + 256 * scale) >>> 8 % 2 ^ 8 = _
    rw [Nat.shiftRight_eq_div_pow]
    omega
  · apply UInt8.toNat_inj.mp
    rw [UInt16.toNat_toUInt8, UInt16.toNat_sub, UInt16.toNat_ofNat', UInt8.toNat_toUInt16,
      UInt8.toNat_ofNat', UInt8.toNat_ofNat']
    omega

theorem digits_groups {digits : Nat} (h : digits < 256) :
    UInt8.ofNat digits / digitsPerInt = UInt8.ofNat (digits / 9) ∧
      UInt8.ofNat digits - UInt8.ofNat (digits / 9) * digitsPerInt = UInt8.ofNat (digits % 9) := by
  constructor
  · apply UInt8.toNat_inj.mp
    rw [UInt8.toNat_div, UInt8.toNat_ofNat', UInt8.toNat_ofNat']
    change digits % 2 ^ 8 / 9 = _
    omega
  · apply UInt8.toNat_inj.mp
    rw [UInt8.toNat_sub, UInt8.toNat_mul, UInt8.toNat_ofNat', UInt8.toNat_ofNat', UInt8.toNat_ofNat']
    change (2 ^ 8 - digits / 9 % 2 ^ 8 * 9 % 2 ^ 8 + digits % 2 ^ 8) % 2 ^ 8 = _
    omega

theorem compressedWidth_eq {digits : Nat} (h : digits < 9) :
    compressedWidth (UInt8.ofNat digits) = pure (UInt8.ofNat (packedWidth digits)) := by
  interval_cases digits <;> rfl

theorem toNat_small {number : Nat} (h : number < 256) : (UInt8.ofNat number).toNat = number := by
  rw [UInt8.toNat_ofNat']
  omega

/-- The bytes of a decimal, as the parser counts them. -/
theorem decimal_length {integral scale : Nat} (h : integral + scale < 256) :
    ((UInt8.ofNat (integral / 9) <<< 2) + UInt8.ofNat (packedWidth (integral % 9)) +
      (UInt8.ofNat (scale / 9) <<< 2) + UInt8.ofNat (packedWidth (scale % 9))).toNat =
      4 * (integral / 9) + packedWidth (integral % 9) + 4 * (scale / 9) +
        packedWidth (scale % 9) := by
  have hshift : ∀ count < 32, (UInt8.ofNat count <<< 2).toNat = 4 * count := by decide
  have hintegral := hshift (integral / 9) (by omega)
  have hscale := hshift (scale / 9) (by omega)
  unfold packedWidth
  rw [UInt8.toNat_add, UInt8.toNat_add, UInt8.toNat_add, hintegral, hscale, toNat_small (by omega),
    toNat_small (by omega)]
  omega

/-- The parser when its numbers are known. -/
theorem parseDecimal_eq {precision scale : Nat} (hprecision : precision < 256)
    (hscale : scale ≤ precision) :
    parseDecimal (decimalMetadata precision scale) =
      readExact (4 * ((precision - scale) / 9) + packedWidth ((precision - scale) % 9) +
        4 * (scale / 9) + packedWidth (scale % 9)) >>=
          readSignedDecimal (UInt8.ofNat ((precision - scale) / 9)) (UInt8.ofNat (scale / 9))
            (UInt8.ofNat scale) (UInt8.ofNat (packedWidth ((precision - scale) % 9)))
            (UInt8.ofNat (scale % 9)) (UInt8.ofNat (packedWidth (scale % 9))) := by
  obtain ⟨hp, hs, hi⟩ := decimal_metadata hprecision hscale
  have hdigits : precision - scale < 256 := by omega
  obtain ⟨hui, hci⟩ := digits_groups hdigits
  obtain ⟨huf, hcf⟩ := digits_groups (hscale.trans_lt hprecision)
  have hlength := decimal_length (show precision - scale + scale < 256 by omega)
  have hisize := compressedWidth_eq (Nat.mod_lt (precision - scale) (by decide : 0 < 9))
  have hfsize := compressedWidth_eq (Nat.mod_lt scale (by decide : 0 < 9))
  rw [parseDecimal]
  simp only [hp, hs, hi, hui, hci, huf, hcf, hisize, hfsize]
  rw [← hlength]
  rfl

/-- The bytes of a decimal are read as the text of the number. -/
theorem reads_parseDecimal {precision scale : Nat} {unscaled : Int} (hpos : 0 < precision)
    (hprecision : precision < 256) (hscale : scale ≤ precision)
    (h : unscaled.natAbs < 10 ^ precision) :
    Reads (parseDecimal (decimalMetadata precision scale)) (decimalBytes precision scale unscaled)
      (String.ofList (decimalText scale unscaled)) := by
  have hlength := (length_decimalBytes precision scale unscaled).trans
    (length_magnitudeBytes precision scale unscaled.natAbs)
  have hne : magnitudeBytes precision scale unscaled.natAbs ≠ [] := by
    intro hnil
    have hzero := length_magnitudeBytes precision scale unscaled.natAbs
    rw [hnil, List.length_nil] at hzero
    unfold packedWidth at hzero
    omega
  have hwhole : unscaled.natAbs / 10 ^ scale < 10 ^ (precision - scale) :=
    Nat.div_lt_of_lt_mul (by rwa [← Nat.pow_add, Nat.add_sub_cancel' hscale])
  have hgroups : DecimalGroups (precision - scale) scale (UInt8.ofNat ((precision - scale) / 9))
      (UInt8.ofNat (scale / 9)) (UInt8.ofNat scale)
      (UInt8.ofNat (packedWidth ((precision - scale) % 9))) (UInt8.ofNat (scale % 9))
      (UInt8.ofNat (packedWidth (scale % 9))) := by
    constructor <;> apply toNat_small <;> (try unfold packedWidth) <;> omega
  obtain ⟨first, others, hbytes, hsign, hbuffer⟩ :=
    sign_read hne (firstBitFree_magnitudeBytes hscale h) (decide (unscaled < 0))
  have hwritten : decimalBytes precision scale unscaled = first :: others := by
    rw [decimalBytes, ← hbytes]
    simp only [decide_eq_true_eq]
  have htext := reads_readDecimalText hgroups hwhole
    (Nat.mod_lt unscaled.natAbs (Nat.pow_pos (by decide)))
    (if decide (unscaled < 0) then ['-'] else [])
  have hread := reads_takeOr Error.unexpectedEof (decimalBytes precision scale unscaled)
  rw [hlength] at hread
  rw [parseDecimal_eq hprecision hscale, ← List.append_nil (decimalBytes precision scale unscaled)]
  refine hread.bind ?_
  rw [hwritten, readSignedDecimal]
  simp only [hsign, hbuffer]
  have hbuffered := htext.last.within.map String.ofList
  simp only [decide_eq_true_eq] at hbuffered ⊢
  exact hbuffered

end BinlogCdc.MysqlCdc
