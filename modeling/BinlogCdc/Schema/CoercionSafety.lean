import BinlogCdc.Schema.ColumnKind
import BinlogCdc.Schema.Planner

/-!
# Stored values under a change of type

What a type can hold, what the preflight counts, and which changes of a column keep every stored
value. The predicates compare lengths of varchars, ranges of integers and shapes of decimals; for
the other types a change is made unseen when the column also loses its nulls, or when the texts of
the types agree up to case.
-/

namespace BinlogCdc.SyncSchema

/-- A value of a column. A label has its place in the list of labels; a moment is in microseconds
since the epoch, in UTC. -/
inductive StoredValue where
  | null
  | integer (value : Int)
  | decimal (value : ℚ)
  | text (characters : Text)
  | label (index : Nat) (name : String)
  | moment (microseconds : Int)
deriving DecidableEq

def IntegerKind.bits : IntegerKind → Nat
  | .tinyint => 8
  | .smallint => 16
  | .mediumint => 24
  | .int => 32
  | .integer => 32
  | .bigint => 64

/-- The values of an integer type. -/
def IntegerKind.Holds (kind : IntegerKind) (unsigned : Bool) (value : Int) : Prop :=
  if unsigned then 0 ≤ value ∧ value < 2 ^ kind.bits
  else -2 ^ (kind.bits - 1) ≤ value ∧ value < 2 ^ (kind.bits - 1)

/-- The numbers with the given digits. -/
def DecimalHolds (precision scale : Nat) (unsigned : Bool) (value : ℚ) : Prop :=
  ∃ number : Int, value = number / 10 ^ scale ∧ |number| < 10 ^ precision ∧
    (unsigned = true → 0 ≤ number)

/-- The moments that have no more than the given digits of a second. -/
def Rounded (digits : Nat) (microseconds : Int) : Prop := microseconds % 10 ^ (6 - digits) = 0

/-- From the year 1000 to the year 9999. -/
def InDatetimeRange (microseconds : Int) : Prop :=
  -30610224000 * 1000000 ≤ microseconds ∧ microseconds < 253402300800 * 1000000

/-- From the first second of 1970 to the 19th of January 2038. -/
def InTimestampRange (microseconds : Int) : Prop :=
  1000000 ≤ microseconds ∧ microseconds < 2147483648 * 1000000

/-- A column of the type can hold the value. -/
def StoredValue.Fits (kind : ColumnKind) (nullable : Bool) : StoredValue → Prop
  | .null => nullable = true
  | .integer value =>
    match kind with
    | .integer size _ unsigned _ => size.Holds unsigned value
    | _ => False
  | .decimal value =>
    match kind with
    | .decimal precision scale unsigned _ => DecimalHolds precision scale unsigned value
    | _ => False
  | .text characters =>
    match kind with
    | .char length => characters.length ≤ length
    | .varchar length => characters.length ≤ length
    | _ => False
  | .label index name =>
    match kind with
    | .enum labels => labels[index]? = some name
    | _ => False
  | .moment microseconds =>
    match kind with
    | .datetime digits => InDatetimeRange microseconds ∧ Rounded digits microseconds
    | .timestamp digits => InTimestampRange microseconds ∧ Rounded digits microseconds
    | _ => False

/-! ## The preflight -/

/-- The largest number with the digits before and after the point. -/
def decimalLimit (integerDigits scale : Nat) : ℚ := (10 ^ (integerDigits + scale) - 1) / 10 ^ scale

/-- Rounding to digits after the point, halves away from zero. -/
def roundTo (value : ℚ) (scale : Nat) : ℚ :=
  if 0 ≤ value then ⌊value * 10 ^ scale + 1 / 2⌋ / 10 ^ scale
  else -(⌊-value * 10 ^ scale + 1 / 2⌋ / 10 ^ scale)

/-- The value meets the condition. Comparisons with null do not hold. -/
def BlockerPredicate.matches : BlockerPredicate → StoredValue → Bool
  | .isNull, .null => true
  | .charLengthAbove length, .text characters => decide (length < characters.length)
  | .outside minimum maximum, .integer value => decide (value < minimum) || decide (maximum < value)
  | .decimalOutside integerDigits scale, .decimal value =>
    decide (value < -decimalLimit integerDigits scale) ||
      decide (decimalLimit integerDigits scale < value) || decide (value ≠ roundTo value scale)
  | _, _ => false

/-- How many values the preflight counts: those that meet a predicate, or all of them when there
is none. -/
def blockerCount (values : Multiset StoredValue) (source target : ColumnInventory) : Nat :=
  if conversionIsProvablySafe source target then 0
  else
    match coercionBlockerPredicate source target with
    | .ok (_, predicates) =>
      values.countP fun value => predicates.any fun predicate => predicate.matches value
    | .error _ => values.card

/-- The column is changed: it differs, and the values need no check or pass it. -/
def modifyIsEmitted (values : Multiset StoredValue) (source target : ColumnInventory) : Bool :=
  !columnsEqual source target &&
    (!columnChangeRequiresDataPreflight source target ||
      decide (blockerCount values source target = 0))

/-- The target server as the preflight sees it: the values of its columns, and the errors of its
connection and of its answers. -/
structure MySqlCoercionPreflight where
  schema : String
  connect : Except String Unit
  values : String → String → Multiset StoredValue
  countFailure : String → Option String
  samples : TableInventory → String → Except String (List (List String))

namespace MySqlCoercionPreflight

/-- The count of the rows that meet a predicate, if the server answers. -/
def countBlockers (preflight : MySqlCoercionPreflight) (table predicate : String) (count : Nat) :
    Except String Nat := do
  let schema ← quotedIdentifier preflight.schema
  let table ← quotedIdentifier table
  match preflight.countFailure
      ("SELECT COUNT(*) FROM " ++ schema ++ "." ++ table ++ " WHERE " ++ predicate) with
  | some error => .error ("coercion blocker count failed: " ++ error)
  | none => .ok count

def coercionBlockers (predicate : Option String) (count : Nat)
    (samples : Except String (List (List String))) : CoercionBlockers :=
  match samples with
  | .ok samplePrimaryKeys => ⟨predicate, count, samplePrimaryKeys, none⟩
  | .error error => ⟨predicate, count, [], some error⟩

def inspect (preflight : MySqlCoercionPreflight) : CoercionPreflight := fun table source target => do
  if conversionIsProvablySafe source target then .ok ⟨none, 0, [], none⟩
  else
    let predicate := (coercionBlockerPredicate source target).toOption.map
      fun (column, predicates) => renderPredicate column predicates
    let queryPredicate := predicate.getD "TRUE"
    preflight.connect
    let count ← preflight.countBlockers table.name queryPredicate
      (blockerCount (preflight.values table.name source.name) source target)
    let samples := if count = 0 then .ok [] else preflight.samples table queryPredicate
    .ok (coercionBlockers predicate count samples)

end MySqlCoercionPreflight

/-! ## What an emitted change says -/

section Emitted

variable {source target : ColumnInventory} {sourceKind targetKind : ColumnKind}
  {values : Multiset StoredValue}

/-- The column loses its nulls. -/
def Tightened (source target : ColumnInventory) : Prop :=
  target.isNullable = true ∧ source.isNullable = false

theorem conversionIsProvablySafe_eq_false (hsource : source.HasKind sourceKind) :
    conversionIsProvablySafe source target = false := by
  have hnames : ∀ name ∈ typeNames,
      Text.eqIgnoreAsciiCase name.toList "longtext".toList = false := by decide
  have hname := hnames sourceKind.dataType (dataType_mem_typeNames sourceKind)
  unfold conversionIsProvablySafe
  rw [hsource.dataType, hname]
  simp

/-- A change whose values are checked has no value that meets a predicate. -/
theorem forall_not_matches (hsource : source.HasKind sourceKind)
    (hcount : blockerCount values source target = 0) {value : StoredValue} (hvalue : value ∈ values) :
    ∃ column predicates, coercionBlockerPredicate source target = .ok (column, predicates) ∧
      ∀ predicate ∈ predicates, predicate.matches value = false := by
  unfold blockerCount at hcount
  rw [conversionIsProvablySafe_eq_false hsource, if_neg (by decide)] at hcount
  cases hpredicate : coercionBlockerPredicate source target with
  | error error =>
    rw [hpredicate] at hcount
    rw [Multiset.card_eq_zero.mp hcount] at hvalue
    exact absurd hvalue (Multiset.notMem_zero value)
  | ok found =>
    obtain ⟨column, predicates⟩ := found
    rw [hpredicate] at hcount
    refine ⟨column, predicates, rfl, ?_⟩
    intro predicate hmem
    have hnone := Multiset.countP_eq_zero.mp hcount value hvalue
    rw [List.any_eq_true] at hnone
    push Not at hnone
    simpa using hnone predicate hmem

/-- A predicate exists when the metadata agree, the name can be quoted and there is something to
compare. -/
theorem coercionBlockerPredicate_eq_ok_iff {column : String} {predicates : List BlockerPredicate} :
    coercionBlockerPredicate source target = .ok (column, predicates) ↔
      (source.generated = target.generated ∧ source.characterSet = target.characterSet ∧
        source.collation = target.collation) ∧ quotedIdentifier source.name = .ok column ∧
      ∃ typePredicates, typeCoercionPredicates source target = .ok typePredicates ∧
        predicates = nullabilityPredicates source target ++ typePredicates ∧ predicates ≠ [] := by
  have hmetadata : validatePredicateMetadata source target = .ok () ↔
      source.generated = target.generated ∧ source.characterSet = target.characterSet ∧
        source.collation = target.collation := by
    unfold validatePredicateMetadata
    by_cases hgenerated : source.generated = target.generated <;>
      by_cases hset : source.characterSet = target.characterSet <;>
        by_cases hcollation : source.collation = target.collation <;>
          simp [hgenerated, hset, hcollation]
  rw [← hmetadata]
  unfold coercionBlockerPredicate
  cases validatePredicateMetadata source target with
  | error error => simp [Bind.bind, Except.bind]
  | ok done =>
    cases quotedIdentifier source.name with
    | error error => simp [Bind.bind, Except.bind]
    | ok name =>
      cases typeCoercionPredicates source target with
      | error error => simp [Bind.bind, Except.bind]
      | ok typePredicates =>
        simp only [Bind.bind, Except.bind, true_and, Except.ok.injEq, exists_eq_left']
        split
        case isTrue hempty =>
          rw [List.isEmpty_iff] at hempty
          simp [hempty]
        case isFalse hempty =>
          rw [List.isEmpty_iff] at hempty
          simp only [Except.ok.injEq, Prod.mk.injEq]
          constructor
          · rintro ⟨rfl, rfl⟩
            exact ⟨rfl, rfl, hempty⟩
          · rintro ⟨rfl, rfl, -⟩
            exact ⟨rfl, rfl⟩

/-- A change that makes a column lose its nulls is checked. -/
theorem requiresPreflight_of_tightened (hne : columnsEqual source target = false)
    (htight : Tightened source target) : columnChangeRequiresDataPreflight source target = true := by
  unfold columnChangeRequiresDataPreflight
  rw [hne, if_neg (by decide)]
  split
  · rfl
  · rw [if_pos (by simp [htight.1, htight.2])]

/-- When the values need no check. -/
theorem requiresPreflight_eq_false_iff (hne : columnsEqual source target = false) :
    columnChangeRequiresDataPreflight source target = false ↔
      source.generated = target.generated ∧ ¬ Tightened source target ∧
        if normalizedDataType source = normalizedDataType target then
          sameTypeRequiresPreflight source target (normalizedDataType source) = false
        else ∃ sourceRank targetRank,
          integerRank (normalizedDataType source) = some sourceRank ∧
            integerRank (normalizedDataType target) = some targetRank ∧
            isUnsigned source = isUnsigned target ∧ targetRank ≤ sourceRank := by
  have htight : Tightened source target ↔ (target.isNullable && !source.isNullable) = true := by
    simp [Tightened]
  rw [htight]
  unfold columnChangeRequiresDataPreflight
  rw [hne, if_neg (by decide)]
  by_cases hgenerated : source.generated = target.generated
  case neg => simp [hgenerated]
  rw [if_neg (by simpa using hgenerated)]
  by_cases hnull : (target.isNullable && !source.isNullable) = true
  case pos => simp [hnull]
  rw [if_neg hnull]
  dsimp only
  split
  case isTrue => simp [hgenerated, hnull]
  case isFalse =>
    cases hsourceRank : integerRank (normalizedDataType source) with
    | none => simp
    | some sourceRank =>
      cases htargetRank : integerRank (normalizedDataType target) with
      | none => simp
      | some targetRank =>
        simp [hgenerated, hnull]

/-- The metadata of text agree, up to the names of collations. -/
def SameText (source target : ColumnInventory) : Prop :=
  source.characterSet = target.characterSet ∧
    source.collation.map canonicalCollation = target.collation.map canonicalCollation

theorem not_sameText_iff : ¬ SameText source target ↔
    source.characterSet ≠ target.characterSet ∨
      source.collation.map canonicalCollation ≠ target.collation.map canonicalCollation := by
  unfold SameText
  exact not_and_or

theorem sameText_of_not_requires {dataType : String}
    (h : sameTypeRequiresPreflight source target dataType = false) : SameText source target := by
  by_contra htext
  unfold sameTypeRequiresPreflight at h
  rw [if_pos (not_sameText_iff.mp htext)] at h
  exact absurd h (by decide)

theorem modifyIsEmitted_iff : modifyIsEmitted values source target = true ↔
    columnsEqual source target = false ∧
      (columnChangeRequiresDataPreflight source target = false ∨
        blockerCount values source target = 0) := by
  simp [modifyIsEmitted]

/-- No null is left in a column without nulls. -/
theorem isNullable_of_emitted (hsource : source.HasKind sourceKind)
    (hemitted : modifyIsEmitted values source target = true) (hnull : StoredValue.null ∈ values)
    (htarget : target.isNullable = true) : source.isNullable = true := by
  rw [modifyIsEmitted_iff] at hemitted
  obtain ⟨hne, hchecked⟩ := hemitted
  by_contra hsourceNull
  have htight : Tightened source target := ⟨htarget, by simpa using hsourceNull⟩
  have hrequires := requiresPreflight_of_tightened hne htight
  have hcount : blockerCount values source target = 0 :=
    hchecked.resolve_left (by rw [hrequires]; decide)
  obtain ⟨column, predicates, hpredicate, hmatches⟩ := forall_not_matches hsource hcount hnull
  obtain ⟨-, -, typePredicates, -, rfl, -⟩ := coercionBlockerPredicate_eq_ok_iff.mp hpredicate
  have hmem : BlockerPredicate.isNull ∈ nullabilityPredicates source target := by
    simp [nullabilityPredicates, htight.1, htight.2]
  exact absurd (hmatches .isNull (List.mem_append_left _ hmem)) (by decide)

/-! ## Integers -/

def IntegerKind.rank : IntegerKind → Nat
  | .tinyint => 1
  | .smallint => 2
  | .mediumint => 3
  | .int => 4
  | .integer => 4
  | .bigint => 5

theorem integerRank_name (size : IntegerKind) : integerRank size.name = some size.rank := by
  cases size <;> decide

theorem bits_mono {small large : IntegerKind} (h : small.rank ≤ large.rank) :
    small.bits ≤ large.bits := by
  revert h
  cases small <;> cases large <;> decide

/-- A type of at least the same rank and of the same sign holds the values. -/
theorem IntegerKind.Holds.mono {small large : IntegerKind} {unsigned : Bool} {value : Int}
    (h : small.Holds unsigned value) (hrank : small.rank ≤ large.rank) :
    large.Holds unsigned value := by
  have hbits := bits_mono hrank
  unfold IntegerKind.Holds at h ⊢
  split
  case isTrue hunsigned =>
    rw [if_pos hunsigned] at h
    have hpow : (2 : Int) ^ small.bits ≤ 2 ^ large.bits := by gcongr; decide
    omega
  case isFalse hsigned =>
    rw [if_neg hsigned] at h
    have hpow : (2 : Int) ^ (small.bits - 1) ≤ 2 ^ (large.bits - 1) := by
      gcongr
      · decide
    omega

/-- The bounds of the predicate are those of the type. -/
theorem integerBounds_integer {size : IntegerKind} {width : Option Nat} {unsigned zerofill : Bool}
    (h : source.HasKind (.integer size width unsigned zerofill)) :
    ∃ minimum maximum, integerBounds source = .ok (minimum, maximum) ∧
      ∀ value, minimum ≤ value → value ≤ maximum → size.Holds unsigned value := by
  unfold integerBounds
  dsimp only
  rw [isUnsigned_integer h, normalizedDataType_eq h]
  cases size <;> cases unsigned <;>
    exact ⟨_, _, rfl, fun value hlow hhigh => by
      simp only [IntegerKind.Holds, IntegerKind.bits] at hlow hhigh ⊢
      constructor <;> norm_num at hlow hhigh ⊢ <;> omega⟩

theorem typeCoercionPredicates_integer {size targetSize : IntegerKind}
    {width targetWidth : Option Nat} {unsigned zerofill targetUnsigned targetZerofill : Bool}
    (hsource : source.HasKind (.integer size width unsigned zerofill))
    (htarget : target.HasKind (.integer targetSize targetWidth targetUnsigned targetZerofill)) :
    typeCoercionPredicates source target =
      (integerBounds source).map fun (minimum, maximum) => [.outside minimum maximum] := by
  have hnormalized : normalizedDataType source = size.name := normalizedDataType_eq hsource
  have hnormalizedTarget : normalizedDataType target = targetSize.name :=
    normalizedDataType_eq htarget
  have hvarchar : ¬ (size.name = "varchar" ∧ targetSize.name = "varchar") := by
    rintro ⟨hname, -⟩
    exact absurd hname (by cases size <;> decide)
  unfold typeCoercionPredicates
  dsimp only
  rw [hnormalized, hnormalizedTarget, if_neg hvarchar, integerRank_name, integerRank_name,
    if_pos ⟨rfl, rfl⟩]

theorem sameTypeRequiresPreflight_integer {size targetSize : IntegerKind}
    {width targetWidth : Option Nat} {unsigned zerofill targetUnsigned targetZerofill : Bool}
    (hsource : source.HasKind (.integer size width unsigned zerofill))
    (htarget : target.HasKind (.integer targetSize targetWidth targetUnsigned targetZerofill))
    (htext : SameText source target) :
    sameTypeRequiresPreflight source target size.name = (unsigned != targetUnsigned) := by
  have hname : size.name ≠ "enum" ∧ size.name ≠ "varchar" := by cases size <;> decide
  have hrank : (integerRank size.name).isSome = true := by rw [integerRank_name]; rfl
  unfold sameTypeRequiresPreflight
  rw [if_neg (fun h => not_sameText_iff.mpr h htext), if_neg (fun h => hname.1 h.1),
    varcharLength_eq_none hsource hname.2]
  dsimp only
  rw [if_pos hrank, isUnsigned_integer hsource, isUnsigned_integer htarget]

/-- An integer that needs no check has the same sign and at least the rank. -/
theorem integer_of_not_requires {size targetSize : IntegerKind} {width targetWidth : Option Nat}
    {unsigned zerofill targetUnsigned targetZerofill : Bool}
    (hsource : source.HasKind (.integer size width unsigned zerofill))
    (htarget : target.HasKind (.integer targetSize targetWidth targetUnsigned targetZerofill))
    (hne : columnsEqual source target = false)
    (hrequires : columnChangeRequiresDataPreflight source target = false) :
    unsigned = targetUnsigned ∧ targetSize.rank ≤ size.rank := by
  have hnormalized : normalizedDataType source = size.name := normalizedDataType_eq hsource
  have hnormalizedTarget : normalizedDataType target = targetSize.name :=
    normalizedDataType_eq htarget
  obtain ⟨-, -, hsame⟩ := (requiresPreflight_eq_false_iff hne).mp hrequires
  rw [hnormalized, hnormalizedTarget, integerRank_name, integerRank_name, isUnsigned_integer hsource,
    isUnsigned_integer htarget] at hsame
  split at hsame
  case isTrue hnames =>
    have hsize : size.rank = targetSize.rank := by
      have hranks := congrArg integerRank hnames
      rw [integerRank_name, integerRank_name] at hranks
      exact Option.some.inj hranks
    rw [sameTypeRequiresPreflight_integer hsource htarget (sameText_of_not_requires hsame),
      bne_eq_false_iff_eq] at hsame
    exact ⟨hsame, hsize.ge⟩
  case isFalse =>
    obtain ⟨sourceRank, targetRank, hsourceRank, htargetRank, hsign, hrank⟩ := hsame
    obtain rfl := Option.some.inj hsourceRank
    obtain rfl := Option.some.inj htargetRank
    exact ⟨hsign, hrank⟩

theorem fits_integer {size targetSize : IntegerKind} {width targetWidth : Option Nat}
    {unsigned zerofill targetUnsigned targetZerofill : Bool}
    (hsource : source.HasKind (.integer size width unsigned zerofill))
    (htarget : target.HasKind (.integer targetSize targetWidth targetUnsigned targetZerofill))
    (hemitted : modifyIsEmitted values source target = true) {value : Int}
    (hvalue : .integer value ∈ values) (hholds : targetSize.Holds targetUnsigned value) :
    size.Holds unsigned value := by
  rw [modifyIsEmitted_iff] at hemitted
  obtain ⟨hne, hrequires | hcount⟩ := hemitted
  · obtain ⟨rfl, hrank⟩ := integer_of_not_requires hsource htarget hne hrequires
    exact hholds.mono hrank
  · obtain ⟨column, predicates, hpredicate, hmatches⟩ := forall_not_matches hsource hcount hvalue
    obtain ⟨-, -, typePredicates, htype, rfl, -⟩ :=
      coercionBlockerPredicate_eq_ok_iff.mp hpredicate
    obtain ⟨minimum, maximum, hbounds, hrange⟩ := integerBounds_integer hsource
    rw [typeCoercionPredicates_integer hsource htarget, hbounds] at htype
    obtain rfl : [.outside minimum maximum] = typePredicates := Except.ok.inj htype
    have houtside := hmatches (.outside minimum maximum) (by simp)
    simp only [BlockerPredicate.matches, Bool.or_eq_false_iff, decide_eq_false_iff_not,
      not_lt] at houtside
    exact hrange value houtside.1 houtside.2

/-! ## Varchars -/

section Varchar

variable {length targetLength : Nat}

theorem sameTypeRequiresPreflight_varchar (hsource : source.HasKind (.varchar length))
    (htarget : target.HasKind (.varchar targetLength)) (htext : SameText source target) :
    sameTypeRequiresPreflight source target "varchar" = decide (length < targetLength) := by
  unfold sameTypeRequiresPreflight
  rw [if_neg (fun h => not_sameText_iff.mpr h htext), if_neg (fun h => absurd h.1 (by decide)),
    varcharLength_varchar hsource, varcharLength_varchar htarget]

theorem typeCoercionPredicates_varchar (hsource : source.HasKind (.varchar length))
    (htarget : target.HasKind (.varchar targetLength)) :
    typeCoercionPredicates source target =
      .ok (if length < targetLength then [.charLengthAbove length] else []) := by
  have hnormalized : normalizedDataType source = "varchar" := normalizedDataType_eq hsource
  have hnormalizedTarget : normalizedDataType target = "varchar" := normalizedDataType_eq htarget
  unfold typeCoercionPredicates
  dsimp only
  rw [hnormalized, hnormalizedTarget, if_pos ⟨rfl, rfl⟩]
  unfold varcharCoercionPredicates
  rw [varcharLength_varchar hsource, varcharLength_varchar htarget]

theorem fits_varchar (hsource : source.HasKind (.varchar length))
    (htarget : target.HasKind (.varchar targetLength))
    (hemitted : modifyIsEmitted values source target = true) {characters : Text}
    (hvalue : .text characters ∈ values) (hfits : characters.length ≤ targetLength) :
    characters.length ≤ length := by
  have hnormalized : normalizedDataType source = "varchar" := normalizedDataType_eq hsource
  have hnormalizedTarget : normalizedDataType target = "varchar" := normalizedDataType_eq htarget
  rw [modifyIsEmitted_iff] at hemitted
  obtain ⟨hne, hrequires | hcount⟩ := hemitted
  · obtain ⟨-, -, hsame⟩ := (requiresPreflight_eq_false_iff hne).mp hrequires
    rw [hnormalized, hnormalizedTarget, if_pos rfl] at hsame
    rw [sameTypeRequiresPreflight_varchar hsource htarget (sameText_of_not_requires hsame),
      decide_eq_false_iff_not] at hsame
    omega
  · obtain ⟨column, predicates, hpredicate, hmatches⟩ := forall_not_matches hsource hcount hvalue
    obtain ⟨-, -, typePredicates, htype, rfl, -⟩ :=
      coercionBlockerPredicate_eq_ok_iff.mp hpredicate
    rw [typeCoercionPredicates_varchar hsource htarget] at htype
    obtain rfl := Except.ok.inj htype
    by_cases hlength : length < targetLength
    · have habove := hmatches (.charLengthAbove length) (by simp [hlength])
      simpa [BlockerPredicate.matches] using habove
    · omega

end Varchar

/-! ## Decimals -/

theorem wrappingSub_of_le {a b : Nat} (hle : b ≤ a) (ha : a < 2 ^ 64) : wrappingSub a b = a - b := by
  unfold wrappingSub
  omega

/-- More digits on both sides of the point hold the numbers. -/
theorem DecimalHolds.mono {precision scale largePrecision largeScale : Nat} {value : ℚ}
    (h : DecimalHolds precision scale false value) (hscale : scale ≤ largeScale)
    (hinteger : precision - scale ≤ largePrecision - largeScale) (hle : scale ≤ precision)
    (hlarge : largeScale ≤ largePrecision) : DecimalHolds largePrecision largeScale false value := by
  obtain ⟨number, hvalue, hbound, -⟩ := h
  refine ⟨number * 10 ^ (largeScale - scale), ?_, ?_, by simp⟩
  · have hpow : (10 : ℚ) ^ largeScale = 10 ^ scale * 10 ^ (largeScale - scale) := by
      rw [← pow_add]
      congr 1
      omega
    rw [hvalue, hpow]
    push_cast
    field_simp
  · have hpow : (10 : Int) ^ precision * 10 ^ (largeScale - scale) ≤ 10 ^ largePrecision := by
      rw [← pow_add]
      gcongr
      · decide
      · omega
    rw [abs_mul, abs_of_nonneg (show (0 : Int) ≤ 10 ^ (largeScale - scale) by positivity)]
    calc |number| * 10 ^ (largeScale - scale)
        < 10 ^ precision * 10 ^ (largeScale - scale) := by
          gcongr
      _ ≤ 10 ^ largePrecision := hpow

/-- A rounded number is a multiple of its last digit. -/
theorem exists_roundTo (value : ℚ) (scale : Nat) :
    ∃ number : Int, roundTo value scale = number / 10 ^ scale := by
  unfold roundTo
  split
  · exact ⟨_, rfl⟩
  · exact ⟨-⌊-value * 10 ^ scale + 1 / 2⌋, by push_cast; ring⟩

/-- A number that the predicate does not find has the digits. -/
theorem decimalHolds_of_not_matches {precision scale : Nat} (hle : scale ≤ precision) {value : ℚ}
    (h : (BlockerPredicate.decimalOutside (precision - scale) scale).matches (.decimal value) =
      false) : DecimalHolds precision scale false value := by
  simp only [BlockerPredicate.matches, Bool.or_eq_false_iff, decide_eq_false_iff_not, not_lt,
    not_not] at h
  obtain ⟨⟨hlow, hhigh⟩, hround⟩ := h
  obtain ⟨number, hnumber⟩ := exists_roundTo value scale
  have hvalue : value = number / 10 ^ scale := hround.trans hnumber
  refine ⟨number, hvalue, ?_, by simp⟩
  have hpos : (0 : ℚ) < 10 ^ scale := by positivity
  have hlimit : decimalLimit (precision - scale) scale = (10 ^ precision - 1) / 10 ^ scale := by
    unfold decimalLimit
    rw [Nat.sub_add_cancel hle]
  rw [hlimit, hvalue] at hlow hhigh
  have hupper : (number : ℚ) ≤ 10 ^ precision - 1 := by
    exact (div_le_div_iff_of_pos_right hpos).mp hhigh
  have hlower : -((10 : ℚ) ^ precision - 1) ≤ number := by
    rw [← neg_div] at hlow
    exact (div_le_div_iff_of_pos_right hpos).mp hlow
  have hupperInt : number ≤ 10 ^ precision - 1 := by exact_mod_cast hupper
  have hlowerInt : -((10 : Int) ^ precision - 1) ≤ number := by exact_mod_cast hlower
  rw [abs_lt]
  constructor <;> linarith

/-- A shape is read only from a decimal without attributes. -/
theorem decimalShape_some {column : ColumnInventory} {kind : ColumnKind} (h : column.HasKind kind)
    {shape : Nat × Nat} (hshape : decimalShape column = some shape) :
    kind = .decimal shape.1 shape.2 false false := by
  cases kind with
  | decimal precision scale unsigned zerofill =>
    by_cases hattributes : unsigned = true ∨ zerofill = true
    · rw [decimalShape_attributes h hattributes] at hshape
      cases hshape
    · push Not at hattributes
      obtain ⟨hunsigned, hzerofill⟩ := hattributes
      obtain rfl : unsigned = false := by simpa using hunsigned
      obtain rfl : zerofill = false := by simpa using hzerofill
      rw [decimalShape_decimal h] at hshape
      obtain rfl := Option.some.inj hshape
      rfl
  | integer kind width unsigned zerofill =>
    rw [decimalShape_eq_none h (by cases kind <;> simp [ColumnKind.dataType, IntegerKind.name])] at hshape
    cases hshape
  | _ =>
    rw [decimalShape_eq_none h (by simp [ColumnKind.dataType])] at hshape
    cases hshape

/-- No shape has more digits after the point than it has digits. -/
theorem scale_le_precision {column : ColumnInventory} {kind : ColumnKind} (h : column.HasKind kind)
    {shape : Nat × Nat} (hshape : decimalShape column = some shape) :
    shape.2 ≤ shape.1 ∧ shape.1 < 2 ^ 64 := by
  have hkind := decimalShape_some h hshape
  have hwf := h.wellFormed
  rw [hkind] at hwf
  exact ⟨hwf.2.1, hwf.2.2⟩

section Decimal

variable {precision scale targetPrecision targetScale : Nat}
  {unsigned zerofill targetUnsigned targetZerofill : Bool}

/-- A decimal that needs no check has a shape on both sides, and does not narrow. -/
theorem decimal_of_not_requires
    (hsource : source.HasKind (.decimal precision scale unsigned zerofill))
    (htext : SameText source target)
    (hsame : sameTypeRequiresPreflight source target "decimal" = false) :
    ∃ sourceShape targetShape, decimalShape source = some sourceShape ∧
      decimalShape target = some targetShape ∧ decimalNarrows sourceShape targetShape = false := by
  have hrank : ¬ (integerRank "decimal").isSome = true := by decide
  unfold sameTypeRequiresPreflight at hsame
  rw [if_neg (fun h => not_sameText_iff.mpr h htext), if_neg (fun h => absurd h.1 (by decide)),
    varcharLength_eq_none hsource (by simp [ColumnKind.dataType])] at hsame
  dsimp only at hsame
  rw [if_neg hrank, if_pos rfl] at hsame
  cases hsourceShape : decimalShape source with
  | none => rw [hsourceShape] at hsame; cases hsame
  | some sourceShape =>
    cases htargetShape : decimalShape target with
    | none => rw [hsourceShape, htargetShape] at hsame; cases hsame
    | some targetShape =>
      rw [hsourceShape, htargetShape] at hsame
      exact ⟨sourceShape, targetShape, rfl, rfl, hsame⟩

theorem typeCoercionPredicates_decimal
    (hsource : source.HasKind (.decimal precision scale unsigned zerofill))
    (htarget : target.HasKind (.decimal targetPrecision targetScale targetUnsigned targetZerofill)) :
    typeCoercionPredicates source target = decimalCoercionPredicates source := by
  have hnormalized : normalizedDataType source = "decimal" := normalizedDataType_eq hsource
  have hnormalizedTarget : normalizedDataType target = "decimal" := normalizedDataType_eq htarget
  unfold typeCoercionPredicates
  dsimp only
  rw [hnormalized, hnormalizedTarget, if_neg (by decide), if_neg (by decide), if_pos ⟨rfl, rfl⟩]

theorem fits_decimal (hsource : source.HasKind (.decimal precision scale unsigned zerofill))
    (htarget : target.HasKind (.decimal targetPrecision targetScale targetUnsigned targetZerofill))
    (hemitted : modifyIsEmitted values source target = true) {value : ℚ}
    (hvalue : .decimal value ∈ values)
    (hholds : DecimalHolds targetPrecision targetScale targetUnsigned value) :
    DecimalHolds precision scale unsigned value := by
  have hnormalized : normalizedDataType source = "decimal" := normalizedDataType_eq hsource
  have hnormalizedTarget : normalizedDataType target = "decimal" := normalizedDataType_eq htarget
  rw [modifyIsEmitted_iff] at hemitted
  obtain ⟨hne, hrequires | hcount⟩ := hemitted
  · obtain ⟨-, -, hsame⟩ := (requiresPreflight_eq_false_iff hne).mp hrequires
    rw [hnormalized, hnormalizedTarget, if_pos rfl] at hsame
    obtain ⟨sourceShape, targetShape, hsourceShape, htargetShape, hnarrows⟩ :=
      decimal_of_not_requires hsource (sameText_of_not_requires hsame) hsame
    obtain ⟨hsourceLe, hsourceLt⟩ := scale_le_precision hsource hsourceShape
    obtain ⟨htargetLe, htargetLt⟩ := scale_le_precision htarget htargetShape
    obtain ⟨rfl, rfl, rfl, rfl⟩ := ColumnKind.decimal.inj (decimalShape_some hsource hsourceShape)
    obtain ⟨rfl, rfl, rfl, rfl⟩ := ColumnKind.decimal.inj (decimalShape_some htarget htargetShape)
    unfold decimalNarrows at hnarrows
    rw [wrappingSub_of_le hsourceLe hsourceLt, wrappingSub_of_le htargetLe htargetLt,
      Bool.or_eq_false_iff, decide_eq_false_iff_not, decide_eq_false_iff_not] at hnarrows
    exact hholds.mono (by omega) (by omega) htargetLe hsourceLe
  · obtain ⟨column, predicates, hpredicate, hmatches⟩ := forall_not_matches hsource hcount hvalue
    obtain ⟨-, -, typePredicates, htype, rfl, -⟩ :=
      coercionBlockerPredicate_eq_ok_iff.mp hpredicate
    rw [typeCoercionPredicates_decimal hsource htarget] at htype
    unfold decimalCoercionPredicates at htype
    cases hshape : decimalShape source with
    | none => rw [hshape] at htype; cases htype
    | some shape =>
      rw [hshape] at htype
      obtain rfl := Except.ok.inj htype
      obtain ⟨hle, -⟩ := scale_le_precision hsource hshape
      obtain ⟨rfl, rfl, rfl, rfl⟩ := ColumnKind.decimal.inj (decimalShape_some hsource hshape)
      exact decimalHolds_of_not_matches hle (hmatches _ (by simp))

end Decimal

/-! ## Types without a predicate -/

/-- Types of one family whose values no predicate compares. -/
inductive Unmeasured : ColumnKind → ColumnKind → Prop where
  | char (length targetLength : Nat) : Unmeasured (.char length) (.char targetLength)
  | enum (labels targetLabels : List String) : Unmeasured (.enum labels) (.enum targetLabels)
  | datetime (digits targetDigits : Nat) : Unmeasured (.datetime digits) (.datetime targetDigits)
  | fromTimestamp (digits targetDigits : Nat) :
    Unmeasured (.datetime digits) (.timestamp targetDigits)
  | timestamp (digits targetDigits : Nat) : Unmeasured (.timestamp digits) (.timestamp targetDigits)
  | fromDatetime (digits targetDigits : Nat) :
    Unmeasured (.timestamp digits) (.datetime targetDigits)

/-- The source type of a family without predicates holds what the target type holds: a char is not
shorter, labels keep their places, and a moment keeps its digits. A timestamp does not hold every
datetime. -/
def ColumnKind.Keeps : ColumnKind → ColumnKind → Prop
  | .char length, .char targetLength => targetLength ≤ length
  | .enum labels, .enum targetLabels => targetLabels <+: labels
  | .datetime digits, .datetime targetDigits => targetDigits ≤ digits
  | .datetime digits, .timestamp targetDigits => targetDigits ≤ digits
  | .timestamp digits, .timestamp targetDigits => targetDigits ≤ digits
  | .timestamp _, .datetime _ => False
  | _, _ => True

/-- The column is changed without a look at what its type becomes: it also loses its nulls, or the
types agree up to case, or they are a timestamp over a datetime, or the labels read as appended. -/
def Unguarded (source target : ColumnInventory) : Prop :=
  columnsEqual source target = false ∧ source.generated = target.generated ∧
    if target.isNullable && !source.isNullable then
      source.characterSet = target.characterSet ∧ source.collation = target.collation ∧
        validIdentifier source.name = true
    else
      SameText source target ∧
        (normalizedDataType source = "enum" ∧ enumLabelsAreAppended source target = true ∨
          Text.eqIgnoreAsciiCase source.dataType.toList "timestamp".toList = true ∧
            Text.eqIgnoreAsciiCase target.dataType.toList "datetime".toList = true ∨
          Text.eqIgnoreAsciiCase source.columnType.toList target.columnType.toList = true)

theorem Rounded.mono {digits more : Nat} (hle : digits ≤ more) {microseconds : Int}
    (h : Rounded digits microseconds) : Rounded more microseconds := by
  have hdvd : (10 : Int) ^ (6 - more) ∣ 10 ^ (6 - digits) := pow_dvd_pow 10 (by omega)
  exact Int.emod_eq_zero_of_dvd (hdvd.trans (Int.dvd_of_emod_eq_zero h))

theorem InTimestampRange.inDatetimeRange {microseconds : Int} (h : InTimestampRange microseconds) :
    InDatetimeRange microseconds := by
  unfold InTimestampRange at h
  unfold InDatetimeRange
  omega

theorem fits_of_keeps {nullable targetNullable : Bool} (hfamily : Unmeasured sourceKind targetKind)
    (hkeeps : sourceKind.Keeps targetKind) {value : StoredValue} (hnull : value ≠ .null)
    (hfits : value.Fits targetKind targetNullable) : value.Fits sourceKind nullable := by
  cases hfamily with
  | char length targetLength =>
    cases value with
    | null => exact absurd rfl hnull
    | text characters => exact le_trans hfits hkeeps
    | _ => exact hfits.elim
  | enum labels targetLabels =>
    cases value with
    | null => exact absurd rfl hnull
    | label index name =>
      obtain ⟨more, rfl⟩ : targetLabels <+: labels := hkeeps
      have hname : targetLabels[index]? = some name := hfits
      obtain ⟨hindex, -⟩ := List.getElem?_eq_some_iff.mp hname
      have happend : (targetLabels ++ more)[index]? = targetLabels[index]? :=
        List.getElem?_append_left hindex
      exact happend.trans hname
    | _ => exact hfits.elim
  | datetime digits targetDigits =>
    cases value with
    | null => exact absurd rfl hnull
    | moment microseconds => exact ⟨hfits.1, hfits.2.mono hkeeps⟩
    | _ => exact hfits.elim
  | fromTimestamp digits targetDigits =>
    cases value with
    | null => exact absurd rfl hnull
    | moment microseconds => exact ⟨hfits.1.inDatetimeRange, hfits.2.mono hkeeps⟩
    | _ => exact hfits.elim
  | timestamp digits targetDigits =>
    cases value with
    | null => exact absurd rfl hnull
    | moment microseconds => exact ⟨hfits.1, hfits.2.mono hkeeps⟩
    | _ => exact hfits.elim
  | fromDatetime digits targetDigits => exact hkeeps.elim

/-- A moment with one more digit than is kept. -/
theorem exists_not_rounded {digits targetDigits : Nat} (hlt : digits < targetDigits)
    (hle : targetDigits ≤ 6) : ∃ microseconds : Int, InTimestampRange microseconds ∧
      Rounded targetDigits microseconds ∧ ¬ Rounded digits microseconds := by
  refine ⟨1000000 + 10 ^ (6 - targetDigits), ?_, ?_, ?_⟩
  all_goals
    simp only [InTimestampRange, Rounded]
    interval_cases targetDigits <;> interval_cases digits <;> decide

/-- Where the source type does not keep the values of the target type, one of them is lost. -/
theorem exists_not_fits (nullable targetNullable : Bool)
    (hfamily : Unmeasured sourceKind targetKind) (hwf : targetKind.WellFormed) (hkeeps : ¬ sourceKind.Keeps targetKind) :
    ∃ value : StoredValue, value ≠ .null ∧ value.Fits targetKind targetNullable ∧
      ¬ value.Fits sourceKind nullable := by
  cases hfamily with
  | char length targetLength =>
    refine ⟨.text (List.replicate targetLength 'a'), by simp, ?_, ?_⟩
    · simp [StoredValue.Fits]
    · have hlt : length < targetLength := not_le.mp hkeeps
      simpa [StoredValue.Fits] using hlt
  | enum labels targetLabels =>
    have hprefix : ¬ targetLabels <+: labels := hkeeps
    rw [List.prefix_iff_getElem?] at hprefix
    push Not at hprefix
    obtain ⟨index, hindex, hname⟩ := hprefix
    exact ⟨.label index targetLabels[index], by simp, List.getElem?_eq_getElem hindex, hname⟩
  | datetime digits targetDigits =>
    have hlt : digits < targetDigits := not_le.mp hkeeps
    obtain ⟨microseconds, hrange, hrounded, hnot⟩ := exists_not_rounded hlt hwf
    exact ⟨.moment microseconds, by simp, ⟨hrange.inDatetimeRange, hrounded⟩, fun h => hnot h.2⟩
  | fromTimestamp digits targetDigits =>
    have hlt : digits < targetDigits := not_le.mp hkeeps
    obtain ⟨microseconds, hrange, hrounded, hnot⟩ := exists_not_rounded hlt hwf
    exact ⟨.moment microseconds, by simp, ⟨hrange, hrounded⟩, fun h => hnot h.2⟩
  | timestamp digits targetDigits =>
    have hlt : digits < targetDigits := not_le.mp hkeeps
    obtain ⟨microseconds, hrange, hrounded, hnot⟩ := exists_not_rounded hlt hwf
    exact ⟨.moment microseconds, by simp, ⟨hrange, hrounded⟩, fun h => hnot h.2⟩
  | fromDatetime digits targetDigits =>
    refine ⟨.moment 0, by simp, ⟨?_, ?_⟩, ?_⟩
    · unfold InDatetimeRange
      omega
    · simp [Rounded]
    · rintro ⟨hrange, -⟩
      exact absurd hrange.1 (by decide)

theorem Unmeasured.normalizedDataType_eq (hfamily : Unmeasured sourceKind targetKind)
    (hsource : source.HasKind sourceKind) (htarget : target.HasKind targetKind) :
    normalizedDataType source = normalizedDataType target ∧
      normalizedDataType source ∈ ["char", "enum", "datetime"] := by
  rw [SyncSchema.normalizedDataType_eq hsource, SyncSchema.normalizedDataType_eq htarget]
  cases hfamily <;> simp [ColumnKind.normalizedType, ColumnKind.dataType]

theorem Unmeasured.dataType_ne (hfamily : Unmeasured sourceKind targetKind) :
    sourceKind.dataType ≠ "varchar" := by
  cases hfamily <;> simp [ColumnKind.dataType]

theorem typeCoercionPredicates_unmeasured (hfamily : Unmeasured sourceKind targetKind)
    (hsource : source.HasKind sourceKind) (htarget : target.HasKind targetKind) :
    typeCoercionPredicates source target = .ok [] := by
  obtain ⟨hsame, hmem⟩ := hfamily.normalizedDataType_eq hsource htarget
  have hnames : ∀ name ∈ ["char", "enum", "datetime"], name ≠ "varchar" ∧
      (integerRank name).isSome = false ∧ name ≠ "decimal" := by decide
  obtain ⟨hvarchar, hrank, hdecimal⟩ := hnames _ hmem
  unfold typeCoercionPredicates
  dsimp only
  rw [if_neg (fun h => hvarchar h.1), if_neg (fun h => by rw [hrank] at h; exact absurd h.1 (by decide)),
    if_neg (fun h => hdecimal h.1), if_pos hsame]

theorem sameTypeRequiresPreflight_unmeasured (hfamily : Unmeasured sourceKind targetKind)
    (hsource : source.HasKind sourceKind) (htarget : target.HasKind targetKind)
    (htext : SameText source target) :
    sameTypeRequiresPreflight source target (normalizedDataType source) = false ↔
      normalizedDataType source = "enum" ∧ enumLabelsAreAppended source target = true ∨
        Text.eqIgnoreAsciiCase source.dataType.toList "timestamp".toList = true ∧
          Text.eqIgnoreAsciiCase target.dataType.toList "datetime".toList = true ∨
        Text.eqIgnoreAsciiCase source.columnType.toList target.columnType.toList = true := by
  obtain ⟨-, hmem⟩ := hfamily.normalizedDataType_eq hsource htarget
  have hnames : ∀ name ∈ ["char", "enum", "datetime"],
      (integerRank name).isSome = false ∧ name ≠ "decimal" := by decide
  obtain ⟨hrank, hdecimal⟩ := hnames _ hmem
  unfold sameTypeRequiresPreflight
  rw [if_neg (fun h => not_sameText_iff.mpr h htext)]
  by_cases henum : normalizedDataType source = "enum" ∧ enumLabelsAreAppended source target = true
  · rw [if_pos henum]
    exact ⟨fun _ => .inl henum, fun _ => rfl⟩
  · rw [if_neg henum, varcharLength_eq_none hsource hfamily.dataType_ne, hrank]
    dsimp only
    rw [if_neg (by decide), if_neg hdecimal, Bool.and_eq_false_iff, Bool.not_eq_false',
      Bool.not_eq_false', Bool.and_eq_true]
    exact ⟨.inr, fun h => h.resolve_left henum⟩

/-- A value in a column that is changed is not looked at. -/
theorem unguarded_of_emitted (hfamily : Unmeasured sourceKind targetKind)
    (hsource : source.HasKind sourceKind) (htarget : target.HasKind targetKind)
    (hemitted : modifyIsEmitted values source target = true) {value : StoredValue}
    (hvalue : value ∈ values) : Unguarded source target := by
  rw [modifyIsEmitted_iff] at hemitted
  obtain ⟨hne, hrequires | hcount⟩ := hemitted
  · obtain ⟨hgenerated, htight, hsame⟩ := (requiresPreflight_eq_false_iff hne).mp hrequires
    rw [if_pos (hfamily.normalizedDataType_eq hsource htarget).1] at hsame
    have htext := sameText_of_not_requires hsame
    refine ⟨hne, hgenerated, ?_⟩
    rw [if_neg (by simpa [Tightened] using htight)]
    exact ⟨htext, (sameTypeRequiresPreflight_unmeasured hfamily hsource htarget htext).mp hsame⟩
  · obtain ⟨column, predicates, hpredicate, -⟩ := forall_not_matches hsource hcount hvalue
    obtain ⟨⟨hgenerated, hset, hcollation⟩, hname, typePredicates, htype, rfl, hsome⟩ :=
      coercionBlockerPredicate_eq_ok_iff.mp hpredicate
    rw [typeCoercionPredicates_unmeasured hfamily hsource htarget] at htype
    obtain rfl := Except.ok.inj htype
    -- the only predicate is the one on nulls
    have htight : (target.isNullable && !source.isNullable) = true := by
      by_contra hnot
      exact hsome (by simp [nullabilityPredicates, hnot])
    refine ⟨hne, hgenerated, ?_⟩
    rw [if_pos htight]
    refine ⟨hset, hcollation, ?_⟩
    unfold quotedIdentifier at hname
    split at hname
    case isTrue hvalid => exact hvalid
    case isFalse => cases hname

/-- Unguarded changes of columns without nulls are made. -/
theorem emitted_of_unguarded (hfamily : Unmeasured sourceKind targetKind)
    (hsource : source.HasKind sourceKind) (htarget : target.HasKind targetKind)
    (hunguarded : Unguarded source target) (hnull : StoredValue.null ∉ values) :
    modifyIsEmitted values source target = true := by
  obtain ⟨hne, hgenerated, hrest⟩ := hunguarded
  rw [modifyIsEmitted_iff]
  refine ⟨hne, ?_⟩
  split at hrest
  case isTrue htight =>
    obtain ⟨hset, hcollation, hvalid⟩ := hrest
    have hpredicate : coercionBlockerPredicate source target =
        .ok ("`" ++ source.name ++ "`", [.isNull]) := by
      rw [coercionBlockerPredicate_eq_ok_iff]
      refine ⟨⟨hgenerated, hset, hcollation⟩, by rw [quotedIdentifier, if_pos hvalid], [],
        typeCoercionPredicates_unmeasured hfamily hsource htarget, ?_, by simp⟩
      rw [nullabilityPredicates, if_pos htight, List.append_nil]
    right
    unfold blockerCount
    rw [conversionIsProvablySafe_eq_false hsource, if_neg (by decide), hpredicate]
    dsimp only
    rw [Multiset.countP_eq_zero]
    intro value hvalue
    cases value with
    | null => exact absurd hvalue hnull
    | _ => simp [BlockerPredicate.matches]
  case isFalse htight =>
    obtain ⟨htext, hunchanged⟩ := hrest
    left
    rw [requiresPreflight_eq_false_iff hne]
    refine ⟨hgenerated, by simpa [Tightened] using htight, ?_⟩
    rw [if_pos (hfamily.normalizedDataType_eq hsource htarget).1]
    exact (sameTypeRequiresPreflight_unmeasured hfamily hsource htarget htext).mpr hunchanged

/-! ## All types -/

/-- Types that are not compared at all. -/
def Unrelated (source target : ColumnKind) : Prop :=
  source.normalizedType ≠ target.normalizedType ∧
    (integerRank source.normalizedType = none ∨ integerRank target.normalizedType = none)

/-- A change between unrelated types is made only in an empty column. -/
theorem not_mem_of_unrelated (hunrelated : Unrelated sourceKind targetKind)
    (hsource : source.HasKind sourceKind) (htarget : target.HasKind targetKind)
    (hemitted : modifyIsEmitted values source target = true) (value : StoredValue) :
    value ∉ values := by
  obtain ⟨hne, hranks⟩ := hunrelated
  rw [← normalizedDataType_eq hsource, ← normalizedDataType_eq htarget] at hne hranks
  intro hvalue
  rw [modifyIsEmitted_iff] at hemitted
  obtain ⟨hdiffers, hrequires | hcount⟩ := hemitted
  · obtain ⟨-, -, hsame⟩ := (requiresPreflight_eq_false_iff hdiffers).mp hrequires
    rw [if_neg hne] at hsame
    obtain ⟨sourceRank, targetRank, hsourceRank, htargetRank, -, -⟩ := hsame
    rw [hsourceRank, htargetRank] at hranks
    obtain h | h := hranks <;> cases h
  · obtain ⟨column, predicates, hpredicate, -⟩ := forall_not_matches hsource hcount hvalue
    obtain ⟨-, -, typePredicates, htype, -, -⟩ := coercionBlockerPredicate_eq_ok_iff.mp hpredicate
    unfold typeCoercionPredicates at htype
    dsimp only at htype
    rw [if_neg (fun h => hne (h.1.trans h.2.symm)), if_neg, if_neg (fun h => hne (h.1.trans h.2.symm)),
      if_neg hne] at htype
    · cases htype
    · rintro ⟨hsourceRank, htargetRank⟩
      obtain h | h := hranks
      · rw [h] at hsourceRank
        cases hsourceRank
      · rw [h] at htargetRank
        cases htargetRank

theorem Unmeasured.of_not_keeps (h : ¬ sourceKind.Keeps targetKind) :
    Unmeasured sourceKind targetKind := by
  cases sourceKind <;> cases targetKind
  all_goals first
    | constructor
    | exact absurd trivial h

/-- Two types are unrelated, without a predicate, or both integers, decimals or varchars. -/
inductive MeasuredPair : ColumnKind → ColumnKind → Prop where
  | integer (size targetSize : IntegerKind) (width targetWidth : Option Nat)
      (unsigned targetUnsigned zerofill targetZerofill : Bool) :
    MeasuredPair (.integer size width unsigned zerofill)
      (.integer targetSize targetWidth targetUnsigned targetZerofill)
  | decimal (precision scale targetPrecision targetScale : Nat)
      (unsigned targetUnsigned zerofill targetZerofill : Bool) :
    MeasuredPair (.decimal precision scale unsigned zerofill)
      (.decimal targetPrecision targetScale targetUnsigned targetZerofill)
  | varchar (length targetLength : Nat) : MeasuredPair (.varchar length) (.varchar targetLength)

theorem measuredPair_of_not (hfamily : ¬ Unmeasured sourceKind targetKind)
    (hunrelated : ¬ Unrelated sourceKind targetKind) : MeasuredPair sourceKind targetKind := by
  have hinteger : ∀ size : IntegerKind, size.name ∉
      ["decimal", "char", "varchar", "enum", "datetime"] := by
    intro size
    cases size <;> decide
  simp only [List.mem_cons, List.not_mem_nil, or_false, not_or] at hinteger
  cases sourceKind <;> cases targetKind
  all_goals first
    | exact absurd (by constructor) hfamily
    | constructor
    | refine absurd ⟨?_, ?_⟩ hunrelated
      · simp [ColumnKind.normalizedType, ColumnKind.dataType, hinteger, Ne.symm (hinteger _).1,
          Ne.symm (hinteger _).2.1, Ne.symm (hinteger _).2.2.1, Ne.symm (hinteger _).2.2.2.1,
          Ne.symm (hinteger _).2.2.2.2]
      · simp [ColumnKind.normalizedType, ColumnKind.dataType, integerRank]

theorem fits_of_emitted (hsource : source.HasKind sourceKind) (htarget : target.HasKind targetKind)
    (hkeeps : Unguarded source target → sourceKind.Keeps targetKind)
    (hemitted : modifyIsEmitted values source target = true) {value : StoredValue}
    (hvalue : value ∈ values) (hfits : value.Fits targetKind target.isNullable) :
    value.Fits sourceKind source.isNullable := by
  by_cases hnull : value = .null
  · subst hnull
    exact isNullable_of_emitted hsource hemitted hvalue hfits
  by_cases hunrelated : Unrelated sourceKind targetKind
  · exact absurd hvalue (not_mem_of_unrelated hunrelated hsource htarget hemitted value)
  by_cases hfamily : Unmeasured sourceKind targetKind
  · have hunguarded := unguarded_of_emitted hfamily hsource htarget hemitted hvalue
    exact fits_of_keeps hfamily (hkeeps hunguarded) hnull hfits
  cases measuredPair_of_not hfamily hunrelated with
  | integer =>
    cases value with
    | null => exact absurd rfl hnull
    | integer number => exact fits_integer hsource htarget hemitted hvalue hfits
    | _ => exact hfits.elim
  | decimal =>
    cases value with
    | null => exact absurd rfl hnull
    | decimal number => exact fits_decimal hsource htarget hemitted hvalue hfits
    | _ => exact hfits.elim
  | varchar =>
    cases value with
    | null => exact absurd rfl hnull
    | text characters => exact fits_varchar hsource htarget hemitted hvalue hfits
    | _ => exact hfits.elim

/-- A change of a column keeps every value, and the shapes do not underflow, exactly if the type
keeps the values of the target type whenever the change is unguarded. -/
theorem modify_keeps_values_iff (hsource : source.HasKind sourceKind)
    (htarget : target.HasKind targetKind) :
    ((∀ shape, decimalShape source = some shape ∨ decimalShape target = some shape →
        shape.2 ≤ shape.1) ∧
      ∀ values : Multiset StoredValue,
        (∀ value ∈ values, value.Fits targetKind target.isNullable) →
        modifyIsEmitted values source target = true →
        ∀ value ∈ values, value.Fits sourceKind source.isNullable) ↔
      (Unguarded source target → sourceKind.Keeps targetKind) := by
  constructor
  · rintro ⟨-, hkept⟩ hunguarded
    by_contra hkeeps
    have hfamily := Unmeasured.of_not_keeps hkeeps
    obtain ⟨value, hnull, hfits, hnot⟩ := exists_not_fits source.isNullable
      target.isNullable hfamily htarget.wellFormed hkeeps
    have hemitted : modifyIsEmitted {value} source target = true :=
      emitted_of_unguarded hfamily hsource htarget hunguarded (by simpa using hnull.symm)
    exact hnot (hkept {value} (by simpa using hfits) hemitted value (by simp))
  · intro hkeeps
    refine ⟨?_, ?_⟩
    · rintro shape (hshape | hshape)
      · exact (scale_le_precision hsource hshape).1
      · exact (scale_le_precision htarget hshape).1
    · intro values hvalues hemitted value hvalue
      exact fits_of_emitted hsource htarget hkeeps hemitted hvalue (hvalues value hvalue)

end Emitted

/-- A column of the type. -/
def codeColumn (kind : ColumnKind) (nullable : Bool) : ColumnInventory where
  name := "code"
  ordinalPosition := 1
  columnType := String.ofList kind.text
  dataType := kind.dataType
  isNullable := nullable
  characterSet := some "utf8mb4"
  collation := some "utf8mb4_0900_ai_ci"
  defaultValue := none
  extra := ""
  comment := ""
  generated := none

/-- A char that becomes longer and loses its nulls. -/
theorem modify_keeps_values_longer :
    (codeColumn (.char 20) false).HasKind (.char 20) ∧
      (codeColumn (.char 10) true).HasKind (.char 10) ∧
      ∀ values : Multiset StoredValue,
        (∀ value ∈ values, value.Fits (.char 10) true) →
        modifyIsEmitted values (codeColumn (.char 20) false) (codeColumn (.char 10) true) = true →
        ∀ value ∈ values, value.Fits (.char 20) false := by
  have hsource : (codeColumn (.char 20) false).HasKind (.char 20) := ⟨rfl, rfl, trivial⟩
  have htarget : (codeColumn (.char 10) true).HasKind (.char 10) := ⟨rfl, rfl, trivial⟩
  have hkeeps : ColumnKind.Keeps (.char 20) (.char 10) := show 10 ≤ 20 by decide
  exact ⟨hsource, htarget, ((modify_keeps_values_iff hsource htarget).mpr fun _ => hkeeps).2⟩

/-- A char that becomes shorter and loses its nulls: only the nulls are counted, and a longer value
is cut off. -/
theorem modify_truncates_tightened_char :
    (codeColumn (.char 10) false).HasKind (.char 10) ∧
      (codeColumn (.char 20) true).HasKind (.char 20) ∧
      modifyIsEmitted {.text "abcdefghijklmno".toList} (codeColumn (.char 10) false)
        (codeColumn (.char 20) true) = true ∧
      StoredValue.Fits (.char 20) true (.text "abcdefghijklmno".toList) ∧
      ¬ StoredValue.Fits (.char 10) false (.text "abcdefghijklmno".toList) := by
  refine ⟨⟨rfl, rfl, trivial⟩, ⟨rfl, rfl, trivial⟩, by decide +kernel, ?_, ?_⟩
  · simp [StoredValue.Fits]
  · simp [StoredValue.Fits]

end BinlogCdc.SyncSchema
