import BinlogCdc.Core.Digits
import BinlogCdc.Sync.UpdateStatement

/-!
# What parameters stand for

The values that the texts of a row stand for: an unsigned decimal number for ENUM and BIT columns,
hexadecimal digits for MEDIUMBLOB columns and the text itself for the others. A key text of an ENUM
column is a label. A parameter of a statement is the value that its text stands for, and a text
stands for one value only.
-/

namespace BinlogCdc

/-! ## Numbers -/

/-- The text is a decimal number, perhaps with a plus sign. -/
def SpellsNumber (text : Text) (number : Nat) : Prop :=
  ∃ digits : Text, (text = digits ∨ text = '+' :: digits) ∧ digits ≠ [] ∧
    (∀ c ∈ digits, c.isDigit = true) ∧ Core.positionalValue 10 decimalDigit digits = number

theorem plus_not_digit : ('+' : Char).isDigit = false := by decide

theorem SpellsNumber.unique {text : Text} {number number' : Nat} (h : SpellsNumber text number)
    (h' : SpellsNumber text number') : number = number' := by
  obtain ⟨digits, htext, -, hdigits, rfl⟩ := h
  obtain ⟨digits', htext', -, hdigits', rfl⟩ := h'
  have hsame : digits = digits' := by
    rcases htext with rfl | rfl
    · rcases htext' with rfl | rfl
      · rfl
      · exact absurd (hdigits '+' List.mem_cons_self) (by rw [plus_not_digit]; decide)
    · rcases htext' with rfl | htext'
      · exact absurd ( hdigits' '+' List.mem_cons_self) (by rw [plus_not_digit]; decide)
      · exact (List.cons.inj htext').2
  rw [hsame]

theorem parseUnsignedDigits_eq_ok {value number : Nat} {digits : Text}
    (h : parseUnsignedDigits value digits = .ok number) :
    (∀ c ∈ digits, c.isDigit = true) ∧
      digits.foldl (fun value d => 10 * value + decimalDigit d) value = number := by
  induction digits generalizing value with
  | nil => exact ⟨fun _ hc => (List.not_mem_nil hc).elim, Except.ok.inj h⟩
  | cons c digits ih =>
    rw [parseUnsignedDigits] at h
    by_cases hdigit : c.isDigit = true
    · rw [if_pos hdigit] at h
      split at h
      · obtain ⟨hdigits, hvalue⟩ := ih h
        exact ⟨List.forall_mem_cons.mpr ⟨hdigit, hdigits⟩, hvalue⟩
      · cases h
    · rw [if_neg hdigit] at h
      cases h

theorem parseUnsigned_spells {text : Text} {number : Nat} (h : parseUnsigned text = .ok number) :
    SpellsNumber text number := by
  unfold parseUnsigned at h
  split at h
  · cases h
  · cases h
  · next digits hdigits =>
    obtain ⟨hall, hvalue⟩ := parseUnsignedDigits_eq_ok h
    exact ⟨digits, .inr rfl, fun hnil => hdigits (by rw [hnil]), hall, hvalue⟩
  · next hnil _ _ =>
    obtain ⟨hall, hvalue⟩ := parseUnsignedDigits_eq_ok h
    exact ⟨_, .inl rfl, hnil, hall, hvalue⟩

/-! ## Hexadecimal digits -/

def upperHexDigit (value : UInt8) : UInt8 := if value < 10 then value + 48 else value + 55

/-- The digits of bytes as the server writes them. -/
def hexText (bytes : List UInt8) : List UInt8 :=
  bytes.flatMap fun byte : UInt8 => [upperHexDigit (byte >>> 4), upperHexDigit (byte &&& 15)]

def upperLetter (value : UInt8) : UInt8 := if 97 ≤ value ∧ value ≤ 122 then value - 32 else value

theorem decodeHexDigit_cases (value : Fin 256) :
    ∀ digit ∈ decodeHexDigit (UInt8.ofFin value),
      upperHexDigit digit = upperLetter (UInt8.ofFin value) ∧ digit < 16 := by
  decide +kernel +revert

theorem upperHexDigit_of_decode {value digit : UInt8} (h : decodeHexDigit value = some digit) :
    upperHexDigit digit = upperLetter value ∧ digit < 16 :=
  decodeHexDigit_cases value.toFin digit h

theorem nibbles_cases (high low : Fin 16) :
    let byte := (UInt8.ofNat high <<< 4 ||| UInt8.ofNat low)
    byte >>> 4 = UInt8.ofNat high ∧ byte &&& 15 = UInt8.ofNat low := by
  decide +kernel +revert

theorem nibbles {high low : UInt8} (hhigh : high < 16) (hlow : low < 16) :
    (high <<< 4 ||| low) >>> 4 = high ∧ (high <<< 4 ||| low) &&& 15 = low := by
  have h := nibbles_cases ⟨high.toNat, hhigh⟩ ⟨low.toNat, hlow⟩
  simpa using h

theorem hexText_decode {text bytes : List UInt8} (h : decodeHexBytes text = some bytes) :
    hexText bytes = text.map upperLetter := by
  induction text using decodeHexBytes.induct generalizing bytes with
  | case1 =>
    obtain rfl := Option.some.inj h
    rfl
  | case2 => cases h
  | case3 high low rest ih =>
    rw [decodeHexBytes] at h
    cases hhigh : decodeHexDigit high with
    | none => rw [hhigh] at h; cases h
    | some first =>
      cases hlow : decodeHexDigit low with
      | none => rw [hhigh, hlow] at h; cases h
      | some second =>
        cases hrest : decodeHexBytes rest with
        | none => rw [hhigh, hlow, hrest] at h; cases h
        | some more =>
          rw [hhigh, hlow, hrest] at h
          obtain rfl := Option.some.inj h
          obtain ⟨hupper, hfirst⟩ := upperHexDigit_of_decode hhigh
          obtain ⟨hupper', hsecond⟩ := upperHexDigit_of_decode hlow
          obtain ⟨hshift, hmask⟩ := nibbles hfirst hsecond
          have hmore := ih hrest
          simp only [hexText, List.flatMap_cons, List.map_cons] at hmore ⊢
          rw [hshift, hmask, hupper, hupper', hmore]
          rfl

theorem decode_upperHex_cases (byte : Fin 256) :
    decodeHexBytes [upperHexDigit (UInt8.ofFin byte >>> 4), upperHexDigit (UInt8.ofFin byte &&& 15)] =
      some [UInt8.ofFin byte] := by
  decide +kernel +revert

theorem decodeHexBytes_pair {high low byte : UInt8} (h : decodeHexBytes [high, low] = some [byte])
    (rest : List UInt8) :
    decodeHexBytes (high :: low :: rest) = (decodeHexBytes rest).map (byte :: ·) := by
  rw [decodeHexBytes] at h ⊢
  cases hhigh : decodeHexDigit high with
  | none => rw [hhigh] at h; cases h
  | some first =>
    cases hlow : decodeHexDigit low with
    | none => rw [hhigh, hlow] at h; cases h
    | some second =>
      rw [hhigh, hlow] at h
      have hbyte : first <<< 4 ||| second = byte := by simpa [decodeHexBytes] using h
      cases hrest : decodeHexBytes rest with
      | none => rfl
      | some more => simp [hbyte]

theorem decodeHexBytes_hexText (bytes : List UInt8) :
    decodeHexBytes (hexText bytes) = some bytes := by
  induction bytes with
  | nil => rfl
  | cons byte bytes ih =>
    have hpair := decodeHexBytes_pair (decode_upperHex_cases byte.toFin) (hexText bytes)
    rw [ih] at hpair
    exact hpair

theorem hexText_injective : Function.Injective hexText := by
  intro bytes bytes' h
  have hdecode := congrArg decodeHexBytes h
  rw [decodeHexBytes_hexText, decodeHexBytes_hexText] at hdecode
  exact Option.some.inj hdecode

/-! ## Values -/

/-- The value that a text of a row stands for in a column; no text stands for NULL. -/
inductive StandsFor (table : SyncSelectTable) (column : String) :
    Option String → ParamValue → Prop where
  | null : StandsFor table column none .null
  | ordinal {labels : List String} {value : String} {number : Nat}
      (hlabels : table.enumColumns.lookup column = some labels)
      (hnumber : SpellsNumber value.toList number) (hdeclared : number ≤ labels.length) :
      StandsFor table column (some value) (.uint number)
  | bits {value : String} {number : Nat} (hplain : table.enumColumns.lookup column = none)
      (hbits : column ∈ table.bitColumns) (hnumber : SpellsNumber value.toList number) :
      StandsFor table column (some value) (.uint number)
  | blob {value : String} {bytes : List UInt8} (hplain : table.enumColumns.lookup column = none)
      (hbits : column ∉ table.bitColumns) (hblob : column ∈ table.mediumblobColumns)
      (hhex : hexText bytes = (utf8Bytes value).map upperLetter) :
      StandsFor table column (some value) (.bytes bytes)
  | text {value : String} (hplain : table.enumColumns.lookup column = none)
      (hbits : column ∉ table.bitColumns) (hblob : column ∉ table.mediumblobColumns) :
      StandsFor table column (some value) (.bytes (utf8Bytes value))

/-- The value that a key text stands for in a column. -/
inductive KeyStandsFor (table : SyncSelectTable) (column : String) : String → ParamValue → Prop where
  | label {labels : List String} {value : String}
      (hlabels : table.enumColumns.lookup column = some labels) (hdeclared : value ∈ labels) :
      KeyStandsFor table column value (.bytes (utf8Bytes value))
  | plain {value : String} {param : ParamValue} (hplain : table.enumColumns.lookup column = none)
      (h : StandsFor table column (some value) param) : KeyStandsFor table column value param

variable {table : SyncSelectTable} {column value : String} {param param' : ParamValue}

theorem StandsFor.unique {value : Option String} (h : StandsFor table column value param)
    (h' : StandsFor table column value param') : param = param' := by
  cases h with
  | null =>
    cases h'
    rfl
  | ordinal hlabels hnumber _ =>
    cases h' with
    | ordinal _ hnumber' _ => rw [hnumber.unique hnumber']
    | bits hplain' => rw [hlabels] at hplain'; cases hplain'
    | blob hplain' => rw [hlabels] at hplain'; cases hplain'
    | text hplain' => rw [hlabels] at hplain'; cases hplain'
  | bits hplain hbits hnumber =>
    cases h' with
    | ordinal hlabels' => rw [hplain] at hlabels'; cases hlabels'
    | bits _ _ hnumber' => rw [hnumber.unique hnumber']
    | blob _ hbits' => exact absurd hbits hbits'
    | text _ hbits' => exact absurd hbits hbits'
  | blob hplain hbits hblob hhex =>
    cases h' with
    | ordinal hlabels' => rw [hplain] at hlabels'; cases hlabels'
    | bits _ hbits' => exact absurd hbits' hbits
    | blob _ _ _ hhex' => rw [hexText_injective (hhex.trans hhex'.symm)]
    | text _ _ hblob' => exact absurd hblob hblob'
  | text hplain hbits hblob =>
    cases h' with
    | ordinal hlabels' => rw [hplain] at hlabels'; cases hlabels'
    | bits _ hbits' => exact absurd hbits' hbits
    | blob _ _ hblob' => exact absurd hblob' hblob
    | text => rfl

theorem KeyStandsFor.unique (h : KeyStandsFor table column value param)
    (h' : KeyStandsFor table column value param') : param = param' := by
  cases h with
  | label hlabels =>
    cases h' with
    | label => rfl
    | plain hplain' => rw [hlabels] at hplain'; cases hplain'
  | plain hplain hvalue =>
    cases h' with
    | label hlabels' => rw [hplain] at hlabels'; cases hlabels'
    | plain _ hvalue' => exact hvalue.unique hvalue'

/-! ## Parameters stand for their texts -/

theorem standsFor_parameterValue (h : parameterValue table column value = .ok param) :
    StandsFor table column (some value) param := by
  unfold parameterValue at h
  split at h
  · next labels hlabels =>
    unfold enumOrdinalParameterValue at h
    split at h
    · cases h
    · next ordinal hordinal =>
      split at h
      · cases h
      · next hdeclared =>
        obtain rfl := Except.ok.inj h
        exact .ordinal hlabels (parseUnsigned_spells hordinal) (Nat.le_of_not_lt hdeclared)
  · next hplain =>
    by_cases hbits : column ∈ table.bitColumns
    · rw [if_pos hbits] at h
      split at h
      · next number hnumber =>
        obtain rfl := Except.ok.inj h
        exact .bits hplain hbits (parseUnsigned_spells hnumber)
      · cases h
    · rw [if_neg hbits] at h
      by_cases hblob : column ∈ table.mediumblobColumns
      · rw [if_pos hblob, hexBytesParameterValue] at h
        split at h
        · next bytes hbytes =>
          obtain rfl := Except.ok.inj h
          exact .blob hplain hbits hblob (hexText_decode hbytes)
        · cases h
      · rw [if_neg hblob] at h
        obtain rfl := Except.ok.inj h
        exact .text hplain hbits hblob

theorem keyStandsFor_primaryKeyParameterValue
    (h : primaryKeyParameterValue table column value = .ok param) :
    KeyStandsFor table column value param := by
  unfold primaryKeyParameterValue at h
  split at h
  · next hplain => exact .plain hplain (standsFor_parameterValue h)
  · next labels hlabels =>
    split at h
    · next hdeclared =>
      obtain rfl := Except.ok.inj h
      exact .label hlabels hdeclared
    · cases h

/-! ## The parameters of a batch -/

/-- The parameters of the key of a row. -/
def keyOf (table : SyncSelectTable) (row : DatabaseRow) : List ParamValue :=
  match primaryKeyParams table row.primaryKey "" with
  | .ok params => params
  | .error _ => []

/-- The parameter of a column of a row. -/
def valueOf (table : SyncSelectTable) (column : String) (row : DatabaseRow) : ParamValue :=
  match (row.get column).join with
  | some value =>
    match parameterValue table column value with
    | .ok param => param
    | .error _ => .null
  | none => .null

variable {row : DatabaseRow} {rows : List DatabaseRow}

/-- The key of a row has parameters, whatever they are called in an error. -/
theorem primaryKeyParams_label {key : PrimaryKey} {label : String} {params : List ParamValue}
    (h : primaryKeyParams table key label = .ok params) (label' : String) :
    primaryKeyParams table key label' = .ok params := by
  unfold primaryKeyParams at h ⊢
  split at h
  · cases h
  · next hwidth => rwa [if_neg hwidth]

theorem primaryKeyParams_keyOf {label : String} {params : List ParamValue}
    (h : primaryKeyParams table row.primaryKey label = .ok params) : keyOf table row = params := by
  rw [keyOf, primaryKeyParams_label h ""]

/-- The key parameters are as wide as the key. -/
theorem length_primaryKeyParams {key : PrimaryKey} {label : String} {params : List ParamValue}
    (h : primaryKeyParams table key label = .ok params) :
    key.values.length = table.primaryKey.length ∧ params.length = table.primaryKey.length := by
  unfold primaryKeyParams at h
  split at h
  · cases h
  · next hwidth =>
    have hwidth := not_not.mp hwidth
    have hlength := (mapM_eq_ok.mp h).length_eq
    rw [List.length_zip, hwidth, Nat.min_self] at hlength
    exact ⟨hwidth, hlength.symm⟩

theorem orderedValues_valueOf {params : List ParamValue}
    (h : orderedValues table row [column] = .ok params) : params = [valueOf table column row] := by
  have hall := mapM_eq_ok.mp h
  cases hall with
  | cons hfirst hrest =>
    cases hrest
    unfold valueOf
    cases hvalue : (row.get column).join with
    | some value =>
      rw [hvalue] at hfirst
      dsimp only at hfirst ⊢
      rw [hfirst]
    | none =>
      rw [hvalue] at hfirst
      rw [← Except.ok.inj hfirst]

theorem standsFor_valueOf {params : List ParamValue}
    (h : orderedValues table row [column] = .ok params) :
    StandsFor table column (row.get column).join (valueOf table column row) := by
  obtain rfl := orderedValues_valueOf h
  have hall := mapM_eq_ok.mp h
  cases hall with
  | cons hfirst _ =>
    split at hfirst
    · next value hvalue =>
      rw [hvalue]
      exact standsFor_parameterValue hfirst
    · next hvalue =>
      rw [hvalue, ← Except.ok.inj hfirst]
      exact .null

/-- The rows of a batch have keys and values for the columns. -/
structure Bound (table : SyncSelectTable) (columns : List String) (rows : List DatabaseRow) :
    Prop where
  key : ∀ row ∈ rows, ∀ label, primaryKeyParams table row.primaryKey label = .ok (keyOf table row)
  value : ∀ column ∈ columns, ∀ row ∈ rows,
    orderedValues table row [column] = .ok [valueOf table column row]

/-- The parameters of a batch, in the order of the text. -/
def batchParams (table : SyncSelectTable) (columns : List String) (rows : List DatabaseRow) :
    List ParamValue :=
  columns.flatMap (fun column => rows.flatMap fun row =>
    keyOf table row ++ [valueOf table column row]) ++ rows.flatMap (keyOf table)

theorem Bound.orderedUpdateParams {columns : List String} (h : Bound table columns rows) :
    orderedUpdateParams table columns rows = .ok (batchParams table columns rows) := by
  have hcases := mapM_eq_ok_map fun column hcolumn => mapM_eq_ok_map fun row hrow =>
    show (do
        let key ← primaryKeyParams table row.primaryKey "update primary key"
        let value ← orderedValues table row [column]
        return key ++ value : Except String (List ParamValue)) =
      .ok (keyOf table row ++ [valueOf table column row]) by
      rw [h.key row hrow, h.value column hcolumn row hrow]
      rfl
  have hfilter := mapM_eq_ok_map fun row hrow => h.key row hrow "update filter primary key"
  rw [BinlogCdc.orderedUpdateParams, hcases, ok_bind, hfilter, ok_bind, batchParams,
    List.flatMap_def, List.flatMap_def, List.flatten_flatten, List.map_map]
  rfl

theorem bound_of_orderedUpdateParams {columns : List String} {params : List ParamValue}
    (h : orderedUpdateParams table columns rows = .ok params) : Bound table columns rows := by
  obtain ⟨cases, hcases, h⟩ := bind_eq_ok.mp h
  obtain ⟨filter, hfilter, h⟩ := bind_eq_ok.mp h
  refine ⟨fun row hrow label => ?_, fun column hcolumn row hrow => ?_⟩
  · obtain ⟨params, hparams⟩ := exists_of_mapM_eq_ok hfilter row hrow
    rw [primaryKeyParams_keyOf hparams]
    exact primaryKeyParams_label hparams label
  · obtain ⟨results, hresults⟩ := exists_of_mapM_eq_ok hcases column hcolumn
    obtain ⟨result, hresult⟩ := exists_of_mapM_eq_ok hresults row hrow
    obtain ⟨key, -, hresult⟩ := bind_eq_ok.mp hresult
    obtain ⟨value, hvalue, -⟩ := bind_eq_ok.mp hresult
    rw [← orderedValues_valueOf hvalue]
    exact hvalue

end BinlogCdc
