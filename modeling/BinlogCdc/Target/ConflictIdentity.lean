import BinlogCdc.Core.LengthPrefix
import BinlogCdc.Core.Utf8
import BinlogCdc.Sync.CursorJson
import BinlogCdc.Sync.UpdateStatement

/-!
# Identities of row conflicts

A conflict and the row it is about are identified by a digest of their fields, each with its length
before it. The ledger table computes the identity of the row again, with an expression of a generated
column. Both read the same bytes, and different fields give different bytes.
-/

namespace BinlogCdc

/-- The bytes of a text. -/
def textBytes (text : Text) : List UInt8 := utf8Bytes (String.ofList text)

theorem textBytes_injective : Function.Injective textBytes := by
  intro text other h
  have htext := congrArg String.toList (Core.toUTF8_injective h)
  rwa [String.toList_ofList, String.toList_ofList] at htext

/-- The digest function: 32 bytes. -/
structure Sha256 where
  digest : List UInt8 → List UInt8
  length_digest : ∀ input, (digest input).length = 32

/-! ## Keys -/

inductive ConflictOperation where
  | insert
  | update
  | delete
deriving DecidableEq, Repr

def ConflictOperation.text : ConflictOperation → Text
  | .insert => "insert".toList
  | .update => "update".toList
  | .delete => "delete".toList

structure ConflictCoordinate where
  file : Text
  startPosition : UInt64
  endPosition : UInt64
deriving DecidableEq, Repr

structure ConflictKey where
  sourceIdentity : Text
  sourceServerId : UInt64
  coordinate : ConflictCoordinate
  schema : Text
  table : Text
  operation : ConflictOperation
  sourcePrimaryKey : List Text
deriving DecidableEq, Repr

variable (json : CursorJson) (sha : Sha256)

/-- Fields with their lengths before them. -/
def canonicalLengthPrefixedInput (fields : List (List UInt8)) : List UInt8 :=
  fields.flatMap Core.lengthPrefixed

/-- The fields of a key, the end of the event left out. -/
def conflictIdentityFields (key : ConflictKey) : List (List UInt8) :=
  [textBytes key.sourceIdentity, Core.bigEndian 8 key.sourceServerId.toNat,
    textBytes key.coordinate.file, Core.bigEndian 8 key.coordinate.startPosition.toNat,
    textBytes key.schema, textBytes key.table, textBytes key.operation.text,
    textBytes (json.write key.sourcePrimaryKey)]

def canonicalConflictIdentityInput (key : ConflictKey) : List UInt8 :=
  canonicalLengthPrefixedInput (conflictIdentityFields json key)

def sourceRowIdentityFields (sourceIdentity schema table : Text) (sourcePrimaryKey : List Text) :
    List (List UInt8) :=
  [textBytes sourceIdentity, textBytes schema, textBytes table,
    textBytes (json.write sourcePrimaryKey)]

/-- What the identity of a row is the digest of. -/
def sourceRowIdentityInput (sourceIdentity schema table : Text) (sourcePrimaryKey : List Text) :
    List UInt8 :=
  canonicalLengthPrefixedInput (sourceRowIdentityFields json sourceIdentity schema table
    sourcePrimaryKey)

/-- The digest in lowercase digits. -/
def sha256Identity (input : List UInt8) : Text :=
  (sha.digest input).flatMap fun byte => [hexDigit (byte.toNat / 16), hexDigit (byte.toNat % 16)]

def conflictIdentity (key : ConflictKey) : Text :=
  sha256Identity sha (canonicalConflictIdentityInput json key)

def sourceRowIdentity (sourceIdentity schema table : Text) (sourcePrimaryKey : List Text) : Text :=
  sha256Identity sha (sourceRowIdentityInput json sourceIdentity schema table sourcePrimaryKey)

/-! ## Validation -/

def validateSha256IdentityEncoding (identity : Text) (name : String) : Except String Unit :=
  let isLowercaseHex := (textBytes identity).all fun byte =>
    (48 ≤ byte && byte ≤ 57) || (97 ≤ byte && byte ≤ 102)
  if (textBytes identity).length = 64 && isLowercaseHex then .ok ()
  else .error ("invalid " ++ name ++ " encoding: expected 64 lowercase ASCII hex characters")

def validateConflictIdentity (identity : Text) (key : ConflictKey) : Except String Unit := do
  validateSha256IdentityEncoding identity "conflict identity"
  let expected := conflictIdentity json sha key
  if identity = expected then .ok ()
  else
    .error ("conflict identity mismatch: stored " ++ String.ofList identity ++ ", expected " ++
      String.ofList expected)

def validateSourceRowIdentity (identity sourceIdentity schema table : Text)
    (sourcePrimaryKey : List Text) : Except String Unit := do
  validateSha256IdentityEncoding identity "source row identity"
  let expected := sourceRowIdentity json sha sourceIdentity schema table sourcePrimaryKey
  if identity = expected then .ok ()
  else
    .error ("source row identity mismatch: stored " ++ String.ofList identity ++ ", expected " ++
      String.ofList expected)

/-- A row of the ledger. -/
structure ConflictIdentityRow where
  conflictIdentity : Text
  sourceRowIdentity : Text
  sourceIdentity : Text
  sourceServerId : UInt64
  sourceFile : Text
  sourceStartPosition : UInt64
  schemaName : Text
  tableName : Text
  operation : Text
  sourcePrimaryKeyJson : Text
deriving DecidableEq, Repr

def parseConflictOperation (operation : Text) : Except String ConflictOperation :=
  if operation = "insert".toList then .ok .insert
  else if operation = "update".toList then .ok .update
  else if operation = "delete".toList then .ok .delete
  else .error ("unknown conflict operation in stored row: " ++ String.ofList operation)

def conflictKeyFromIdentityRow (row : ConflictIdentityRow) : Except String ConflictKey := do
  let operation ← parseConflictOperation row.operation
  let sourcePrimaryKey ← (json.read row.sourcePrimaryKeyJson).mapError
    ("invalid stored source primary key JSON: " ++ ·)
  return {
    sourceIdentity := row.sourceIdentity
    sourceServerId := row.sourceServerId
    coordinate :=
      { file := row.sourceFile, startPosition := row.sourceStartPosition, endPosition := 0 }
    schema := row.schemaName
    table := row.tableName
    operation
    sourcePrimaryKey }

def validateConflictIdentityRow (row : ConflictIdentityRow) : Except String Unit := do
  let key ← conflictKeyFromIdentityRow json row
  validateConflictIdentity json sha row.conflictIdentity key
  validateSourceRowIdentity json sha row.sourceRowIdentity key.sourceIdentity key.schema key.table
    key.sourcePrimaryKey

/-! ## The generated column -/

/-- The columns that the expression of the generated column reads. -/
inductive IdentityColumn where
  | sourceIdentity
  | schemaName
  | tableName
  | sourcePrimaryKeyJson
deriving DecidableEq, Repr

def IdentityColumn.name : IdentityColumn → String
  | .sourceIdentity => "source_identity"
  | .schemaName => "schema_name"
  | .tableName => "table_name"
  | .sourcePrimaryKeyJson => "source_primary_key_json"

def IdentityColumn.value (row : ConflictIdentityRow) : IdentityColumn → Text
  | .sourceIdentity => row.sourceIdentity
  | .schemaName => row.schemaName
  | .tableName => row.tableName
  | .sourcePrimaryKeyJson => row.sourcePrimaryKeyJson

/-- The arguments that the expression joins. -/
inductive IdentityPart where
  | length (column : IdentityColumn)
  | bytes (column : IdentityColumn)
deriving DecidableEq, Repr

def IdentityPart.text : IdentityPart → String
  | .length column => "UNHEX(LPAD(HEX(LENGTH(" ++ column.name ++ ")),16,'0'))"
  | .bytes column => "CONVERT(" ++ column.name ++ " USING binary)"

def identityParts : List IdentityPart :=
  [IdentityColumn.sourceIdentity, .schemaName, .tableName, .sourcePrimaryKeyJson].flatMap
    fun column => [.length column, .bytes column]

/-- The expression of the generated column. -/
def sourceRowIdentityGenerationExpression : String :=
  "SHA2(CONCAT(" ++ ",".intercalate (identityParts.map IdentityPart.text) ++ "),256)"

/-- `HEX` of a number. -/
def sqlHex (n : Nat) : Text := (Nat.toDigits 16 n).map Char.toUpper

/-- `LPAD` with one character. -/
def sqlLpad (text : Text) (width : Nat) (character : Char) : Text :=
  List.replicate (width - text.length) character ++ text.take width

/-- The bytes of pairs of digits. -/
def hexPairs : Text → Option (List UInt8)
  | [] => some []
  | [_] => none
  | high :: low :: rest => do
    let high ← hexValue high
    let low ← hexValue low
    let bytes ← hexPairs rest
    return UInt8.ofNat (16 * high + low) :: bytes

/-- `UNHEX`; an odd number of digits has a zero before it. -/
def sqlUnhex (text : Text) : Option (List UInt8) :=
  hexPairs (if text.length % 2 = 1 then '0' :: text else text)

def IdentityPart.eval (row : ConflictIdentityRow) : IdentityPart → Option (List UInt8)
  | .length column => sqlUnhex (sqlLpad (sqlHex (textBytes (column.value row)).length) 16 '0')
  | .bytes column => some (textBytes (column.value row))

/-- What the generated column is the digest of. -/
def generatedIdentityInput (row : ConflictIdentityRow) : Option (List UInt8) :=
  (identityParts.mapM (IdentityPart.eval row)).map List.flatten

example : sourceRowIdentityGenerationExpression =
    "SHA2(CONCAT(UNHEX(LPAD(HEX(LENGTH(source_identity)),16,'0')),CONVERT(source_identity USING binary),UNHEX(LPAD(HEX(LENGTH(schema_name)),16,'0')),CONVERT(schema_name USING binary),UNHEX(LPAD(HEX(LENGTH(table_name)),16,'0')),CONVERT(table_name USING binary),UNHEX(LPAD(HEX(LENGTH(source_primary_key_json)),16,'0')),CONVERT(source_primary_key_json USING binary)),256)" := by
  decide +kernel

/-! ## Lengths in digits -/

/-- Digits of a fixed number, the most significant first. -/
def hexFixed : Nat → Nat → Text
  | 0, _ => []
  | width + 1, n => hexFixed width (n / 16) ++ [(Nat.digitChar (n % 16)).toUpper]

theorem hexFixed_zero (width : Nat) : hexFixed width 0 = List.replicate width '0' := by
  induction width with
  | zero => rfl
  | succ width ih =>
    rw [hexFixed, Nat.zero_div, ih, List.replicate_succ']
    rfl

theorem sqlLpad_sqlHex {width n : Nat} (h : n < 16 ^ width) :
    sqlLpad (sqlHex n) width '0' = hexFixed width n := by
  induction width generalizing n with
  | zero => rw [sqlLpad, Nat.zero_sub, List.take_zero, hexFixed, List.replicate_zero, List.append_nil]
  | succ width ih =>
    by_cases hsmall : n < 16
    · have hdigits : sqlHex n = [(Nat.digitChar n).toUpper] := by
        rw [sqlHex, Nat.toDigits_of_lt_base hsmall]
        rfl
      rw [hdigits, sqlLpad, hexFixed, Nat.div_eq_of_lt hsmall, hexFixed_zero,
        Nat.mod_eq_of_lt hsmall]
      simp
    · have hquotient : n / 16 < 16 ^ width := by
        apply Nat.div_lt_of_lt_mul
        rwa [← Nat.pow_succ']
      have hdigits : sqlHex n = sqlHex (n / 16) ++ [(Nat.digitChar (n % 16)).toUpper] := by
        rw [sqlHex, Nat.toDigits_of_base_le (by decide) (by omega), List.map_append]
        rfl
      have hpos : 0 < width := by
        apply Nat.pos_of_ne_zero
        rintro rfl
        rw [Nat.pow_zero] at hquotient
        omega
      have hlength : (sqlHex (n / 16)).length ≤ width := by
        rw [sqlHex, List.length_map]
        exact (Nat.length_toDigits_le_iff (by decide) hpos).mpr hquotient
      have hrest := ih hquotient
      rw [sqlLpad, List.take_of_length_le hlength] at hrest
      rw [hexFixed, ← hrest, hdigits, sqlLpad, List.take_of_length_le (by simpa using hlength),
        List.length_append, List.length_singleton, Nat.add_sub_add_right, List.append_assoc]

/-- A pair of digits after others. -/
theorem hexPairs_append {text : Text} {bytes : List UInt8} (h : hexPairs text = some bytes)
    {high low : Char} {n m : Nat} (hhigh : hexValue high = some n) (hlow : hexValue low = some m) :
    hexPairs (text ++ [high, low]) = some (bytes ++ [UInt8.ofNat (16 * n + m)]) := by
  induction text using hexPairs.induct generalizing bytes with
  | case1 =>
    obtain rfl := Option.some.inj h
    simp [hexPairs, hhigh, hlow]
  | case2 => cases h
  | case3 first second rest ih =>
    rw [hexPairs] at h
    simp only [Option.bind_eq_bind, Option.bind_eq_some_iff, Option.pure_def] at h
    obtain ⟨a, ha, b, hb, rest', hrest, hbytes⟩ := h
    obtain rfl := Option.some.inj hbytes
    rw [List.cons_append, List.cons_append, hexPairs, ha, hb, ih hrest]
    rfl

theorem hexValue_digit {n : Nat} (h : n < 16) : hexValue (Nat.digitChar n).toUpper = some n := by
  have hall : ∀ n < 16, hexValue (Nat.digitChar n).toUpper = some n := by decide
  exact hall n h

theorem hexPairs_hexFixed (width n : Nat) :
    hexPairs (hexFixed (2 * width) n) = some (Core.bigEndian width n) := by
  induction width generalizing n with
  | zero => rfl
  | succ width ih =>
    have hbyte : UInt8.ofNat (16 * (n / 16 % 16) + n % 16) = UInt8.ofNat (n % 256) := by
      congr 1
      omega
    have hpair := hexPairs_append (ih (n / 16 / 16))
      (hexValue_digit (Nat.mod_lt (n / 16) (by decide))) (hexValue_digit (Nat.mod_lt n (by decide)))
    rw [hbyte] at hpair
    rw [show 2 * (width + 1) = 2 * width + 1 + 1 by omega, hexFixed, hexFixed, List.append_assoc,
      Core.bigEndian, show n / 256 = n / 16 / 16 by omega]
    exact hpair

theorem length_hexFixed (width n : Nat) : (hexFixed width n).length = width := by
  induction width generalizing n with
  | zero => rfl
  | succ width ih => rw [hexFixed, List.length_append, ih, List.length_singleton]

/-- The server writes a length in the bytes that the program writes it in. -/
theorem sqlUnhex_length {n : Nat} (h : n < 256 ^ 8) :
    sqlUnhex (sqlLpad (sqlHex n) 16 '0') = some (Core.bigEndian 8 n) := by
  rw [sqlLpad_sqlHex (by rwa [show 16 ^ 16 = 256 ^ 8 by decide]), sqlUnhex, length_hexFixed,
    if_neg (by decide)]
  exact hexPairs_hexFixed 8 n

/-- The generated column reads what the identity of the row is the digest of. -/
theorem generatedIdentityInput_eq {json : CursorJson} {row : ConflictIdentityRow}
    {sourcePrimaryKey : List Text} (hjson : row.sourcePrimaryKeyJson = json.write sourcePrimaryKey)
    (hfits : ∀ field ∈ sourceRowIdentityFields json row.sourceIdentity row.schemaName row.tableName
      sourcePrimaryKey, Core.Fits field) :
    generatedIdentityInput row = some (sourceRowIdentityInput json row.sourceIdentity row.schemaName
      row.tableName sourcePrimaryKey) := by
  have hlength : ∀ column : IdentityColumn, IdentityPart.eval row (.length column) =
      some (Core.bigEndian 8 (textBytes (column.value row)).length) := by
    intro column
    apply sqlUnhex_length
    apply hfits
    cases column <;> simp [sourceRowIdentityFields, IdentityColumn.value, hjson]
  have hparts : identityParts.mapM (IdentityPart.eval row) =
      some [Core.bigEndian 8 (textBytes row.sourceIdentity).length, textBytes row.sourceIdentity,
        Core.bigEndian 8 (textBytes row.schemaName).length, textBytes row.schemaName,
        Core.bigEndian 8 (textBytes row.tableName).length, textBytes row.tableName,
        Core.bigEndian 8 (textBytes row.sourcePrimaryKeyJson).length,
        textBytes row.sourcePrimaryKeyJson] := by
    simp only [identityParts, List.flatMap_cons, List.flatMap_nil, List.append_nil,
      List.cons_append, List.nil_append, List.mapM_cons, List.mapM_nil, hlength]
    rfl
  rw [generatedIdentityInput, hparts, hjson]
  simp [sourceRowIdentityInput, sourceRowIdentityFields, canonicalLengthPrefixedInput,
    Core.lengthPrefixed]

/-! ## Digests -/

theorem textBytes_eq (text : Text) : textBytes text = text.flatMap String.utf8EncodeChar :=
  Core.toUTF8_ofList text

theorem sha256Identity_encoding (input : List UInt8) (name : String) :
    validateSha256IdentityEncoding (sha256Identity sha input) name = .ok () := by
  have hdigit : ∀ n < 16, ∃ byte, String.utf8EncodeChar (hexDigit n) = [byte] ∧
      ((48 ≤ byte && byte ≤ 57) || (97 ≤ byte && byte ≤ 102)) = true := by
    have hall : ∀ n < 16, String.utf8EncodeChar (hexDigit n) =
        [(String.utf8EncodeChar (hexDigit n)).headD 0] ∧
        ((48 ≤ (String.utf8EncodeChar (hexDigit n)).headD 0 &&
            (String.utf8EncodeChar (hexDigit n)).headD 0 ≤ 57) ||
          (97 ≤ (String.utf8EncodeChar (hexDigit n)).headD 0 &&
            (String.utf8EncodeChar (hexDigit n)).headD 0 ≤ 102)) = true := by
      decide
    exact fun n hn => ⟨_, hall n hn⟩
  have hbytes : ∀ bytes : List UInt8,
      (textBytes (bytes.flatMap fun byte =>
        [hexDigit (byte.toNat / 16), hexDigit (byte.toNat % 16)])).length = 2 * bytes.length ∧
      ((textBytes (bytes.flatMap fun byte =>
        [hexDigit (byte.toNat / 16), hexDigit (byte.toNat % 16)])).all fun byte =>
          (48 ≤ byte && byte ≤ 57) || (97 ≤ byte && byte ≤ 102)) = true := by
    intro bytes
    induction bytes with
    | nil =>
      rw [textBytes_eq]
      exact ⟨rfl, rfl⟩
    | cons byte bytes ih =>
      have hlt := byte.toNat_lt
      obtain ⟨high, hhigh, hhighLower⟩ := hdigit (byte.toNat / 16) (by omega)
      obtain ⟨low, hlow, hlowLower⟩ := hdigit (byte.toNat % 16) (by omega)
      rw [textBytes_eq] at ih ⊢
      rw [List.flatMap_cons, List.flatMap_append, List.flatMap_cons, List.flatMap_cons,
        List.flatMap_nil, hhigh, hlow]
      refine ⟨?_, ?_⟩
      · simp only [List.length_append, List.append_nil, ih.1, List.length_cons, List.length_nil]
        omega
      · rw [List.all_append, ih.2, List.append_nil, List.all_append, List.all_cons, List.all_cons,
          hhighLower, hlowLower]
        rfl
  obtain ⟨hlength, hlower⟩ := hbytes (sha.digest input)
  rw [sha.length_digest] at hlength
  unfold validateSha256IdentityEncoding
  simp only [sha256Identity, hlength, hlower]
  rfl

theorem validateConflictIdentity_self (key : ConflictKey) :
    validateConflictIdentity json sha (conflictIdentity json sha key) key = .ok () := by
  rw [validateConflictIdentity, conflictIdentity, sha256Identity_encoding]
  exact if_pos rfl

theorem validateSourceRowIdentity_self (sourceIdentity schema table : Text)
    (sourcePrimaryKey : List Text) :
    validateSourceRowIdentity json sha
      (sourceRowIdentity json sha sourceIdentity schema table sourcePrimaryKey) sourceIdentity schema
      table sourcePrimaryKey = .ok () := by
  rw [validateSourceRowIdentity, sourceRowIdentity, sha256Identity_encoding]
  exact if_pos rfl

/-! ## Identities -/

/-- Every field of a key is a text in memory. -/
def FitsKey (key : ConflictKey) : Prop :=
  ∀ field ∈ conflictIdentityFields json key, Core.Fits field

/-- The keys are of the same conflict; the end of the event does not count. -/
structure SameConflict (key other : ConflictKey) : Prop where
  sourceIdentity : key.sourceIdentity = other.sourceIdentity
  sourceServerId : key.sourceServerId = other.sourceServerId
  file : key.coordinate.file = other.coordinate.file
  startPosition : key.coordinate.startPosition = other.coordinate.startPosition
  schema : key.schema = other.schema
  table : key.table = other.table
  operation : key.operation = other.operation
  sourcePrimaryKey : key.sourcePrimaryKey = other.sourcePrimaryKey

theorem bigEndian_uint64_injective {n m : UInt64}
    (h : Core.bigEndian 8 n.toNat = Core.bigEndian 8 m.toNat) : n = m :=
  UInt64.toNat_inj.mp (Core.bigEndian_injective n.toNat_lt m.toNat_lt h)

theorem CursorJson.write_injective (json : CursorJson) : Function.Injective json.write := by
  intro cursor other h
  have hread := json.read_write cursor
  rw [h, json.read_write] at hread
  exact (Except.ok.inj hread).symm

theorem ConflictOperation.text_injective : Function.Injective ConflictOperation.text := by
  intro operation other h
  cases operation <;> cases other <;> first | rfl | exact absurd h (by decide)

theorem canonicalConflictIdentityInput_eq_iff {key other : ConflictKey} (hkey : FitsKey json key)
    (hother : FitsKey json other) :
    canonicalConflictIdentityInput json key = canonicalConflictIdentityInput json other ↔
      SameConflict key other := by
  constructor
  · intro h
    have hfields := Core.lengthPrefixed_injective hkey hother h
    simp only [conflictIdentityFields, List.cons.injEq, and_true] at hfields
    obtain ⟨hsource, hserver, hfile, hstart, hschema, htable, hoperation, hprimary⟩ := hfields
    exact ⟨textBytes_injective hsource, bigEndian_uint64_injective hserver,
      textBytes_injective hfile, bigEndian_uint64_injective hstart, textBytes_injective hschema,
      textBytes_injective htable, ConflictOperation.text_injective (textBytes_injective hoperation),
      json.write_injective (textBytes_injective hprimary)⟩
  · rintro ⟨hsource, hserver, hfile, hstart, hschema, htable, hoperation, hprimary⟩
    simp only [canonicalConflictIdentityInput, conflictIdentityFields, hsource, hserver, hfile,
      hstart, hschema, htable, hoperation, hprimary]

theorem sourceRowIdentityInput_eq_iff {sourceIdentity schema table : Text}
    {sourcePrimaryKey : List Text} {sourceIdentity' schema' table' : Text}
    {sourcePrimaryKey' : List Text}
    (hfits : ∀ field ∈ sourceRowIdentityFields json sourceIdentity schema table sourcePrimaryKey,
      Core.Fits field)
    (hfits' : ∀ field ∈ sourceRowIdentityFields json sourceIdentity' schema' table'
      sourcePrimaryKey', Core.Fits field) :
    sourceRowIdentityInput json sourceIdentity schema table sourcePrimaryKey =
        sourceRowIdentityInput json sourceIdentity' schema' table' sourcePrimaryKey' ↔
      sourceIdentity = sourceIdentity' ∧ schema = schema' ∧ table = table' ∧
        sourcePrimaryKey = sourcePrimaryKey' := by
  constructor
  · intro h
    have hfields := Core.lengthPrefixed_injective hfits hfits' h
    simp only [sourceRowIdentityFields, List.cons.injEq, and_true] at hfields
    obtain ⟨hsource, hschema, htable, hprimary⟩ := hfields
    exact ⟨textBytes_injective hsource, textBytes_injective hschema, textBytes_injective htable,
      json.write_injective (textBytes_injective hprimary)⟩
  · rintro ⟨rfl, rfl, rfl, rfl⟩
    rfl

/-- The row of a key: the program writes the columns, and the server computes the generated one. -/
structure Recorded (key : ConflictKey) (row : ConflictIdentityRow) : Prop where
  identity : row.conflictIdentity = conflictIdentity json sha key
  generated : (generatedIdentityInput row).map (sha256Identity sha) = some row.sourceRowIdentity
  sourceIdentity : row.sourceIdentity = key.sourceIdentity
  sourceServerId : row.sourceServerId = key.sourceServerId
  sourceFile : row.sourceFile = key.coordinate.file
  sourceStartPosition : row.sourceStartPosition = key.coordinate.startPosition
  schemaName : row.schemaName = key.schema
  tableName : row.tableName = key.table
  operation : row.operation = key.operation.text
  sourcePrimaryKeyJson : row.sourcePrimaryKeyJson = json.write key.sourcePrimaryKey

theorem parseConflictOperation_text (operation : ConflictOperation) :
    parseConflictOperation operation.text = .ok operation := by
  cases operation <;> rfl

/-- The key of a row is read back, with no end of the event. -/
theorem Recorded.key_eq {json : CursorJson} {sha : Sha256} {key : ConflictKey}
    {row : ConflictIdentityRow} (h : Recorded json sha key row) :
    conflictKeyFromIdentityRow json row =
      .ok { key with coordinate := { key.coordinate with endPosition := 0 } } := by
  unfold conflictKeyFromIdentityRow
  rw [h.operation, parseConflictOperation_text, h.sourcePrimaryKeyJson, json.read_write,
    h.sourceIdentity, h.sourceServerId, h.sourceFile, h.sourceStartPosition, h.schemaName,
    h.tableName]
  rfl

theorem FitsKey.row {json : CursorJson} {key : ConflictKey} (h : FitsKey json key) :
    ∀ field ∈ sourceRowIdentityFields json key.sourceIdentity key.schema key.table
      key.sourcePrimaryKey, Core.Fits field := by
  intro field hfield
  apply h
  simp only [sourceRowIdentityFields, conflictIdentityFields, List.mem_cons, List.not_mem_nil,
    or_false] at hfield ⊢
  rcases hfield with rfl | rfl | rfl | rfl <;> simp

theorem Recorded.generatedIdentityInput_eq {json : CursorJson} {sha : Sha256} {key : ConflictKey}
    {row : ConflictIdentityRow} (h : Recorded json sha key row) (hfits : FitsKey json key) :
    generatedIdentityInput row = some (sourceRowIdentityInput json key.sourceIdentity key.schema
      key.table key.sourcePrimaryKey) := by
  have hrow := hfits.row
  rw [← h.sourceIdentity, ← h.schemaName, ← h.tableName] at hrow ⊢
  exact BinlogCdc.generatedIdentityInput_eq h.sourcePrimaryKeyJson hrow

/-- A row that the program wrote is accepted. -/
theorem Recorded.validate {json : CursorJson} {sha : Sha256} {key : ConflictKey}
    {row : ConflictIdentityRow} (h : Recorded json sha key row) (hfits : FitsKey json key) :
    validateConflictIdentityRow json sha row = .ok () := by
  have hrow : row.sourceRowIdentity =
      sourceRowIdentity json sha key.sourceIdentity key.schema key.table key.sourcePrimaryKey := by
    have hgenerated := h.generated
    rw [h.generatedIdentityInput_eq hfits] at hgenerated
    exact (Option.some.inj hgenerated).symm
  unfold validateConflictIdentityRow
  have hkey := validateConflictIdentity_self json sha
    { key with coordinate := { key.coordinate with endPosition := 0 } }
  have hsource := validateSourceRowIdentity_self json sha key.sourceIdentity key.schema key.table
    key.sourcePrimaryKey
  rw [h.key_eq, h.identity, hrow]
  simp only [bind, Except.bind]
  rw [show conflictIdentity json sha key = conflictIdentity json sha
    { key with coordinate := { key.coordinate with endPosition := 0 } } from rfl, hkey]
  exact hsource

/-- A key whose text has a quote and a comma. -/
def quotedConflictKey : ConflictKey where
  sourceIdentity := "source".toList
  sourceServerId := 7
  coordinate := { file := "mysql-bin.000001".toList, startPosition := 4, endPosition := 90 }
  schema := "shop".toList
  table := "books".toList
  operation := .update
  sourcePrimaryKey := ["a\",\"b".toList, "2".toList]

end BinlogCdc
