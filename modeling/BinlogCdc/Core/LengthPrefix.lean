import BinlogCdc.Core.PrefixCode

/-!
# Length-prefixed fields

A list of byte fields is written with the length of each field before it, in eight bytes with the most
significant first. The fields can be read back, so different lists have different bytes.
-/

namespace BinlogCdc.Core

/-- The bytes of a number, the most significant first; a number that is too large is cut. -/
def bigEndian : Nat → Nat → List UInt8
  | 0, _ => []
  | width + 1, n => bigEndian width (n / 256) ++ [UInt8.ofNat (n % 256)]

@[simp] theorem length_bigEndian (width n : Nat) : (bigEndian width n).length = width := by
  induction width generalizing n with
  | zero => rfl
  | succ width ih => rw [bigEndian, List.length_append, ih, List.length_singleton]

theorem bigEndian_injective {width n m : Nat} (hn : n < 256 ^ width) (hm : m < 256 ^ width)
    (h : bigEndian width n = bigEndian width m) : n = m := by
  induction width generalizing n m with
  | zero =>
    rw [Nat.pow_zero] at hn hm
    omega
  | succ width ih =>
    obtain ⟨hfront, hlast⟩ := List.append_inj' h rfl
    have hbyte := congrArg UInt8.toNat (List.singleton_inj.mp hlast)
    rw [UInt8.toNat_ofNat', UInt8.toNat_ofNat'] at hbyte
    have hquotient := ih (Nat.div_lt_of_lt_mul (by rwa [← Nat.pow_succ']))
      (Nat.div_lt_of_lt_mul (by rwa [← Nat.pow_succ'])) hfront
    omega

/-- A field with its length before it. -/
def lengthPrefixed (field : List UInt8) : List UInt8 := bigEndian 8 field.length ++ field

/-- A length that eight bytes can hold. -/
def Fits (field : List UInt8) : Prop := field.length < 256 ^ 8

/-- The length tells where a field ends. -/
theorem prefixFree_lengthPrefixed :
    PrefixFree fun field : {field : List UInt8 // Fits field} => lengthPrefixed field.1 := by
  rintro ⟨field, hfield⟩ ⟨other, hother⟩ ⟨rest, hrest⟩
  have hparts : bigEndian 8 field.length ++ (field ++ rest) =
      bigEndian 8 other.length ++ other := by
    rw [← List.append_assoc]
    exact hrest
  obtain ⟨hlength, htail⟩ := List.append_inj hparts (by simp)
  have heq := bigEndian_injective hfield hother hlength
  obtain ⟨rfl, -⟩ := List.append_inj (htail.trans (List.append_nil other).symm) heq
  rfl

theorem lengthPrefixed_ne_nil (field : List UInt8) : lengthPrefixed field ≠ [] := by
  intro h
  have hlength := congrArg List.length h
  rw [lengthPrefixed, List.length_append, length_bigEndian] at hlength
  cases field <;> cases hlength

/-- Lists of fields with the same bytes are the same. -/
theorem lengthPrefixed_injective {fields others : List (List UInt8)}
    (hfields : ∀ field ∈ fields, Fits field) (hothers : ∀ field ∈ others, Fits field)
    (h : fields.flatMap lengthPrefixed = others.flatMap lengthPrefixed) : fields = others := by
  have hcode := prefixFree_lengthPrefixed.flatMap_injective
    fun field => lengthPrefixed_ne_nil field.1
  obtain ⟨fields, rfl⟩ : ∃ attached : List {field : List UInt8 // Fits field},
      attached.map Subtype.val = fields :=
    ⟨fields.attachWith Fits hfields, List.attachWith_map_subtype_val hfields⟩
  obtain ⟨others, rfl⟩ : ∃ attached : List {field : List UInt8 // Fits field},
      attached.map Subtype.val = others :=
    ⟨others.attachWith Fits hothers, List.attachWith_map_subtype_val hothers⟩
  rw [List.flatMap_map, List.flatMap_map] at h
  rw [hcode h]

end BinlogCdc.Core
