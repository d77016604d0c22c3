import Mathlib

/-!
# Names of target constraints

The source needs a constraint name to be unique within its table only, the target within the
schema. A target name starts with the table of the constraint, and a name that is then too
long is cut and ends in a digest of what it names. Two constraints still get one name when a
name carries the prefix that the other one receives.
-/

namespace BinlogCdc

/-- The constraints with names of their own. -/
inductive TargetConstraintKind where
  | check
  | foreignKey
deriving DecidableEq, Repr

def TargetConstraintKind.label : TargetConstraintKind → String
  | .check => "check"
  | .foreignKey => "foreign_key"

def mysqlIdentifierMaxCharacters : Nat := 64

def targetConstraintHashCharacters : Nat := 16

/-- The name starts with the table and an underscore. -/
def CarriesTable (table name : String) : Prop := (table ++ "_").toList <+: name.toList

instance (table name : String) : Decidable (CarriesTable table name) :=
  inferInstanceAs (Decidable (_ <+: _))

/-- The kept characters of the digest of a constraint. -/
def constraintHash (hexDigest : String → String) (kind : TargetConstraintKind)
    (table sourceName : String) : List Char :=
  let identity := kind.label ++ "\x00" ++ table ++ "\x00" ++ sourceName
  (hexDigest identity).toList.take targetConstraintHashCharacters

/-- The name of a constraint on the target. -/
def targetConstraintName (hexDigest : String → String) (kind : TargetConstraintKind)
    (table sourceName : String) : String :=
  let qualified := if CarriesTable table sourceName then sourceName else table ++ "_" ++ sourceName
  if qualified.length ≤ mysqlIdentifierMaxCharacters then qualified
  else
    let prefixCharacters := mysqlIdentifierMaxCharacters - targetConstraintHashCharacters - 1
    String.ofList (qualified.toList.take prefixCharacters ++
      '_' :: constraintHash hexDigest kind table sourceName)

/-! ## Spellings -/

/-- A constraint with its table: `(table, name)` is spelled with the table before the name, once. -/
inductive Spelled : String × String → String → Prop
  | carried {table name : String} (h : CarriesTable table name) : Spelled (table, name) name
  | added {table name : String} (h : ¬ CarriesTable table name) :
    Spelled (table, name) (table ++ "_" ++ name)

theorem exists_spelled (constraint : String × String) : ∃ spelling, Spelled constraint spelling := by
  obtain ⟨table, name⟩ := constraint
  by_cases h : CarriesTable table name
  · exact ⟨name, .carried h⟩
  · exact ⟨_, .added h⟩

/-- Two constraints are spelled alike, and the spelling is not too long. -/
def Clashes (a b : String × String) : Prop :=
  ∃ spelling, Spelled a spelling ∧ Spelled b spelling ∧
    spelling.length ≤ mysqlIdentifierMaxCharacters

section Names

variable {hexDigest : String → String} {kind : TargetConstraintKind}

/-- A spelling that is not too long is the target name. -/
theorem targetConstraintName_of_short {constraint : String × String} {spelling : String}
    (h : Spelled constraint spelling) (hlength : spelling.length ≤ mysqlIdentifierMaxCharacters) :
    targetConstraintName hexDigest kind constraint.1 constraint.2 = spelling := by
  cases h with
  | carried hcarries => simp only [targetConstraintName, hcarries, if_true, hlength]
  | added hcarries => simp only [targetConstraintName, hcarries, if_false, hlength, if_true]

/-- A spelling that is too long is cut before the digest. -/
theorem targetConstraintName_of_long {constraint : String × String} {spelling : String}
    (h : Spelled constraint spelling) (hlength : ¬ spelling.length ≤ mysqlIdentifierMaxCharacters) :
    targetConstraintName hexDigest kind constraint.1 constraint.2 =
      String.ofList (spelling.toList.take 47 ++
        '_' :: constraintHash hexDigest kind constraint.1 constraint.2) := by
  cases h with
  | carried hcarries =>
    simp only [targetConstraintName, hcarries, if_true, hlength, if_false]
    rfl
  | added hcarries =>
    simp only [targetConstraintName, hcarries, if_false, hlength]
    rfl

theorem length_targetConstraintName (table name : String) :
    (targetConstraintName hexDigest kind table name).length ≤ mysqlIdentifierMaxCharacters := by
  obtain ⟨spelling, hspelling⟩ := exists_spelled (table, name)
  by_cases hlength : spelling.length ≤ mysqlIdentifierMaxCharacters
  · have hname := @targetConstraintName_of_short hexDigest kind _ _ hspelling hlength
    rw [hname]
    exact hlength
  · have hname := @targetConstraintName_of_long hexDigest kind _ _ hspelling hlength
    rw [hname, ← String.length_toList, String.toList_ofList, List.length_append, List.length_cons,
      List.length_take]
    have hhash : (constraintHash hexDigest kind table name).length ≤ 16 := List.length_take_le _ _
    unfold mysqlIdentifierMaxCharacters
    dsimp only
    omega

/-- The kept characters of the digests tell the constraints apart, and no spelling of another
constraint ends in one. -/
structure CollisionFree (hexDigest : String → String) (kind : TargetConstraintKind)
    (constraints : List (String × String)) : Prop where
  hashes : ∀ a ∈ constraints, ∀ b ∈ constraints,
    constraintHash hexDigest kind a.1 a.2 = constraintHash hexDigest kind b.1 b.2 → a = b
  spellings : ∀ a ∈ constraints, ∀ b ∈ constraints, a ≠ b → ∀ spelling, Spelled b spelling →
    ¬ constraintHash hexDigest kind a.1 a.2 <:+ spelling.toList

variable {constraints : List (String × String)}

/-- Only constraints that clash get the same name. -/
theorem CollisionFree.eq_iff (h : CollisionFree hexDigest kind constraints) {a b : String × String}
    (ha : a ∈ constraints) (hb : b ∈ constraints) (hne : a ≠ b) :
    targetConstraintName hexDigest kind a.1 a.2 = targetConstraintName hexDigest kind b.1 b.2 ↔
      Clashes a b := by
  obtain ⟨s, hs⟩ := exists_spelled a
  obtain ⟨s', hs'⟩ := exists_spelled b
  constructor
  · intro heq
    by_cases hlength : s.length ≤ mysqlIdentifierMaxCharacters
    · rw [targetConstraintName_of_short hs hlength] at heq
      by_cases hlength' : s'.length ≤ mysqlIdentifierMaxCharacters
      · rw [targetConstraintName_of_short hs' hlength'] at heq
        exact ⟨s, hs, heq ▸ hs', hlength⟩
      · -- A cut name ends in its digest, and no other spelling does.
        rw [targetConstraintName_of_long hs' hlength'] at heq
        refine absurd ?_ (h.spellings b hb a ha hne.symm s hs)
        rw [heq, String.toList_ofList]
        exact (List.suffix_cons _ _).trans (List.suffix_append _ _)
    · rw [targetConstraintName_of_long hs hlength] at heq
      by_cases hlength' : s'.length ≤ mysqlIdentifierMaxCharacters
      · rw [targetConstraintName_of_short hs' hlength'] at heq
        refine absurd ?_ (h.spellings a ha b hb hne s' hs')
        rw [← heq, String.toList_ofList]
        exact (List.suffix_cons _ _).trans (List.suffix_append _ _)
      · rw [targetConstraintName_of_long hs' hlength'] at heq
        have hlists := congrArg String.toList heq
        simp only [String.toList_ofList] at hlists
        have htakes : (s.toList.take 47).length = (s'.toList.take 47).length := by
          rw [← String.length_toList] at hlength hlength'
          unfold mysqlIdentifierMaxCharacters at hlength hlength'
          simp only [List.length_take]
          omega
        have hhashes := (List.append_inj hlists htakes).2
        exact absurd (h.hashes a ha b hb (List.cons.inj hhashes).2) hne
  · rintro ⟨spelling, hspelling, hspelling', hlength⟩
    rw [targetConstraintName_of_short hspelling hlength,
      targetConstraintName_of_short hspelling' hlength]

end Names

/-- The target names of distinct constraints are distinct and not too long exactly when no two
constraints are spelled alike within the limit. -/
theorem targetConstraintNames_distinct_iff (hexDigest : String → String)
    (kind : TargetConstraintKind) (constraints : List (String × String))
    (hdistinct : constraints.Nodup) (hfree : CollisionFree hexDigest kind constraints) :
    ((constraints.map fun c => targetConstraintName hexDigest kind c.1 c.2).Nodup ∧
      ∀ c ∈ constraints,
        (targetConstraintName hexDigest kind c.1 c.2).length ≤ mysqlIdentifierMaxCharacters) ↔
    ∀ a ∈ constraints, ∀ b ∈ constraints, a ≠ b → ¬ Clashes a b := by
  constructor
  · rintro ⟨hnodup, -⟩ a ha b hb hne hclash
    have heq := (hfree.eq_iff ha hb hne).mpr hclash
    exact hne (List.inj_on_of_nodup_map hnodup ha hb heq)
  · intro hclear
    refine ⟨?_, fun c _ => length_targetConstraintName c.1 c.2⟩
    refine hdistinct.map_on ?_
    intro a ha b hb heq
    by_contra hne
    exact hclear a ha b hb hne ((hfree.eq_iff ha hb hne).mp heq)

/-- The digests of three constraints. -/
def reviewDigest (identity : String) : String :=
  if identity = "check\x00llm_messages_with_a_very_long_table_identity\x00metadata_with_a_very_long_constraint_identity_a" then
    "754c7983e5301972a90d449ef6cf6bce62e15620fcc7ebcf1b058183bce76cf3"
  else if identity = "check\x00llm_messages_with_a_very_long_table_identity\x00metadata_with_a_very_long_constraint_identity_b" then
    "4f8d2e33c176a448830e72d15c6d00eb71f4b477f8b90e5fd3cb19b2100a2f57"
  else "94cb2e4a06dd847df4ff14eede0e1e7404fbcd91681a594d6afdd047e21ec31c"

def reviewChecks : List (String × String) :=
  [("llm_messages_with_a_very_long_table_identity", "metadata_with_a_very_long_constraint_identity_a"),
    ("llm_messages_with_a_very_long_table_identity", "metadata_with_a_very_long_constraint_identity_b"),
    ("comics", "config_json")]

/-- The spelling of a constraint. -/
def spelling (constraint : String × String) : String :=
  if CarriesTable constraint.1 constraint.2 then constraint.2
  else constraint.1 ++ "_" ++ constraint.2

theorem Spelled.eq_spelling {constraint : String × String} {s : String} (h : Spelled constraint s) :
    s = spelling constraint := by
  cases h with
  | carried h => exact (if_pos h).symm
  | added h => exact (if_neg h).symm

theorem reviewChecks_collisionFree : CollisionFree reviewDigest .check reviewChecks where
  hashes := by decide +kernel
  spellings a ha b hb hne s hs := by
    have hall : ∀ a ∈ reviewChecks, ∀ b ∈ reviewChecks, a ≠ b →
        ¬ constraintHash reviewDigest .check a.1 a.2 <:+ (spelling b).toList := by decide +kernel
    rw [hs.eq_spelling]
    exact hall a ha b hb hne

/-- Long names of one table and a short name stay apart. -/
theorem targetConstraintNames_distinct_review :
    reviewChecks.Nodup ∧
    (reviewChecks.map fun c => targetConstraintName reviewDigest .check c.1 c.2).Nodup := by
  have hnodup : reviewChecks.Nodup := by decide +kernel
  have hiff := targetConstraintNames_distinct_iff reviewDigest .check reviewChecks hnodup
    reviewChecks_collisionFree
  refine ⟨hnodup, (hiff.mpr ?_).1⟩
  rintro a ha b hb hne ⟨s, hs, hs', hlength⟩
  have hspellings : ∀ a ∈ reviewChecks, ∀ b ∈ reviewChecks, a ≠ b → spelling a ≠ spelling b := by
    decide +kernel
  exact hspellings a ha b hb hne (hs.eq_spelling.symm.trans hs'.eq_spelling)

/-- Two constraints of one table, and two of different tables, with one target name. -/
theorem targetConstraintNames_collide :
    ("orders", "amount") ≠ ("orders", "orders_amount") ∧
    ("orders", "items_fk") ≠ ("orders_items", "fk") ∧ ∀ hexDigest,
    targetConstraintName hexDigest .check "orders" "amount" =
      targetConstraintName hexDigest .check "orders" "orders_amount" ∧
    targetConstraintName hexDigest .foreignKey "orders" "items_fk" =
      targetConstraintName hexDigest .foreignKey "orders_items" "fk" := by
  have hamount : Spelled ("orders", "amount") "orders_amount" := .added (by decide +kernel)
  have hcarried : Spelled ("orders", "orders_amount") "orders_amount" := .carried (by decide +kernel)
  have hitems : Spelled ("orders", "items_fk") "orders_items_fk" := .added (by decide +kernel)
  have hfk : Spelled ("orders_items", "fk") "orders_items_fk" := .added (by decide +kernel)
  refine ⟨by decide, by decide, fun hexDigest => ⟨?_, ?_⟩⟩
  · exact (targetConstraintName_of_short hamount (by decide)).trans
      (targetConstraintName_of_short hcarried (by decide)).symm
  · exact (targetConstraintName_of_short hitems (by decide)).trans
      (targetConstraintName_of_short hfk (by decide)).symm

end BinlogCdc
