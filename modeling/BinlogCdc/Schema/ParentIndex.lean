import BinlogCdc.Core.KeyedTable
import BinlogCdc.Schema.ConstraintName
import BinlogCdc.Schema.Inventory

/-!
# Unique parent indexes

The target accepts a foreign key only when its referenced columns come first, undivided, in
the primary key or in a unique index of the parent. The schema that the target must hold
therefore has a unique index for every parent that the source does not key. A key that
covers the columns by name is taken as it is, also when it only covers a prefix of a value,
and the name of an added index joins the columns, so that different columns can have one name.
-/

namespace BinlogCdc.SyncSchema

/-- The foreign key as the target has it. -/
def targetForeignKey (hexDigest : String → String) (source : ForeignKeyInventory) :
    ForeignKeyInventory :=
  { source with name := targetConstraintName hexDigest .foreignKey source.table source.name }

def synthesizedParentIndexName (table : String) (columns : List String) : String :=
  "uq_cdc_" ++ table ++ "_" ++ "_".intercalate columns

/-- The columns come first in the primary key or in a unique index of the table. -/
def standardParentKeyExists (source : SchemaInventory) (tableName : String)
    (columns : List String) : Bool :=
  let primaryKeyCovers :=
    match source.tables.find? fun table => decide (table.name = tableName) with
    | some table => columns.isPrefixOf table.primaryKey
    | none => false
  primaryKeyCovers || (indexesFor source tableName).any fun index =>
    index.unique && decide (columns.length ≤ index.columns.length) &&
      ((index.columns.map (·.name)).zip columns).all fun pair => decide (pair.1 = pair.2)

/-- The unique index on the referenced columns of a foreign key. -/
def parentIndex (foreignKey : ForeignKeyInventory) : IndexInventory where
  table := foreignKey.referencedTable
  name := synthesizedParentIndexName foreignKey.referencedTable foreignKey.referencedColumns
  unique := true
  indexType := "BTREE"
  visible := true
  comment := none
  columns := foreignKey.referencedColumns.mapIdx fun position column =>
    { name := column
      sequence := position + 1
      prefixLength := none
      collation := some "A"
      order := "ASC" }

/-- Indexes by table and name. -/
abbrev IndexMap : Type := KeyedTable fun index : IndexInventory => toLex (index.table, index.name)

/-- The parent of the foreign key has no key that covers its columns by name. -/
def Uncovered (source : SchemaInventory) (foreignKey : ForeignKeyInventory) : Prop :=
  foreignKey.referencedSchema = source.schema ∧
    standardParentKeyExists source foreignKey.referencedTable foreignKey.referencedColumns = false

instance (source : SchemaInventory) (foreignKey : ForeignKeyInventory) :
    Decidable (Uncovered source foreignKey) := inferInstanceAs (Decidable (_ ∧ _))

/-- Add the parent index of a foreign key, unless it is not needed or its name is taken. -/
def addParentIndex (source : SchemaInventory) (synthesized : IndexMap)
    (foreignKey : ForeignKeyInventory) : IndexMap :=
  if Uncovered source foreignKey then
    let index := parentIndex foreignKey
    match synthesized.find (toLex (index.table, index.name)) with
    | some _ => synthesized
    | none => synthesized.put index
  else synthesized

def synthesizedParentIndexes (source : SchemaInventory) : IndexMap :=
  source.foreignKeys.foldl (addParentIndex source) ⟨[], List.Pairwise.nil⟩

/-- The schema that the target must hold. -/
def expectedTargetInventory (hexDigest : String → String) (source : SchemaInventory) :
    SchemaInventory :=
  { source with
    foreignKeys := source.foreignKeys.map (targetForeignKey hexDigest)
    indexes := source.indexes ++ (synthesizedParentIndexes source).rows }

/-! ## Parents with a key -/

/-- The referenced columns come first, undivided, in the primary key or in a unique index of the
parent. -/
def ParentKeyed (inventory : SchemaInventory) (table : String) (columns : List String) : Prop :=
  (∃ parent, inventory.tables.find? (fun parent => decide (parent.name = table)) = some parent ∧
    columns <+: parent.primaryKey) ∨
  ∃ index ∈ inventory.indexes, index.table = table ∧ index.unique = true ∧
    columns.map (fun column => (column, none)) <+:
      index.columns.map fun column => (column.name, column.prefixLength)

/-- The parent indexes of the foreign keys would have one name. -/
def SharesIndexName (a b : ForeignKeyInventory) : Prop :=
  a.referencedTable = b.referencedTable ∧
    synthesizedParentIndexName a.referencedTable a.referencedColumns =
      synthesizedParentIndexName b.referencedTable b.referencedColumns

/-- The foreign key is the first uncovered one of the list with its index name. -/
def FirstUncovered (source : SchemaInventory) (keys : List ForeignKeyInventory)
    (foreignKey : ForeignKeyInventory) : Prop :=
  ∃ before after, keys = before ++ foreignKey :: after ∧ Uncovered source foreignKey ∧
    ∀ earlier ∈ before, Uncovered source earlier → ¬ SharesIndexName earlier foreignKey

section Synthesis

variable {source : SchemaInventory} {keys : List ForeignKeyInventory}
  {key foreignKey : ForeignKeyInventory}

theorem firstUncovered_snoc : FirstUncovered source (keys ++ [key]) foreignKey ↔
    FirstUncovered source keys foreignKey ∨ (foreignKey = key ∧ Uncovered source key ∧
      ∀ earlier ∈ keys, Uncovered source earlier → ¬ SharesIndexName earlier key) := by
  constructor
  · rintro ⟨before, after, hsplit, huncovered, hearlier⟩
    rcases List.eq_nil_or_concat after with rfl | ⟨after', last, rfl⟩
    · obtain ⟨rfl, hlast⟩ := List.append_inj' hsplit rfl
      obtain rfl : key = foreignKey := by simpa using hlast
      exact Or.inr ⟨rfl, huncovered, hearlier⟩
    · have hkeys : keys ++ [key] = (before ++ foreignKey :: after') ++ [last] := by simpa using hsplit
      obtain ⟨rfl, -⟩ := List.append_inj' hkeys rfl
      exact Or.inl ⟨before, after', rfl, huncovered, hearlier⟩
  · rintro (⟨before, after, rfl, huncovered, hearlier⟩ | ⟨rfl, huncovered, hearlier⟩)
    · exact ⟨before, after ++ [key], by simp, huncovered, hearlier⟩
    · exact ⟨keys, [], rfl, huncovered, hearlier⟩

/-- The parent indexes agree in table and name when the foreign keys share the name. -/
theorem parentIndex_key_eq {a b : ForeignKeyInventory} :
    (toLex ((parentIndex a).table, (parentIndex a).name) : String ×ₗ String) =
        toLex ((parentIndex b).table, (parentIndex b).name) ↔ SharesIndexName a b := by
  simp [parentIndex, SharesIndexName]

/-- Each name has the index of the first uncovered foreign key with it. -/
theorem mem_foldl_addParentIndex (keys : List ForeignKeyInventory) :
    (∀ index, index ∈ (keys.foldl (addParentIndex source) ⟨[], List.Pairwise.nil⟩).rows ↔
      ∃ foreignKey, FirstUncovered source keys foreignKey ∧ index = parentIndex foreignKey) ∧
    ∀ key ∈ keys, Uncovered source key →
      ∃ foreignKey, FirstUncovered source keys foreignKey ∧ SharesIndexName foreignKey key := by
  induction keys using List.reverseRecOn with
  | nil =>
    refine ⟨fun index => ?_, by simp⟩
    simp [FirstUncovered]
  | append_singleton keys key ih =>
    obtain ⟨hrows, hnamed⟩ := ih
    rw [List.foldl_append, List.foldl_cons, List.foldl_nil]
    generalize keys.foldl (addParentIndex source) ⟨[], List.Pairwise.nil⟩ = synthesized at hrows ⊢
    by_cases huncovered : Uncovered source key
    · by_cases htaken : ∃ foreignKey, FirstUncovered source keys foreignKey ∧
          SharesIndexName foreignKey key
      · -- The name is taken, and the first foreign key with it stays the first.
        obtain ⟨first, hfirst, hshares⟩ := htaken
        have hsome : synthesized.find (toLex ((parentIndex key).table, (parentIndex key).name)) =
            some (parentIndex first) :=
          KeyedTable.find_eq_some.mpr
            ⟨(hrows _).mpr ⟨first, hfirst, rfl⟩, parentIndex_key_eq.mpr hshares⟩
        have hnotFirst : ¬ ∀ earlier ∈ keys, Uncovered source earlier →
            ¬ SharesIndexName earlier key := by
          obtain ⟨before, after, rfl, hfirstUncovered, -⟩ := hfirst
          exact fun h => h first (by simp) hfirstUncovered hshares
        have hsame : ∀ foreignKey, FirstUncovered source (keys ++ [key]) foreignKey ↔
            FirstUncovered source keys foreignKey := by
          intro foreignKey
          rw [firstUncovered_snoc]
          exact or_iff_left fun h => hnotFirst h.2.2
        simp only [addParentIndex, huncovered, if_true, hsome, hsame]
        refine ⟨hrows, ?_⟩
        intro other hother hotherUncovered
        rcases List.mem_append.mp hother with hother | hother
        · exact hnamed other hother hotherUncovered
        · obtain rfl := List.mem_singleton.mp hother
          exact ⟨first, hfirst, hshares⟩
      · have hfresh : ∀ earlier ∈ keys, Uncovered source earlier → ¬ SharesIndexName earlier key := by
          intro earlier hearlier hearlierUncovered hshares
          obtain ⟨first, hfirst, hfirstShares⟩ := hnamed earlier hearlier hearlierUncovered
          exact htaken ⟨first, hfirst, hfirstShares.1.trans hshares.1,
            hfirstShares.2.trans hshares.2⟩
        have hnone : synthesized.find (toLex ((parentIndex key).table, (parentIndex key).name)) =
            none := by
          rw [KeyedTable.find_eq_none]
          intro index hindex heq
          obtain ⟨first, hfirst, rfl⟩ := (hrows index).mp hindex
          exact htaken ⟨first, hfirst, parentIndex_key_eq.mp heq⟩
        have hkeyFirst : FirstUncovered source (keys ++ [key]) key :=
          firstUncovered_snoc.mpr (Or.inr ⟨rfl, huncovered, hfresh⟩)
        simp only [addParentIndex, huncovered, if_true, hnone]
        constructor
        · intro index
          rw [KeyedTable.mem_put]
          constructor
          · rintro (rfl | ⟨hindex, -⟩)
            · exact ⟨key, hkeyFirst, rfl⟩
            · obtain ⟨first, hfirst, rfl⟩ := (hrows index).mp hindex
              exact ⟨first, firstUncovered_snoc.mpr (Or.inl hfirst), rfl⟩
          · rintro ⟨first, hfirst, rfl⟩
            rcases firstUncovered_snoc.mp hfirst with hfirst | ⟨rfl, -⟩
            · refine Or.inr ⟨(hrows _).mpr ⟨first, hfirst, rfl⟩, fun heq => ?_⟩
              exact htaken ⟨first, hfirst, parentIndex_key_eq.mp heq⟩
            · exact Or.inl rfl
        · intro other hother hotherUncovered
          rcases List.mem_append.mp hother with hother | hother
          · obtain ⟨first, hfirst, hshares⟩ := hnamed other hother hotherUncovered
            exact ⟨first, firstUncovered_snoc.mpr (Or.inl hfirst), hshares⟩
          · obtain rfl := List.mem_singleton.mp hother
            exact ⟨other, hkeyFirst, rfl, rfl⟩
    · have hsame : ∀ foreignKey, FirstUncovered source (keys ++ [key]) foreignKey ↔
          FirstUncovered source keys foreignKey := by
        intro foreignKey
        rw [firstUncovered_snoc]
        exact or_iff_left fun h => huncovered h.2.1
      simp only [addParentIndex, huncovered, if_false, hsame]
      refine ⟨hrows, ?_⟩
      intro other hother hotherUncovered
      rcases List.mem_append.mp hother with hother | hother
      · exact hnamed other hother hotherUncovered
      · obtain rfl := List.mem_singleton.mp hother
        exact absurd hotherUncovered huncovered

theorem mem_synthesizedParentIndexes {index : IndexInventory} :
    index ∈ (synthesizedParentIndexes source).rows ↔
      ∃ foreignKey, FirstUncovered source source.foreignKeys foreignKey ∧
        index = parentIndex foreignKey :=
  (mem_foldl_addParentIndex source.foreignKeys).1 index

/-- An added index covers the columns that its own columns start with. -/
theorem parentIndex_covers {columns : List String} :
    columns.map (fun column => (column, (none : Option Nat))) <+:
        (parentIndex foreignKey).columns.map (fun column => (column.name, column.prefixLength)) ↔
      columns <+: foreignKey.referencedColumns := by
  have hcolumns : (parentIndex foreignKey).columns.map
      (fun column => (column.name, column.prefixLength)) =
        foreignKey.referencedColumns.map fun column => (column, none) := by
    apply List.ext_getElem
    · simp [parentIndex]
    · intro i _ _
      simp [parentIndex]
  rw [hcolumns]
  constructor
  · intro h
    have hnames := h.map Prod.fst
    simpa [Function.comp_def] using hnames
  · exact fun h => h.map _

end Synthesis

/-! ## The expected inventory -/

/-- What the target needs of the expected inventory: every foreign key within the schema has a
keyed parent, the added indexes have names of their own, and the source indexes are kept. -/
structure TargetReady (hexDigest : String → String) (source : SchemaInventory) : Prop where
  parents : ∀ foreignKey ∈ (expectedTargetInventory hexDigest source).foreignKeys,
    foreignKey.referencedSchema = source.schema →
    ParentKeyed (expectedTargetInventory hexDigest source) foreignKey.referencedTable
      foreignKey.referencedColumns
  names : ∀ added ∈ (synthesizedParentIndexes source).rows,
    (∀ index ∈ source.indexes, index.table = added.table → index.name ≠ added.name) ∧
    ∀ index ∈ (synthesizedParentIndexes source).rows, index ≠ added → index.table = added.table →
      index.name ≠ added.name
  kept : source.indexes <+: (expectedTargetInventory hexDigest source).indexes

/-- Every foreign key within the schema finds its columns first in a key of the source or in the
columns of the first uncovered foreign key with its index name, and no source index has the index
name of an uncovered foreign key. -/
structure ParentsCoverable (source : SchemaInventory) : Prop where
  parents : ∀ foreignKey ∈ source.foreignKeys, foreignKey.referencedSchema = source.schema →
    ParentKeyed source foreignKey.referencedTable foreignKey.referencedColumns ∨
    ∃ first, FirstUncovered source source.foreignKeys first ∧
      first.referencedTable = foreignKey.referencedTable ∧
      foreignKey.referencedColumns <+: first.referencedColumns
  names : ∀ foreignKey ∈ source.foreignKeys, Uncovered source foreignKey →
    ∀ index ∈ source.indexes, index.table = foreignKey.referencedTable →
      index.name ≠
        synthesizedParentIndexName foreignKey.referencedTable foreignKey.referencedColumns

theorem parentKeyed_expected {hexDigest : String → String} {source : SchemaInventory}
    {table : String} {columns : List String} :
    ParentKeyed (expectedTargetInventory hexDigest source) table columns ↔
      ParentKeyed source table columns ∨ ∃ first,
        FirstUncovered source source.foreignKeys first ∧ first.referencedTable = table ∧
          columns <+: first.referencedColumns := by
  unfold ParentKeyed expectedTargetInventory
  simp only [List.mem_append, or_and_right, exists_or, mem_synthesizedParentIndexes]
  rw [or_assoc]
  refine or_congr_right (or_congr_right ?_)
  constructor
  · rintro ⟨index, ⟨first, hfirst, rfl⟩, htable, -, hcovers⟩
    exact ⟨first, hfirst, htable, parentIndex_covers.mp hcovers⟩
  · rintro ⟨first, hfirst, htable, hcovers⟩
    exact ⟨parentIndex first, ⟨first, hfirst, rfl⟩, htable, rfl, parentIndex_covers.mpr hcovers⟩

theorem TargetReady.parentsCoverable {hexDigest : String → String} {source : SchemaInventory}
    (h : TargetReady hexDigest source) : ParentsCoverable source := by
  refine ⟨fun foreignKey hmem hschema => ?_, fun foreignKey hmem huncovered index hindex htable => ?_⟩
  · have hkeyed := h.parents (targetForeignKey hexDigest foreignKey)
      (List.mem_map_of_mem hmem) hschema
    exact parentKeyed_expected.mp hkeyed
  · obtain ⟨first, hfirst, hshares⟩ :=
      (mem_foldl_addParentIndex source.foreignKeys).2 foreignKey hmem huncovered
    have hnames := (h.names (parentIndex first)
      (mem_synthesizedParentIndexes.mpr ⟨first, hfirst, rfl⟩)).1 index hindex
      (htable.trans hshares.1.symm)
    exact fun heq => hnames (heq.trans hshares.2.symm)

theorem ParentsCoverable.targetReady {hexDigest : String → String} {source : SchemaInventory}
    (h : ParentsCoverable source) : TargetReady hexDigest source := by
  refine ⟨?_, ?_, List.prefix_append _ _⟩
  · intro foreignKey hmem hschema
    obtain ⟨original, horiginal, rfl⟩ := List.mem_map.mp hmem
    exact parentKeyed_expected.mpr (h.parents original horiginal hschema)
  · intro added hadded
    obtain ⟨first, hfirst, rfl⟩ := mem_synthesizedParentIndexes.mp hadded
    constructor
    · obtain ⟨before, after, hkeys, huncovered, -⟩ := hfirst
      have hmem : first ∈ source.foreignKeys := by
        rw [hkeys]
        simp
      exact h.names first hmem huncovered
    · intro index hindex hne htable hname
      have hkey : (toLex (index.table, index.name) : String ×ₗ String) =
          toLex ((parentIndex first).table, (parentIndex first).name) := by
        rw [htable, hname]
      exact hne ((synthesizedParentIndexes source).eq_of_key_eq hindex hadded hkey)

/-- The expected inventory is what the target needs exactly when the parents can be covered. -/
theorem expectedTargetInventory_ready_iff (hexDigest : String → String)
    (source : SchemaInventory) : TargetReady hexDigest source ↔ ParentsCoverable source :=
  ⟨TargetReady.parentsCoverable, ParentsCoverable.targetReady⟩

/-- A parent whose slug is unique in its first ten characters only, next to an ordinary index. -/
def prefixKeyedSource : SchemaInventory where
  schema := "app"
  tables := [⟨"comics", "BASE TABLE", some "InnoDB", none, ["id"], []⟩,
    ⟨"links", "BASE TABLE", some "InnoDB", none, ["id"], []⟩]
  indexes := [⟨"comics", "uq_slug", true, "BTREE", true, none, [⟨"slug", 1, some 10, some "A", "ASC"⟩]⟩,
    ⟨"comics", "idx_slug", false, "BTREE", true, none, [⟨"slug", 1, none, some "A", "ASC"⟩]⟩]
  foreignKeys := [⟨"links", "fk_comic", ["slug"], "app", "comics", ["slug"]⟩]

theorem prefixKeyedSource_not_coverable : ¬ ParentsCoverable prefixKeyedSource := by
  intro h
  have hcovered : standardParentKeyExists prefixKeyedSource "comics" ["slug"] = true := by
    decide +kernel
  rcases h.parents ⟨"links", "fk_comic", ["slug"], "app", "comics", ["slug"]⟩ (by decide) rfl with
    hkeyed | ⟨first, ⟨before, after, hkeys, huncovered, -⟩, -⟩
  · rcases hkeyed with ⟨parent, hparent, hprefix⟩ | ⟨index, hindex, -, hunique, hcolumns⟩
    · obtain rfl : parent = ⟨"comics", "BASE TABLE", some "InnoDB", none, ["id"], []⟩ := by
        simpa [prefixKeyedSource] using hparent.symm
      revert hprefix
      decide
    · revert index
      decide +kernel
  · have hfirst : first ∈ prefixKeyedSource.foreignKeys := by
      rw [hkeys]
      simp
    obtain rfl := List.mem_singleton.mp hfirst
    rw [huncovered.2] at hcovered
    cases hcovered

/-- The added indexes miss that parent: nothing on the target keys the slug as a whole. -/
theorem expectedTargetInventory_misses_prefix_key :
    ¬ ∃ hexDigest, TargetReady hexDigest prefixKeyedSource := by
  rintro ⟨hexDigest, h⟩
  exact prefixKeyedSource_not_coverable h.parentsCoverable

end BinlogCdc.SyncSchema
