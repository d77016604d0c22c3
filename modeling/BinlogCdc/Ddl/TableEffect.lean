import BinlogCdc.Core.Result
import BinlogCdc.Ddl.TableSnapshot

/-!
# The computed state against the effect of the server

What DROP, RENAME and TRUNCATE do to a well formed schema, and that the computed snapshot is
that. The snapshot is well formed again unless a renamed foreign key takes the name of another one:
the server refuses such a RENAME.
-/

namespace BinlogCdc

namespace Ddl

open Text SyncSchema

/-! ## Well formed snapshots -/

/-- The names are unique and everything belongs to a table that exists. -/
structure SemanticSchemaSnapshot.WellFormed (snapshot : SemanticSchemaSnapshot) : Prop where
  /-- Tables and views share their names. -/
  names : (snapshot.tableNames ++ snapshot.inventory.views.map ViewInventory.name).Nodup
  keyNames : (snapshot.inventory.foreignKeys.map ForeignKeyInventory.name).Nodup
  indexes : ∀ index ∈ snapshot.inventory.indexes, index.table ∈ snapshot.tableNames
  triggers : ∀ trigger ∈ snapshot.inventory.triggers, trigger.table ∈ snapshot.tableNames
  children : ∀ key ∈ snapshot.inventory.foreignKeys, key.table ∈ snapshot.tableNames
  parents : ∀ key ∈ snapshot.inventory.foreignKeys,
    key.referencedSchema = snapshot.inventory.schema → key.referencedTable ∈ snapshot.tableNames
  runtime : ∀ table, (snapshot.tableRuntime table).isSome = true → table ∈ snapshot.tableNames

/-! ## The effect of the server -/

/-- A table is gone with everything that belongs to it. -/
structure Dropped (name : String) (before after : SemanticSchemaSnapshot) : Prop where
  schema : after.inventory.schema = before.inventory.schema
  tables : after.inventory.tables = before.inventory.tables.filter (·.name ≠ name)
  indexes : after.inventory.indexes = before.inventory.indexes.filter (·.table ≠ name)
  keys : after.inventory.foreignKeys = before.inventory.foreignKeys.filter (·.table ≠ name)
  triggers : after.inventory.triggers = before.inventory.triggers.filter (·.table ≠ name)
  views : after.inventory.views = before.inventory.views
  runtime : after.tableRuntime name = none
  others : ∀ table, table ≠ name → after.tableRuntime table = before.tableRuntime table
  /-- No foreign key is left without its table. -/
  referenced : ∀ key ∈ after.inventory.foreignKeys,
    key.referencedSchema = before.inventory.schema → key.referencedTable ≠ name

/-- A table is empty, and nothing else has changed. -/
structure Truncated (name : String) (before after : SemanticSchemaSnapshot) : Prop where
  inventory : after.inventory = before.inventory
  rows : ∃ runtime, before.tableRuntime name = some runtime ∧
    after.tableRuntime name = some ⟨0, runtime.autoIncrement.map fun _ => 1⟩
  others : ∀ table, table ≠ name → after.tableRuntime table = before.tableRuntime table

/-- The name that a table has after a renaming. -/
def renamedName (old new name : String) : String := if name = old then new else name

/-- The name of a foreign key was generated for a table, with a suffix. -/
def GeneratedKeyName (table suffix name : String) : Prop := name = generatedKeyPrefix table ++ suffix

/-- A foreign key follows a table that was renamed. -/
structure KeyRenamed (schema old new : String) (before after : ForeignKeyInventory) : Prop where
  table : after.table = renamedName old new before.table
  columns : after.columns = before.columns
  referencedSchema : after.referencedSchema = before.referencedSchema
  referencedTable : after.referencedTable =
    if before.referencedSchema = schema then renamedName old new before.referencedTable
    else before.referencedTable
  referencedColumns : after.referencedColumns = before.referencedColumns
  /-- A generated name is generated anew. -/
  generated : ∀ suffix, before.table = old → GeneratedKeyName old suffix before.name →
    GeneratedKeyName new suffix after.name
  named : ¬(before.table = old ∧ ∃ suffix, GeneratedKeyName old suffix before.name) →
    after.name = before.name

/-- A table has a new name, and so has everything that names it. -/
structure Renamed (old new : String) (before after : SemanticSchemaSnapshot) : Prop where
  schema : after.inventory.schema = before.inventory.schema
  tables : after.inventory.tables =
    before.inventory.tables.map fun table => { table with name := renamedName old new table.name }
  indexes : after.inventory.indexes =
    before.inventory.indexes.map fun index => { index with table := renamedName old new index.table }
  keys : List.Forall₂ (KeyRenamed before.inventory.schema old new)
    before.inventory.foreignKeys after.inventory.foreignKeys
  triggers : after.inventory.triggers =
    before.inventory.triggers.map fun trigger =>
      { trigger with table := renamedName old new trigger.table }
  views : after.inventory.views = before.inventory.views
  runtime : after.tableRuntime new = before.tableRuntime old
  others : ∀ table, table ≠ old → table ≠ new →
    after.tableRuntime table = before.tableRuntime table
  /-- Nothing carries the old name. -/
  gone : old ∉ after.tableNames ∧ (∀ index ∈ after.inventory.indexes, index.table ≠ old) ∧
    (∀ trigger ∈ after.inventory.triggers, trigger.table ≠ old) ∧
    (∀ key ∈ after.inventory.foreignKeys, key.table ≠ old ∧
      (key.referencedSchema = before.inventory.schema → key.referencedTable ≠ old)) ∧
    after.tableRuntime old = none

/-- What the server does on a statement. -/
def TableOperation.Effect (ast : TableOperation) (operation : DdlOperation)
    (before after : SemanticSchemaSnapshot) : Prop :=
  let name := String.ofList operation.primaryObject
  match ast with
  | .drop _ => Dropped name before after
  | .rename => ∃ destination, operation.secondaryObject = some destination ∧
      Renamed name (String.ofList destination) before after
  | .truncate => Truncated name before after

/-- A foreign key that is renamed with its table meets one that keeps its name. -/
def GeneratedNameTaken (snapshot : SemanticSchemaSnapshot) (old new : String) : Prop :=
  ∃ key ∈ snapshot.inventory.foreignKeys, ∃ suffix, key.table = old ∧
    GeneratedKeyName old suffix key.name ∧
    ∃ other ∈ snapshot.inventory.foreignKeys, GeneratedKeyName new suffix other.name ∧
      ¬(other.table = old ∧ ∃ otherSuffix, GeneratedKeyName old otherSuffix other.name)

/-- The statement is a RENAME that the server refuses for the name of a foreign key. -/
def TableOperation.KeyNamesClash (ast : TableOperation) (operation : DdlOperation)
    (snapshot : SemanticSchemaSnapshot) : Prop :=
  ast = .rename ∧ ∃ destination, operation.secondaryObject = some destination ∧
    GeneratedNameTaken snapshot (String.ofList operation.primaryObject)
      (String.ofList destination)

/-! ## Foreign keys of a renamed table -/

section Keys

variable {schema old new : String} {key : ForeignKeyInventory}

theorem renamedKeyName_generated {suffix name : String} (h : GeneratedKeyName old suffix name) :
    GeneratedKeyName new suffix (renamedKeyName old new name) := by
  unfold GeneratedKeyName at h ⊢
  rw [renamedKeyName, h, String.toList_append, stripPrefix_append]
  simp

theorem renamedKeyName_named {name : String} (h : ¬∃ suffix, GeneratedKeyName old suffix name) :
    renamedKeyName old new name = name := by
  unfold renamedKeyName
  cases hstrip : stripPrefix? (generatedKeyPrefix old).toList name.toList with
  | none => rfl
  | some suffix =>
    exfalso
    apply h
    refine ⟨String.ofList suffix, ?_⟩
    unfold stripPrefix? at hstrip
    split_ifs at hstrip with hprefix
    obtain ⟨rest, hrest⟩ := List.isPrefixOf_iff_prefix.mp hprefix
    rw [← hrest, List.drop_left, Option.some.injEq] at hstrip
    rw [GeneratedKeyName, ← String.toList_inj, String.toList_append, ← hrest, hstrip]
    simp

theorem renamedForeignKey_name : (renamedForeignKey schema old new key).name =
    if key.table = old then renamedKeyName old new key.name else key.name := by
  unfold renamedForeignKey renamedParent renamedChild
  split_ifs <;> rfl

theorem renamedForeignKey_table :
    (renamedForeignKey schema old new key).table = renamedName old new key.table := by
  unfold renamedForeignKey renamedParent renamedChild renamedName
  split_ifs <;> rfl

theorem renamedForeignKey_referencedSchema :
    (renamedForeignKey schema old new key).referencedSchema = key.referencedSchema := by
  unfold renamedForeignKey renamedParent renamedChild
  split_ifs <;> rfl

theorem renamedForeignKey_referencedTable :
    (renamedForeignKey schema old new key).referencedTable =
      if key.referencedSchema = schema then renamedName old new key.referencedTable
      else key.referencedTable := by
  unfold renamedForeignKey renamedParent renamedChild renamedName
  by_cases htable : key.table = old <;> by_cases hschema : key.referencedSchema = schema <;>
    by_cases hreferenced : key.referencedTable = old <;> simp [htable, hschema, hreferenced]

theorem keyRenamed_renamedForeignKey :
    KeyRenamed schema old new key (renamedForeignKey schema old new key) where
  table := renamedForeignKey_table
  columns := by unfold renamedForeignKey renamedParent renamedChild; split_ifs <;> rfl
  referencedSchema := renamedForeignKey_referencedSchema
  referencedTable := renamedForeignKey_referencedTable
  referencedColumns := by unfold renamedForeignKey renamedParent renamedChild; split_ifs <;> rfl
  generated := by
    intro suffix htable hname
    rw [renamedForeignKey_name, if_pos htable]
    exact renamedKeyName_generated hname
  named := by
    intro hnot
    rw [renamedForeignKey_name]
    by_cases htable : key.table = old
    · rw [if_pos htable]
      exact renamedKeyName_named fun hname => hnot ⟨htable, hname⟩
    · rw [if_neg htable]

end Keys

/-! ## The first element -/

/-- The first element with a key is the only one. -/
theorem modifyFirst_eq_map {α : Type} {f : α → α} {list changed : List α} (key : α → String)
    {name : String} (hnodup : (list.map key).Nodup)
    (h : modifyFirst (fun x => key x == name) f list = some changed) :
    changed = list.map fun x => if key x = name then f x else x := by
  induction list generalizing changed with
  | nil => cases h
  | cons x list ih =>
    rw [List.map_cons, List.nodup_cons] at hnodup
    rw [modifyFirst] at h
    by_cases hx : key x = name
    · rw [if_pos (beq_iff_eq.mpr hx), Option.some.injEq] at h
      have hrest : list.map (fun x => if key x = name then f x else x) = list.map id := by
        apply List.map_congr_left
        intro y hy
        rw [if_neg]
        · rfl
        · rintro hyname
          exact hnodup.1 (List.mem_map.mpr ⟨y, hy, hyname.trans hx.symm⟩)
      rw [List.map_cons, if_pos hx, hrest, List.map_id, h]
    · rw [if_neg (by simpa using hx), Option.map_eq_some_iff] at h
      obtain ⟨rest, hrest, rfl⟩ := h
      rw [List.map_cons, if_neg hx, ih hnodup.2 hrest]

/-! ## DROP and TRUNCATE -/

section Steps

variable {snapshot after : SemanticSchemaSnapshot} {name old new : String}

theorem not_references_of_ensure (h : ensureNoExternalReferences snapshot name = .ok ()) :
    ∀ key ∈ snapshot.inventory.foreignKeys, key.table ≠ name →
      key.referencedSchema = snapshot.inventory.schema → key.referencedTable ≠ name := by
  unfold ensureNoExternalReferences at h
  split_ifs at h with hany
  intro key hkey htable hschema hreferenced
  apply hany
  rw [List.any_eq_true]
  exact ⟨key, hkey, by simp [references, htable, hschema, hreferenced]⟩

theorem mem_tableNames_withoutTable {table : String} :
    table ∈ (withoutTable snapshot name).tableNames ↔ table ∈ snapshot.tableNames ∧ table ≠ name := by
  unfold SemanticSchemaSnapshot.tableNames withoutTable
  simp only [List.mem_map, List.mem_filter, decide_eq_true_eq]
  constructor
  · rintro ⟨entry, ⟨hentry, hne⟩, rfl⟩
    exact ⟨⟨entry, hentry, rfl⟩, hne⟩
  · rintro ⟨⟨entry, hentry, rfl⟩, hne⟩
    exact ⟨entry, ⟨hentry, hne⟩, rfl⟩

/-- Without a table that no other table references. -/
theorem SemanticSchemaSnapshot.WellFormed.withoutTable (hwf : snapshot.WellFormed)
    (hreferences : ∀ key ∈ snapshot.inventory.foreignKeys, key.table ≠ name →
      key.referencedSchema = snapshot.inventory.schema → key.referencedTable ≠ name) :
    (withoutTable snapshot name).WellFormed where
  names := by
    refine List.Sublist.nodup ?_ hwf.names
    exact (List.filter_sublist.map _).append (List.Sublist.refl _)
  keyNames := (List.filter_sublist.map _).nodup hwf.keyNames
  indexes := by
    intro index hindex
    obtain ⟨hindex, hne⟩ := List.mem_filter.mp hindex
    exact mem_tableNames_withoutTable.mpr ⟨hwf.indexes index hindex, by simpa using hne⟩
  triggers := by
    intro trigger htrigger
    obtain ⟨htrigger, hne⟩ := List.mem_filter.mp htrigger
    exact mem_tableNames_withoutTable.mpr ⟨hwf.triggers trigger htrigger, by simpa using hne⟩
  children := by
    intro key hkey
    obtain ⟨hkey, hne⟩ := List.mem_filter.mp hkey
    exact mem_tableNames_withoutTable.mpr ⟨hwf.children key hkey, by simpa using hne⟩
  parents := by
    intro key hkey hschema
    obtain ⟨hkey, hne⟩ := List.mem_filter.mp hkey
    exact mem_tableNames_withoutTable.mpr
      ⟨hwf.parents key hkey hschema, hreferences key hkey (by simpa using hne) hschema⟩
  runtime := by
    intro table hruntime
    by_cases htable : table = name
    · simp [Ddl.withoutTable, htable] at hruntime
    · simp only [Ddl.withoutTable, htable, if_false] at hruntime
      exact mem_tableNames_withoutTable.mpr ⟨hwf.runtime table hruntime, htable⟩

theorem dropTable_spec (hwf : snapshot.WellFormed) (h : dropTable snapshot name = .ok after) :
    after.WellFormed ∧ Dropped name snapshot after := by
  unfold dropTable at h
  obtain ⟨⟨⟩, hensure, h⟩ := bind_eq_ok.mp h
  obtain rfl := Except.ok.inj h
  have hreferences := not_references_of_ensure hensure
  refine ⟨hwf.withoutTable hreferences, ?_⟩
  constructor <;> try rfl
  · exact if_pos rfl
  · intro table htable
    exact if_neg htable
  · intro key hkey
    obtain ⟨hkey, hne⟩ := List.mem_filter.mp hkey
    exact hreferences key hkey (by simpa using hne)

/-- Nothing belongs to a table that does not exist. -/
theorem dropped_of_absent (hwf : snapshot.WellFormed) (h : name ∉ snapshot.tableNames) :
    Dropped name snapshot snapshot where
  schema := rfl
  tables := by
    symm
    rw [List.filter_eq_self]
    intro table htable
    rw [decide_eq_true_eq]
    rintro rfl
    exact h (List.mem_map.mpr ⟨table, htable, rfl⟩)
  indexes := by
    symm
    rw [List.filter_eq_self]
    intro index hindex
    rw [decide_eq_true_eq]
    rintro rfl
    exact h (hwf.indexes index hindex)
  keys := by
    symm
    rw [List.filter_eq_self]
    intro key hkey
    rw [decide_eq_true_eq]
    rintro rfl
    exact h (hwf.children key hkey)
  triggers := by
    symm
    rw [List.filter_eq_self]
    intro trigger htrigger
    rw [decide_eq_true_eq]
    rintro rfl
    exact h (hwf.triggers trigger htrigger)
  views := rfl
  runtime := by
    cases hruntime : snapshot.tableRuntime name with
    | none => rfl
    | some runtime => exact absurd (hwf.runtime name (by rw [hruntime]; rfl)) h
  others := fun _ _ => rfl
  referenced := by
    intro key hkey hschema heq
    exact h (heq ▸ hwf.parents key hkey hschema)

theorem truncateTable_spec (hwf : snapshot.WellFormed)
    (h : truncateTable snapshot name = .ok after) :
    after.WellFormed ∧ Truncated name snapshot after := by
  unfold truncateTable at h
  obtain ⟨⟨⟩, -, h⟩ := bind_eq_ok.mp h
  cases hruntime : snapshot.tableRuntime name with
  | none => rw [hruntime] at h; cases h
  | some runtime =>
    rw [hruntime] at h
    obtain rfl := Except.ok.inj h
    refine ⟨{ hwf with runtime := ?_ }, rfl, ⟨runtime, hruntime, if_pos rfl⟩, ?_⟩
    · intro table hsome
      by_cases htable : table = name
      · rw [htable]
        exact hwf.runtime name (by rw [hruntime]; rfl)
      · dsimp only at hsome
        rw [if_neg htable] at hsome
        exact hwf.runtime table hsome
    · intro table htable
      exact if_neg htable

/-! ## RENAME -/

theorem renamedName_of_ne {table : String} (h : table ≠ old) : renamedName old new table = table :=
  if_neg h

/-- Tables that do not have the new name are told apart by their new names. -/
theorem renamedName_injective {left right : String} (hleft : left ≠ new) (hright : right ≠ new)
    (h : renamedName old new left = renamedName old new right) : left = right := by
  unfold renamedName at h
  split_ifs at h with hl hr hr
  · rw [hl, hr]
  · exact absurd h.symm hright
  · exact absurd h hleft
  · exact h

theorem renamedName_ne_old {table : String} (h : new ≠ old) : renamedName old new table ≠ old := by
  unfold renamedName
  split_ifs with htable
  · exact h
  · exact htable

theorem not_mem_of_destinationExists {inventory : SemanticInventory}
    (h : destinationExists inventory new = false) :
    new ∉ inventory.tables.map SyncSchema.TableInventory.name ∧
      new ∉ inventory.views.map ViewInventory.name := by
  unfold destinationExists at h
  rw [Bool.or_eq_false_iff, List.any_eq_false, List.any_eq_false] at h
  have hself : eqIgnoreAsciiCase new.toList new.toList = true := by simp [eqIgnoreAsciiCase]
  constructor
  · intro hmem
    obtain ⟨table, htable, rfl⟩ := List.mem_map.mp hmem
    exact h.1 table htable hself
  · intro hmem
    obtain ⟨view, hview, rfl⟩ := List.mem_map.mp hmem
    exact h.2 view hview hself

/-- The snapshot with a table renamed. -/
def renamedSnapshot (snapshot : SemanticSchemaSnapshot) (old new : String)
    (runtime : TableRuntimeState) : SemanticSchemaSnapshot where
  inventory := renameDependentMetadata { snapshot.inventory with
    tables := snapshot.inventory.tables.map fun table =>
      { table with name := renamedName old new table.name } } old new
  tableRuntime := fun table =>
    if table = new then some runtime
    else if table = old then none
    else snapshot.tableRuntime table

theorem renameTable_eq_ok (hwf : snapshot.WellFormed) (h : renameTable snapshot old new = .ok after) :
    ∃ runtime, snapshot.tableRuntime old = some runtime ∧
      new ∉ snapshot.tableNames ∧ new ∉ snapshot.inventory.views.map ViewInventory.name ∧
      after = renamedSnapshot snapshot old new runtime := by
  unfold renameTable at h
  cases hexists : destinationExists snapshot.inventory new with
  | true => rw [hexists] at h; cases h
  | false =>
    rw [hexists, if_neg Bool.false_ne_true] at h
    obtain ⟨htables, hviews⟩ := not_mem_of_destinationExists hexists
    cases hmodify : modifyFirst (fun table : SyncSchema.TableInventory => table.name == old)
        (fun table => { table with name := new }) snapshot.inventory.tables with
    | none => rw [hmodify] at h; cases h
    | some tables =>
      rw [hmodify] at h
      cases hruntime : snapshot.tableRuntime old with
      | none => rw [hruntime] at h; cases h
      | some runtime =>
        rw [hruntime] at h
        obtain rfl := Except.ok.inj h
        refine ⟨runtime, rfl, htables, hviews, ?_⟩
        have hnames : (snapshot.inventory.tables.map SyncSchema.TableInventory.name).Nodup :=
          (List.nodup_append.mp hwf.names).1
        have htables := modifyFirst_eq_map _ hnames hmodify
        have hmap : tables = snapshot.inventory.tables.map fun table =>
            { table with name := renamedName old new table.name } := by
          rw [htables]
          apply List.map_congr_left
          intro table _
          unfold renamedName
          split_ifs <;> rfl
        rw [hmap]
        rfl

/-- The names of the foreign keys stay unique unless a generated one is taken. -/
theorem keyNames_renamed_nodup_iff (old new : String) (hwf : snapshot.WellFormed) (schema : String) :
    ((snapshot.inventory.foreignKeys.map (renamedForeignKey schema old new)).map
      ForeignKeyInventory.name).Nodup ↔ ¬GeneratedNameTaken snapshot old new := by
  have hkeys : snapshot.inventory.foreignKeys.Nodup := hwf.keyNames.of_map
  have hinjective := List.inj_on_of_nodup_map hwf.keyNames
  rw [List.map_map, List.nodup_map_iff_inj_on hkeys]
  have hgenerated : ∀ {key : ForeignKeyInventory} {suffix : String}, key.table = old →
      GeneratedKeyName old suffix key.name →
      (renamedForeignKey schema old new key).name = generatedKeyPrefix new ++ suffix :=
    fun htable hname => keyRenamed_renamedForeignKey.generated _ htable hname
  constructor
  · rintro h ⟨key, hkey, suffix, htable, hname, other, hother, hothername, hkept⟩
    have heq : key = other := by
      apply h key hkey other hother
      change (renamedForeignKey schema old new key).name =
        (renamedForeignKey schema old new other).name
      rw [hgenerated htable hname, keyRenamed_renamedForeignKey.named hkept]
      exact hothername.symm
    subst heq
    exact hkept ⟨htable, suffix, hname⟩
  · intro h left hleft right hright heq
    change (renamedForeignKey schema old new left).name =
      (renamedForeignKey schema old new right).name at heq
    apply hinjective hleft hright
    by_cases hl : left.table = old ∧ ∃ suffix, GeneratedKeyName old suffix left.name
    · obtain ⟨hltable, suffix, hlname⟩ := hl
      rw [hgenerated hltable hlname] at heq
      by_cases hr : right.table = old ∧ ∃ suffix, GeneratedKeyName old suffix right.name
      · obtain ⟨hrtable, other, hrname⟩ := hr
        rw [hgenerated hrtable hrname, String.append_right_inj] at heq
        rw [hlname, hrname, heq]
      · rw [keyRenamed_renamedForeignKey.named hr] at heq
        exact absurd ⟨left, hleft, suffix, hltable, hlname, right, hright, heq.symm, hr⟩ h
    · rw [keyRenamed_renamedForeignKey.named hl] at heq
      by_cases hr : right.table = old ∧ ∃ suffix, GeneratedKeyName old suffix right.name
      · obtain ⟨hrtable, suffix, hrname⟩ := hr
        rw [hgenerated hrtable hrname] at heq
        exact absurd ⟨right, hright, suffix, hrtable, hrname, left, hleft, heq, hl⟩ h
      · rwa [keyRenamed_renamedForeignKey.named hr] at heq

theorem renamedSnapshot_indexes {runtime : TableRuntimeState} :
    (renamedSnapshot snapshot old new runtime).inventory.indexes =
      snapshot.inventory.indexes.map fun index =>
        { index with table := renamedName old new index.table } := by
  apply List.map_congr_left
  intro index _
  unfold renamedName
  split_ifs <;> rfl

theorem renamedSnapshot_triggers {runtime : TableRuntimeState} :
    (renamedSnapshot snapshot old new runtime).inventory.triggers =
      snapshot.inventory.triggers.map fun trigger =>
        { trigger with table := renamedName old new trigger.table } := by
  apply List.map_congr_left
  intro trigger _
  unfold renamedName
  split_ifs <;> rfl

theorem renamedSnapshot_foreignKeys {runtime : TableRuntimeState} :
    (renamedSnapshot snapshot old new runtime).inventory.foreignKeys =
      snapshot.inventory.foreignKeys.map (renamedForeignKey snapshot.inventory.schema old new) :=
  rfl

theorem tableNames_renamedSnapshot {runtime : TableRuntimeState} :
    (renamedSnapshot snapshot old new runtime).tableNames =
      snapshot.tableNames.map (renamedName old new) := by
  unfold SemanticSchemaSnapshot.tableNames renamedSnapshot renameDependentMetadata
  rw [List.map_map, List.map_map]
  rfl

theorem mem_renamedSnapshot {runtime : TableRuntimeState} {table : String}
    (h : table ∈ snapshot.tableNames) :
    renamedName old new table ∈ (renamedSnapshot snapshot old new runtime).tableNames := by
  rw [tableNames_renamedSnapshot]
  exact List.mem_map.mpr ⟨table, h, rfl⟩

/-- The new name is not the name of a table or view. -/
theorem renamedSnapshot_names_nodup {runtime : TableRuntimeState} (hwf : snapshot.WellFormed)
    (hnew : new ∉ snapshot.tableNames)
    (hview : new ∉ snapshot.inventory.views.map ViewInventory.name) :
    ((renamedSnapshot snapshot old new runtime).tableNames ++
      snapshot.inventory.views.map ViewInventory.name).Nodup := by
  obtain ⟨htables, hviews, hdisjoint⟩ := List.nodup_append.mp hwf.names
  rw [tableNames_renamedSnapshot, List.nodup_append]
  refine ⟨?_, hviews, ?_⟩
  · apply htables.map_on
    intro left hleft right hright heq
    exact renamedName_injective (ne_of_mem_of_not_mem hleft hnew)
      (ne_of_mem_of_not_mem hright hnew) heq
  · intro table htable view hmem heq
    obtain ⟨before, hbefore, rfl⟩ := List.mem_map.mp htable
    by_cases hold : before = old
    · rw [renamedName, if_pos hold] at heq
      exact hview (heq ▸ hmem)
    · rw [renamedName_of_ne hold] at heq
      exact hdisjoint before hbefore view hmem heq

/-- Everything but the names of the foreign keys stays well formed. -/
theorem renamedSnapshot_wellFormed_iff {runtime : TableRuntimeState} (hwf : snapshot.WellFormed)
    (hold : old ∈ snapshot.tableNames) (hnew : new ∉ snapshot.tableNames)
    (hview : new ∉ snapshot.inventory.views.map ViewInventory.name) :
    (renamedSnapshot snapshot old new runtime).WellFormed ↔ ¬GeneratedNameTaken snapshot old new := by
  have hkeys := keyNames_renamed_nodup_iff old new hwf snapshot.inventory.schema
  constructor
  · intro hafter
    exact hkeys.mp hafter.keyNames
  · intro hfree
    refine ⟨renamedSnapshot_names_nodup hwf hnew hview, hkeys.mpr hfree, ?_, ?_, ?_, ?_, ?_⟩
    · rw [renamedSnapshot_indexes]
      intro index hindex
      obtain ⟨before, hbefore, rfl⟩ := List.mem_map.mp hindex
      exact mem_renamedSnapshot (hwf.indexes before hbefore)
    · rw [renamedSnapshot_triggers]
      intro trigger htrigger
      obtain ⟨before, hbefore, rfl⟩ := List.mem_map.mp htrigger
      exact mem_renamedSnapshot (hwf.triggers before hbefore)
    · rw [renamedSnapshot_foreignKeys]
      intro key hkey
      obtain ⟨before, hbefore, rfl⟩ := List.mem_map.mp hkey
      rw [renamedForeignKey_table]
      exact mem_renamedSnapshot (hwf.children before hbefore)
    · rw [renamedSnapshot_foreignKeys]
      intro key hkey hschema
      obtain ⟨before, hbefore, rfl⟩ := List.mem_map.mp hkey
      rw [renamedForeignKey_referencedSchema] at hschema
      have hschema : before.referencedSchema = snapshot.inventory.schema := hschema
      rw [renamedForeignKey_referencedTable, if_pos hschema]
      exact mem_renamedSnapshot (hwf.parents before hbefore hschema)
    · intro table hruntime
      unfold renamedSnapshot at hruntime
      dsimp only at hruntime
      split_ifs at hruntime with hnewTable holdTable
      · have hmem : renamedName old new old ∈ (renamedSnapshot snapshot old new runtime).tableNames :=
          mem_renamedSnapshot hold
        rw [renamedName, if_pos rfl] at hmem
        rwa [hnewTable]
      · cases hruntime
      · have hmem : renamedName old new table ∈
            (renamedSnapshot snapshot old new runtime).tableNames :=
          mem_renamedSnapshot (hwf.runtime table hruntime)
        rwa [renamedName_of_ne holdTable] at hmem

theorem renamed_renamedSnapshot {runtime : TableRuntimeState} (hne : new ≠ old)
    (hruntime : snapshot.tableRuntime old = some runtime) :
    Renamed old new snapshot (renamedSnapshot snapshot old new runtime) where
  schema := rfl
  tables := rfl
  indexes := renamedSnapshot_indexes
  keys := List.forall₂_map_right_iff.mpr
    (List.forall₂_same.mpr fun _ _ => keyRenamed_renamedForeignKey)
  triggers := renamedSnapshot_triggers
  views := rfl
  runtime := (if_pos rfl).trans hruntime.symm
  others := fun table hold hnew => (if_neg hnew).trans (if_neg hold)
  gone := by
    refine ⟨?_, ?_, ?_, ?_, ?_⟩
    · rw [tableNames_renamedSnapshot]
      intro hmem
      obtain ⟨table, -, heq⟩ := List.mem_map.mp hmem
      exact renamedName_ne_old hne heq
    · rw [renamedSnapshot_indexes]
      intro index hindex
      obtain ⟨index, -, rfl⟩ := List.mem_map.mp hindex
      exact renamedName_ne_old hne
    · rw [renamedSnapshot_triggers]
      intro trigger htrigger
      obtain ⟨trigger, -, rfl⟩ := List.mem_map.mp htrigger
      exact renamedName_ne_old hne
    · rw [renamedSnapshot_foreignKeys]
      intro key hkey
      obtain ⟨key, -, rfl⟩ := List.mem_map.mp hkey
      rw [renamedForeignKey_table]
      refine ⟨renamedName_ne_old hne, ?_⟩
      intro hschema
      rw [renamedForeignKey_referencedSchema] at hschema
      rw [renamedForeignKey_referencedTable, if_pos hschema]
      exact renamedName_ne_old hne
    · exact (if_neg hne.symm).trans (if_pos rfl)

theorem renameTable_spec (hwf : snapshot.WellFormed) (hold : old ∈ snapshot.tableNames)
    (h : renameTable snapshot old new = .ok after) :
    (after.WellFormed ↔ ¬GeneratedNameTaken snapshot old new) ∧ Renamed old new snapshot after := by
  obtain ⟨runtime, hruntime, hnew, hview, rfl⟩ := renameTable_eq_ok hwf h
  refine ⟨renamedSnapshot_wellFormed_iff hwf hold hnew hview, ?_⟩
  exact renamed_renamedSnapshot (ne_of_mem_of_not_mem hold hnew).symm hruntime

end Steps

/-! ## The computed snapshot -/

theorem not_keyNamesClash {ast : TableOperation} {operation : DdlOperation}
    {snapshot : SemanticSchemaSnapshot} (h : ast ≠ .rename) :
    ¬ast.KeyNamesClash operation snapshot :=
  fun hclash => h hclash.1

/-- The computed snapshot is what the server does, if it accepts the names of the foreign keys. -/
theorem predicted_spec {target after : SemanticSchemaSnapshot} {operation : DdlOperation}
    {ast : TableOperation} (hwf : target.WellFormed) (h : predicted target operation ast = .ok after) :
    (after.WellFormed ↔ ¬ast.KeyNamesClash operation target) ∧
      ast.Effect operation target after := by
  unfold predicted at h
  by_cases hmem : (target.inventory.tables.any fun table =>
      table.name == String.ofList operation.primaryObject) = true
  · rw [if_pos hmem] at h
    obtain ⟨⟨⟩, -, h⟩ := bind_eq_ok.mp h
    obtain ⟨table, htable, hname⟩ := List.any_eq_true.mp hmem
    have hold : String.ofList operation.primaryObject ∈ target.tableNames :=
      List.mem_map.mpr ⟨table, htable, beq_iff_eq.mp hname⟩
    cases ast with
    | drop ifExists =>
      obtain ⟨hafter, heffect⟩ := dropTable_spec hwf h
      exact ⟨iff_of_true hafter (not_keyNamesClash (by simp)), heffect⟩
    | truncate =>
      obtain ⟨hafter, heffect⟩ := truncateTable_spec hwf h
      exact ⟨iff_of_true hafter (not_keyNamesClash (by simp)), heffect⟩
    | rename =>
      unfold applyOperation at h
      cases hsecondary : operation.secondaryObject with
      | none => simp [hsecondary] at h
      | some destination =>
        simp only [hsecondary] at h
        obtain ⟨hiff, heffect⟩ := renameTable_spec hwf hold h
        refine ⟨?_, destination, hsecondary, heffect⟩
        rw [hiff, TableOperation.KeyNamesClash, hsecondary]
        simp
  · rw [if_neg hmem] at h
    have habsent : String.ofList operation.primaryObject ∉ target.tableNames := by
      intro hname
      obtain ⟨table, htable, heq⟩ := List.mem_map.mp hname
      exact hmem (List.any_eq_true.mpr ⟨table, htable, beq_iff_eq.mpr heq⟩)
    match ast, h with
    | .drop true, h =>
      obtain rfl := Except.ok.inj h
      exact ⟨iff_of_true hwf (not_keyNamesClash (by simp)), dropped_of_absent hwf habsent⟩

/-- The state that is compared after the statement is that of the effect of the server, on a well
formed schema, unless the server refuses the name of a renamed foreign key. -/
theorem expected_wellFormed_iff {sql : Text} {ast : TableOperation} {others : OtherStatements}
    {mode : Option Nat} {operation : DdlOperation} {target : SemanticSchemaSnapshot}
    {state : TableOperationState} (hparse : TableOperation.parse sql = .ok ast)
    (hoperation : parseDdlOperationWithMode others sql mode = .ok operation)
    (hwf : target.WellFormed) (h : expected target operation = .ok state) :
    ∃ after, predicted target operation ast = .ok after ∧ state = observe after operation ∧
      (after.WellFormed ∧ ast.Effect operation target after ↔ ¬ast.KeyNamesClash operation target) := by
  obtain ⟨tokens, name, destination, -, hread⟩ := parseDdlOperation_of_parse hparse others mode
  obtain rfl := Except.ok.inj (hread.symm.trans hoperation)
  obtain ⟨after, hpredicted, hstate⟩ := bind_eq_ok.mp h
  obtain rfl := Except.ok.inj hstate
  obtain ⟨hiff, heffect⟩ := predicted_spec hwf hpredicted
  refine ⟨after, hpredicted, rfl, ?_⟩
  rw [← hiff]
  exact and_iff_left heffect

/-! ## A name that is taken -/

/-- The statement RENAME TABLE a TO b. -/
def renameAToB : DdlOperation where
  family := .rename
  objectKind := .table
  primaryObject := "a".toList
  secondaryObject := some "b".toList
  tableOperationAst := some .rename

/-- A statement that no other parser reads. -/
def noOtherStatements : OtherStatements where
  parseCreateOrAlter _ _ _ := .error "not modeled"
  withIndexAst _ _ := .error "not modeled"

/-- Two tables with one foreign key each. -/
def snapshotWithKeys (left right : String) : SemanticSchemaSnapshot where
  inventory := {
    schema := "s"
    tables := [⟨"a", "BASE TABLE", some "InnoDB", none, ["id"], []⟩,
      ⟨"c", "BASE TABLE", some "InnoDB", none, ["id"], []⟩]
    indexes := [⟨"a", "a_c", false, "BTREE", true, none, []⟩]
    foreignKeys := [⟨"a", left, ["c_id"], "s", "c", ["id"]⟩, ⟨"c", right, ["a_id"], "s", "a", ["id"]⟩]
    views := []
    triggers := [] }
  tableRuntime := fun table => if table = "a" then some ⟨3, none⟩ else none

theorem snapshotWithKeys_wellFormed {left right : String} (h : left ≠ right) :
    (snapshotWithKeys left right).WellFormed where
  names := by simp [snapshotWithKeys, SemanticSchemaSnapshot.tableNames]
  keyNames := by simpa [snapshotWithKeys] using h
  indexes := by simp [snapshotWithKeys, SemanticSchemaSnapshot.tableNames]
  triggers := by simp [snapshotWithKeys]
  children := by simp [snapshotWithKeys, SemanticSchemaSnapshot.tableNames]
  parents := by simp [snapshotWithKeys, SemanticSchemaSnapshot.tableNames]
  runtime := by
    intro table hsome
    by_cases htable : table = "a"
    · simp [snapshotWithKeys, SemanticSchemaSnapshot.tableNames, htable]
    · simp [snapshotWithKeys, htable] at hsome

theorem exists_expected_of_isOk {target : SemanticSchemaSnapshot} {operation : DdlOperation}
    (h : (expected target operation).isOk = true) :
    ∃ state, expected target operation = .ok state := by
  cases hexpected : expected target operation with
  | error message => rw [hexpected] at h; cases h
  | ok state => exact ⟨state, rfl⟩

theorem expected_wellFormed_iff_free : ∃ after,
    predicted (snapshotWithKeys "a_ibfk_1" "c_ibfk_1") renameAToB .rename = .ok after ∧
      after.WellFormed ∧ TableOperation.rename.Effect renameAToB
        (snapshotWithKeys "a_ibfk_1" "c_ibfk_1") after := by
  have hwf : (snapshotWithKeys "a_ibfk_1" "c_ibfk_1").WellFormed :=
    snapshotWithKeys_wellFormed (by decide)
  obtain ⟨state, hstate⟩ : ∃ state,
      expected (snapshotWithKeys "a_ibfk_1" "c_ibfk_1") renameAToB = .ok state :=
    exists_expected_of_isOk (by decide +kernel)
  have hparse : TableOperation.parse "RENAME TABLE a TO b".toList = .ok .rename := rfl
  have hoperation : parseDdlOperationWithMode noOtherStatements "RENAME TABLE a TO b".toList none =
      .ok renameAToB := rfl
  obtain ⟨after, hafter, -, hiff⟩ := expected_wellFormed_iff hparse hoperation hwf hstate
  refine ⟨after, hafter, hiff.mpr ?_⟩
  rintro ⟨-, destination, hdestination, -, -, suffix, -, -, other, hother, htaken, -⟩
  obtain rfl := Option.some.inj hdestination
  -- No foreign key has a name that starts with the new name of the table.
  have hhead : other.name.toList.head? = some 'b' := by
    rw [htaken, String.toList_append]
    rfl
  have hkeys : ∀ key ∈ (snapshotWithKeys "a_ibfk_1" "c_ibfk_1").inventory.foreignKeys,
      key.name.toList.head? ≠ some 'b' := by decide
  exact hkeys other hother hhead

/-- A foreign key that was given the name which RENAME generates. -/
theorem predicted_of_taken_name :
    TableOperation.parse "RENAME TABLE a TO b".toList = .ok .rename ∧
      parseDdlOperationWithMode noOtherStatements "RENAME TABLE a TO b".toList none =
        .ok renameAToB ∧
      (snapshotWithKeys "a_ibfk_1" "b_ibfk_1").WellFormed ∧
      (expected (snapshotWithKeys "a_ibfk_1" "b_ibfk_1") renameAToB).isOk = true ∧
      ¬∃ after, predicted (snapshotWithKeys "a_ibfk_1" "b_ibfk_1") renameAToB .rename = .ok after ∧
        after.WellFormed := by
  have hwf : (snapshotWithKeys "a_ibfk_1" "b_ibfk_1").WellFormed :=
    snapshotWithKeys_wellFormed (by decide)
  refine ⟨rfl, rfl, hwf, by decide +kernel, ?_⟩
  rintro ⟨after, hafter, hafterwf⟩
  apply (predicted_spec hwf hafter).1.mp hafterwf
  refine ⟨rfl, _, rfl, _, List.mem_cons_self, "1", rfl, rfl, _,
    List.mem_cons_of_mem _ List.mem_cons_self, rfl, ?_⟩
  rintro ⟨htable, -⟩
  revert htable
  decide

end Ddl

end BinlogCdc
