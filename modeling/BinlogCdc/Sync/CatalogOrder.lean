import BinlogCdc.Sync.TableCatalog

/-!
# Catalogs and plans

Which tables a catalog admits, in terms of the two inventories alone, and when the tables
of a valid catalog can be scheduled. A catalog is closed under parents and a valid one has
no cycle, so that only a foreign key of an admitted table to itself can stop the plan: the
catalog leaves such a foreign key out, the plan refuses it.
-/

namespace BinlogCdc

/-! ## Maps and sets -/

section Maps

variable {κ β : Type} [LinearOrder κ]

theorem nodup_foldl_insertSorted {γ : Type} (f : γ → κ) (values : List γ) {set : List κ}
    (hset : set.Nodup) :
    (values.foldl (fun set value => insertSorted (f value) set) set).Nodup := by
  induction values generalizing set with
  | nil => exact hset
  | cons value values ih => exact ih (nodup_insertSorted hset)

theorem mem_entryOrInsert {key : κ} {value : β} {map : List (κ × β)} {entry : κ × β} :
    entry ∈ entryOrInsert key value map ↔
      entry ∈ map ∨ entry = (key, value) ∧ key ∉ map.map Prod.fst := by
  unfold entryOrInsert
  split
  case isTrue h => simp [h]
  case isFalse h =>
    rw [List.mem_orderedInsert]
    tauto

theorem mem_insertEntry {key : κ} {value : β} {map : List (κ × β)} {entry : κ × β} :
    entry ∈ insertEntry key value map ↔ entry = (key, value) ∨ entry ∈ map ∧ entry.1 ≠ key := by
  unfold insertEntry
  rw [mem_entryOrInsert, List.mem_filter]
  have hnot : key ∉ (map.filter fun entry => decide (entry.1 ≠ key)).map Prod.fst := by
    rw [List.mem_map]
    rintro ⟨other, hother, hkey⟩
    have hne := of_decide_eq_true (List.mem_filter.mp hother).2
    exact hne hkey
  simp only [hnot, not_false_eq_true, and_true, decide_eq_true_eq]
  tauto

theorem mem_keys_insertEntry {key : κ} {value : β} {map : List (κ × β)} {name : κ} :
    name ∈ (insertEntry key value map).map Prod.fst ↔ name = key ∨ name ∈ map.map Prod.fst := by
  simp only [List.mem_map, mem_insertEntry]
  constructor
  · rintro ⟨entry, rfl | ⟨hentry, -⟩, rfl⟩
    · exact Or.inl rfl
    · exact Or.inr ⟨entry, hentry, rfl⟩
  · rintro (rfl | ⟨entry, hentry, rfl⟩)
    · exact ⟨(name, value), Or.inl rfl, rfl⟩
    · by_cases hkey : entry.1 = key
      · exact ⟨(key, value), Or.inl rfl, hkey.symm⟩
      · exact ⟨entry, Or.inr ⟨hentry, hkey⟩, rfl⟩

theorem lookup_cons_ite (entry : κ × β) (map : List (κ × β)) (name : κ) :
    (entry :: map).lookup name = if name = entry.1 then some entry.2 else map.lookup name := by
  obtain ⟨key, value⟩ := entry
  rw [List.lookup_cons]
  by_cases hname : name = key
  · rw [if_pos hname, beq_iff_eq.mpr hname]
  · rw [if_neg hname, beq_eq_false_iff_ne.mpr hname]

theorem lookup_orderedInsert (key : κ) (value : β) (map : List (κ × β)) (name : κ)
    (hkey : key ∉ map.map Prod.fst) :
    (List.orderedInsert (fun a b => a.1 ≤ b.1) (key, value) map).lookup name =
      if name = key then some value else map.lookup name := by
  induction map with
  | nil => rw [List.orderedInsert_nil, lookup_cons_ite]
  | cons entry map ih =>
    rw [List.map_cons, List.mem_cons, not_or] at hkey
    rw [List.orderedInsert]
    split
    case isTrue => rw [lookup_cons_ite]
    case isFalse =>
      rw [lookup_cons_ite, ih hkey.2, lookup_cons_ite]
      by_cases hname : name = entry.1
      · have hne : name ≠ key := fun h => hkey.1 (h.symm.trans hname)
        rw [if_pos hname, if_pos hname, if_neg hne]
      · rw [if_neg hname, if_neg hname]

theorem lookup_insertEntry (key : κ) (value : β) (map : List (κ × β)) (name : κ) :
    (insertEntry key value map).lookup name =
      if name = key then some value else map.lookup name := by
  have hnot : key ∉ (map.filter fun entry => decide (entry.1 ≠ key)).map Prod.fst := by
    rw [List.mem_map]
    rintro ⟨other, hother, hkey⟩
    have hne := of_decide_eq_true (List.mem_filter.mp hother).2
    exact hne hkey
  unfold insertEntry entryOrInsert
  rw [if_neg hnot, lookup_orderedInsert key value _ name hnot]
  by_cases hname : name = key
  · rw [if_pos hname, if_pos hname]
  · rw [if_neg hname, if_neg hname]
    clear hnot
    induction map with
    | nil => rfl
    | cons entry map ih =>
      rw [List.filter_cons, lookup_cons_ite]
      by_cases hentry : entry.1 = key
      · rw [if_neg (by simp [hentry]), ih, if_neg fun h => hname (h.trans hentry)]
      · rw [if_pos (by simp [hentry]), lookup_cons_ite, ih]

end Maps

/-! ## Dependencies of tables -/

/-- The foreign keys of one inventory. -/
theorem collectDependencies_spec (sourceSchema schema : String)
    (foreignKeys : List ForeignKeyInventory)
    (found : List (Lex (String × String) × ForeignKeyInventory) × List String)
    (hfound : ∀ entry ∈ found.1, entry.1 = toLex (entry.2.table, entry.2.referencedTable) ∧
      entry.2.referencedSchema = sourceSchema) :
    (∀ entry ∈ (collectDependencies sourceSchema schema foreignKeys found).1,
      entry.1 = toLex (entry.2.table, entry.2.referencedTable) ∧
        entry.2.referencedSchema = sourceSchema) ∧
    (∀ child parent, (∃ entry ∈ (collectDependencies sourceSchema schema foreignKeys found).1,
        entry.2.table = child ∧ entry.2.referencedTable = parent) ↔
      (∃ entry ∈ found.1, entry.2.table = child ∧ entry.2.referencedTable = parent) ∨
        ∃ key ∈ foreignKeys, key.referencedSchema = schema ∧ key.table = child ∧
          key.referencedTable = parent) ∧
    ∀ name, name ∈ (collectDependencies sourceSchema schema foreignKeys found).2 ↔
      name ∈ found.2 ∨ ∃ key ∈ foreignKeys, key.referencedSchema ≠ schema ∧ key.table = name := by
  induction foreignKeys generalizing found with
  | nil => simpa [collectDependencies] using hfound
  | cons key foreignKeys ih =>
    obtain ⟨localDependencies, crossSchemaTables⟩ := found
    rw [collectDependencies]
    by_cases hschema : key.referencedSchema = schema
    · rw [if_neg (not_not.mpr hschema)]
      have hkeys : toLex (key.table, key.referencedTable) ∈ localDependencies.map Prod.fst →
          ∃ entry ∈ localDependencies, entry.2.table = key.table ∧
            entry.2.referencedTable = key.referencedTable := by
        intro hmem
        obtain ⟨entry, hentry, he⟩ := List.mem_map.mp hmem
        have hkey := (hfound entry hentry).1.symm.trans he
        exact ⟨entry, hentry, congrArg Prod.fst (toLex.injective hkey),
          congrArg Prod.snd (toLex.injective hkey)⟩
      obtain ⟨hentries, hlocal, hcross⟩ := ih (entryOrInsert
        (toLex (key.table, key.referencedTable)) { key with referencedSchema := sourceSchema }
          localDependencies, crossSchemaTables) (by
        intro entry hentry
        rcases mem_entryOrInsert.mp hentry with hentry | ⟨rfl, -⟩
        · exact hfound entry hentry
        · exact ⟨rfl, rfl⟩)
      refine ⟨hentries, fun child parent => ?_, fun name => ?_⟩
      · rw [hlocal]
        constructor
        · rintro (⟨entry, hentry, hends⟩ | ⟨other, hother, h⟩)
          · rcases mem_entryOrInsert.mp hentry with hentry | ⟨rfl, -⟩
            · exact Or.inl ⟨entry, hentry, hends⟩
            · exact Or.inr ⟨key, List.mem_cons_self, hschema, hends⟩
          · exact Or.inr ⟨other, List.mem_cons_of_mem _ hother, h⟩
        · rintro (⟨entry, hentry, hends⟩ | ⟨other, hother, h⟩)
          · exact Or.inl ⟨entry, mem_entryOrInsert.mpr (Or.inl hentry), hends⟩
          · rcases List.mem_cons.mp hother with rfl | hother
            · left
              by_cases hin : toLex (other.table, other.referencedTable) ∈
                  localDependencies.map Prod.fst
              · obtain ⟨entry, hentry, htable, hparent⟩ := hkeys hin
                exact ⟨entry, mem_entryOrInsert.mpr (Or.inl hentry), htable.trans h.2.1,
                  hparent.trans h.2.2⟩
              · exact ⟨_, mem_entryOrInsert.mpr (Or.inr ⟨rfl, hin⟩), h.2⟩
            · exact Or.inr ⟨other, hother, h⟩
      · rw [hcross, List.exists_mem_cons_iff]
        simp [hschema]
    · rw [if_pos hschema]
      obtain ⟨hentries, hlocal, hcross⟩ := ih (localDependencies,
        insertSorted key.table crossSchemaTables) hfound
      refine ⟨hentries, fun child parent => ?_, fun name => ?_⟩
      · rw [hlocal, List.exists_mem_cons_iff]
        simp [hschema]
      · rw [hcross, mem_insertSorted, List.exists_mem_cons_iff]
        simp only [ne_eq, hschema, not_false_eq_true, true_and]
        constructor
        · rintro ((rfl | h) | h)
          · exact Or.inr (Or.inl rfl)
          · exact Or.inl h
          · exact Or.inr (Or.inr h)
        · rintro (h | rfl | h)
          · exact Or.inl (Or.inr h)
          · exact Or.inl (Or.inl rfl)
          · exact Or.inr h

/-- A foreign key of the source or the target leads from a table to a parent in the same schema. -/
def LocalReference (source target : SchemaInventory) (child parent : String) : Prop :=
  (∃ key ∈ source.foreignKeys, key.referencedSchema = source.schema ∧ key.table = child ∧
    key.referencedTable = parent) ∨
  ∃ key ∈ target.foreignKeys, key.referencedSchema = target.schema ∧ key.table = child ∧
    key.referencedTable = parent

/-- A foreign key of the source or the target leads from a table to another schema. -/
def ForeignReference (source target : SchemaInventory) (child : String) : Prop :=
  (∃ key ∈ source.foreignKeys, key.referencedSchema ≠ source.schema ∧ key.table = child) ∨
  ∃ key ∈ target.foreignKeys, key.referencedSchema ≠ target.schema ∧ key.table = child

/-- The dependencies of both inventories. -/
theorem dependencyInventory_spec (source target : SchemaInventory) :
    (dependencyInventory source target).1.schema = source.schema ∧
    (dependencyInventory source target).1.tables = source.tables ∧
    (∀ key ∈ (dependencyInventory source target).1.foreignKeys,
      key.referencedSchema = source.schema) ∧
    (∀ child parent, (∃ key ∈ (dependencyInventory source target).1.foreignKeys,
      key.table = child ∧ key.referencedTable = parent) ↔
        LocalReference source target child parent) ∧
    ∀ name, name ∈ (dependencyInventory source target).2 ↔ ForeignReference source target name := by
  obtain ⟨hentries, hlocal, hcross⟩ := collectDependencies_spec source.schema source.schema
    source.foreignKeys ([], []) (fun _ h => by cases h)
  obtain ⟨hentries', hlocal', hcross'⟩ := collectDependencies_spec source.schema target.schema
    target.foreignKeys _ hentries
  refine ⟨rfl, rfl, ?_, fun child parent => ?_, fun name => ?_⟩
  · intro key hkey
    obtain ⟨entry, hentry, rfl⟩ := List.mem_map.mp hkey
    exact (hentries' entry hentry).2
  · have hmap : (∃ key ∈ (dependencyInventory source target).1.foreignKeys,
        key.table = child ∧ key.referencedTable = parent) ↔
        ∃ entry ∈ (collectDependencies source.schema target.schema target.foreignKeys
          (collectDependencies source.schema source.schema source.foreignKeys ([], []))).1,
          entry.2.table = child ∧ entry.2.referencedTable = parent := by
      constructor
      · rintro ⟨key, hkey, hends⟩
        obtain ⟨entry, hentry, rfl⟩ := List.mem_map.mp hkey
        exact ⟨entry, hentry, hends⟩
      · rintro ⟨entry, hentry, hends⟩
        exact ⟨entry.2, List.mem_map_of_mem hentry, hends⟩
    rw [hmap, hlocal', hlocal, LocalReference]
    simp
  · change name ∈ (collectDependencies source.schema target.schema target.foreignKeys
      (collectDependencies source.schema source.schema source.foreignKeys ([], []))).2 ↔ _
    rw [hcross', hcross, ForeignReference]
    simp

/-! ## Admitted tables -/

/-- A table has a reason of its own not to be synced. -/
def OwnReason (source target : SchemaInventory) (table : TableInventory) : Prop :=
  exclusionReasons table (targetTable target table.name) ≠ [] ∨
    ForeignReference source target table.name

/-- A base table depends on another table of the schema. -/
def Dependency (source target : SchemaInventory) (child parent : String) : Prop :=
  child ∈ baseTables source ∧ child ≠ parent ∧ LocalReference source target child parent

/-- The tables that cannot be synced: those with a reason of their own, and those that depend on one
of them or on a table that is not a base table. -/
inductive CatalogExcluded (source target : SchemaInventory) : String → Prop
  | own (table : TableInventory) (htable : table ∈ source.tables)
    (hbase : table.tableType = "BASE TABLE") (hreason : OwnReason source target table) :
    CatalogExcluded source target table.name
  | missing {child parent : String} (hdependency : Dependency source target child parent)
    (hparent : parent ∉ baseTables source) : CatalogExcluded source target child
  | inherited {child parent : String} (hdependency : Dependency source target child parent)
    (hparent : CatalogExcluded source target parent) : CatalogExcluded source target child

/-- A catalog admits the base tables without a reason of their own whose parents can be synced. -/
def CatalogAdmits (source target : SchemaInventory) (name : String) : Prop :=
  (∃ table ∈ source.tables, table.tableType = "BASE TABLE" ∧ table.name = name ∧
    ¬ OwnReason source target table) ∧
  ∀ parent, Dependency source target name parent →
    parent ∈ baseTables source ∧ ¬ CatalogExcluded source target parent

theorem insertSorted_ne_nil {α : Type} [LinearOrder α] (a : α) (set : List α) :
    insertSorted a set ≠ [] := fun h => by
  have hmem : a ∈ insertSorted a set := mem_insertSorted.mpr (Or.inl rfl)
  rw [h] at hmem
  cases hmem

theorem sourceReasons_eq_nil (source target : SchemaInventory) (table : TableInventory) :
    sourceReasons target (dependencyInventory source target).2 table = [] ↔
      ¬ OwnReason source target table := by
  have hcross := (dependencyInventory_spec source target).2.2.2.2 table.name
  unfold sourceReasons OwnReason
  rw [← hcross, not_or, not_not]
  dsimp only
  split
  case isTrue h => simp [insertSorted_ne_nil, h]
  case isFalse h => simp [h]

theorem mem_baseTables {inventory : SchemaInventory} {name : String} :
    name ∈ baseTables inventory ↔
      ∃ table ∈ inventory.tables, table.tableType = "BASE TABLE" ∧ table.name = name := by
  simp [baseTables, and_assoc]

/-! ## Classification -/

/-- An entry is of its table and has its parents. -/
def SyncableTableEntry.Describes (inventory : SchemaInventory) (name : String)
    (entry : SyncableTableEntry) : Prop :=
  entry.name = name ∧ ∀ parent, parent ∈ entry.parentDependencies ↔
    ∃ key ∈ inventory.foreignKeys, key.table = name ∧ key.referencedSchema = inventory.schema ∧
      parent ≠ name ∧ key.referencedTable = parent

theorem syncableEntry_describes {inventory : SchemaInventory} {table : TableInventory}
    {estimatedRows : String → Option Nat} {entry : SyncableTableEntry}
    (h : syncableEntry inventory table estimatedRows = some entry) :
    entry.Describes inventory table.name := by
  unfold syncableEntry at h
  rw [Option.bind_eq_bind, Option.bind_eq_some_iff] at h
  obtain ⟨ordering, -, hentry⟩ := h
  cases hentry
  refine ⟨rfl, fun parent => ?_⟩
  dsimp only
  rw [List.foldl_map, mem_foldl_insertSorted, List.mem_map]
  constructor
  · rintro (h | ⟨key, hkey, rfl⟩)
    · cases h
    · obtain ⟨hmem, hends⟩ := List.mem_filter.mp hkey
      obtain ⟨htable, hschema, hne⟩ := of_decide_eq_true hends
      exact ⟨key, hmem, htable, hschema, hne, rfl⟩
  · rintro ⟨key, hmem, htable, hschema, hne, rfl⟩
    exact Or.inr ⟨key, List.mem_filter.mpr ⟨hmem, decide_eq_true ⟨htable, hschema, hne⟩⟩, rfl⟩

/-- The keys of the candidates are different. -/
theorem nodup_insertEntry {κ β : Type} [LinearOrder κ] {key : κ} {value : β} {map : List (κ × β)}
    (h : (map.map Prod.fst).Nodup) : ((insertEntry key value map).map Prod.fst).Nodup := by
  have hfilter : ((map.filter fun entry => decide (entry.1 ≠ key)).map Prod.fst).Nodup :=
    h.sublist (List.filter_sublist.map _)
  unfold insertEntry entryOrInsert
  split
  case isTrue => exact hfilter
  case isFalse hnot =>
    refine ((List.perm_orderedInsert _ _ _).map Prod.fst).nodup_iff.mpr ?_
    rw [List.map_cons]
    exact List.nodup_cons.mpr ⟨hnot, hfilter⟩

/-- The base tables with and without reasons. -/
theorem classifyTables_spec {inventory target : SchemaInventory}
    {estimatedRows : String → Option Nat} {crossSchemaTables : List String}
    {tables : List TableInventory} {c c' : Classified}
    (hc : (c.candidates.map Prod.fst).Nodup ∧
      ∀ entry ∈ c.candidates, entry.2.Describes inventory entry.1)
    (h : classifyTables inventory target estimatedRows crossSchemaTables tables c = some c') :
    ((c'.candidates.map Prod.fst).Nodup ∧
      ∀ entry ∈ c'.candidates, entry.2.Describes inventory entry.1) ∧
    (∀ name, name ∈ c'.candidates.map Prod.fst ↔ name ∈ c.candidates.map Prod.fst ∨
      ∃ table ∈ tables, table.tableType = "BASE TABLE" ∧ table.name = name ∧
        sourceReasons target crossSchemaTables table = []) ∧
    ∀ name, name ∈ c'.excluded.map Prod.fst ↔ name ∈ c.excluded.map Prod.fst ∨
      ∃ table ∈ tables, table.tableType = "BASE TABLE" ∧ table.name = name ∧
        sourceReasons target crossSchemaTables table ≠ [] := by
  induction tables generalizing c with
  | nil =>
    cases h
    simpa using hc
  | cons table tables ih =>
    rw [classifyTables] at h
    split at h
    case isTrue htype =>
      obtain ⟨hdescribes, hcandidates, hexcluded⟩ := ih hc h
      refine ⟨hdescribes, fun name => ?_, fun name => ?_⟩
      · rw [hcandidates, List.exists_mem_cons_iff]
        simp [htype]
      · rw [hexcluded, List.exists_mem_cons_iff]
        simp [htype]
    case isFalse htype =>
      rw [not_not] at htype
      split at h
      case h_1 hreasons =>
        rw [Option.bind_eq_bind, Option.bind_eq_some_iff] at h
        obtain ⟨entry, hentry, h⟩ := h
        have hinsert : ((insertEntry table.name entry c.candidates).map Prod.fst).Nodup ∧
            ∀ e ∈ insertEntry table.name entry c.candidates, e.2.Describes inventory e.1 := by
          refine ⟨nodup_insertEntry hc.1, fun e he => ?_⟩
          rcases mem_insertEntry.mp he with rfl | ⟨he, -⟩
          · exact syncableEntry_describes hentry
          · exact hc.2 e he
        obtain ⟨hdescribes, hcandidates, hexcluded⟩ := ih hinsert h
        refine ⟨hdescribes, fun name => ?_, fun name => ?_⟩
        · rw [hcandidates, mem_keys_insertEntry, List.exists_mem_cons_iff]
          simp only [htype, hreasons, true_and, and_true]
          rw [eq_comm (a := name)]
          tauto
        · rw [hexcluded, List.exists_mem_cons_iff]
          simp [hreasons]
      case h_2 hreasons =>
        have hne : sourceReasons target crossSchemaTables table ≠ [] := fun he => hreasons he
        obtain ⟨hdescribes, hcandidates, hexcluded⟩ := ih
          (c := ⟨c.candidates, insertEntry table.name (sourceReasons target crossSchemaTables table)
            c.excluded⟩) hc h
        refine ⟨hdescribes, fun name => ?_, fun name => ?_⟩
        · rw [hcandidates, List.exists_mem_cons_iff]
          simp [hne]
        · rw [hexcluded, mem_keys_insertEntry, List.exists_mem_cons_iff]
          simp only [htype, ne_eq, hne, not_false_eq_true, true_and, and_true]
          rw [eq_comm (a := name)]
          tauto

/-! ## Propagation -/

/-- A table is excluded because of a parent. -/
def Marked (excluded : List (String × List NonSyncableReason)) (name : String) : Prop :=
  NonSyncableReason.dependencyOnNonSyncable ∈ (excluded.lookup name).getD []

instance (excluded : List (String × List NonSyncableReason)) (name : String) :
    Decidable (Marked excluded name) := inferInstanceAs (Decidable (_ ∈ _))

theorem Marked.mem_keys {excluded : List (String × List NonSyncableReason)} {name : String}
    (h : Marked excluded name) : name ∈ excluded.map Prod.fst := by
  unfold Marked at h
  cases hfind : excluded.lookup name with
  | none =>
    rw [hfind] at h
    cases h
  | some reasons =>
    clear h
    induction excluded with
    | nil => cases hfind
    | cons entry excluded ih =>
      rw [lookup_cons_ite] at hfind
      rw [List.map_cons]
      split at hfind
      case isTrue he => exact List.mem_cons.mpr (Or.inl he)
      case isFalse => exact List.mem_cons_of_mem _ (ih hfind)

/-- What excluding some tables does. -/
theorem excludeDependents_spec (names : List String) (c : Classified) :
    (∀ name, name ∈ (excludeDependents c names).1.excluded.map Prod.fst ↔
      name ∈ c.excluded.map Prod.fst ∨ name ∈ names) ∧
    (∀ entry, entry ∈ (excludeDependents c names).1.candidates ↔
      entry ∈ c.candidates ∧ entry.1 ∉ names) ∧
    (∀ name, Marked (excludeDependents c names).1.excluded name ↔
      Marked c.excluded name ∨ name ∈ names) ∧
    ((excludeDependents c names).2 = true ↔ ∃ name ∈ names, ¬ Marked c.excluded name) := by
  induction names generalizing c with
  | nil => simp [excludeDependents]
  | cons name names ih =>
    have hmarked : ∀ other, Marked (excludeDependent c name).1.excluded other ↔
        Marked c.excluded other ∨ other = name := by
      intro other
      unfold Marked excludeDependent
      dsimp only
      rw [lookup_insertEntry]
      by_cases hother : other = name
      · simp [hother, mem_insertSorted]
      · simp [hother]
    obtain ⟨hkeys, hcandidates, hmarks, hchanged⟩ := ih (excludeDependent c name).1
    rw [excludeDependents]
    dsimp only
    refine ⟨fun other => ?_, fun entry => ?_, fun other => ?_, ?_⟩
    · rw [hkeys, excludeDependent, mem_keys_insertEntry, List.mem_cons]
      tauto
    · rw [hcandidates, excludeDependent, List.mem_filter, List.mem_cons, decide_eq_true_eq]
      tauto
    · rw [hmarks, hmarked, List.mem_cons]
      tauto
    · rw [Bool.or_eq_true, hchanged, List.exists_mem_cons_iff]
      have hfirst : (excludeDependent c name).2 = true ↔ ¬ Marked c.excluded name := by
        rw [excludeDependent, decide_eq_true_eq, Marked]
      rw [hfirst]
      constructor
      · rintro (h | ⟨other, hother, h⟩)
        · exact Or.inl h
        · exact Or.inr ⟨other, hother, fun hm => h ((hmarked other).mpr (Or.inl hm))⟩
      · rintro (h | ⟨other, hother, h⟩)
        · exact Or.inl h
        · by_cases hsame : other = name
          · exact Or.inl (hsame ▸ h)
          · refine Or.inr ⟨other, hother, fun hm => ?_⟩
            exact ((hmarked other).mp hm).elim h hsame

theorem excludeDependents_sublist (names : List String) (c : Classified) :
    (excludeDependents c names).1.candidates.Sublist c.candidates := by
  induction names generalizing c with
  | nil => exact List.Sublist.refl _
  | cons name names ih =>
    rw [excludeDependents]
    exact (ih (excludeDependent c name).1).trans List.filter_sublist

theorem mem_dependentTables {inventory : SchemaInventory}
    {excluded : List (String × List NonSyncableReason)} {name : String} :
    name ∈ dependentTables inventory excluded ↔ ∃ key ∈ tableDependencies inventory,
      key.table = name ∧ (key.referencedTable ∉ baseTables inventory ∨
        key.referencedTable ∈ excluded.map Prod.fst) := by
  unfold dependentTables
  rw [mem_foldl_insertSorted, List.mem_map]
  constructor
  · rintro (h | ⟨key, hkey, rfl⟩)
    · cases h
    · obtain ⟨hmem, hparent⟩ := List.mem_filter.mp hkey
      exact ⟨key, hmem, rfl, of_decide_eq_true hparent⟩
  · rintro ⟨key, hmem, rfl, hparent⟩
    exact Or.inr ⟨key, List.mem_filter.mpr ⟨hmem, decide_eq_true hparent⟩, rfl⟩

/-- The tables with dependencies that are not yet excluded because of a parent. -/
def unmarkedTables (inventory : SchemaInventory) (c : Classified) : List ForeignKeyInventory :=
  (tableDependencies inventory).filter fun key => decide (¬ Marked c.excluded key.table)

/-- A pass that gives a table a new reason leaves fewer tables without one. -/
theorem unmarkedTables_lt {inventory : SchemaInventory} {c c' : Classified} {changed : Bool}
    (hrun : excludeDependents c (dependentTables inventory c.excluded) = (c', changed))
    (hchanged : changed = true) :
    (unmarkedTables inventory c').length < (unmarkedTables inventory c).length := by
  obtain ⟨-, -, hmarks, hnew⟩ := excludeDependents_spec (dependentTables inventory c.excluded) c
  rw [hrun] at hmarks hnew
  dsimp only at hmarks hnew
  obtain ⟨name, hname, hunmarked⟩ := hnew.mp hchanged
  obtain ⟨key, hkey, rfl, -⟩ := mem_dependentTables.mp hname
  have hfilter : unmarkedTables inventory c' = (unmarkedTables inventory c).filter
      fun key => decide (¬ Marked c'.excluded key.table) := by
    unfold unmarkedTables
    rw [List.filter_filter]
    refine List.filter_congr fun key _ => ?_
    by_cases hm : Marked c.excluded key.table
    · have hm' := (hmarks key.table).mpr (Or.inl hm)
      simp [hm']
    · simp [hm]
  rw [hfilter]
  refine List.length_filter_lt_length_iff_exists.mpr ⟨key, ?_, ?_⟩
  · exact List.mem_filter.mpr ⟨hkey, decide_eq_true hunmarked⟩
  · simp [(hmarks key.table).mpr (Or.inr hname)]

/-- The end of the propagation. -/
structure Propagated (inventory : SchemaInventory) (c c' : Classified) : Prop where
  /-- Candidates are only removed. -/
  sublist : c'.candidates.Sublist c.candidates
  /-- The candidates left are those without an excluded parent. -/
  candidates : ∀ entry, entry ∈ c'.candidates ↔
    entry ∈ c.candidates ∧ entry.1 ∉ dependentTables inventory c'.excluded
  /-- Excluded tables stay excluded. -/
  kept : ∀ name ∈ c.excluded.map Prod.fst, name ∈ c'.excluded.map Prod.fst
  /-- Tables with an excluded parent are excluded. -/
  closed : ∀ name ∈ dependentTables inventory c'.excluded, name ∈ c'.excluded.map Prod.fst
  /-- No others are excluded. -/
  least : ∀ P : String → Prop, (∀ name ∈ c.excluded.map Prod.fst, P name) →
    (∀ key ∈ tableDependencies inventory, key.referencedTable ∉ baseTables inventory ∨
      P key.referencedTable → P key.table) → ∀ name ∈ c'.excluded.map Prod.fst, P name

/-- A pass marks at least one more table, or it is the last. -/
theorem propagateLoop_spec (inventory : SchemaInventory) (fuel : Nat) (c : Classified)
    (hfuel : (unmarkedTables inventory c).length < fuel) :
    Propagated inventory c (propagateLoop inventory fuel c) := by
  induction fuel generalizing c with
  | zero => omega
  | succ fuel ih =>
    obtain ⟨hkeys, hcandidates, hmarks, hchanged⟩ :=
      excludeDependents_spec (dependentTables inventory c.excluded) c
    have hsublist := excludeDependents_sublist (dependentTables inventory c.excluded) c
    rw [propagateLoop]
    cases hrun : excludeDependents c (dependentTables inventory c.excluded) with
    | mk c₁ changed =>
      rw [hrun] at hkeys hcandidates hmarks hchanged hsublist
      dsimp only at hkeys hcandidates hmarks hchanged
      have hmono : ∀ name ∈ dependentTables inventory c.excluded,
          name ∈ dependentTables inventory c₁.excluded := by
        intro name hname
        obtain ⟨key, hkey, htable, hparent⟩ := mem_dependentTables.mp hname
        refine mem_dependentTables.mpr ⟨key, hkey, htable, hparent.imp_right fun h => ?_⟩
        exact (hkeys _).mpr (Or.inl h)
      have hleast : ∀ P : String → Prop, (∀ name ∈ c.excluded.map Prod.fst, P name) →
          (∀ key ∈ tableDependencies inventory, key.referencedTable ∉ baseTables inventory ∨
            P key.referencedTable → P key.table) → ∀ name ∈ c₁.excluded.map Prod.fst, P name := by
        intro P hstart hstep name hname
        rcases (hkeys name).mp hname with hname | hname
        · exact hstart name hname
        · obtain ⟨key, hkey, rfl, hparent⟩ := mem_dependentTables.mp hname
          exact hstep key hkey (hparent.imp_right (hstart _))
      cases changed with
      | false =>
        -- Every dependent table was excluded before, so that nothing has changed.
        have hall : ∀ name ∈ dependentTables inventory c.excluded, name ∈ c.excluded.map Prod.fst := by
          intro name hname
          by_contra hout
          have hmarked : ¬ Marked c.excluded name := fun h => hout h.mem_keys
          exact Bool.false_ne_true (hchanged.mpr ⟨name, hname, hmarked⟩)
        have hsame : ∀ name, name ∈ c₁.excluded.map Prod.fst ↔ name ∈ c.excluded.map Prod.fst :=
          fun name => (hkeys name).trans ⟨fun h => h.elim id (hall name), Or.inl⟩
        have hdependent : ∀ name, name ∈ dependentTables inventory c₁.excluded ↔
            name ∈ dependentTables inventory c.excluded := by
          intro name
          simp only [mem_dependentTables, hsame]
        refine ⟨hsublist, fun entry => ?_, fun name h => (hsame name).mpr h, fun name h => ?_, hleast⟩
        · rw [hcandidates, hdependent]
        · exact (hsame name).mpr (hall name ((hdependent name).mp h))
      | true =>
        have hlt := unmarkedTables_lt hrun rfl
        have hrest := ih c₁ (by omega)
        refine ⟨hrest.sublist.trans hsublist, fun entry => ?_, fun name h => ?_, hrest.closed,
          fun P hstart hstep => ?_⟩
        · rw [hrest.candidates, hcandidates]
          constructor
          · rintro ⟨⟨hentry, -⟩, hout⟩
            exact ⟨hentry, hout⟩
          · rintro ⟨hentry, hout⟩
            refine ⟨⟨hentry, fun hin => hout ?_⟩, hout⟩
            obtain ⟨key, hkey, htable, hparent⟩ := mem_dependentTables.mp (hmono _ hin)
            exact mem_dependentTables.mpr ⟨key, hkey, htable, hparent.imp_right (hrest.kept _)⟩
        · exact hrest.kept name ((hkeys name).mpr (Or.inl h))
        · exact hrest.least P (hleast P hstart hstep) hstep

theorem propagateNonSyncableDependencies_spec (inventory : SchemaInventory) (c : Classified) :
    Propagated inventory c (propagateNonSyncableDependencies inventory c) :=
  propagateLoop_spec inventory _ c (Nat.lt_succ_of_le (List.length_filter_le _ _))

/-! ## The tables of a catalog -/

/-- The dependencies of base tables in the inventory of both. -/
theorem mem_tableDependencies {source target : SchemaInventory} {child parent : String} :
    (∃ key ∈ tableDependencies (dependencyInventory source target).1,
      key.table = child ∧ key.referencedTable = parent) ↔ Dependency source target child parent := by
  obtain ⟨hschema, htables, hschemas, hlocal, -⟩ := dependencyInventory_spec source target
  have hbase : baseTables (dependencyInventory source target).1 = baseTables source := by
    rw [baseTables, htables, baseTables]
  rw [Dependency, ← hlocal]
  unfold tableDependencies
  constructor
  · rintro ⟨key, hkey, rfl, rfl⟩
    obtain ⟨hmem, hends⟩ := List.mem_filter.mp hkey
    obtain ⟨hin, -, hne⟩ := of_decide_eq_true hends
    exact ⟨hbase ▸ hin, hne, key, hmem, rfl, rfl⟩
  · rintro ⟨hin, hne, key, hmem, rfl, rfl⟩
    refine ⟨key, List.mem_filter.mpr ⟨hmem, decide_eq_true ⟨hbase ▸ hin, ?_, hne⟩⟩, rfl, rfl⟩
    rw [hschema, hschemas key hmem]

/-- What a catalog is. -/
structure Cataloged (source target : SchemaInventory) (syncable : List SyncableTableEntry) : Prop where
  /-- No table is listed twice. -/
  nodup : (syncable.map SyncableTableEntry.name).Nodup
  /-- The tables are the admitted ones. -/
  admitted : ∀ name, name ∈ syncable.map SyncableTableEntry.name ↔ CatalogAdmits source target name
  /-- The parents of an entry are those of its table. -/
  parents : ∀ entry ∈ syncable, ∀ parent, parent ∈ entry.parentDependencies ↔
    Dependency source target entry.name parent

/-- The candidates and the excluded tables at the end of the propagation. -/
structure ClassifiedTables (source target : SchemaInventory) (final : Classified) : Prop where
  /-- No candidate is listed twice. -/
  nodup : (final.candidates.map Prod.fst).Nodup
  /-- An entry is of its table. -/
  names : ∀ entry ∈ final.candidates, entry.2.name = entry.1
  /-- The parents of an entry are those of its table. -/
  parents : ∀ entry ∈ final.candidates, ∀ parent, parent ∈ entry.2.parentDependencies ↔
    Dependency source target entry.1 parent
  /-- The candidates are the admitted tables. -/
  admitted : ∀ name, name ∈ final.candidates.map Prod.fst ↔ CatalogAdmits source target name
  /-- The excluded tables are those that the inventories exclude. -/
  excluded : ∀ name, name ∈ final.excluded.map Prod.fst ↔ CatalogExcluded source target name

/-- The tables at the end of the propagation, from those that were classified. -/
theorem classifiedTables {source target : SchemaInventory} {estimatedRows : String → Option Nat}
    {classified : Classified}
    (hclassified : classifySourceTables (dependencyInventory source target).1 target estimatedRows
      (dependencyInventory source target).2 = some classified) :
    ClassifiedTables source target (propagateNonSyncableDependencies
      (dependencyInventory source target).1 classified) := by
  obtain ⟨hschema, htables, hschemas, hlocal, -⟩ := dependencyInventory_spec source target
  have hbase : baseTables (dependencyInventory source target).1 = baseTables source := by
    rw [baseTables, htables, baseTables]
  unfold classifySourceTables at hclassified
  rw [htables] at hclassified
  obtain ⟨⟨hnodup, hdescribes⟩, hcandidates, hexcluded⟩ := classifyTables_spec (c := ⟨[], []⟩)
    ⟨List.nodup_nil, fun _ h => by cases h⟩ hclassified
  have hpropagated := propagateNonSyncableDependencies_spec (dependencyInventory source target).1
    classified
  generalize propagateNonSyncableDependencies (dependencyInventory source target).1 classified =
    final at hpropagated
  -- The excluded tables are those that the inventories exclude.
  have hexclude : ∀ name, name ∈ final.excluded.map Prod.fst ↔
      CatalogExcluded source target name := by
    intro name
    constructor
    · intro hname
      refine hpropagated.least (CatalogExcluded source target) (fun name hname => ?_)
        (fun key hkey hparent => ?_) name hname
      · rcases (hexcluded name).mp hname with hname | ⟨table, htable, htype, rfl, hreasons⟩
        · cases hname
        · refine .own table htable htype ?_
          by_contra hown
          exact hreasons ((sourceReasons_eq_nil source target table).mpr hown)
      · have hdependency := mem_tableDependencies.mp ⟨key, hkey, rfl, rfl⟩
        rcases hparent with hparent | hparent
        · exact .missing hdependency (hbase ▸ hparent)
        · exact .inherited hdependency hparent
    · intro hname
      induction hname with
      | own table htable htype hreason =>
        refine hpropagated.kept _ ((hexcluded _).mpr (Or.inr ⟨table, htable, htype, rfl, fun h => ?_⟩))
        exact (sourceReasons_eq_nil source target table).mp h hreason
      | missing hdependency hparent =>
        obtain ⟨key, hkey, rfl, rfl⟩ := mem_tableDependencies.mpr hdependency
        exact hpropagated.closed _ (mem_dependentTables.mpr ⟨key, hkey, rfl,
          Or.inl (hbase ▸ hparent)⟩)
      | inherited hdependency _ ih =>
        obtain ⟨key, hkey, rfl, rfl⟩ := mem_tableDependencies.mpr hdependency
        exact hpropagated.closed _ (mem_dependentTables.mpr ⟨key, hkey, rfl, Or.inr ih⟩)
  have hsub : ∀ entry ∈ final.candidates, entry.2.Describes (dependencyInventory source target).1
      entry.1 := fun entry hentry => hdescribes entry ((hpropagated.candidates entry).mp hentry).1
  have hadmitted : ∀ name, name ∈ final.candidates.map Prod.fst ↔
      CatalogAdmits source target name := by
    intro name
    have hkeys : name ∈ final.candidates.map Prod.fst ↔ name ∈ classified.candidates.map Prod.fst ∧
        name ∉ dependentTables (dependencyInventory source target).1 final.excluded := by
      rw [List.mem_map, List.mem_map]
      constructor
      · rintro ⟨entry, hentry, rfl⟩
        obtain ⟨hin, hout⟩ := (hpropagated.candidates entry).mp hentry
        exact ⟨⟨entry, hin, rfl⟩, hout⟩
      · rintro ⟨⟨entry, hin, rfl⟩, hout⟩
        exact ⟨entry, (hpropagated.candidates entry).mpr ⟨hin, hout⟩, rfl⟩
    rw [hkeys, hcandidates, mem_dependentTables, CatalogAdmits]
    refine and_congr ?_ ?_
    · simp only [List.map_nil, List.not_mem_nil, false_or, sourceReasons_eq_nil]
    · rw [hbase]
      constructor
      · intro hout parent hdependency
        obtain ⟨key, hkey, htable, hparent⟩ := mem_tableDependencies.mpr hdependency
        rw [← hexclude, ← hparent]
        by_contra hnot
        refine hout ⟨key, hkey, htable, ?_⟩
        tauto
      · rintro hall ⟨key, hkey, rfl, hparent⟩
        obtain ⟨hin, hout⟩ := hall _ (mem_tableDependencies.mp ⟨key, hkey, rfl, rfl⟩)
        rw [← hexclude] at hout
        exact hparent.elim (fun h => h hin) hout
  refine ⟨hnodup.sublist (hpropagated.sublist.map _), fun entry hentry => (hsub entry hentry).1,
    fun entry hentry parent => ?_, hadmitted, hexclude⟩
  obtain ⟨-, hparents⟩ := hsub entry hentry
  have hin : entry.1 ∈ baseTables source := by
    have hadmits := (hadmitted entry.1).mp (List.mem_map_of_mem hentry)
    obtain ⟨table, htable, htype, hsame, -⟩ := hadmits.1
    exact mem_baseTables.mpr ⟨table, htable, htype, hsame⟩
  rw [hparents, Dependency, ← hlocal]
  constructor
  · rintro ⟨key, hkey, htable, -, hne, hparent⟩
    exact ⟨hin, hne.symm, key, hkey, htable, hparent⟩
  · rintro ⟨-, hne, key, hkey, htable, hparent⟩
    exact ⟨key, hkey, htable, by rw [hschema, hschemas key hkey], hne.symm, hparent⟩

/-- The names of the entries are those of the candidates. -/
theorem ClassifiedTables.map_name {source target : SchemaInventory} {final : Classified}
    (h : ClassifiedTables source target final) :
    (final.candidates.map Prod.snd).map SyncableTableEntry.name = final.candidates.map Prod.fst := by
  rw [List.map_map]
  exact List.map_congr_left h.names

theorem buildCatalogs_spec {source target : SchemaInventory} {estimatedRows : String → Option Nat}
    {catalogs : Catalogs} (h : buildCatalogs source target estimatedRows = some catalogs) :
    Cataloged source target catalogs.syncable := by
  unfold buildCatalogs at h
  dsimp only at h
  rw [Option.bind_eq_bind, Option.bind_eq_some_iff] at h
  obtain ⟨classified, hclassified, hcatalogs⟩ := h
  have hfinal := classifiedTables hclassified
  generalize propagateNonSyncableDependencies (dependencyInventory source target).1 classified =
    final at hfinal hcatalogs
  cases hcatalogs
  have hperm : (sortedSyncableEntries final.candidates).Perm (final.candidates.map Prod.snd) :=
    List.perm_insertionSort _ _
  refine ⟨?_, fun name => ?_, fun entry hentry parent => ?_⟩
  · rw [(hperm.map _).nodup_iff, hfinal.map_name]
    exact hfinal.nodup
  · rw [(hperm.map _).mem_iff, hfinal.map_name, hfinal.admitted]
  · obtain ⟨candidate, hcandidate, rfl⟩ := List.mem_map.mp (hperm.mem_iff.mp hentry)
    rw [hfinal.parents candidate hcandidate, hfinal.names candidate hcandidate]

/-! ## Valid catalogs -/

/-- Tables that are removed layer by layer have a rank that grows from parents to children. -/
theorem validateCatalogLayers_rank {tables : List SyncableTableEntry} (fuel : Nat)
    {remaining : List String} (hfuel : remaining.length < fuel)
    (h : validateCatalogLayers tables fuel remaining = .ok ()) :
    ∃ rank : String → Nat, ∀ name ∈ remaining, ∀ parent ∈ catalogParents tables name,
      parent ∈ remaining → rank parent < rank name := by
  induction fuel generalizing remaining with
  | zero => omega
  | succ fuel ih =>
    rw [validateCatalogLayers] at h
    split at h
    case isTrue hempty =>
      refine ⟨fun _ => 0, fun name hname => ?_⟩
      rw [List.isEmpty_iff.mp hempty] at hname
      cases hname
    case isFalse hempty =>
      dsimp only at h
      split at h
      case isTrue => cases h
      case isFalse hready =>
        generalize hlayer : (remaining.filter fun name =>
          (catalogParents tables name).all fun parent => parent ∉ remaining) = ready at h hready
        have hlt : (remaining.filter (· ∉ ready)).length < remaining.length := by
          obtain ⟨name, hname⟩ := List.exists_mem_of_ne_nil ready (by simpa using hready)
          refine List.length_filter_lt_length_iff_exists.mpr ⟨name, ?_, by simp [hname]⟩
          rw [← hlayer] at hname
          exact (List.mem_filter.mp hname).1
        obtain ⟨rank, hrank⟩ := ih (by omega) h
        -- The tables of this layer come before all that are left.
        refine ⟨fun name => if name ∈ ready then 0 else rank name + 1, ?_⟩
        intro name hname parent hparent hremaining
        have hout : name ∉ ready := by
          intro hin
          rw [← hlayer] at hin
          have hall := List.all_eq_true.mp (List.mem_filter.mp hin).2 parent hparent
          exact of_decide_eq_true hall hremaining
        dsimp only
        rw [if_neg hout]
        split
        case isTrue => omega
        case isFalse hparentOut =>
          have hless := hrank name (List.mem_filter.mpr ⟨hname, decide_eq_true hout⟩) parent hparent
            (List.mem_filter.mpr ⟨hremaining, decide_eq_true hparentOut⟩)
          omega

/-- The parents of a table of a catalog. -/
theorem Cataloged.mem_catalogParents {source target : SchemaInventory}
    {syncable : List SyncableTableEntry} (h : Cataloged source target syncable) {name : String}
    (hname : name ∈ syncable.map SyncableTableEntry.name) (parent : String) :
    parent ∈ catalogParents syncable name ↔ Dependency source target name parent := by
  unfold catalogParents
  cases hfind : syncable.reverse.find? fun entry => entry.name == name with
  | none =>
    obtain ⟨entry, hentry, rfl⟩ := List.mem_map.mp hname
    have hnone := List.find?_eq_none.mp hfind entry (List.mem_reverse.mpr hentry)
    simp at hnone
  | some entry =>
    have hentry := List.mem_reverse.mp (List.mem_of_find?_eq_some hfind)
    have hsame : entry.name = name := by simpa using List.find?_some hfind
    rw [Option.map_some, Option.getD_some, h.parents entry hentry, hsame]

/-- A valid catalog has a rank. -/
theorem Cataloged.rank {source target : SchemaInventory} {syncable : List SyncableTableEntry}
    (h : Cataloged source target syncable) (hvalid : validateCatalog syncable = .ok ()) :
    ∃ rank : String → Nat, ∀ name ∈ syncable.map SyncableTableEntry.name,
      ∀ parent ∈ syncable.map SyncableTableEntry.name, Dependency source target name parent →
        rank parent < rank name := by
  unfold validateCatalog at hvalid
  have hset := nodup_foldl_insertSorted id (syncable.map SyncableTableEntry.name)
    (List.nodup_nil : ([] : List String).Nodup)
  have hmem := mem_foldl_insertSorted id (syncable.map SyncableTableEntry.name) []
  simp only [id_eq, List.map_id, List.not_mem_nil, false_or] at hset hmem
  generalize (syncable.map SyncableTableEntry.name).foldl (fun set name => insertSorted name set) [] =
    names at hvalid hset hmem
  dsimp only at hvalid
  split at hvalid
  case isTrue => cases hvalid
  case isFalse =>
    cases hexist : validateCatalogDependenciesExist names syncable with
    | error message =>
      rw [hexist] at hvalid
      cases hvalid
    | ok =>
      rw [hexist] at hvalid
      obtain ⟨rank, hrank⟩ := validateCatalogLayers_rank _ (Nat.lt_succ_self _) hvalid
      refine ⟨rank, fun name hname parent hparent hdependency => ?_⟩
      exact hrank name ((hmem name).mpr hname) parent
        ((h.mem_catalogParents hname parent).mpr hdependency) ((hmem parent).mpr hparent)

/-- The parents of an admitted table are admitted. -/
theorem CatalogAdmits.parent {source target : SchemaInventory} {name parent : String}
    (h : CatalogAdmits source target name) (hdependency : Dependency source target name parent) :
    CatalogAdmits source target parent := by
  obtain ⟨hbase, hincluded⟩ := h.2 parent hdependency
  obtain ⟨table, htable, htype, rfl⟩ := mem_baseTables.mp hbase
  refine ⟨⟨table, htable, htype, rfl, fun hown => hincluded (.own table htable htype hown)⟩, ?_⟩
  intro grandparent hparent
  refine ⟨?_, fun hexcluded => hincluded (.inherited hparent hexcluded)⟩
  by_contra hmissing
  exact hincluded (.missing hparent hmissing)

/-! ## Plans of valid catalogs -/

/-- A plan refuses a table that references itself. -/
theorem planDependencyBatches_no_self {selected : List String}
    {foreignKeys : List ForeignKeyInventory} {schema : String} {direction : Direction}
    {maxParallelism : Nat} {batches : List (List String)}
    (h : planDependencyBatches selected foreignKeys schema direction maxParallelism = .ok batches) :
    ∀ key ∈ foreignKeys, key.Between schema selected → key.table ≠ key.referencedTable := by
  unfold planDependencyBatches at h
  split at h
  case isTrue => cases h
  case isFalse =>
    cases htables : collectTables [] selected with
    | error error =>
      rw [htables] at h
      cases h
    | ok tables =>
      cases hsuccessors : addDependencies tables schema direction (fun _ => []) foreignKeys with
      | error error =>
        rw [htables] at h
        simp only [bind, Except.bind] at h
        rw [hsuccessors] at h
        cases h
      | ok successors =>
        intro key hkey hbetween
        have hmem := (collectTables_ok List.nodup_nil htables).2
        refine addDependencies_iff.mp ⟨successors, hsuccessors⟩ key hkey ⟨hbetween.1, ?_, ?_⟩
        · exact (hmem _).mpr (Or.inr hbetween.2.1)
        · exact (hmem _).mpr (Or.inr hbetween.2.2)

/-- A table of nodes. -/
def nodesTable : TableInventory where
  name := "nodes"
  tableType := "BASE TABLE"
  collation := none
  primaryKey := ["id"]
  columns :=
    [⟨"id", "bigint", "bigint", false, none, none, none⟩,
      ⟨"parent_id", "bigint", "bigint", true, none, none, none⟩]

/-- The nodes of a schema, with a foreign key to a table. -/
def nodesInventory (referencedTables : List String) : SchemaInventory where
  schema := "shop"
  tables := [nodesTable]
  foreignKeys := referencedTables.map fun referenced =>
    ⟨"nodes", "nodes_parent", ["parent_id"], "shop", referenced, ["id"]⟩

end BinlogCdc
