import BinlogCdc.Sync.CatalogOrder

/-!
# The two lists of a catalog

Every base table of the source is in exactly one of the two lists. A table can be synced
exactly when it and every table that it reaches along the foreign keys of both inventories are
base tables without a reason of their own: the propagation stops at the least set of tables
that is closed under its rule.
-/

namespace BinlogCdc

/-! ## Reachability -/

/-- A foreign key of either inventory leads from a table to another table of its schema. -/
def LocalEdge (source target : SchemaInventory) (child parent : String) : Prop :=
  child ≠ parent ∧ LocalReference source target child parent

/-- A base table of the source without a reason of its own. -/
def CleanTable (source target : SchemaInventory) (name : String) : Prop :=
  ∃ table ∈ source.tables, table.tableType = "BASE TABLE" ∧ table.name = name ∧
    ¬ OwnReason source target table

/-- What a server reports of a schema: each table once, and the columns of its primary key. -/
structure SchemaInventory.Reported (inventory : SchemaInventory) : Prop where
  /-- No name is reported twice. -/
  nodup : (inventory.tables.map TableInventory.name).Nodup
  /-- The columns of a primary key are columns of the table. -/
  keyColumns : ∀ table ∈ inventory.tables, ∀ name ∈ table.primaryKey,
    ∃ column ∈ table.columns, column.name = name

section

variable {source target : SchemaInventory} {name parent : String}

theorem SchemaInventory.Reported.eq_of_name_eq (h : source.Reported) {left right : TableInventory}
    (hleft : left ∈ source.tables) (hright : right ∈ source.tables)
    (hname : left.name = right.name) : left = right :=
  List.inj_on_of_nodup_map h.nodup hleft hright hname

theorem CleanTable.mem_baseTables (h : CleanTable source target name) :
    name ∈ baseTables source := by
  obtain ⟨table, htable, htype, hname, -⟩ := h
  exact BinlogCdc.mem_baseTables.mpr ⟨table, htable, htype, hname⟩

/-- A base table that is not excluded has no reason of its own. -/
theorem cleanTable_of_not_excluded (hbase : name ∈ baseTables source)
    (h : ¬ CatalogExcluded source target name) : CleanTable source target name := by
  obtain ⟨table, htable, htype, rfl⟩ := mem_baseTables.mp hbase
  refine ⟨table, htable, htype, rfl, ?_⟩
  intro hreason
  exact h (.own table htable htype hreason)

/-- The parents of a base table that is not excluded are such tables too. -/
theorem not_excluded_of_localEdge (hbase : name ∈ baseTables source)
    (h : ¬ CatalogExcluded source target name) (hedge : LocalEdge source target name parent) :
    parent ∈ baseTables source ∧ ¬ CatalogExcluded source target parent := by
  have hdependency : Dependency source target name parent := ⟨hbase, hedge⟩
  constructor
  · by_contra hparent
    exact h (.missing hdependency hparent)
  · intro hparent
    exact h (.inherited hdependency hparent)

/-- An excluded table is not clean, or it reaches a table that is not. -/
theorem not_clean_of_excluded (hsource : source.Reported)
    (h : CatalogExcluded source target name) :
    ¬ (CleanTable source target name ∧ ∀ ancestor,
      Relation.TransGen (LocalEdge source target) name ancestor →
        CleanTable source target ancestor) := by
  rintro ⟨hclean, hancestors⟩
  induction h with
  | own table htable htype hreason =>
    obtain ⟨other, hother, -, hname, hnone⟩ := hclean
    obtain rfl := hsource.eq_of_name_eq hother htable hname
    exact hnone hreason
  | missing hdependency hparent =>
    have hreach := hancestors _ (Relation.TransGen.single hdependency.2)
    exact hparent hreach.mem_baseTables
  | inherited hdependency _ ih =>
    apply ih
    · exact hancestors _ (Relation.TransGen.single hdependency.2)
    · intro ancestor hreach
      exact hancestors ancestor (Relation.TransGen.head hdependency.2 hreach)

/-- The base tables that are not excluded are those that reach only clean tables. -/
theorem not_excluded_iff (hsource : source.Reported) :
    name ∈ baseTables source ∧ ¬ CatalogExcluded source target name ↔
      CleanTable source target name ∧ ∀ ancestor,
        Relation.TransGen (LocalEdge source target) name ancestor →
          CleanTable source target ancestor := by
  constructor
  · rintro ⟨hbase, hnot⟩
    refine ⟨cleanTable_of_not_excluded hbase hnot, ?_⟩
    intro ancestor hreach
    have hends : ancestor ∈ baseTables source ∧ ¬ CatalogExcluded source target ancestor := by
      induction hreach with
      | single hedge => exact not_excluded_of_localEdge hbase hnot hedge
      | tail _ hedge ih => exact not_excluded_of_localEdge ih.1 ih.2 hedge
    exact cleanTable_of_not_excluded hends.1 hends.2
  · intro hclean
    exact ⟨hclean.1.mem_baseTables, fun hexcluded => not_clean_of_excluded hsource hexcluded hclean⟩

/-- A catalog admits the base tables that are not excluded. -/
theorem catalogAdmits_iff (hsource : source.Reported) :
    CatalogAdmits source target name ↔
      name ∈ baseTables source ∧ ¬ CatalogExcluded source target name := by
  constructor
  · rintro ⟨hclean, hparents⟩
    have hbase := CleanTable.mem_baseTables hclean
    refine ⟨hbase, fun hexcluded => ?_⟩
    apply not_clean_of_excluded hsource hexcluded
    refine ⟨hclean, fun ancestor hreach => ?_⟩
    obtain ⟨parent, hedge, hrest⟩ := Relation.TransGen.head'_iff.mp hreach
    have hparent := (not_excluded_iff hsource).mp (hparents parent ⟨hbase, hedge⟩)
    rcases Relation.reflTransGen_iff_eq_or_transGen.mp hrest with rfl | hrest
    · exact hparent.1
    · exact hparent.2 ancestor hrest
  · rintro ⟨hbase, hnot⟩
    refine ⟨cleanTable_of_not_excluded hbase hnot, fun parent hdependency => ?_⟩
    exact not_excluded_of_localEdge hbase hnot hdependency.2

end

/-! ## The excluded tables are listed once -/

theorem classifyTables_nodup {inventory target : SchemaInventory}
    {estimatedRows : String → Option Nat} {crossSchemaTables : List String}
    {tables : List TableInventory} {c c' : Classified}
    (hc : (c.excluded.map Prod.fst).Nodup)
    (h : classifyTables inventory target estimatedRows crossSchemaTables tables c = some c') :
    (c'.excluded.map Prod.fst).Nodup := by
  induction tables generalizing c with
  | nil =>
    cases h
    exact hc
  | cons table tables ih =>
    rw [classifyTables] at h
    split at h
    case isTrue => exact ih hc h
    case isFalse =>
      split at h
      case h_1 =>
        rw [Option.bind_eq_bind, Option.bind_eq_some_iff] at h
        obtain ⟨entry, -, h⟩ := h
        exact ih (c := { c with candidates := insertEntry table.name entry c.candidates }) hc h
      case h_2 => exact ih (nodup_insertEntry hc) h

theorem excludeDependents_nodup {c : Classified} (names : List String)
    (hc : (c.excluded.map Prod.fst).Nodup) :
    ((excludeDependents c names).1.excluded.map Prod.fst).Nodup := by
  induction names generalizing c with
  | nil => exact hc
  | cons name names ih =>
    rw [excludeDependents]
    exact ih (nodup_insertEntry hc)

theorem propagateLoop_nodup (inventory : SchemaInventory) (fuel : Nat) {c : Classified}
    (hc : (c.excluded.map Prod.fst).Nodup) :
    ((propagateLoop inventory fuel c).excluded.map Prod.fst).Nodup := by
  induction fuel generalizing c with
  | zero => exact hc
  | succ fuel ih =>
    have hpass := excludeDependents_nodup (dependentTables inventory c.excluded) hc
    rw [propagateLoop]
    split
    case h_1 heq =>
      rw [heq] at hpass
      exact ih hpass
    case h_2 heq =>
      rw [heq] at hpass
      exact hpass

/-! ## The loop ends -/

/-- With fuel enough the loop stops by itself: more fuel changes nothing. -/
theorem propagateLoop_eq (inventory : SchemaInventory) {fuel more : Nat} {c : Classified}
    (hfuel : (unmarkedTables inventory c).length < fuel) (hmore : fuel ≤ more) :
    propagateLoop inventory more c = propagateLoop inventory fuel c := by
  induction fuel generalizing more c with
  | zero => omega
  | succ fuel ih =>
    obtain ⟨more, rfl⟩ : ∃ less, more = less + 1 := ⟨more - 1, by omega⟩
    rw [propagateLoop, propagateLoop]
    cases hrun : excludeDependents c (dependentTables inventory c.excluded) with
    | mk c' changed =>
      cases changed with
      | false => rfl
      | true =>
        have hlt := unmarkedTables_lt hrun rfl
        dsimp only
        exact ih (by omega) (by omega)

theorem propagateLoop_stable (inventory : SchemaInventory) (c : Classified) {fuel : Nat}
    (hfuel : (tableDependencies inventory).length < fuel) :
    propagateLoop inventory fuel c = propagateNonSyncableDependencies inventory c :=
  propagateLoop_eq inventory (Nat.lt_succ_of_le (List.length_filter_le _ _)) hfuel

/-! ## There are catalogs -/

theorem exists_primaryKeyOrdering {table : TableInventory} {names : List String}
    (h : ∀ name ∈ names, ∃ column ∈ table.columns, column.name = name) :
    ∃ orderings, names.mapM (primaryKeyColumnOrdering table) = some orderings := by
  induction names with
  | nil => exact ⟨[], rfl⟩
  | cons name names ih =>
    obtain ⟨column, hcolumn, hname⟩ := h name List.mem_cons_self
    obtain ⟨orderings, hrest⟩ := ih fun other hother => h other (List.mem_cons_of_mem name hother)
    have hfind : (table.columns.find? fun column => column.name == name).isSome = true :=
      List.find?_isSome.mpr ⟨column, hcolumn, beq_iff_eq.mpr hname⟩
    obtain ⟨found, hfound⟩ := Option.isSome_iff_exists.mp hfind
    simp [primaryKeyColumnOrdering, hfound, hrest]

theorem exists_classifyTables {inventory target : SchemaInventory}
    {estimatedRows : String → Option Nat} {crossSchemaTables : List String}
    {tables : List TableInventory} (c : Classified)
    (h : ∀ table ∈ tables, ∀ name ∈ table.primaryKey,
      ∃ column ∈ table.columns, column.name = name) :
    ∃ c', classifyTables inventory target estimatedRows crossSchemaTables tables c = some c' := by
  induction tables generalizing c with
  | nil => exact ⟨c, rfl⟩
  | cons table tables ih =>
    have hrest := fun other hother => h other (List.mem_cons_of_mem table hother)
    rw [classifyTables]
    split
    case isTrue => exact ih c hrest
    case isFalse =>
      split
      case h_1 =>
        obtain ⟨orderings, hordering⟩ := exists_primaryKeyOrdering (h table List.mem_cons_self)
        rw [syncableEntry, primaryKeyOrderingFromInventory, hordering]
        exact ih _ hrest
      case h_2 => exact ih _ hrest

/-! ## The partition -/

/-- What the two lists are. -/
structure CatalogPartition (source target : SchemaInventory) (catalogs : Catalogs) : Prop where
  /-- Every base table is once in one of the lists. -/
  lists : (catalogs.syncable.map SyncableTableEntry.name ++
    catalogs.nonSyncable.map NonSyncableTableEntry.name).Perm (baseTables source)
  /-- The tables that can be synced reach only clean tables. -/
  syncable : ∀ name, name ∈ catalogs.syncable.map SyncableTableEntry.name ↔
    CleanTable source target name ∧ ∀ ancestor,
      Relation.TransGen (LocalEdge source target) name ancestor → CleanTable source target ancestor
  /-- The parents of a table that can be synced can be synced. -/
  parents : ∀ entry ∈ catalogs.syncable, ∀ parent ∈ entry.parentDependencies,
    parent ∈ catalogs.syncable.map SyncableTableEntry.name

/-- The names of a schema are reported once, and so are those of its base tables. -/
theorem SchemaInventory.Reported.nodup_baseTables {inventory : SchemaInventory}
    (h : inventory.Reported) : (baseTables inventory).Nodup :=
  h.nodup.sublist (List.filter_sublist.map _)

/-- The lists at the end of the propagation split the base tables. -/
theorem ClassifiedTables.perm_baseTables {source target : SchemaInventory} {final : Classified}
    (h : ClassifiedTables source target final) (hsource : source.Reported)
    (hexcluded : (final.excluded.map Prod.fst).Nodup) :
    (final.candidates.map Prod.fst ++ final.excluded.map Prod.fst).Perm (baseTables source) := by
  have hdisjoint : List.Disjoint (final.candidates.map Prod.fst) (final.excluded.map Prod.fst) := by
    intro name hcandidate hname
    have hadmitted := (catalogAdmits_iff hsource).mp ((h.admitted name).mp hcandidate)
    exact hadmitted.2 ((h.excluded name).mp hname)
  rw [List.perm_ext_iff_of_nodup (h.nodup.append hexcluded hdisjoint) hsource.nodup_baseTables]
  intro name
  rw [List.mem_append, h.admitted, h.excluded, catalogAdmits_iff hsource]
  constructor
  · rintro (hadmitted | hname)
    · exact hadmitted.1
    · cases hname with
      | own table htable htype _ => exact mem_baseTables.mpr ⟨table, htable, htype, rfl⟩
      | missing hdependency _ => exact hdependency.1
      | inherited hdependency _ => exact hdependency.1
  · intro hbase
    by_cases hname : CatalogExcluded source target name
    · exact Or.inr hname
    · exact Or.inl ⟨hbase, hname⟩

theorem sortedSyncableEntries_names (candidates : List (String × SyncableTableEntry)) :
    ((sortedSyncableEntries candidates).map SyncableTableEntry.name).Perm
      ((candidates.map Prod.snd).map SyncableTableEntry.name) :=
  (List.perm_insertionSort _ _).map _

theorem sortedNonSyncableEntries_names (excluded : List (String × List NonSyncableReason))
    (estimatedRows : String → Option Nat) :
    ((sortedNonSyncableEntries excluded estimatedRows).map NonSyncableTableEntry.name).Perm
      (excluded.map Prod.fst) := by
  have hsorted := (List.perm_insertionSort (fun a b : NonSyncableTableEntry =>
    toLex (a.estimatedSourceRows, a.name) ≤ toLex (b.estimatedSourceRows, b.name))
    (excluded.map fun entry => ⟨entry.1, (estimatedRows entry.1).getD 0, entry.2⟩)).map
    NonSyncableTableEntry.name
  rw [List.map_map] at hsorted
  exact hsorted

/-- The two lists split the base tables of the source. A table can be synced exactly when all
tables it reaches are clean, and so can then all of its parents. The propagation ends by itself. -/
theorem buildCatalogs_partition {source : SchemaInventory} (hsource : source.Reported)
    (target : SchemaInventory) (estimatedRows : String → Option Nat) :
    (∃ catalogs, buildCatalogs source target estimatedRows = some catalogs ∧
      CatalogPartition source target catalogs) ∧
    ∀ classified fuel,
      (tableDependencies (dependencyInventory source target).1).length < fuel →
        propagateLoop (dependencyInventory source target).1 fuel classified =
          propagateNonSyncableDependencies (dependencyInventory source target).1 classified := by
  refine ⟨?_, fun classified fuel hfuel => propagateLoop_stable _ classified hfuel⟩
  obtain ⟨classified, hclassified⟩ : ∃ classified,
      classifySourceTables (dependencyInventory source target).1 target estimatedRows
        (dependencyInventory source target).2 = some classified :=
    exists_classifyTables _ hsource.keyColumns
  have hfinal := classifiedTables hclassified
  have hexcluded : ((propagateNonSyncableDependencies (dependencyInventory source target).1
      classified).excluded.map Prod.fst).Nodup :=
    propagateLoop_nodup _ _ (classifyTables_nodup (c := ⟨[], []⟩) List.nodup_nil hclassified)
  have hbuilt : buildCatalogs source target estimatedRows = some
      ⟨sortedSyncableEntries (propagateNonSyncableDependencies
          (dependencyInventory source target).1 classified).candidates,
        sortedNonSyncableEntries (propagateNonSyncableDependencies
          (dependencyInventory source target).1 classified).excluded estimatedRows⟩ := by
    unfold buildCatalogs
    dsimp only
    rw [hclassified]
    rfl
  have hcataloged := buildCatalogs_spec hbuilt
  refine ⟨_, hbuilt, ?_, fun name => ?_, fun entry hentry parent hparent => ?_⟩
  · refine ((sortedSyncableEntries_names _).append (sortedNonSyncableEntries_names _ _)).trans ?_
    rw [hfinal.map_name]
    exact hfinal.perm_baseTables hsource hexcluded
  · rw [hcataloged.admitted, catalogAdmits_iff hsource, not_excluded_iff hsource]
  · rw [hcataloged.admitted, catalogAdmits_iff hsource]
    have hdependency := (hcataloged.parents entry hentry parent).mp hparent
    have hadmits := (hcataloged.admitted entry.name).mp (List.mem_map_of_mem hentry)
    exact hadmits.2 parent hdependency

/-- A base table with one column. -/
def oneColumnTable (name : String) (primaryKey : List String) : TableInventory where
  name := name
  tableType := "BASE TABLE"
  collation := some "utf8mb4_general_ci"
  primaryKey := primaryKey
  columns := [⟨"id", "int", "int", false, none, none, none⟩]

/-- Orders of users and links to notes, where notes have no primary key. -/
def linkedInventory : SchemaInventory where
  schema := "shop"
  tables := [oneColumnTable "users" ["id"], oneColumnTable "orders" ["id"],
    oneColumnTable "notes" [], oneColumnTable "links" ["id"]]
  foreignKeys := [⟨"orders", "user", ["id"], "shop", "users", ["id"]⟩,
    ⟨"links", "note", ["id"], "shop", "notes", ["id"]⟩]

theorem buildCatalogs_partition_linked :
    ∃ catalogs, buildCatalogs linkedInventory linkedInventory (fun _ => none) = some catalogs ∧
      CatalogPartition linkedInventory linkedInventory catalogs ∧
      catalogs.syncable.map SyncableTableEntry.name = ["orders", "users"] ∧
      catalogs.nonSyncable.map NonSyncableTableEntry.name = ["links", "notes"] := by
  have hsource : linkedInventory.Reported := by
    refine ⟨by decide, ?_⟩
    decide
  obtain ⟨⟨catalogs, hbuilt, hpartition⟩, -⟩ :=
    buildCatalogs_partition hsource linkedInventory fun _ => none
  have hlists : (buildCatalogs linkedInventory linkedInventory fun _ => none).map
      (fun catalogs => (catalogs.syncable.map SyncableTableEntry.name,
        catalogs.nonSyncable.map NonSyncableTableEntry.name)) =
      some (["orders", "users"], ["links", "notes"]) := by
    decide +kernel
  rw [hbuilt, Option.map_some, Option.some.injEq, Prod.mk.injEq] at hlists
  exact ⟨catalogs, hbuilt, hpartition, hlists.1, hlists.2⟩

end BinlogCdc
