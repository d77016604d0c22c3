import BinlogCdc.Core.BatchOrder

/-!
# The order of dependent tables

The selected tables are scheduled in batches along their foreign keys, parents first for
rows that are inserted and children first for rows that are deleted. A plan exists exactly
when no table is selected twice, none references itself and the foreign keys have no
cycle.
-/

namespace BinlogCdc

/-- A foreign key of an inventory. -/
structure ForeignKeyInventory where
  table : String
  name : String
  columns : List String
  referencedSchema : String
  referencedTable : String
  referencedColumns : List String
deriving DecidableEq, Repr

/-- Which end of a foreign key comes first. -/
inductive Direction where
  | parentFirst
  | childFirst
deriving DecidableEq, Repr

/-- Why there is no plan. -/
inductive DependencyOrderError where
  | zeroParallelism
  | duplicateTable (table : String)
  | selfDependency (table : String)
  | cycle
deriving DecidableEq, Repr

/-- The selected tables as a set. -/
def collectTables : List String → List String → Except DependencyOrderError (List String)
  | tables, [] => .ok tables
  | tables, table :: selected =>
    if table ∈ tables then .error (.duplicateTable table)
    else collectTables (insertSorted table tables) selected

/-- The ends of a foreign key in the order of the direction. -/
def Direction.ends : Direction → ForeignKeyInventory → String × String
  | .parentFirst, key => (key.referencedTable, key.table)
  | .childFirst, key => (key.table, key.referencedTable)

/-- Add the edges of the foreign keys between selected tables. -/
def addDependencies (tables : List String) (schema : String) (direction : Direction) :
    (String → List String) → List ForeignKeyInventory →
      Except DependencyOrderError (String → List String)
  | successors, [] => .ok successors
  | successors, key :: foreignKeys =>
    if key.referencedSchema ≠ schema then
      addDependencies tables schema direction successors foreignKeys
    else if key.table ∉ tables ∨ key.referencedTable ∉ tables then
      addDependencies tables schema direction successors foreignKeys
    else if key.table = key.referencedTable then .error (.selfDependency key.table)
    else
      let ends := direction.ends key
      addDependencies tables schema direction
        (Function.update successors ends.1 (insertSorted ends.2 (successors ends.1))) foreignKeys

/-- The batches of the tables, if all of them can be scheduled. -/
def scheduleBatches (tables : List String) (successors : String → List String)
    (maxParallelism : Nat) : Except DependencyOrderError (List (List String)) :=
  let batches := schedule tables successors maxParallelism
  if batches.flatten.length ≠ tables.length then .error .cycle else .ok batches

/-- The batches of the selected tables. Each batch must finish before the next starts. -/
def planDependencyBatches (selected : List String) (foreignKeys : List ForeignKeyInventory)
    (schema : String) (direction : Direction) (maxParallelism : Nat) :
    Except DependencyOrderError (List (List String)) := do
  if maxParallelism = 0 then throw .zeroParallelism
  let tables ← collectTables [] selected
  let successors ← addDependencies tables schema direction (fun _ => []) foreignKeys
  scheduleBatches tables successors maxParallelism

/-! ## The edges -/

/-- A foreign key between two of the tables. -/
def ForeignKeyInventory.Between (key : ForeignKeyInventory) (schema : String)
    (tables : List String) : Prop :=
  key.referencedSchema = schema ∧ key.table ∈ tables ∧ key.referencedTable ∈ tables

/-- The set of the selected tables. -/
theorem collectTables_ok {tables selected tables' : List String} (hnodup : tables.Nodup)
    (h : collectTables tables selected = .ok tables') :
    tables'.Nodup ∧ ∀ table, table ∈ tables' ↔ table ∈ tables ∨ table ∈ selected := by
  induction selected generalizing tables with
  | nil =>
    cases h
    simp [hnodup]
  | cons table selected ih =>
    rw [collectTables] at h
    split at h
    case isTrue => cases h
    case isFalse =>
      obtain ⟨hnodup', hmem⟩ := ih (nodup_insertSorted hnodup) h
      refine ⟨hnodup', fun t => ?_⟩
      rw [hmem, mem_insertSorted, List.mem_cons]
      tauto

/-- Different tables can be collected. -/
theorem collectTables_of_nodup {tables selected : List String} (hnodup : selected.Nodup)
    (hout : ∀ table ∈ selected, table ∉ tables) :
    ∃ tables', collectTables tables selected = .ok tables' := by
  induction selected generalizing tables with
  | nil => exact ⟨tables, rfl⟩
  | cons table selected ih =>
    obtain ⟨htable, hnodup⟩ := List.nodup_cons.mp hnodup
    rw [collectTables, if_neg (hout table List.mem_cons_self)]
    refine ih hnodup fun t ht hin => ?_
    rcases mem_insertSorted.mp hin with rfl | hin
    · exact htable ht
    · exact hout t (List.mem_cons_of_mem _ ht) hin

variable {tables : List String} {schema : String} {direction : Direction}

/-- The edges that are added are those of the foreign keys between the tables. -/
theorem addDependencies_ok {foreignKeys : List ForeignKeyInventory}
    {successors successors' : String → List String} (hnodup : ∀ table, (successors table).Nodup)
    (h : addDependencies tables schema direction successors foreignKeys = .ok successors') :
    (∀ table, (successors' table).Nodup) ∧
      ∀ before after, after ∈ successors' before ↔ after ∈ successors before ∨
        ∃ key ∈ foreignKeys, key.Between schema tables ∧ direction.ends key = (before, after) := by
  induction foreignKeys generalizing successors with
  | nil =>
    cases h
    simp [hnodup]
  | cons key foreignKeys ih =>
    rw [addDependencies] at h
    split at h
    case isTrue hschema =>
      obtain ⟨hnodup', hmem⟩ := ih hnodup h
      refine ⟨hnodup', fun before after => ?_⟩
      have hnot : ¬ key.Between schema tables := fun hkey => hschema hkey.1
      simp [hmem, hnot]
    case isFalse hschema =>
      split at h
      case isTrue hout =>
        obtain ⟨hnodup', hmem⟩ := ih hnodup h
        refine ⟨hnodup', fun before after => ?_⟩
        have hnot : ¬ key.Between schema tables := fun hkey =>
          hout.elim (fun h => h hkey.2.1) fun h => h hkey.2.2
        simp [hmem, hnot]
      case isFalse hin =>
        split at h
        case isTrue => cases h
        case isFalse hself =>
          rw [not_or, not_not, not_not] at hin
          have hkey : key.Between schema tables := ⟨not_not.mp hschema, hin.1, hin.2⟩
          have hupdate : ∀ table, (Function.update successors (direction.ends key).1 (insertSorted
              (direction.ends key).2 (successors (direction.ends key).1)) table).Nodup := by
            intro table
            rw [Function.update_apply]
            split
            case isTrue => exact nodup_insertSorted (hnodup _)
            case isFalse => exact hnodup table
          obtain ⟨hnodup', hmem⟩ := ih hupdate h
          refine ⟨hnodup', fun before after => ?_⟩
          rw [hmem, Function.update_apply]
          rcases hends : direction.ends key with ⟨first, last⟩
          simp only [List.exists_mem_cons_iff, hkey, hends, Prod.mk.injEq, true_and]
          by_cases hbefore : before = first
          · subst hbefore
            rw [if_pos rfl, mem_insertSorted]
            tauto
          · rw [if_neg hbefore]
            have hne : ¬ (first = before ∧ last = after) := fun h => hbefore h.1.symm
            tauto

/-- The edges can be added when no table references itself. -/
theorem addDependencies_iff {foreignKeys : List ForeignKeyInventory}
    {successors : String → List String} :
    (∃ successors', addDependencies tables schema direction successors foreignKeys =
        .ok successors') ↔
      ∀ key ∈ foreignKeys, key.Between schema tables → key.table ≠ key.referencedTable := by
  induction foreignKeys generalizing successors with
  | nil => simp [addDependencies]
  | cons key foreignKeys ih =>
    rw [addDependencies, List.forall_mem_cons]
    split
    case isTrue hschema =>
      have hnot : ¬ key.Between schema tables := fun hkey => hschema hkey.1
      simp [ih, hnot]
    case isFalse hschema =>
      split
      case isTrue hout =>
        have hnot : ¬ key.Between schema tables := fun hkey =>
          hout.elim (fun h => h hkey.2.1) fun h => h hkey.2.2
        simp [ih, hnot]
      case isFalse hin =>
        rw [not_or, not_not, not_not] at hin
        have hkey : key.Between schema tables := ⟨not_not.mp hschema, hin.1, hin.2⟩
        split
        case isTrue hself => simp [hkey, hself]
        case isFalse hself => simp [ih, hkey, hself]

/-! ## Plans -/

/-- A foreign key of the schema leads from a table to its parent, both selected. -/
def References (foreignKeys : List ForeignKeyInventory) (schema : String) (selected : List String)
    (child parent : String) : Prop :=
  ∃ key ∈ foreignKeys, key.Between schema selected ∧ key.table = child ∧
    key.referencedTable = parent

/-- The foreign keys between the selected tables have no cycle; in particular no table references
itself. -/
def AcyclicForeignKeys (foreignKeys : List ForeignKeyInventory) (schema : String)
    (selected : List String) : Prop :=
  ∀ table, ¬ Relation.TransGen (References foreignKeys schema selected) table table

/-- Edges along or against the foreign keys have a cycle only where the foreign keys have one. -/
theorem acyclic_of_foreignKeys {foreignKeys : List ForeignKeyInventory} {schema : String}
    {selected tables : List String} {successors : String → List String} (direction : Direction)
    (hacyclic : AcyclicForeignKeys foreignKeys schema selected)
    (hedge : ∀ before after, after ∈ successors before ↔ ∃ key ∈ foreignKeys,
      key.Between schema selected ∧ direction.ends key = (before, after)) :
    Acyclic tables successors := by
  intro table hcycle
  cases direction with
  | childFirst =>
    refine hacyclic table (Relation.TransGen.mono (fun before after h => ?_) table table hcycle)
    obtain ⟨key, hkey, hin, hends⟩ := (hedge before after).mp h.2.2
    cases hends
    exact ⟨key, hkey, hin, rfl, rfl⟩
  | parentFirst =>
    have hswap := Relation.TransGen.swap table table hcycle
    refine hacyclic table (Relation.TransGen.mono (fun after before h => ?_) table table hswap)
    obtain ⟨key, hkey, hin, hends⟩ := (hedge before after).mp h.2.2
    cases hends
    exact ⟨key, hkey, hin, rfl, rfl⟩

/-- What a plan is, and when there is one. -/
theorem planDependencyBatches_spec {selected : List String} {foreignKeys : List ForeignKeyInventory}
    {schema : String} (direction : Direction) {maxParallelism : Nat} (hmax : 0 < maxParallelism)
    (hselected : selected.Nodup)
    (hacyclic : AcyclicForeignKeys foreignKeys schema selected) :
    ∃ batches, planDependencyBatches selected foreignKeys schema direction maxParallelism =
        .ok batches ∧
      batches.flatten.Nodup ∧ (∀ table, table ∈ batches.flatten ↔ table ∈ selected) ∧
      (∀ batch ∈ batches, batch ≠ [] ∧ batch.length ≤ maxParallelism) ∧
      ∀ earlier batch later, batches = earlier ++ batch :: later → ∀ table ∈ batch,
        ∀ key ∈ foreignKeys, key.Between schema selected → (direction.ends key).2 = table →
          (direction.ends key).1 ∈ earlier.flatten := by
  obtain ⟨tables, htables⟩ : ∃ tables, collectTables [] selected = .ok tables :=
    collectTables_of_nodup hselected fun _ _ h => by cases h
  obtain ⟨hnodup, hmem⟩ := collectTables_ok List.nodup_nil htables
  have hmem' : ∀ table, table ∈ tables ↔ table ∈ selected := by simp [hmem]
  have hbetween : ∀ key : ForeignKeyInventory, key.Between schema tables ↔
      key.Between schema selected := fun key => by simp [ForeignKeyInventory.Between, hmem']
  obtain ⟨successors, hsuccessors⟩ : ∃ successors, addDependencies tables schema direction
      (fun _ => []) foreignKeys = .ok successors := by
    refine addDependencies_iff.mpr fun key hkey hin he => ?_
    exact hacyclic key.table (Relation.TransGen.single
      ⟨key, hkey, (hbetween key).mp hin, rfl, he.symm⟩)
  obtain ⟨hnodups, hedges⟩ := addDependencies_ok (fun _ => List.nodup_nil) hsuccessors
  have hedge : ∀ before after, after ∈ successors before ↔ ∃ key ∈ foreignKeys,
      key.Between schema selected ∧ direction.ends key = (before, after) := by
    intro before after
    simp [hedges, hbetween]
  have hsub : ∀ before, ∀ after ∈ successors before, before ∈ tables ∧ after ∈ tables := by
    intro before after hafter
    obtain ⟨key, -, ⟨-, htable, hparent⟩, hends⟩ := (hedge before after).mp hafter
    cases direction <;> cases hends
    · exact ⟨(hmem' _).mpr hparent, (hmem' _).mpr htable⟩
    · exact ⟨(hmem' _).mpr htable, (hmem' _).mpr hparent⟩
  obtain ⟨hbatched, hexhausted⟩ := schedule_spec hnodup hnodups
    (fun before after h => (hsub before after h).2) hmax
  have hall := hexhausted.all (acyclic_of_foreignKeys direction hacyclic hedge)
  have hperm : ∀ table, table ∈ (schedule tables successors maxParallelism).flatten ↔
      table ∈ selected :=
    fun table => ⟨fun h => (hmem' table).mp (hbatched.nodes table h),
      fun h => hall table ((hmem' table).mpr h)⟩
  refine ⟨schedule tables successors maxParallelism, ?_, hbatched.nodup, hperm, hbatched.bounded, ?_⟩
  · have hlength : (schedule tables successors maxParallelism).flatten.length = tables.length :=
      le_antisymm (List.subperm_of_subset hbatched.nodup hbatched.nodes).length_le
        (List.subperm_of_subset hnodup hall).length_le
    simp [planDependencyBatches, hmax.ne', htables, hsuccessors, scheduleBatches, hlength, bind,
      Except.bind]
  · intro earlier batch later hsplit table htable key hkey hin hend
    have hafter : table ∈ successors (direction.ends key).1 :=
      (hedge _ _).mpr ⟨key, hkey, hin, by rw [← hend]⟩
    exact hbatched.inOrder earlier batch later hsplit table htable _ (hsub _ _ hafter).1 hafter

end BinlogCdc
