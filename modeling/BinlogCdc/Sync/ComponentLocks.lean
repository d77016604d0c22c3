import BinlogCdc.Core.Worklist
import BinlogCdc.Sync.TableCatalog

/-!
# Locks of foreign key components

A worker locks the selected tables that foreign keys connect to its table, in either direction.
Two workers lock the same tables or no common one.
-/

namespace BinlogCdc

/-! ## The component of a table -/

/-- A foreign key within the schema makes its two tables neighbours. -/
def addFkNeighbors (schema : String) (neighbors : String → List String)
    (key : ForeignKeyInventory) : String → List String :=
  if key.referencedSchema ≠ schema then neighbors
  else
    let neighbors := Function.update neighbors key.table
      (insertSorted key.referencedTable (neighbors key.table))
    Function.update neighbors key.referencedTable
      (insertSorted key.table (neighbors key.referencedTable))

/-- The tables next to each table. -/
def buildFkNeighbors (inventory : SchemaInventory) : String → List String :=
  inventory.foreignKeys.foldl (addFkNeighbors inventory.schema) fun _ => []

/-- The set of the selected tables. -/
def selectedSet (selected : List String) : List String :=
  selected.foldl (fun set table => insertSorted table set) []

/-- The selected part of the component that a table lies in. -/
def selectedFkComponent (inventory : SchemaInventory) (selected : List String) (table : String) :
    Except String (List String) :=
  let selected := selectedSet selected
  if table ∉ selected then .error ("table " ++ table ++ " is not selected")
  else .ok (visit selected (buildFkNeighbors inventory) table)

/-- The first table that was seen before. -/
def firstDuplicate : List String → List String → Option String
  | _, [] => none
  | seen, table :: tables =>
    if table ∈ seen then some table else firstDuplicate (table :: seen) tables

/-- The statement that locks the tables of a component. -/
def buildComponentLockSql (database : String) (component : List String)
    (quoteIdent : String → String) : Except String String :=
  if component = [] then .error "cannot lock an empty component"
  else
    match firstDuplicate [] component with
    | some table => .error ("duplicate lock table " ++ table)
    | none =>
      let locks := component.map fun table =>
        quoteIdent database ++ "." ++ quoteIdent table ++ " WRITE"
      .ok ("LOCK TABLES " ++ String.intercalate ", " locks)

/-! ## What connects two tables -/

/-- A foreign key within the schema connects the two tables. -/
def FkLinked (inventory : SchemaInventory) (table other : String) : Prop :=
  ∃ key ∈ inventory.foreignKeys, key.referencedSchema = inventory.schema ∧
    ((key.table = table ∧ key.referencedTable = other) ∨
      (key.table = other ∧ key.referencedTable = table))

/-- Two selected tables that a foreign key within the schema connects. -/
def SelectedLink (inventory : SchemaInventory) (selected : List String) (table other : String) :
    Prop :=
  table ∈ selected ∧ other ∈ selected ∧ FkLinked inventory table other

variable {inventory : SchemaInventory} {selected component : List String} {table other : String}

theorem FkLinked.symm (h : FkLinked inventory table other) : FkLinked inventory other table := by
  obtain ⟨key, hkey, hschema, hends⟩ := h
  exact ⟨key, hkey, hschema, hends.symm⟩

theorem mem_addFkNeighbors {schema : String} {neighbors : String → List String}
    {key : ForeignKeyInventory} :
    other ∈ addFkNeighbors schema neighbors key table ↔
      other ∈ neighbors table ∨ (key.referencedSchema = schema ∧
        ((key.table = table ∧ key.referencedTable = other) ∨
          (key.table = other ∧ key.referencedTable = table))) := by
  unfold addFkNeighbors
  split
  case isTrue hschema => simp [hschema]
  case isFalse hschema =>
    simp only [not_not.mp hschema, true_and, Function.update_apply]
    split
    case isTrue hparent =>
      subst hparent
      split
      case isTrue hself =>
        simp only [mem_insertSorted, hself, true_and, and_true]
        tauto
      case isFalse hother =>
        simp only [mem_insertSorted, Ne.symm hother, false_and, and_true, false_or]
        tauto
    case isFalse hparent =>
      split
      case isTrue hchild =>
        subst hchild
        simp only [mem_insertSorted, Ne.symm hparent, and_false, true_and, or_false]
        tauto
      case isFalse hchild => simp [Ne.symm hparent, Ne.symm hchild]

/-- The neighbours are the linked tables. -/
theorem mem_buildFkNeighbors :
    other ∈ buildFkNeighbors inventory table ↔ FkLinked inventory table other := by
  have hfold : ∀ (keys : List ForeignKeyInventory) (neighbors : String → List String),
      other ∈ keys.foldl (addFkNeighbors inventory.schema) neighbors table ↔
        other ∈ neighbors table ∨ ∃ key ∈ keys, key.referencedSchema = inventory.schema ∧
          ((key.table = table ∧ key.referencedTable = other) ∨
            (key.table = other ∧ key.referencedTable = table)) := by
    intro keys
    induction keys with
    | nil => simp
    | cons key keys ih =>
      intro neighbors
      rw [List.foldl_cons, ih, mem_addFkNeighbors, or_assoc]
      simp only [List.mem_cons, exists_eq_or_imp]
  refine (hfold inventory.foreignKeys fun _ => []).trans ?_
  simp [FkLinked]

theorem mem_selectedSet : table ∈ selectedSet selected ↔ table ∈ selected := by
  have h := mem_foldl_insertSorted id selected [] table
  simpa [selectedSet] using h

/-- The component of a table that is not selected is refused. -/
theorem selectedFkComponent_of_not_mem (h : table ∉ selected) :
    selectedFkComponent inventory selected table =
      .error ("table " ++ table ++ " is not selected") := by
  have hset : table ∉ selectedSet selected := mt mem_selectedSet.mp h
  rw [selectedFkComponent, if_pos hset]

/-- The component of a selected table is what the worklist visits. -/
theorem selectedFkComponent_of_mem (h : table ∈ selected) :
    selectedFkComponent inventory selected table =
      .ok (visit (selectedSet selected)
        (buildFkNeighbors inventory) table) := by
  have hset : table ∈ selectedSet selected := mem_selectedSet.mpr h
  rw [selectedFkComponent, if_neg (not_not.mpr hset)]

/-- The component of a selected table has the tables that links between selected tables lead
to. -/
theorem selectedFkComponent_spec (h : table ∈ selected) :
    ∃ component, selectedFkComponent inventory selected table = .ok component ∧
      component.Pairwise (· < ·) ∧ ∀ other, other ∈ component ↔
        Relation.ReflTransGen (SelectedLink inventory selected) table other := by
  have hset : table ∈ selectedSet selected := mem_selectedSet.mpr h
  obtain ⟨hsorted, hmem⟩ := @visit_spec _ _ _ (buildFkNeighbors inventory) _ hset
  refine ⟨_, selectedFkComponent_of_mem h, hsorted, fun other => ?_⟩
  rw [hmem, Reaches]
  have hlink : DependsOn (selectedSet selected)
      (buildFkNeighbors inventory) = SelectedLink inventory selected := by
    funext first second
    simp [DependsOn, SelectedLink, mem_selectedSet, mem_buildFkNeighbors]
  rw [hlink]

theorem firstDuplicate_eq_none {seen tables : List String} (hnodup : tables.Nodup)
    (hseen : ∀ table ∈ tables, table ∉ seen) : firstDuplicate seen tables = none := by
  induction tables generalizing seen with
  | nil => rfl
  | cons first tables ih =>
    rw [firstDuplicate, if_neg (hseen first List.mem_cons_self)]
    refine ih (List.nodup_cons.mp hnodup).2 fun table htable => ?_
    rw [List.mem_cons, not_or]
    refine ⟨?_, hseen table (List.mem_cons_of_mem first htable)⟩
    rintro rfl
    exact (List.nodup_cons.mp hnodup).1 htable

/-- Different tables, at least one of them, are locked. -/
theorem buildComponentLockSql_of_nodup {database : String} {quoteIdent : String → String}
    (hcomponent : component ≠ []) (hnodup : component.Nodup) :
    buildComponentLockSql database component quoteIdent =
      .ok ("LOCK TABLES " ++ String.intercalate ", " (component.map fun table =>
        quoteIdent database ++ "." ++ quoteIdent table ++ " WRITE")) := by
  rw [buildComponentLockSql, if_neg hcomponent,
    firstDuplicate_eq_none hnodup fun _ _ => List.not_mem_nil]

/-- The component of a selected table has exactly the selected tables that foreign keys within the
schema connect to it through selected tables, in order and without duplicates; other tables have
none. The components of two selected tables are the same list or have no common table, and every
component can be locked. -/
theorem selected_fk_component_correct (inventory : SchemaInventory) (selected : List String) :
    (∀ table, table ∉ selected → selectedFkComponent inventory selected table =
      .error ("table " ++ table ++ " is not selected")) ∧
    (∀ table ∈ selected, ∃ component,
      selectedFkComponent inventory selected table = .ok component ∧
      component.Pairwise (· < ·) ∧ component.Nodup ∧
      (∀ other, other ∈ component ↔
        Relation.ReflTransGen (SelectedLink inventory selected) table other) ∧
      ∀ database quoteIdent, buildComponentLockSql database component quoteIdent =
        .ok ("LOCK TABLES " ++ String.intercalate ", " (component.map fun table =>
          quoteIdent database ++ "." ++ quoteIdent table ++ " WRITE"))) ∧
    ∀ table ∈ selected, ∀ other ∈ selected, ∀ component component',
      selectedFkComponent inventory selected table = .ok component →
      selectedFkComponent inventory selected other = .ok component' →
      component = component' ∨ component.Disjoint component' := by
  refine ⟨fun table h => selectedFkComponent_of_not_mem h, fun table htable => ?_, ?_⟩
  · obtain ⟨component, hcomponent, hsorted, hmem⟩ :=
      @selectedFkComponent_spec inventory _ _ htable
    refine ⟨component, hcomponent, hsorted, hsorted.nodup, hmem, fun database quoteIdent => ?_⟩
    exact buildComponentLockSql_of_nodup (List.ne_nil_of_mem ((hmem table).mpr .refl))
      hsorted.nodup
  · intro table htable other hother component component' h h'
    rw [selectedFkComponent_of_mem htable] at h
    rw [selectedFkComponent_of_mem hother] at h'
    obtain rfl := Except.ok.inj h
    obtain rfl := Except.ok.inj h'
    refine visit_eq_or_disjoint (fun node next hnext => ?_)
      (mem_selectedSet.mpr htable) (mem_selectedSet.mpr hother)
    exact mem_buildFkNeighbors.mpr (mem_buildFkNeighbors.mp hnext).symm

/-- A cycle with a self edge and an edge out of the selection. -/
example : selectedFkComponent
    ⟨"catalog", [], [("a", "b"), ("b", "c"), ("c", "a"), ("a", "a"), ("c", "d")].map
      fun (child, parent) => ⟨child, child ++ parent, [parent], "catalog", parent, ["id"]⟩⟩
    ["e", "c", "b", "a"] "b" = .ok ["a", "b", "c"] := by decide +kernel

end BinlogCdc
