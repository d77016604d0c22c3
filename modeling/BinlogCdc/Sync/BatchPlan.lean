import BinlogCdc.Sync.DependencyOrder
import BinlogCdc.Core.Result

/-!
# Plans depend on the graph alone

The selected tables and the successors of each table are kept as sorted sets, so that a plan is a
function of the set of the tables and the set of the edges: neither the order of the selection nor
that of the foreign keys shows in it. A plan exists exactly when the foreign keys between the
selected tables have no cycle.
-/

namespace BinlogCdc

variable {tables selected : List String} {foreignKeys : List ForeignKeyInventory} {schema : String}
  {direction : Direction} {maxParallelism : Nat} {batches : List (List String)}

theorem collectTables_sorted {tables' : List String} (hsorted : tables.Pairwise (· < ·))
    (h : collectTables tables selected = .ok tables') : tables'.Pairwise (· < ·) := by
  induction selected generalizing tables with
  | nil =>
    obtain rfl := Except.ok.inj h
    exact hsorted
  | cons table selected ih =>
    rw [collectTables] at h
    split at h
    case isTrue => cases h
    case isFalse => exact ih (pairwise_insertSorted hsorted) h

theorem addDependencies_sorted {successors successors' : String → List String}
    (hsorted : ∀ table, (successors table).Pairwise (· < ·))
    (h : addDependencies tables schema direction successors foreignKeys = .ok successors') :
    ∀ table, (successors' table).Pairwise (· < ·) := by
  induction foreignKeys generalizing successors with
  | nil =>
    obtain rfl := Except.ok.inj h
    exact hsorted
  | cons key foreignKeys ih =>
    rw [addDependencies] at h
    split at h
    case isTrue => exact ih hsorted h
    case isFalse =>
      split at h
      case isTrue => exact ih hsorted h
      case isFalse =>
        split at h
        case isTrue => cases h
        case isFalse =>
          refine ih (fun table => ?_) h
          rw [Function.update_apply]
          split
          case isTrue => exact pairwise_insertSorted (hsorted _)
          case isFalse => exact hsorted table

/-- What a plan was made of. -/
theorem planDependencyBatches_ok
    (h : planDependencyBatches selected foreignKeys schema direction maxParallelism = .ok batches) :
    0 < maxParallelism ∧ ∃ tables successors, collectTables [] selected = .ok tables ∧
      addDependencies tables schema direction (fun _ => []) foreignKeys = .ok successors ∧
      scheduleBatches tables successors maxParallelism = .ok batches := by
  unfold planDependencyBatches at h
  split at h
  case isTrue => cases h
  case isFalse hmax =>
    obtain ⟨tables, htables, h⟩ := bind_eq_ok.mp h
    obtain ⟨successors, hsuccessors, h⟩ := bind_eq_ok.mp h
    exact ⟨Nat.pos_of_ne_zero hmax, tables, successors, htables, hsuccessors, h⟩

/-- The edges lead from selected tables to selected tables. -/
theorem between_of_ends {key : ForeignKeyInventory} (hkey : key.Between schema tables) :
    (direction.ends key).1 ∈ tables ∧ (direction.ends key).2 ∈ tables := by
  cases direction with
  | parentFirst => exact ⟨hkey.2.2, hkey.2.1⟩
  | childFirst => exact ⟨hkey.2.1, hkey.2.2⟩

/-- A plan of foreign keys with a cycle would put a table before itself. -/
theorem acyclic_of_planDependencyBatches
    (h : planDependencyBatches selected foreignKeys schema direction maxParallelism = .ok batches) :
    AcyclicForeignKeys foreignKeys schema selected := by
  obtain ⟨hmax, tables, successors, htables, hsuccessors, hschedule⟩ := planDependencyBatches_ok h
  obtain ⟨hnodup, hmem⟩ := collectTables_ok List.nodup_nil htables
  obtain ⟨hnodups, hedges⟩ := addDependencies_ok (fun _ => List.nodup_nil) hsuccessors
  have hsub : ∀ before, ∀ after ∈ successors before, after ∈ tables := by
    intro before after hafter
    obtain hnone | ⟨key, -, hkey, hends⟩ := (hedges before after).mp hafter
    · cases hnone
    · rw [show after = (direction.ends key).2 by rw [hends]]
      exact (between_of_ends hkey).2
  obtain ⟨hbatched, -⟩ := schedule_spec hnodup hnodups hsub hmax
  have hlength : (schedule tables successors maxParallelism).flatten.length = tables.length := by
    unfold scheduleBatches at hschedule
    dsimp only at hschedule
    split at hschedule
    case isTrue => cases hschedule
    case isFalse hlength => exact not_not.mp hlength
  have hall : ∀ table ∈ tables, table ∈ (schedule tables successors maxParallelism).flatten := by
    have hperm := (List.subperm_of_subset hbatched.nodup hbatched.nodes).perm_of_length_le
      hlength.ge
    exact fun table htable => hperm.mem_iff.mpr htable
  have hacyclic := hbatched.acyclic hall
  -- A foreign key is an edge in one direction or in the other.
  have hedge : ∀ child parent, References foreignKeys schema selected child parent →
      DependsOn tables successors (direction.ends ⟨child, "", [], schema, parent, []⟩).1
        (direction.ends ⟨child, "", [], schema, parent, []⟩).2 := by
    rintro child parent ⟨key, hkey, ⟨hschema, hchild, hparent⟩, rfl, rfl⟩
    have hbetween : key.Between schema tables :=
      ⟨hschema, (hmem _).mpr (.inr hchild), (hmem _).mpr (.inr hparent)⟩
    have hends : (direction.ends key).1 ∈ tables ∧ (direction.ends key).2 ∈ tables :=
      between_of_ends hbetween
    have hsame : direction.ends ⟨key.table, "", [], schema, key.referencedTable, []⟩ =
        direction.ends key := by
      cases direction <;> rfl
    rw [hsame]
    exact ⟨hends.1, hends.2, (hedges _ _).mpr (.inr ⟨key, hkey, hbetween, rfl⟩)⟩
  intro table hcycle
  cases direction with
  | childFirst => exact hacyclic table (Relation.TransGen.mono hedge table table hcycle)
  | parentFirst =>
    have hswap := Relation.TransGen.swap table table hcycle
    refine hacyclic table (Relation.TransGen.mono (fun parent child href => ?_) table table hswap)
    exact hedge child parent href

/-- Another order of the selection and of the foreign keys gives the same plan. -/
theorem planDependencyBatches_perm {selected' : List String}
    {foreignKeys' : List ForeignKeyInventory} (hselected : selected.Perm selected')
    (hkeys : foreignKeys.Perm foreignKeys')
    (h : planDependencyBatches selected foreignKeys schema direction maxParallelism = .ok batches)
    (hnodup : selected.Nodup) :
    planDependencyBatches selected' foreignKeys' schema direction maxParallelism =
      .ok batches := by
  obtain ⟨hmax, tables, successors, htables, hsuccessors, hschedule⟩ := planDependencyBatches_ok h
  obtain ⟨tables', htables'⟩ : ∃ tables', collectTables [] selected' = .ok tables' :=
    collectTables_of_nodup (hselected.nodup_iff.mp hnodup) fun _ _ hnone => by cases hnone
  have hsame : tables' = tables := by
    refine (collectTables_sorted List.Pairwise.nil htables').eq_of_mem_iff
      (collectTables_sorted List.Pairwise.nil htables) fun table => ?_
    rw [(collectTables_ok List.nodup_nil htables').2, (collectTables_ok List.nodup_nil htables).2,
      hselected.mem_iff]
  subst hsame
  obtain ⟨successors', hsuccessors'⟩ : ∃ successors', addDependencies tables' schema direction
      (fun _ => []) foreignKeys' = .ok successors' :=
    addDependencies_iff.mpr fun key hkey =>
      addDependencies_iff.mp ⟨successors, hsuccessors⟩ key (hkeys.mem_iff.mpr hkey)
  have hedges : successors' = successors := by
    funext before
    refine (addDependencies_sorted (fun _ => List.Pairwise.nil) hsuccessors' before).eq_of_mem_iff
      (addDependencies_sorted (fun _ => List.Pairwise.nil) hsuccessors before) fun after => ?_
    rw [(addDependencies_ok (fun _ => List.nodup_nil) hsuccessors').2,
      (addDependencies_ok (fun _ => List.nodup_nil) hsuccessors).2]
    simp only [hkeys.mem_iff]
  subst hedges
  rw [planDependencyBatches, if_neg hmax.ne', htables', ok_bind, hsuccessors', ok_bind]
  exact hschedule

/-- For different tables and a positive parallelism there is a plan exactly when the foreign keys
between the tables have no cycle. A plan has every table in exactly one batch, keeps every batch
within the bound, puts the predecessor of every dependency into an earlier batch, and is the same
for every order of the tables and of the foreign keys. -/
theorem plan_dependency_batches_correct (selected : List String) (hselected : selected.Nodup)
    (foreignKeys : List ForeignKeyInventory) (schema : String) (direction : Direction)
    (maxParallelism : Nat) (hmax : 0 < maxParallelism) :
    ((∃ batches, planDependencyBatches selected foreignKeys schema direction maxParallelism =
      .ok batches) ↔ AcyclicForeignKeys foreignKeys schema selected) ∧
    ∀ batches, planDependencyBatches selected foreignKeys schema direction maxParallelism =
        .ok batches →
      (∀ table, table ∈ batches.flatten ↔ table ∈ selected) ∧ batches.flatten.Nodup ∧
      (∀ batch ∈ batches, batch.length ≤ maxParallelism) ∧
      (∀ earlier batch later, batches = earlier ++ batch :: later → ∀ table ∈ batch,
        ∀ key ∈ foreignKeys, key.Between schema selected → (direction.ends key).2 = table →
          (direction.ends key).1 ∈ earlier.flatten) ∧
      ∀ selected' foreignKeys', selected.Perm selected' → foreignKeys.Perm foreignKeys' →
        planDependencyBatches selected' foreignKeys' schema direction maxParallelism =
          .ok batches := by
  constructor
  · constructor
    · rintro ⟨batches, h⟩
      exact acyclic_of_planDependencyBatches h
    · intro hacyclic
      obtain ⟨batches, h, -⟩ := planDependencyBatches_spec direction hmax hselected hacyclic
      exact ⟨batches, h⟩
  · intro batches h
    obtain ⟨batches', h', hnodup, hmem, hbounded, horder⟩ :=
      planDependencyBatches_spec direction hmax hselected (acyclic_of_planDependencyBatches h)
    obtain rfl : batches' = batches := Except.ok.inj (h'.symm.trans h)
    exact ⟨hmem, hnodup, fun batch hbatch => (hbounded batch hbatch).2, horder,
      fun _ _ hperm hkeys => planDependencyBatches_perm hperm hkeys h hselected⟩

/-- A diamond of four tables with two workers. -/
def diamondKeys : List ForeignKeyInventory :=
  [("left", "root"), ("right", "root"), ("leaf", "left"), ("leaf", "right")].map
    fun (child, parent) => ⟨child, child ++ parent, [parent], "shop", parent, ["id"]⟩

theorem plan_dependency_batches_diamond :
    planDependencyBatches ["leaf", "left", "right", "root"] diamondKeys "shop" .parentFirst 2 =
        .ok [["root"], ["left", "right"], ["leaf"]] ∧
      planDependencyBatches ["root", "right", "leaf", "left"] diamondKeys.reverse "shop"
        .parentFirst 2 = .ok [["root"], ["left", "right"], ["leaf"]] := by
  have h := (plan_dependency_batches_correct ["leaf", "left", "right", "root"] (by decide)
    diamondKeys "shop" .parentFirst 2 (by decide)).2
  have hplan : planDependencyBatches ["leaf", "left", "right", "root"] diamondKeys "shop"
      .parentFirst 2 = .ok [["root"], ["left", "right"], ["leaf"]] := by decide +kernel
  refine ⟨hplan, (h _ hplan).2.2.2.2 _ _ (by decide) ?_⟩
  exact (List.reverse_perm diamondKeys).symm

end BinlogCdc
