import BinlogCdc.Sync.PrerequisiteRules

/-!
# Batches of rows with missing parents

The parents of the rows of a batch are repaired one row after the other. After a success every
row has its parents if no repair takes a parent of an earlier row away, which the source
decides: a parent that the source has with the same values is kept or becomes the source row.
A batch shows what happens otherwise.
-/

namespace BinlogCdc.FkTransition

open Prog

variable {κ : Type} [LinearOrder κ] {rank : RowKey ↪ κ}

namespace TransitionContext

variable {context : TransitionContext rank} {s : RepairState rank} {table : String}

variable (context) in
/-- Every reference of the row leads to a row of the target that the source has with the same
values. -/
def Anchored (target : Database rank) (table : String) (row : Row) : Prop :=
  ∀ key ∈ context.foreignKeys, key.table = table → (key.values row).isSome = true →
    ∃ k parent sourceParent, rowOf target k = some parent ∧
      rowOf context.source k = some sourceParent ∧ k.table = key.referencedTable ∧
      key.References row parent ∧ key.References row sourceParent

/-- A repair keeps the parents of an anchored row. -/
theorem Repaired.hasParents {s' : RepairState rank} (h : context.Repaired nothing nothing s s')
    {row : Row} (hrow : context.Anchored s.target table row) :
    HasParents context.foreignKeys s'.target table row := by
  intro key hkey htable hsome
  obtain ⟨k, parent, sourceParent, hparent, hsource, hktable, hreferences, hreferences'⟩ :=
    hrow key hkey htable hsome
  rcases h.kept k id with he | he
  · exact ⟨(k, parent), rowOf_eq_some.mp (he.trans hparent), hktable, hreferences⟩
  · exact ⟨(k, sourceParent), rowOf_eq_some.mp (he.trans hsource), hktable, hreferences'⟩

variable (context) in
/-- Whenever a row with missing parents is repaired, the rows before it are anchored. -/
def Steady (table : String) : List DatabaseRow → List DatabaseRow → RepairState rank → Prop
  | _, [], _ => True
  | earlier, row :: rows, s =>
    (¬ HasParents context.foreignKeys s.target table row.values →
      ∀ r ∈ earlier, context.Anchored s.target table r.values) ∧
    wp (context.repairRow table row) (fun _ s' => Steady table (row :: earlier) rows s')
      (fun _ _ => True) s

theorem wp_repairRows (rows earlier : List DatabaseRow) {repaired : Nat} {s : RepairState rank}
    (hs : s.visiting = ∅) :
    wp (context.repairRows table rows repaired)
      (fun _ s' => context.Repaired nothing nothing s s' ∧
        (context.Steady table earlier rows s →
          (∀ r ∈ earlier, HasParents context.foreignKeys s.target table r.values) →
          ∀ r, r ∈ earlier ∨ r ∈ rows → HasParents context.foreignKeys s'.target table r.values))
      (Stopped s) s := by
  induction rows generalizing earlier repaired s with
  | nil =>
    refine ⟨Repaired.refl s, fun _ hearlier r hr => ?_⟩
    rcases hr with hr | hr
    · exact hearlier r hr
    · cases hr
  | cons row rows ih =>
    have hrow : (⟨table, row.primaryKey.values⟩ : RowKey) ∉ s.visiting := by
      rw [hs]
      exact Finset.notMem_empty _
    have hsteady : wp (context.repairRow table row)
        (fun _ s' => context.Steady table earlier (row :: rows) s →
          context.Steady table (row :: earlier) rows s') (fun _ _ => True) s := by
      by_cases h : context.Steady table earlier (row :: rows) s
      · exact wp_mono h.2 (fun _ _ h _ => h) fun _ _ h => h
      · exact wp_mono (wp_repairRow table row hrow) (fun _ _ _ h' => absurd h' h)
          fun _ _ _ => trivial
    unfold repairRows
    rw [wp_bind]
    refine wp_mono (wp_and (wp_repairRow table row hrow) hsteady) ?_ fun _ _ h => h.1
    rintro count s₁ ⟨⟨h₁, hparents, hsame⟩, hsteady₁⟩
    refine wp_mono (ih (row :: earlier) (h₁.visiting.trans hs)) ?_ ?_
    · rintro _ s₂ ⟨h₂, hrest⟩
      refine ⟨h₁.trans h₂, fun h hearlier r hr => hrest (hsteady₁ h) ?_ r ?_⟩
      · -- The row itself was repaired last; the rows before it are untouched or anchored.
        intro r hr
        rcases List.mem_cons.mp hr with rfl | hr
        · exact hparents
        · by_cases hnone : HasParents context.foreignKeys s.target table row.values
          · rw [hsame hnone]
            exact hearlier r hr
          · exact h₁.hasParents (h.1 hnone r hr)
      · rw [List.mem_cons] at hr ⊢
        tauto
    · rintro e s₂ ⟨hs₂, he⟩
      exact ⟨hs₂.trans h₁.visiting, he⟩

theorem wp_updateRows (rows : List DatabaseRow) {s : RepairState rank} :
    wp (context.updateRows table rows) (fun _ s' => s'.visiting = s.visiting) (Stopped s) s := by
  induction rows generalizing s with
  | nil => exact rfl
  | cons desired rows ih =>
    unfold updateRows
    rw [wp_bind]
    refine wp_mono (reading_exact _ false) ?_ ?_
    · rintro old s' ⟨hs', -⟩
      subst s'
      cases old with
      | none => exact ⟨rfl, _, rfl⟩
      | some old =>
        dsimp only
        rw [wp_bind]
        have hensure : ∀ table desired s₁, s₁.visiting = s.visiting →
            wp (context.ensureRequiredParents context.depthBound table desired)
              (fun _ s' => context.Repaired nothing nothing s₁ s') (Stopped s₁) s₁ :=
          fun table desired s₁ _ => wp_mono (wp_ensureRequiredParents context.depthBound table desired
            (card_lt_depthBound _)) (fun _ _ h => h.1) fun _ _ h => h
        refine wp_mono (wp_coordinate hensure rfl _ _ desired.values old) ?_ fun _ _ h => h
        rintro _ s₁ ⟨hs₁, -⟩
        refine wp_mono ih (fun _ _ h => h.trans hs₁) ?_
        rintro e s₂ ⟨hs₂, he⟩
        exact ⟨hs₂.trans hs₁, he⟩
    · rintro e _ ⟨rfl, he⟩
      exact ⟨rfl, he⟩

/-- The keys being repaired are kept on every way out, and a failure has a message. -/
theorem settled_of_wp {α : Type} {c : Repair rank α} {s₀ : RepairState rank}
    (h : wp c (fun _ s' => s'.visiting = s₀.visiting) (Stopped s₀) s) :
    (c s).2.visiting = s₀.visiting ∧ ∀ e, (c s).1 = .error e → e.Calm := by
  unfold wp at h
  cases hrun : c s with
  | mk result s' =>
    rw [hrun] at h
    cases result with
    | ok a => exact ⟨h, nofun⟩
    | error failure =>
      refine ⟨h.1, ?_⟩
      rintro _ ⟨⟩
      exact h.2

/-- A repair that can only fail with a message is reported. -/
theorem wp_reportedAs (failure : SyncMutationFailure) {c : Repair rank Unit}
    (h : wp c (fun _ s' => s'.visiting = s.visiting) (Stopped s) s) :
    wp (reportedAs failure c) (fun _ s' => s'.visiting = s.visiting) (fun _ _ => False) s := by
  unfold wp at h
  unfold wp reportedAs
  cases hrun : c s with
  | mk result s' =>
    rw [hrun] at h
    cases result with
    | ok _ => exact h
    | error e =>
      obtain ⟨hvisiting, text, rfl⟩ := h
      exact hvisiting

end TransitionContext

open TransitionContext

section Orders

/-- Keys in the order of their texts. -/
def textOrder : RowKey ↪ RowKey := Function.Embedding.refl RowKey

/-- The group, with a code. -/
def groupEntry (code : String) : RowKey × Row :=
  (⟨"groups", ["1"]⟩, [("id", some "1"), ("code", some code)])

/-- A member with the name `v`. -/
def memberEntry (id code : String) : RowKey × Row :=
  (⟨"members", [id]⟩, [("id", some id), ("name", some "v"), ("group", some code)])

/-- An order of the member `v`. -/
def memberOrder : DatabaseRow := ⟨⟨["1"]⟩, [("id", some "1"), ("member", some "v"), ("group", none)]⟩

/-- An order of the group. -/
def groupOrder : DatabaseRow := ⟨⟨["2"]⟩, [("id", some "2"), ("member", none), ("group", some "b")]⟩

def orderEntry (row : DatabaseRow) : RowKey × Row := (⟨"orders", row.primaryKey.values⟩, row.values)

def emptyDatabase : Database textOrder := ⟨[], List.Pairwise.nil⟩

/-- The source: the group has the code `b`, and the member `v` has the key 2. -/
def ordersContext : TransitionContext textOrder where
  source := emptyDatabase.putAll
    [groupEntry "b", memberEntry "2" "b", orderEntry memberOrder, orderEntry groupOrder]
  tables := [⟨"groups", ["id"], ["id", "code"], [], by decide⟩,
    ⟨"members", ["id"], ["id", "name", "group"], [], by decide⟩,
    ⟨"orders", ["id"], ["id", "member", "group"], [], by decide⟩]
  foreignKeys := [⟨"members", ["group"], "groups", ["code"]⟩,
    ⟨"orders", ["member"], "members", ["name"]⟩, ⟨"orders", ["group"], "groups", ["code"]⟩]
  unbuilt _ := none
  readFails _ _ _ := none
  writeFails _ _ := none

/-- The target: the group has the code `a`, and the member `v` has the key 1. -/
def ordersStart : RepairState textOrder :=
  ⟨emptyDatabase.putAll [groupEntry "a", memberEntry "1" "a"], ∅, []⟩

theorem wp_of_final {c : Repair textOrder Nat} {s : RepairState textOrder}
    {P : RepairState textOrder → Prop} (h : P (c s).2) :
    wp c (fun _ s' => P s') (fun _ _ => True) s := by
  unfold wp
  cases hrun : c s with
  | mk result s' =>
    rw [hrun] at h
    cases result with
    | ok a => exact h
    | error e => trivial

/-- After its repair the order of the group refers to a group of the source. -/
theorem groupOrder_anchored : ordersContext.Anchored
    (ordersContext.repairRow "orders" groupOrder ordersStart).2.target "orders"
    groupOrder.values := by
  intro key hkey htable hsome
  have hcases : key = ⟨"orders", ["group"], "groups", ["code"]⟩ := by
    rcases List.mem_cons.mp hkey with rfl | hkey
    · exact absurd htable (by decide)
    · rcases List.mem_cons.mp hkey with rfl | hkey
      · exact absurd hsome (by decide)
      · exact List.mem_singleton.mp hkey
  subst hcases
  exact ⟨⟨"groups", ["1"]⟩, (groupEntry "b").2, (groupEntry "b").2, by decide +kernel,
    by decide +kernel, rfl, by decide, by decide⟩

theorem orders_steady : ordersContext.Steady "orders" [] [groupOrder, memberOrder] ordersStart := by
  refine ⟨fun _ => List.forall_mem_nil _, wp_of_final ⟨fun _ => ?_, wp_of_final trivial⟩⟩
  exact List.forall_mem_singleton.mpr groupOrder_anchored

end Orders

end BinlogCdc.FkTransition
