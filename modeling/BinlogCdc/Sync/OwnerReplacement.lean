import BinlogCdc.Sync.TransitionResult

/-!
# Replacing an owner that the source does not have

A unique value can belong to a target row that the source lacks, while the row that should
have the value has another key. The replacement reads the rows that depend on either of the
two, deletes them with the old owner, writes the intended row and takes the dependents from
the source. Both closures share one set of keys, so a row that depends on both is deleted
and put back once.
-/

namespace BinlogCdc.FkTransition

open Prog

variable {κ ε : Type} [LinearOrder κ] {rank : RowKey ↪ κ}

namespace Memory

variable {memory : Memory rank ε} {s : Database rank} {limits : Limits}

/-! ## What a replacement discovers -/

variable (memory) in
/-- The rows that reference the old owner, or a changed column of the intended row. -/
def OwnerReferencing (target : Database rank) (oldOwner intended : RowKey × Row) (key : RowKey) :
    Prop :=
  memory.Referencing target oldOwner.1 none oldOwner.2 key ∨
    ∃ row, rowOf target intended.1 = some row ∧
      memory.Referencing target intended.1 (some intended.2) row key

variable (memory) in
/-- The rows that depend on the old owner, or on the intended row through changed columns. -/
def OwnerDependent (target : Database rank) (oldOwner intended : RowKey × Row) : RowKey → Prop :=
  memory.Reached target (memory.OwnerReferencing target oldOwner intended)

variable {oldOwner intended : RowKey × Row}

/-- The plan of a replacement has exactly the dependent keys, provided that an intended row that the
caller takes for absent is. -/
theorem wp_discoverReplacement (fuel : Nat) (oldOwner intended : RowKey × Row)
    (intendedExists : Bool) (limits : Limits) (hsame : oldOwner.1.table = intended.1.table) :
    wp (discoverReplacement memory.backend fuel oldOwner intended intendedExists limits)
      (fun plan s' => s' = s ∧ memory.Loaded plan.schema ∧
        (∃ before, plan.schema.order = before ++ [oldOwner.1.table] ∧
          ∀ key ∈ plan.keys, key.table ∈ before) ∧
        ((intendedExists = false → rowOf s intended.1 = none) →
          ∀ key, key ∈ plan.keys ↔ memory.OwnerDependent s oldOwner intended key))
      (fun e _ => e.Within (fuel ≤ memory.readBound limits s)) s := by
  unfold discoverReplacement
  rw [wp_bind]
  have hplan : wp (discoverTransition memory.backend fuel oldOwner.1 none oldOwner.2 limits) _ _ s :=
    wp_discoverTransition fuel oldOwner.1 none oldOwner.2 limits
  refine wp_mono hplan ?_ fun _ _ h => h
  rintro plan s ⟨rfl, hrows, hloaded, ⟨before, horder⟩, hfound, hbounded⟩
  have hfirst : ∀ key, memory.Referencing s oldOwner.1 none oldOwner.2 key → key.table ∈ before :=
    fun key h => h.table_mem hloaded horder
  cases intendedExists with
  | false =>
    refine ⟨rfl, hloaded, ⟨before, horder, fun key hkey => ?_⟩, fun habsent key => ?_⟩
    · exact (hfound.sound key hkey).table_mem hloaded horder hfirst
    · have hnone : rowOf s intended.1 = none := habsent rfl
      refine (hfound.complete rfl key).trans (Reached.congr fun key => ?_)
      simp [OwnerReferencing, hnone]
  | true =>
    simp only [if_true, wp_bind]
    refine wp_mono (wp_call (memory.wp_answer _ _)) ?_ fun _ _ h => h
    rintro _ s ⟨rfl, rfl⟩
    cases hrow : rowOf s intended.1 with
    | none => exact ⟨by rintro ⟨⟩, by rintro ⟨⟩⟩
    | some row =>
      dsimp only
      rw [wp_bind]
      have hmore := wp_discover (s := s) fuel intended.1 (some intended.2) row hrows hloaded
        (hsame ▸ horder) hfound hbounded hfirst
      refine wp_mono hmore ?_ fun _ _ h => h.mono fun hbound => ?_
      case refine_2 =>
        unfold readBound
        omega
      rintro keys s ⟨rfl, hboth, -⟩
      refine ⟨rfl, hloaded, ⟨before, horder, fun key hkey => ?_⟩, fun _ key => ?_⟩
      · refine (hboth.sound key hkey).table_mem hloaded horder fun key hkey => ?_
        rcases hkey with hkey | hkey
        · exact hfirst key hkey
        · exact hkey.table_mem hloaded (hsame ▸ horder)
      · refine (hboth.complete rfl key).trans (Reached.congr fun key => ?_)
        simp [OwnerReferencing, hrow]

/-! ## What a replacement leaves -/

variable (memory) in
/-- The old owner is gone, the intended row is there, the dependent rows are those of the source,
and no other row has changed. -/
structure Replaced (start final : Database rank) (oldOwner intended : RowKey × Row) : Prop where
  old_absent : rowOf final oldOwner.1 = none
  intended_row : rowOf final intended.1 = some intended.2
  dependents : ∀ key, memory.OwnerDependent start oldOwner intended key →
    rowOf final key = rowOf memory.source key
  others : ∀ key, key ≠ oldOwner.1 → key ≠ intended.1 →
    ¬ memory.OwnerDependent start oldOwner intended key → rowOf final key = rowOf start key

variable {start final : Database rank}

/-- A row that is not touched keeps its parents: it references neither the old owner nor a changed
column of the intended row, and it does not reference a dependent row. -/
theorem Replaced.hasParents (h : memory.Replaced start final oldOwner intended)
    (hold : rowOf start oldOwner.1 = some oldOwner.2) (hkeys : memory.ForeignKeysHold start)
    {key : RowKey} {row : Row} (hneOld : key ≠ oldOwner.1) (hneIntended : key ≠ intended.1)
    (hfree : ¬ memory.OwnerDependent start oldOwner intended key)
    (hrow : rowOf final key = some row) : memory.HasParents final key.table row := by
  rw [h.others key hneOld hneIntended hfree] at hrow
  refine hkeys.hasParents hrow fun other parentRow relation hparentRow hrelation hrefers hreferences => ?_
  by_cases hotherOld : other = oldOwner.1
  · subst hotherOld
    obtain rfl := Option.some.inj (hold.symm.trans hparentRow)
    exact absurd (.first (.inl ⟨relation, hrelation, nofun, hrefers⟩)) hfree
  by_cases hotherIntended : other = intended.1
  · subst hotherIntended
    have hsame : ¬ relation.Differs intended.2 parentRow := fun hdiffers =>
      hfree (.first (.inr ⟨parentRow, hparentRow, relation, hrelation,
        fun _ h => Option.some.inj h ▸ hdiffers, hrefers⟩))
    exact ⟨intended.2, h.intended_row, hreferences.of_not_differs hsame⟩
  · have hindependent : ¬ memory.OwnerDependent start oldOwner intended other := fun hdependent =>
      hfree (.step hdependent hparentRow hrelation hrefers)
    have hkept := h.others other hotherOld hotherIntended hindependent
    exact ⟨parentRow, hkept.trans hparentRow, hreferences⟩

/-- The intended row after the old owner is gone. -/
theorem wp_writeIntended (intended : RowKey × Row) (intendedExists : Bool) {bound : Prop} :
    wp (writeIntended memory.backend intended intendedExists)
      (fun _ s' => (intendedExists = false → rowOf s intended.1 = none) ∧
        ∀ k, rowOf s' k = if k = intended.1 then some intended.2 else rowOf s k)
      (fun e _ => e.Within bound) s := by
  cases intendedExists with
  | true =>
    refine wp_mono (wp_update intended.1 intended.2) (fun _ _ hrows => ?_) fun _ _ h => h
    exact ⟨nofun, hrows⟩
  | false =>
    refine wp_mono (wp_insert intended.1 intended.2) (fun _ _ hrows => ?_) fun _ _ h => h
    exact ⟨fun _ => hrows.1, hrows.2⟩

theorem wp_replaceSourceAbsentOwner (fuel : Nat) (intendedExists : Bool)
    (hsame : oldOwner.1.table = intended.1.table) (hne : oldOwner.1 ≠ intended.1)
    (hold : rowOf start oldOwner.1 = some oldOwner.2) (hkeys : memory.ForeignKeysHold start) :
    wp (replaceSourceAbsentOwner memory.backend fuel oldOwner intended intendedExists limits)
      (fun _ final => memory.Replaced start final oldOwner intended ∧ memory.ForeignKeysHold final)
      (fun e _ => e.Within (fuel ≤ memory.readBound limits start)) start := by
  unfold replaceSourceAbsentOwner
  rw [wp_bind]
  refine wp_mono (wp_discoverReplacement fuel oldOwner intended intendedExists limits hsame) ?_
    fun _ _ h => h
  rintro plan start ⟨rfl, hloaded, ⟨before, horder, hbefore⟩, hplan⟩
  have htables : ∀ k ∈ plan.keys, k.table ∈ plan.schema.order := by
    intro k hk
    rw [horder]
    exact List.mem_append_left _ (hbefore k hk)
  have holdFree : oldOwner.1 ∉ plan.keys := fun h =>
    hloaded.root_notMem horder (hbefore _ h)
  have hintendedFree : intended.1 ∉ plan.keys := fun h =>
    hloaded.root_notMem horder (hsame ▸ hbefore _ h)
  rw [wp_bind]
  refine wp_mono (wp_detach plan.schema.order plan.keys) ?_ fun _ _ h => h
  intro _ detached hdetached
  rw [wp_bind]
  refine wp_mono (wp_delete oldOwner.1) ?_ fun _ _ h => h
  intro _ deleted hdeleted
  rw [wp_bind]
  refine wp_mono (wp_ensureParentRows intended.1 intended.2) ?_ fun _ _ h => h
  rintro _ deleted ⟨rfl, hparents⟩
  rw [wp_bind]
  refine wp_mono (wp_writeIntended intended intendedExists) ?_ fun _ _ h => h
  rintro _ written ⟨habsent, hwritten⟩
  have hunplanned : ∀ k, k ∉ plan.keys → k ≠ oldOwner.1 → rowOf deleted k = rowOf start k := by
    intro k hk hkOld
    rw [hdeleted k, if_neg hkOld, hdetached k, if_neg fun h => hk h.1]
  have hdependent := hplan fun hexists =>
    (hunplanned intended.1 hintendedFree hne.symm).symm.trans (habsent hexists)
  have hgone : ∀ k ∈ plan.keys, rowOf written k = none := by
    intro k hk
    have hkOld : k ≠ oldOwner.1 := fun h => holdFree (h ▸ hk)
    have hkIntended : k ≠ intended.1 := fun h => hintendedFree (h ▸ hk)
    rw [hwritten k, if_neg hkIntended, hdeleted k, if_neg hkOld, hdetached k,
      if_pos ⟨hk, htables k hk⟩]
  refine wp_mono (wp_restore plan.schema.order plan.keys hgone) ?_ fun _ _ h => h
  intro _ final hrestored
  have hfinal : memory.Replaced start final oldOwner intended :=
    { old_absent := by
        rw [hrestored.other _ fun h => holdFree h.1, hwritten, if_neg hne, hdeleted, if_pos rfl]
      intended_row := by
        rw [hrestored.other _ fun h => hintendedFree h.1, hwritten, if_pos rfl]
      dependents := by
        intro k hk
        have hmem := (hdependent k).mpr hk
        exact hrestored.restored k ⟨hmem, htables k hmem⟩
      others := by
        intro k hkOld hkIntended hfree
        have hk : k ∉ plan.keys := fun h => hfree ((hdependent k).mp h)
        rw [hrestored.other k fun h => hk h.1, hwritten k, if_neg hkIntended]
        exact hunplanned k hk hkOld }
  refine ⟨hfinal, fun k row hrow => ?_⟩
  by_cases hk : k ∈ plan.keys
  · exact hrestored.parents k row ⟨hk, htables k hk⟩ hrow
  by_cases hkOld : k = oldOwner.1
  · rw [hkOld, hfinal.old_absent] at hrow
    cases hrow
  by_cases hkIntended : k = intended.1
  · -- The parents of the intended row are in other tables, so writing it leaves them.
    subst hkIntended
    obtain rfl := Option.some.inj (hfinal.intended_row.symm.trans hrow)
    intro parent relation hrelation htable hvalues
    obtain ⟨other, parentRow, hparentRow, rfl, hreferences⟩ :=
      hparents parent relation hrelation htable hvalues
    have hother : other ≠ intended.1 := by
      rintro rfl
      have hself := hloaded.childrenFirst before _ [] (hsame ▸ horder) relation hrelation
      exact hloaded.root_notMem (hsame ▸ horder) (htable ▸ hself)
    refine ⟨other, parentRow, hrestored.grows other parentRow ?_, rfl, hreferences⟩
    rw [hwritten other, if_neg hother, hparentRow]
  · exact hfinal.hasParents hold hkeys hkOld hkIntended (fun h => hk ((hdependent k).mpr h)) hrow

/-- A replacement that succeeds leaves the intended row in place of the old owner, takes exactly
the dependent rows of both from the source and leaves the foreign keys intact. With enough steps it
ends in a result of its own. -/
theorem replaceSourceAbsentOwner_replaces (memory : Memory rank ε) (start : Database rank)
    (oldOwner intended : RowKey × Row) (intendedExists : Bool) (limits : Limits)
    (hsame : oldOwner.1.table = intended.1.table) (hne : oldOwner.1 ≠ intended.1)
    (hold : rowOf start oldOwner.1 = some oldOwner.2) (hkeys : memory.ForeignKeysHold start) :
    (∀ fuel final,
      replaceSourceAbsentOwner memory.backend fuel oldOwner intended intendedExists limits start =
        (.ok (), final) →
      memory.Replaced start final oldOwner intended ∧ memory.ForeignKeysHold final) ∧
    ∀ fuel, memory.readBound limits start < fuel → ∀ e,
      (replaceSourceAbsentOwner memory.backend fuel oldOwner intended intendedExists limits
        start).1 = .error e → e ≠ .panicked ∧ e ≠ .diverged := by
  have hwp : ∀ fuel, wp (replaceSourceAbsentOwner memory.backend fuel oldOwner intended
      intendedExists limits) _ _ start := fun fuel =>
    wp_replaceSourceAbsentOwner fuel intendedExists hsame hne hold hkeys
  constructor
  · intro fuel final hrun
    have hresult := wp_value (hwp fuel) hrun
    exact hresult
  · intro fuel hfuel e he
    have hwithin := wp_error (hwp fuel) (Prod.ext he rfl)
    exact ⟨hwithin.1, fun h => absurd (hwithin.2 h) (Nat.not_le.mpr hfuel)⟩

end Memory

/-! ## An owner with dependents on both keys -/

/-- The second parent has the value, and all children follow it. -/
def ownerSource : Database (Function.Embedding.refl RowKey) where
  rows := [(⟨"child", ["10"]⟩, familyRow "10" "name"), (⟨"child", ["11"]⟩, familyRow "11" "name"),
    (⟨"grandchild", ["10"]⟩, familyRow "10" "name"),
    (⟨"grandchild", ["11"]⟩, familyRow "11" "name"), (⟨"parent", ["2"]⟩, familyRow "2" "name")]
  sorted := by decide +kernel

/-- The first parent still owns the value, and the second has an earlier one with its own child. -/
def ownerTarget : Database (Function.Embedding.refl RowKey) where
  rows := [(⟨"child", ["10"]⟩, familyRow "10" "name"),
    (⟨"child", ["11"]⟩, familyRow "11" "previous"), (⟨"grandchild", ["10"]⟩, familyRow "10" "name"),
    (⟨"grandchild", ["11"]⟩, familyRow "11" "previous"),
    (⟨"parent", ["1"]⟩, familyRow "1" "name"), (⟨"parent", ["2"]⟩, familyRow "2" "previous")]
  sorted := by decide +kernel

def ownerMemory : Memory (Function.Embedding.refl RowKey) String :=
  { familyMemory with source := ownerSource }

/-- The second parent takes the value from the first one, within four keys. -/
def ownerRun : Except (Error String) Unit × Database (Function.Embedding.refl RowKey) :=
  replaceSourceAbsentOwner ownerMemory.backend 30 (⟨"parent", ["1"]⟩, familyRow "1" "name")
    (⟨"parent", ["2"]⟩, familyRow "2" "name") true ⟨1, 4⟩ ownerTarget

theorem ownerRun_ok : ownerRun.1 = .ok () := by decide +kernel

theorem ownerTarget_foreignKeysHold : ownerMemory.ForeignKeysHold ownerTarget := by
  have hall : ∀ entry ∈ ownerTarget.rows,
      ownerMemory.missingParents entry.1.table entry.2 ownerTarget = [] := by decide +kernel
  intro key row hrow
  exact Memory.hasParents_of_missingParents (hall _ (rowOf_eq_some.mp hrow))

/-- Rows of both subtrees are taken from the source. -/
theorem replaceSourceAbsentOwner_both_subtrees :
    rowOf ownerTarget ⟨"parent", ["1"]⟩ = some (familyRow "1" "name") ∧
    ownerRun.1 = .ok () ∧ ownerRun.2.rows = ownerSource.rows ∧
    ownerMemory.Replaced ownerTarget ownerRun.2 (⟨"parent", ["1"]⟩, familyRow "1" "name")
      (⟨"parent", ["2"]⟩, familyRow "2" "name") ∧ ownerMemory.ForeignKeysHold ownerRun.2 := by
  have hold : rowOf ownerTarget ⟨"parent", ["1"]⟩ = some (familyRow "1" "name") := by
    decide +kernel
  have hresult := (Memory.replaceSourceAbsentOwner_replaces ownerMemory ownerTarget
    (⟨"parent", ["1"]⟩, familyRow "1" "name") (⟨"parent", ["2"]⟩, familyRow "2" "name") true ⟨1, 4⟩
    rfl (by decide) hold ownerTarget_foreignKeysHold).1 30 ownerRun.2 (Prod.ext ownerRun_ok rfl)
  exact ⟨hold, ownerRun_ok, by decide +kernel, hresult⟩

end BinlogCdc.FkTransition
