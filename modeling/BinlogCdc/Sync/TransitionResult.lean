import BinlogCdc.Sync.TransitionDiscovery

/-!
# What a transition leaves

A transition that succeeds replaces the root and takes every dependent row from the source;
no other row changes. The foreign keys hold again: a row that was not touched does not
reference a row that was, and the parents of the rows that were written are there when they
are written.
-/

namespace BinlogCdc.FkTransition

open Prog

variable {κ ε : Type} [LinearOrder κ] {rank : RowKey ↪ κ}

/-! ## Foreign keys -/

theorem keyValues_eq_none {desired : Row} {columns : List String} :
    keyValues desired columns = none ↔ ∃ column ∈ columns, desired.value column = none := by
  induction columns with
  | nil => simp [keyValues]
  | cons column columns ih =>
    unfold keyValues
    cases hvalue : desired.value column with
    | none => simp [hvalue]
    | some value => simp [hvalue, ih]

/-- A parent with the values of the referencing columns is referenced. -/
theorem Relation.references_of_values {child parent : Row} {childColumns parentColumns : List String}
    {values : Key} (hvalues : keyValues child childColumns = some values)
    (hparent : ∀ pair ∈ parentColumns.zip values, parent.value pair.1 = some pair.2) :
    ∀ columns ∈ childColumns.zip parentColumns,
      child.value columns.1 ≠ none ∧ child.value columns.1 = parent.value columns.2 := by
  induction childColumns generalizing parentColumns values with
  | nil => simp
  | cons column childColumns ih =>
    cases parentColumns with
    | nil => simp
    | cons parentColumn parentColumns =>
      unfold keyValues at hvalues
      cases hvalue : child.value column with
      | none =>
        rw [hvalue] at hvalues
        cases hvalues
      | some value =>
        rw [hvalue] at hvalues
        obtain ⟨rest, hrest, rfl⟩ := Option.map_eq_some_iff.mp hvalues
        rw [List.zip_cons_cons, List.forall_mem_cons] at hparent ⊢
        refine ⟨?_, ih hrest hparent.2⟩
        rw [hvalue, hparent.1]
        exact ⟨Option.some_ne_none value, rfl⟩

namespace Memory

variable {memory : Memory rank ε} {s : Database rank} {bound : Prop}

variable (memory) in
/-- Every parent that a row of the table references without a NULL is in the target. -/
def HasParents (target : Database rank) (table : String) (row : Row) : Prop :=
  ∀ parent, ∀ relation ∈ memory.relations parent, relation.childTable = table →
    (∀ column ∈ relation.childColumns, row.value column ≠ none) →
    ∃ key parentRow, rowOf target key = some parentRow ∧ key.table = parent ∧
      relation.References row parentRow

variable (memory) in
/-- The foreign keys of the target hold. -/
def ForeignKeysHold (target : Database rank) : Prop :=
  ∀ key row, rowOf target key = some row → memory.HasParents target key.table row

/-- Rows that are added take no parent away. -/
theorem HasParents.mono {target target' : Database rank} {table : String} {row : Row}
    (h : memory.HasParents target table row)
    (hkeep : ∀ key row, rowOf target key = some row → rowOf target' key = some row) :
    memory.HasParents target' table row := by
  intro parent relation hrelation htable hvalues
  obtain ⟨key, parentRow, hrow, hparent, hreferences⟩ := h parent relation hrelation htable hvalues
  exact ⟨key, parentRow, hkeep key parentRow hrow, hparent, hreferences⟩

/-- A row keeps its parents when every row that it references is kept in the columns it uses. -/
theorem ForeignKeysHold.hasParents {target target' : Database rank}
    (h : memory.ForeignKeysHold target) {key : RowKey} {row : Row} (hrow : rowOf target key = some row)
    (hkept : ∀ other parentRow relation, rowOf target other = some parentRow →
      relation ∈ memory.relations other.table → Refers target relation parentRow key →
      relation.References row parentRow →
      ∃ kept, rowOf target' other = some kept ∧ relation.References row kept) :
    memory.HasParents target' key.table row := by
  intro parent relation hrelation htable hvalues
  obtain ⟨other, parentRow, hparentRow, rfl, hreferences⟩ :=
    h key row hrow parent relation hrelation htable hvalues
  obtain ⟨kept, hkeptRow, hkeptReferences⟩ := hkept other parentRow relation hparentRow hrelation
    ⟨row, hrow, htable.symm, hreferences⟩ hreferences
  exact ⟨other, kept, hkeptRow, rfl, hkeptReferences⟩

/-- No parent is missing. -/
theorem hasParents_of_missingParents {table : String} {row : Row}
    (h : memory.missingParents table row s = []) : memory.HasParents s table row := by
  intro parent relation hrelation htable hcolumns
  have hparent : parent ∈ memory.parents := by
    by_contra hnot
    rw [memory.relations_eq_nil parent hnot] at hrelation
    cases hrelation
  obtain ⟨values, hvalues⟩ : ∃ values, keyValues row relation.childColumns = some values := by
    rw [← Option.ne_none_iff_exists']
    intro hnone
    obtain ⟨column, hcolumn, hnull⟩ := keyValues_eq_none.mp hnone
    exact hcolumns column hcolumn hnull
  have hnone := List.flatMap_eq_nil_iff.mp h parent hparent
  have hfound := List.filterMap_eq_nil_iff.mp hnone relation (by simp [hrelation, htable])
  simp only [hvalues] at hfound
  split at hfound
  case isFalse => cases hfound
  case isTrue hany =>
    obtain ⟨entry, hentry, hmatch⟩ := List.any_eq_true.mp hany
    obtain ⟨hentryTable, hpairs⟩ := of_decide_eq_true hmatch
    exact ⟨entry.1, entry.2, rowOf_eq_some.mpr hentry, hentryTable,
      Relation.references_of_values hvalues hpairs⟩

theorem wp_ensureParentRows (child : RowKey) (desired : Row) :
    wp (ensureParentRows memory.backend child desired)
      (fun _ s' => s' = s ∧ memory.HasParents s child.table desired)
      (fun e _ => e.Within bound) s := by
  unfold ensureParentRows
  rw [wp_bind]
  refine wp_mono (wp_call (memory.wp_answer _ _)) ?_ fun _ _ h => h
  rintro missing s ⟨hmissing, rfl⟩
  cases missing with
  | nil => exact ⟨rfl, hasParents_of_missingParents hmissing.symm⟩
  | cons parent rest => exact ⟨nofun, nofun⟩

/-! ## Writes -/

theorem wp_delete (key : RowKey) :
    wp (mapError Error.backend (memory.backend.delete key))
      (fun _ s' => ∀ k, rowOf s' k = if k = key then none else rowOf s k)
      (fun e _ => e.Within bound) s := by
  refine wp_call ?_
  change wp (memory.deleteRow key) _ _ s
  unfold deleteRow
  rw [wp_bind]
  refine wp_mono (memory.wp_answer _ _) ?_ fun _ _ h => h
  rintro _ s ⟨-, rfl⟩
  rw [wp_bind, wp_reads]
  cases rowOf s key with
  | none => trivial
  | some row => exact fun k => rowOf_erase s key k

theorem wp_update (key : RowKey) (desired : Row) :
    wp (mapError Error.backend (memory.backend.update key desired))
      (fun _ s' => ∀ k, rowOf s' k = if k = key then some desired else rowOf s k)
      (fun e _ => e.Within bound) s := by
  refine wp_call ?_
  change wp (memory.updateRow key desired) _ _ s
  unfold updateRow
  rw [wp_bind]
  refine wp_mono (memory.wp_answer _ _) ?_ fun _ _ h => h
  rintro _ s ⟨-, rfl⟩
  rw [wp_bind, wp_reads]
  cases rowOf s key with
  | none => trivial
  | some row => exact fun k => rowOf_put s key k desired

theorem wp_insert (key : RowKey) (desired : Row) :
    wp (mapError Error.backend (memory.backend.insert key desired))
      (fun _ s' => rowOf s key = none ∧
        ∀ k, rowOf s' k = if k = key then some desired else rowOf s k)
      (fun e _ => e.Within bound) s := by
  refine wp_call ?_
  change wp (memory.insertRow key desired) _ _ s
  unfold insertRow
  rw [wp_bind]
  refine wp_mono (memory.wp_answer _ _) ?_ fun _ _ h => h
  rintro _ s ⟨-, rfl⟩
  rw [wp_bind, wp_reads]
  cases hrow : rowOf s key with
  | none => exact ⟨rfl, fun k => rowOf_put s key k desired⟩
  | some row => trivial

/-! ## Detaching and restoring -/

theorem mem_keysOf {keys : List RowKey} {table : String} {key : RowKey} :
    key ∈ keysOf keys table ↔ key ∈ keys ∧ key.table = table := by
  simp [keysOf]

/-- Detaching deletes the keys of the tables it goes through. -/
theorem wp_detach (order : List String) (keys : List RowKey) :
    wp (detach memory.backend order keys)
      (fun _ s' => ∀ k, rowOf s' k = if k ∈ keys ∧ k.table ∈ order then none else rowOf s k)
      (fun e _ => e.Within bound) s := by
  refine wp_forEach (fun tables s' => ∀ k, rowOf s' k =
    if k ∈ keys ∧ k.table ∈ tables then none else rowOf s k) order _ ?_ (by simp)
  intro done table rest s₁ _ htables
  have hinner := wp_forEach (E := fun e _ => e.Within bound) (s := s₁)
    (fun deleted s' => ∀ k, rowOf s' k = if k ∈ deleted then none else rowOf s₁ k)
    (keysOf keys table) (fun key => mapError Error.backend (memory.backend.delete key)) ?_ (by simp)
  · refine wp_mono hinner ?_ fun _ _ h => h
    intro _ s₂ hkeys k
    rw [hkeys k, htables k]
    simp only [mem_keysOf, List.mem_append, List.mem_singleton]
    by_cases hk : k ∈ keys <;> by_cases ht : k.table = table <;> simp [hk, ht]
  · intro deleted key _ s₂ _ hdeleted
    refine wp_mono (wp_delete key) ?_ fun _ _ h => h
    intro _ s₃ hkey k
    rw [hkey k, hdeleted k]
    simp only [List.mem_append, List.mem_singleton]
    by_cases hk : k = key <;> simp [hk]

/-- A key is restored: its row is the one of the source, and its parents are there. -/
theorem wp_restoreKey (key : RowKey) (hrow : rowOf s key = none ∨ rowOf s key = rowOf memory.source key) :
    wp (restoreKey memory.backend key)
      (fun _ s' => (∀ k, rowOf s' k = if k = key then rowOf memory.source key else rowOf s k) ∧
        (∀ k row, rowOf s k = some row → rowOf s' k = some row) ∧
        ∀ row, rowOf memory.source key = some row →
          rowOf s key = none ∧ memory.HasParents s key.table row)
      (fun e _ => e.Within bound) s := by
  unfold restoreKey
  rw [wp_bind]
  refine wp_mono (wp_call (memory.wp_answer _ _)) ?_ fun _ _ h => h
  rintro _ s ⟨rfl, rfl⟩
  cases hsource : rowOf memory.source key with
  | none =>
    have hnone : rowOf s key = none := by simpa [hsource] using hrow
    refine ⟨fun k => ?_, fun k row h => h, nofun⟩
    split
    case isTrue hk => rw [hk, hnone]
    case isFalse => rfl
  | some desired =>
    dsimp only
    rw [wp_bind]
    refine wp_mono (wp_ensureParentRows key desired) ?_ fun _ _ h => h
    rintro _ s ⟨rfl, hparents⟩
    refine wp_mono (wp_insert key desired) ?_ fun _ _ h => h
    rintro _ s' ⟨habsent, hrows⟩
    refine ⟨hrows, fun k row hk => ?_, ?_⟩
    · rw [hrows k, if_neg]
      · exact hk
      · rintro rfl
        rw [habsent] at hk
        cases hk
    · rintro row hdesired
      cases hdesired
      exact ⟨habsent, hparents⟩

variable (memory) in
/-- The keys of some tables are restored and nothing else has changed since. -/
structure Restored (done : RowKey → Prop) (s s' : Database rank) : Prop where
  restored : ∀ k, done k → rowOf s' k = rowOf memory.source k
  other : ∀ k, ¬ done k → rowOf s' k = rowOf s k
  grows : ∀ k row, rowOf s k = some row → rowOf s' k = some row
  parents : ∀ k row, done k → rowOf s' k = some row → memory.HasParents s' k.table row

theorem Restored.refl (s : Database rank) : memory.Restored (fun _ => False) s s :=
  ⟨nofun, fun _ _ => rfl, fun _ _ h => h, nofun⟩

theorem Restored.congr {done done' : RowKey → Prop} {s s' : Database rank}
    (h : memory.Restored done s s') (hdone : ∀ k, done k ↔ done' k) :
    memory.Restored done' s s' := by
  have heq : done = done' := funext fun k => propext (hdone k)
  exact heq ▸ h

/-- One more key is restored. -/
theorem wp_restoreKey_restored {done : RowKey → Prop} {start : Database rank} (key : RowKey)
    (h : memory.Restored done start s) (hkey : rowOf start key = none) :
    wp (restoreKey memory.backend key)
      (fun _ s' => memory.Restored (fun k => done k ∨ k = key) start s')
      (fun e _ => e.Within bound) s := by
  have hrow : rowOf s key = none ∨ rowOf s key = rowOf memory.source key := by
    by_cases hdone : done key
    · exact Or.inr (h.restored key hdone)
    · exact Or.inl ((h.other key hdone).trans hkey)
  refine wp_mono (wp_restoreKey key hrow) ?_ fun _ _ h => h
  rintro _ s' ⟨hrows, hgrows, hparents⟩
  refine ⟨?_, ?_, fun k row hk => hgrows k row (h.grows k row hk), ?_⟩
  · rintro k hk
    rw [hrows k]
    split
    case isTrue heq => rw [heq]
    case isFalse hne => exact h.restored k (hk.resolve_right hne)
  · intro k hk
    rw [hrows k, if_neg fun heq => hk (Or.inr heq)]
    exact h.other k fun hdone => hk (Or.inl hdone)
  · intro k row hk hrow'
    by_cases heq : k = key
    · subst heq
      rw [hrows k, if_pos rfl] at hrow'
      exact (hparents row hrow').2.mono hgrows
    · rw [hrows k, if_neg heq] at hrow'
      exact (h.parents k row (hk.resolve_right heq) hrow').mono hgrows

/-- Restoring takes the keys of the tables it goes through from the source. -/
theorem wp_restore (order : List String) (keys : List RowKey)
    (hkeys : ∀ k ∈ keys, rowOf s k = none) :
    wp (restore memory.backend order keys)
      (fun _ s' => memory.Restored (fun k => k ∈ keys ∧ k.table ∈ order) s s')
      (fun e _ => e.Within bound) s := by
  have hall := wp_forEach (E := fun e _ => e.Within bound) (s := s)
    (fun tables s' => memory.Restored (fun k => k ∈ keys ∧ k.table ∈ tables) s s') order.reverse
    (fun table => forEach (keysOf keys table) (restoreKey memory.backend)) ?_
    ((Restored.refl s).congr (by simp))
  · refine wp_mono hall ?_ fun _ _ h => h
    intro _ s' h
    exact h.congr (by simp)
  · intro done table rest s₁ _ htables
    have hinner := wp_forEach (E := fun e _ => e.Within bound) (s := s₁)
      (fun restored s' => memory.Restored
        (fun k => (k ∈ keys ∧ k.table ∈ done) ∨ k ∈ restored) s s')
      (keysOf keys table) (restoreKey memory.backend) ?_ (htables.congr (by simp))
    · refine wp_mono hinner ?_ fun _ _ h => h
      intro _ s₂ h
      refine h.congr fun k => ?_
      simp only [mem_keysOf, List.mem_append, List.mem_singleton]
      tauto
    · intro restored key tail s₂ hsplit h
      have hmem : key ∈ keysOf keys table := by
        rw [← hsplit]
        simp
      have hnone := hkeys key (mem_keysOf.mp hmem).1
      refine wp_mono (wp_restoreKey_restored key h hnone) ?_ fun _ _ h => h
      intro _ s₃ h
      refine h.congr fun k => ?_
      simp only [List.mem_append, List.mem_singleton]
      tauto

/-! ## The transition -/

variable (memory) in
/-- The root has its new row, the dependent rows are those of the source, and no other row has
changed. -/
structure Transitioned (start final : Database rank) (root : RowKey) (current old : Row) :
    Prop where
  root_row : rowOf final root = some current
  root_independent : ¬ memory.Dependent start root current old root
  dependents : ∀ key, memory.Dependent start root current old key →
    rowOf final key = rowOf memory.source key
  others : ∀ key, key ≠ root → ¬ memory.Dependent start root current old key →
    rowOf final key = rowOf start key

variable {start final : Database rank} {root : RowKey} {current old : Row} {limits : Limits}

/-- A row that is not touched keeps its parents: it does not reference the changed columns of the
root, and it does not reference a dependent row. -/
theorem Transitioned.hasParents (h : memory.Transitioned start final root current old)
    (hroot : rowOf start root = some old) (hkeys : memory.ForeignKeysHold start) {key : RowKey}
    {row : Row} (hne : key ≠ root) (hfree : ¬ memory.Dependent start root current old key)
    (hrow : rowOf final key = some row) : memory.HasParents final key.table row := by
  rw [h.others key hne hfree] at hrow
  refine hkeys.hasParents hrow fun other parentRow relation hparentRow hrelation hrefers hreferences => ?_
  by_cases hother : other = root
  · subst hother
    obtain rfl : old = parentRow := Option.some.inj (hroot.symm.trans hparentRow)
    have hsame : ¬ relation.Differs current old := fun hdiffers =>
      hfree (.changed hrelation hdiffers hrefers)
    exact ⟨current, h.root_row, hreferences.of_not_differs hsame⟩
  · have hindependent : ¬ memory.Dependent start root current old other := fun hdependent =>
      hfree (.step hdependent hparentRow hrelation hrefers)
    exact ⟨parentRow, (h.others other hother hindependent).trans hparentRow, hreferences⟩

theorem wp_transition (fuel : Nat) (hroot : rowOf start root = some old)
    (hkeys : memory.ForeignKeysHold start) :
    wp (transition memory.backend fuel root current old limits)
      (fun _ final => memory.Transitioned start final root current old ∧
        memory.ForeignKeysHold final)
      (fun e _ => e.Within (fuel ≤ memory.readBound limits start)) start := by
  unfold transition
  rw [wp_bind]
  refine wp_mono (wp_discoverTransition fuel root (some current) old limits) ?_ fun _ _ h => h
  rintro plan start ⟨rfl, -, hloaded, ⟨before, horder⟩, hfound, -⟩
  have hplan : ∀ k, k ∈ plan.keys ↔ memory.Dependent start root current old k := fun k =>
    (hfound.complete rfl k).trans dependent_iff_reached.symm
  have hbefore : ∀ k ∈ plan.keys, k.table ∈ before := fun k hk =>
    (hfound.sound k hk).table_mem hloaded horder fun _ h => h.table_mem hloaded horder
  have htables : ∀ k ∈ plan.keys, k.table ∈ plan.schema.order := by
    intro k hk
    rw [horder]
    exact List.mem_append_left _ (hbefore k hk)
  have hrootFree : root ∉ plan.keys := fun h => hloaded.root_notMem horder (hbefore root h)
  rw [wp_bind]
  refine wp_mono (wp_detach plan.schema.order plan.keys) ?_ fun _ _ h => h
  intro _ detached hdetached
  rw [wp_bind]
  refine wp_mono (wp_ensureParentRows root current) ?_ fun _ _ h => h
  rintro _ detached ⟨rfl, hparents⟩
  rw [wp_bind]
  refine wp_mono (wp_update root current) ?_ fun _ _ h => h
  intro _ updated hupdated
  have hgone : ∀ k ∈ plan.keys, rowOf updated k = none := by
    intro k hk
    have hne : k ≠ root := fun h => hrootFree (h ▸ hk)
    rw [hupdated k, if_neg hne, hdetached k, if_pos ⟨hk, htables k hk⟩]
  refine wp_mono (wp_restore plan.schema.order plan.keys hgone) ?_ fun _ _ h => h
  intro _ final hrestored
  have hfinal : memory.Transitioned start final root current old :=
    { root_row := by
        rw [hrestored.other root fun h => hrootFree h.1, hupdated root, if_pos rfl]
      root_independent := fun h => hrootFree ((hplan root).mpr h)
      dependents := fun k hk =>
        hrestored.restored k ⟨(hplan k).mpr hk, htables k ((hplan k).mpr hk)⟩
      others := by
        intro k hne hfree
        have hk : k ∉ plan.keys := fun h => hfree ((hplan k).mp h)
        rw [hrestored.other k fun h => hk h.1, hupdated k, if_neg hne, hdetached k,
          if_neg fun h => hk h.1] }
  refine ⟨hfinal, fun k row hrow => ?_⟩
  by_cases hk : k ∈ plan.keys
  · exact hrestored.parents k row ⟨hk, htables k hk⟩ hrow
  by_cases hne : k = root
  · -- The parents of the root are in other tables, so the update leaves them.
    subst hne
    obtain rfl : current = row := Option.some.inj (hfinal.root_row.symm.trans hrow)
    intro parent relation hrelation htable hvalues
    obtain ⟨other, parentRow, hparentRow, hparent, hreferences⟩ :=
      hparents parent relation hrelation htable hvalues
    have hother : other ≠ k := by
      rintro rfl
      have hself := hloaded.childrenFirst before other.table [] horder relation (hparent ▸ hrelation)
      exact hloaded.root_notMem horder (htable ▸ hself)
    refine ⟨other, parentRow, hrestored.grows other parentRow ?_, hparent, hreferences⟩
    rw [hupdated other, if_neg hother, hparentRow]
  · exact hfinal.hasParents hroot hkeys hne (fun h => hk ((hplan k).mpr h)) hrow

/-- A transition that succeeds replaces the root, takes exactly the dependent rows from the source
and leaves the foreign keys intact. With enough steps it ends in a result of its own. -/
theorem transition_replaces (memory : Memory rank ε) (start : Database rank) (root : RowKey)
    (current old : Row) (limits : Limits) (hroot : rowOf start root = some old)
    (hkeys : memory.ForeignKeysHold start) :
    (∀ fuel final, transition memory.backend fuel root current old limits start = (.ok (), final) →
      memory.Transitioned start final root current old ∧ memory.ForeignKeysHold final) ∧
    ∀ fuel, memory.readBound limits start < fuel → ∀ e,
      (transition memory.backend fuel root current old limits start).1 = .error e →
        e ≠ .panicked ∧ e ≠ .diverged := by
  constructor
  · intro fuel final hrun
    have hwp : wp (transition memory.backend fuel root current old limits) _ _ start :=
      wp_transition fuel hroot hkeys
    have hresult := wp_value hwp hrun
    exact hresult
  · intro fuel hfuel e he
    have hwp : wp (transition memory.backend fuel root current old limits) _ _ start :=
      wp_transition fuel hroot hkeys
    have hwithin := wp_error hwp (Prod.ext he rfl)
    exact ⟨hwithin.1, fun h => absurd (hwithin.2 h) (Nat.not_le.mpr hfuel)⟩

end Memory

/-! ## A reparented subtree -/

/-- Deletes and updates are refused while rows reference the row. -/
def restrict {κ : Type} [LinearOrder κ] {rank : RowKey ↪ κ} (relations : String → List Relation) :
    Call → Database rank → Option String
  | .delete key, target | .update key _, target =>
    match rowOf target key with
    | none => none
    | some row =>
      if (relations key.table).any fun relation => !(dependents target relation row).rows.isEmpty then
        some "restrict"
      else none
  | _, _ => none

/-- Children reference parents, and grandchildren reference children, by value. -/
def familyRelations (table : String) : List Relation :=
  if table = "parent" then [⟨"child", ["value"], ["value"]⟩]
  else if table = "child" then [⟨"grandchild", ["value"], ["value"]⟩]
  else []

def familyRow (id value : String) : Row := [("id", some id), ("value", some value)]

/-- The source has the new value in every level and lacks one child. -/
def familySource : Database (Function.Embedding.refl RowKey) where
  rows := [(⟨"child", ["2"]⟩, familyRow "2" "new"), (⟨"grandchild", ["4"]⟩, familyRow "4" "new"),
    (⟨"parent", ["1"]⟩, familyRow "1" "new")]
  sorted := by decide +kernel

def familyTarget : Database (Function.Embedding.refl RowKey) where
  rows := [(⟨"child", ["2"]⟩, familyRow "2" "old"), (⟨"child", ["3"]⟩, familyRow "3" "old"),
    (⟨"grandchild", ["4"]⟩, familyRow "4" "old"), (⟨"parent", ["1"]⟩, familyRow "1" "old")]
  sorted := by decide +kernel

def familyMemory : Memory (Function.Embedding.refl RowKey) String where
  source := familySource
  parents := ["child", "parent"]
  relations := familyRelations
  relations_eq_nil table htable := by
    simp only [List.mem_cons, List.not_mem_nil, or_false, not_or] at htable
    simp [familyRelations, htable]
  pageLength limit _ _ := limit
  pageLength_pos _ _ _ hlimit _ := hlimit
  refuses := restrict familyRelations
  absent _ := "absent"
  duplicate _ := "duplicate"

/-- The parent changes its value. -/
def familyRun : Except (Error String) Unit × Database (Function.Embedding.refl RowKey) :=
  transition familyMemory.backend 30 ⟨"parent", ["1"]⟩ (familyRow "1" "new") (familyRow "1" "old")
    ⟨1, 20⟩ familyTarget

theorem familyRun_ok : familyRun.1 = .ok () := by decide +kernel

theorem familyTarget_foreignKeysHold : familyMemory.ForeignKeysHold familyTarget := by
  have hall : ∀ entry ∈ familyTarget.rows,
      familyMemory.missingParents entry.1.table entry.2 familyTarget = [] := by decide +kernel
  intro key row hrow
  exact Memory.hasParents_of_missingParents (hall _ (rowOf_eq_some.mp hrow))

/-- The run succeeds, so the whole subtree is that of the source. -/
theorem transition_replaces_family :
    rowOf familyTarget ⟨"parent", ["1"]⟩ = some (familyRow "1" "old") ∧
    familyRun.1 = .ok () ∧ familyRun.2.rows = familySource.rows ∧
    familyMemory.Transitioned familyTarget familyRun.2 ⟨"parent", ["1"]⟩ (familyRow "1" "new")
      (familyRow "1" "old") ∧ familyMemory.ForeignKeysHold familyRun.2 := by
  have hroot : rowOf familyTarget ⟨"parent", ["1"]⟩ = some (familyRow "1" "old") := by
    decide +kernel
  have hresult := (Memory.transition_replaces familyMemory familyTarget ⟨"parent", ["1"]⟩
    (familyRow "1" "new") (familyRow "1" "old") ⟨1, 20⟩ hroot familyTarget_foreignKeysHold).1 30
    familyRun.2 (Prod.ext familyRun_ok rfl)
  exact ⟨hroot, familyRun_ok, by decide +kernel, hresult⟩

end BinlogCdc.FkTransition
