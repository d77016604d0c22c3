import BinlogCdc.Core.Result
import BinlogCdc.Sync.Prerequisite
import BinlogCdc.Sync.TransitionReads
import BinlogCdc.Sync.TransitionResult

/-!
# What the repair of parents leaves

The repairs end: each nested one adds a key of the source to the keys being repaired, and the
set is as it was on every way out. A repair that succeeds writes source rows only, a row that
it removes is not in the source, and the foreign keys of the target hold. The parents of a
row of a batch are there after its own repair; the repair of a later row can take away a
parent that the source does not have.
-/

namespace BinlogCdc.FkTransition

open Prog

variable {κ : Type} [LinearOrder κ] {rank : RowKey ↪ κ} {foreignKeys : List ForeignKey}

/-! ## Foreign keys -/

theorem mem_relatedRows {database : Database rank} {table : String} {columns : List String}
    {values : List (Option String)} {entry : RowKey × Row} :
    entry ∈ (relatedRows database table columns values).rows ↔
      rowOf database entry.1 = some entry.2 ∧ entry.1.table = table ∧
        HasValues columns values entry.2 := by
  rw [rowOf_eq_some]
  simp [relatedRows]

/-- The reference of a row has the values of the referencing columns. -/
theorem parentReferenceFromRow_eq_ok {key : ForeignKey} {desired : Row}
    {reference : Option ParentReference} (h : parentReferenceFromRow key desired = .ok reference) :
    reference = (key.values desired).map fun values =>
      ⟨key.referencedTable, key.referencedColumns, values⟩ := by
  obtain ⟨values, hvalues, h⟩ := bind_eq_ok.mp h
  cases h
  have hcolumns : ∀ read : String → Except String (Option String),
      (∀ column value, read column = .ok value → desired.value column = value) →
      ∀ (columns : List String) (values : List (Option String)),
        columns.mapM read = .ok values → values.mapM id = columns.mapM desired.value := by
    intro read hread columns
    induction columns with
    | nil =>
      rintro values ⟨⟩
      rfl
    | cons column columns ih =>
      intro values hvalues
      rw [List.mapM_cons] at hvalues
      obtain ⟨value, hvalue, hvalues⟩ := bind_eq_ok.mp hvalues
      obtain ⟨rest, hrest, hvalues⟩ := bind_eq_ok.mp hvalues
      cases hvalues
      rw [List.mapM_cons, List.mapM_cons, ih rest hrest, hread column value hvalue]
      rfl
  rw [hcolumns _ ?_ _ _ hvalues]
  · rfl
  · intro column value hvalue
    unfold Row.value
    cases hcolumn : desired.lookup column with
    | none =>
      rw [hcolumn] at hvalue
      cases hvalue
    | some found =>
      rw [hcolumn] at hvalue
      cases hvalue
      rfl

theorem ForeignKey.satisfied_iff {key : ForeignKey} {database : Database rank} {row : Row} :
    key.Satisfied database row ↔ ∀ values, key.values row = some values →
      (relatedRows database key.referencedTable key.referencedColumns (values.map some)).rows ≠ [] := by
  constructor
  · intro h values hvalues hempty
    obtain ⟨entry, hentry, htable, others, hothers, hparent⟩ := h (by rw [hvalues]; rfl)
    obtain rfl : others = values := by
      rw [hvalues] at hothers
      exact (Option.some.inj hothers).symm
    have hmem : entry ∈ (relatedRows database key.referencedTable key.referencedColumns
        (others.map some)).rows := mem_relatedRows.mpr ⟨rowOf_eq_some.mpr hentry, htable, hparent⟩
    rw [hempty] at hmem
    cases hmem
  · intro h hsome
    obtain ⟨values, hvalues⟩ := Option.isSome_iff_exists.mp hsome
    obtain ⟨entry, hentry⟩ := List.exists_mem_of_ne_nil _ (h values hvalues)
    obtain ⟨hrow, htable, hparent⟩ := mem_relatedRows.mp hentry
    exact ⟨entry, rowOf_eq_some.mp hrow, htable, values, hvalues, hparent⟩

/-- A row keeps its parents when every parent is kept or has a stand-in. -/
theorem HasParents.keep {database database' : Database rank} {table : String} {row : Row}
    (h : HasParents foreignKeys database table row)
    (hkeep : ∀ key ∈ foreignKeys, key.table = table → ∀ k parent, rowOf database k = some parent →
      k.table = key.referencedTable → key.References row parent →
      ∃ parent', rowOf database' k = some parent' ∧ key.References row parent') :
    HasParents foreignKeys database' table row := by
  intro key hkey htable hsome
  obtain ⟨entry, hentry, hparent, hreferences⟩ := h key hkey htable hsome
  obtain ⟨parent', hparent', hreferences'⟩ :=
    hkeep key hkey htable entry.1 entry.2 (rowOf_eq_some.mpr hentry) hparent hreferences
  exact ⟨(entry.1, parent'), rowOf_eq_some.mp hparent', hparent, hreferences'⟩

theorem ForeignKey.References.of_unchanged {key : ForeignKey} {row old new : Row}
    (h : key.References row old)
    (hsame : ∀ column ∈ key.referencedColumns, new.value column = old.value column) :
    key.References row new := by
  obtain ⟨values, hvalues, hold⟩ := h
  refine ⟨values, hvalues, fun pair hpair => ?_⟩
  rw [hsame pair.1 (List.of_mem_zip hpair).1]
  exact hold pair hpair

/-! ## Writes of the target -/

theorem foreignKeysHold_iff {database : Database rank} : ForeignKeysHold foreignKeys database ↔
    ∀ key row, rowOf database key = some row → HasParents foreignKeys database key.table row := by
  constructor
  · intro h key row hrow
    exact h (key, row) (rowOf_eq_some.mp hrow)
  · intro h entry hentry
    exact h entry.1 entry.2 (rowOf_eq_some.mpr hentry)

/-- A row that replaces another one, which no other row references through a changed column. -/
theorem ForeignKeysHold.put {target : Database rank} (h : ForeignKeysHold foreignKeys target)
    {key : RowKey} {row : Row}
    (hold : ∀ old, rowOf target key = some old → ¬ Restricts foreignKeys target key old (some row))
    (hparents : HasParents foreignKeys (target.put (key, row)) key.table row) :
    ForeignKeysHold foreignKeys (target.put (key, row)) := by
  rw [foreignKeysHold_iff] at h ⊢
  intro other otherRow hother
  rw [rowOf_put] at hother
  by_cases hkey : other = key
  · rw [if_pos hkey] at hother
    cases hother
    rw [hkey]
    exact hparents
  · rw [if_neg hkey] at hother
    refine (h other otherRow hother).keep fun foreignKey hforeign htable k parent hk hktable href => ?_
    rw [rowOf_put]
    by_cases hparent : k = key
    · refine ⟨row, if_pos hparent, href.of_unchanged fun column hcolumn => ?_⟩
      subst hparent
      by_contra hchanged
      refine hold parent hk ⟨foreignKey, hforeign, hktable.symm, ?_, (other, otherRow),
        rowOf_eq_some.mp hother, hkey, htable.symm, href⟩
      rintro _ ⟨⟩
      exact ⟨column, hcolumn, hchanged⟩
    · exact ⟨parent, by rw [if_neg hparent]; exact hk, href⟩

/-- A row goes that no other row references. -/
theorem ForeignKeysHold.erase {target : Database rank} (h : ForeignKeysHold foreignKeys target)
    {key : RowKey} {old : Row} (hrow : rowOf target key = some old)
    (hold : ¬ Restricts foreignKeys target key old none) :
    ForeignKeysHold foreignKeys (target.erase [rank key]) := by
  rw [foreignKeysHold_iff] at h ⊢
  intro other otherRow hother
  rw [rowOf_erase] at hother
  split at hother
  case isTrue => cases hother
  case isFalse hkey =>
    refine (h other otherRow hother).keep fun foreignKey hforeign htable k parent hk hktable href => ?_
    refine ⟨parent, ?_, href⟩
    rw [rowOf_erase, if_neg]
    · exact hk
    · rintro rfl
      obtain rfl : old = parent := Option.some.inj (hrow.symm.trans hk)
      exact hold ⟨foreignKey, hforeign, hktable.symm, nofun, (other, otherRow),
        rowOf_eq_some.mp hother, hkey, htable.symm, href⟩

theorem Write.apply_insert {target target' : Database rank} {key : RowKey} {row : Row}
    (h : (Write.insert key row).apply foreignKeys target = .ok target') :
    rowOf target key = none ∧ HasParents foreignKeys (target.put (key, row)) key.table row ∧
      target' = target.put (key, row) := by
  simp only [Write.apply] at h
  split at h
  case isTrue => cases h
  case isFalse habsent =>
    split at h
    case isFalse => cases h
    case isTrue hparents =>
      cases h
      exact ⟨by simpa using habsent, hparents, rfl⟩

theorem Write.apply_update {target target' : Database rank} {key : RowKey} {row : Row}
    (h : (Write.update key row).apply foreignKeys target = .ok target') :
    rowOf target key = none ∧ target' = target ∨
      ∃ old, rowOf target key = some old ∧ ¬ Restricts foreignKeys target key old (some row) ∧
        HasParents foreignKeys (target.put (key, row)) key.table row ∧
        target' = target.put (key, row) := by
  simp only [Write.apply] at h
  split at h
  case h_1 hrow =>
    cases h
    exact Or.inl ⟨hrow, rfl⟩
  case h_2 old hrow =>
    split at h
    case isTrue => cases h
    case isFalse hfree =>
      split at h
      case isFalse => cases h
      case isTrue hparents =>
        cases h
        exact Or.inr ⟨old, hrow, hfree, hparents, rfl⟩

theorem Write.apply_delete {target target' : Database rank} {key : RowKey}
    (h : (Write.delete key).apply foreignKeys target = .ok target') :
    rowOf target key = none ∧ target' = target ∨
      ∃ old, rowOf target key = some old ∧ ¬ Restricts foreignKeys target key old none ∧
        target' = target.erase [rank key] := by
  simp only [Write.apply] at h
  split at h
  case h_1 hrow =>
    cases h
    exact Or.inl ⟨hrow, rfl⟩
  case h_2 old hrow =>
    split at h
    case isTrue => cases h
    case isFalse hfree =>
      cases h
      exact Or.inr ⟨old, hrow, hfree, rfl⟩

/-- A write that is accepted keeps the foreign keys. -/
theorem Write.apply_holds {write : Write} {target target' : Database rank}
    (h : write.apply foreignKeys target = .ok target') (hold : ForeignKeysHold foreignKeys target) :
    ForeignKeysHold foreignKeys target' := by
  cases write with
  | insert key row =>
    obtain ⟨habsent, hparents, rfl⟩ := Write.apply_insert h
    refine hold.put (fun old hrow => ?_) hparents
    rw [habsent] at hrow
    cases hrow
  | update key row =>
    obtain ⟨-, rfl⟩ | ⟨old, hrow, hfree, hparents, rfl⟩ := Write.apply_update h
    · exact hold
    · refine hold.put (fun other hother => ?_) hparents
      obtain rfl : old = other := Option.some.inj (hrow.symm.trans hother)
      exact hfree
  | delete key =>
    obtain ⟨-, rfl⟩ | ⟨old, hrow, hfree, rfl⟩ := Write.apply_delete h
    · exact hold
    · exact hold.erase hrow hfree

/-! ## Reads of the session -/

/-- The failure has a message: the process goes on. -/
def RepairFailure.Calm (failure : RepairFailure) : Prop := ∃ text, failure = .message text

theorem RepairFailure.calm_message (text : String) : (RepairFailure.message text).Calm := ⟨text, rfl⟩

theorem RepairFailure.Calm.labelled {failure : RepairFailure} (h : failure.Calm) (label : String) :
    (failure.labelled label).Calm := by
  obtain ⟨text, rfl⟩ := h
  exact ⟨_, rfl⟩

theorem describeTransitionError_calm {e : Error RepairFailure}
    (h : e.Regular RepairFailure.Calm) (hbound : e ≠ .diverged) :
    (describeTransitionError e).Calm := by
  cases e with
  | backend failure => exact h.2 failure rfl
  | panicked => exact absurd rfl h.1
  | diverged => exact absurd rfl hbound
  | _ => exact ⟨_, rfl⟩

namespace TransitionContext

variable {context : TransitionContext rank} {s : RepairState rank}

/-- The state is left as it is, with a value that satisfies a property, or the failure is calm. -/
abbrev Reading {α : Type} (c : Repair rank α) (s : RepairState rank) (Q : α → Prop) : Prop :=
  wp c (fun a s' => s' = s ∧ Q a) (fun e s' => s' = s ∧ e.Calm) s

theorem Reading.looks {α : Type} {c : Repair rank α} {Q : RepairState rank → α → Prop}
    (h : ∀ s, Reading c s (Q s)) : Looks RepairFailure.Calm c := fun s =>
  wp_mono (h s) (fun _ _ h => h.1) fun _ _ h => h

theorem Reading.bind {α β : Type} {c : Repair rank α} {f : α → Repair rank β} {Q : α → Prop}
    {R : β → Prop} (h : Reading c s Q) (hf : ∀ a, Q a → Reading (f a) s R) :
    Reading (c >>= f) s R := by
  unfold Reading
  rw [wp_bind]
  refine wp_mono h ?_ fun _ _ h => h
  rintro a _ ⟨rfl, ha⟩
  exact hf a ha

theorem Reading.pure {α : Type} {a : α} {Q : α → Prop} (h : Q a) :
    Reading (Pure.pure a : Repair rank α) s Q := ⟨rfl, h⟩

theorem Reading.fail {α : Type} {text : String} {Q : α → Prop} :
    Reading (Prog.fail (.message text) : Repair rank α) s Q := ⟨rfl, ⟨_, rfl⟩⟩

theorem reading_decided {α : Type} (result : Except String α) :
    Reading (decided result : Repair rank α) s fun a => result = .ok a := by
  cases result with
  | ok a => exact ⟨rfl, rfl⟩
  | error text => exact ⟨rfl, _, rfl⟩

theorem reading_query {α : Type} (read : Read) (fromSource : Bool) (operation : String)
    (answer : Database rank → α) :
    Reading (context.query read fromSource operation answer) s
      fun a => a = answer (context.database fromSource s) := by
  unfold query
  cases context.unbuilt (.inl read) with
  | some text => exact .fail
  | none =>
    unfold Reading
    dsimp only
    rw [wp_bind, wp_reads]
    cases context.readFails read fromSource (context.database fromSource s) with
    | some error => exact ⟨rfl, _, rfl⟩
    | none => exact ⟨rfl, rfl⟩

theorem reading_exact (key : RowKey) (fromSource : Bool) :
    Reading (context.exact key fromSource) s
      fun row => row = rowOf (context.database fromSource s) key := by
  unfold exact
  refine (reading_decided _).bind fun table _ => ?_
  split
  case isTrue => exact Reading.fail.bind (Q := fun _ => False) fun _ h => h.elim
  case isFalse => exact reading_query _ _ _ _

/-- A reference leads to a related row, or there is none. -/
theorem reading_readParentReference (reference : ParentReference) (fromSource : Bool) :
    Reading (context.readParentReference reference fromSource) s fun row =>
      (row.isNone = true ↔ (relatedRows (context.database fromSource s) reference.table
        reference.columns (reference.values.map some)).rows = []) ∧
      ∀ entry ∈ row, entry ∈ (relatedRows (context.database fromSource s) reference.table
        reference.columns (reference.values.map some)).rows := by
  unfold readParentReference
  refine (reading_decided _).bind fun table _ => ?_
  refine (reading_decided _).bind fun _ _ => ?_
  refine (reading_query _ _ _ _).bind fun rows hrows => ?_
  have hlimit : (if fromSource then 2 else 1) ≠ 0 := by cases fromSource <;> decide
  have hempty : rows = [] ↔ (relatedRows (context.database fromSource s) reference.table
      reference.columns (reference.values.map some)).rows = [] := by
    rw [hrows, List.take_eq_nil_iff, or_iff_right hlimit]
  have hmem : ∀ entry ∈ rows, entry ∈ (relatedRows (context.database fromSource s) reference.table
      reference.columns (reference.values.map some)).rows := fun entry hentry => by
    rw [hrows] at hentry
    exact List.mem_of_mem_take hentry
  clear hrows
  match rows, hempty, hmem with
  | [], hempty, _ => exact .pure ⟨⟨fun _ => hempty.mp rfl, fun _ => rfl⟩, nofun⟩
  | [row], hempty, hmem =>
    refine .pure ⟨⟨nofun, fun h => absurd (hempty.mpr h) (List.cons_ne_nil _ _)⟩, ?_⟩
    rintro _ ⟨⟩
    exact hmem row (List.mem_singleton.mpr rfl)
  | _ :: _ :: _, _, _ => exact .fail

theorem reading_collectMissing (references : List ParentReference) :
    Reading (context.collectMissing references) s fun missing =>
      missing = [] ↔ ∀ reference ∈ references, (relatedRows s.target reference.table
        reference.columns (reference.values.map some)).rows ≠ [] := by
  induction references with
  | nil => exact .pure ⟨fun _ => List.forall_mem_nil _, fun _ => rfl⟩
  | cons reference references ih =>
    unfold collectMissing
    refine (reading_readParentReference reference false).bind fun row hrow => ?_
    refine ih.bind fun missing hmissing => .pure ?_
    have hfirst : row.isNone = true ↔ (relatedRows s.target reference.table reference.columns
        (reference.values.map some)).rows = [] := hrow.1
    rw [List.forall_mem_cons, ← hmissing, ne_eq, ← hfirst]
    by_cases hnone : row.isNone = true <;> simp [hnone]

/-- The missing parents are none exactly if the row has its parents. -/
theorem reading_readMissingParents (table : String) (desired : Row) :
    Reading (context.readMissingParents table desired) s fun missing =>
      missing = [] ↔ HasParents context.foreignKeys s.target table desired := by
  unfold readMissingParents
  refine (reading_decided _).bind fun references hreferences => ?_
  have hcollect : Reading (context.collectMissing references.reduceOption) s _ :=
    reading_collectMissing _
  refine wp_mono hcollect ?_ fun _ _ h => h
  rintro missing s' ⟨hs', hmissing⟩
  refine ⟨hs', hmissing.trans ?_⟩
  have hall : ∀ (keys : List ForeignKey) (references : List (Option ParentReference)),
      keys.mapM (fun key => parentReferenceFromRow key desired) = .ok references →
      ((∀ reference ∈ references.reduceOption, (relatedRows s.target reference.table
          reference.columns (reference.values.map some)).rows ≠ []) ↔
        ∀ key ∈ keys, key.Satisfied s.target desired) := by
    intro keys
    induction keys with
    | nil =>
      rintro references ⟨⟩
      simp
    | cons key keys ih =>
      intro references hreferences
      rw [List.mapM_cons] at hreferences
      obtain ⟨reference, hreference, hreferences⟩ := bind_eq_ok.mp hreferences
      obtain ⟨rest, hrest, hreferences⟩ := bind_eq_ok.mp hreferences
      cases hreferences
      rw [parentReferenceFromRow_eq_ok hreference, List.forall_mem_cons, ← ih rest hrest,
        ForeignKey.satisfied_iff]
      cases key.values desired with
      | none => simp [List.reduceOption_cons_of_none]
      | some values => simp [List.reduceOption_cons_of_some]
  rw [hall _ _ hreferences]
  simp [HasParents]

theorem looks_dependentPage (relation : Relation) (old : Row) (after : Option Key)
    (limit byteLimit : Nat) :
    Looks RepairFailure.Calm (context.dependentPage relation old after limit byteLimit) := by
  have hreading : ∀ s, Reading (context.dependentPage relation old after limit byteLimit) s
      fun _ => True := by
    intro s
    unfold dependentPage
    refine (reading_decided _).bind fun table _ => ?_
    refine (reading_decided _).bind fun values _ => ?_
    split
    case isTrue => exact .pure trivial
    case isFalse =>
      refine (reading_decided _).bind fun _ _ => ?_
      refine (reading_query _ _ _ _).bind fun rows _ => ?_
      split
      · exact .pure trivial
      · exact .pure trivial
  exact Reading.looks hreading

/-! ## Writes of the session -/

/-- A failure keeps the keys being repaired. -/
def Stopped (s : RepairState rank) (e : RepairFailure) (s' : RepairState rank) : Prop :=
  s'.visiting = s.visiting ∧ e.Calm

theorem wp_send (write : Write) :
    wp (context.send write) (fun result s' => match result with
      | .ok () => ∃ target', write.apply context.foreignKeys s.target = .ok target' ∧
          s' = { s with target := target', written := s.written ++ write.rows s.target }
      | .error _ => s' = s) (Stopped s) s := by
  unfold send
  cases context.unbuilt (.inr write) with
  | some text => exact ⟨rfl, _, rfl⟩
  | none =>
    dsimp only
    rw [wp_bind, wp_reads]
    cases context.writeFails write s.target with
    | some error => exact rfl
    | none =>
      cases happly : write.apply context.foreignKeys s.target with
      | error error => exact rfl
      | ok target' => exact ⟨target', rfl, rfl⟩

theorem wp_executeStatement (write : Write) :
    wp (context.executeStatement write) (fun _ s' => ∃ target',
        write.apply context.foreignKeys s.target = .ok target' ∧
        s' = { s with target := target', written := s.written ++ write.rows s.target })
      (Stopped s) s := by
  unfold executeStatement
  rw [wp_bind]
  refine wp_mono (wp_send write) ?_ fun _ _ h => h
  intro result s' h
  cases result with
  | ok _ => exact h
  | error error =>
    obtain rfl : s' = s := h
    exact ⟨rfl, _, rfl⟩

theorem wp_verifyWritten (key : RowKey) (desired : Row) :
    wp (context.verifyWritten key desired)
      (fun _ s' => s' = s ∧ rowOf s.target key = some desired) (Stopped s) s := by
  unfold verifyWritten
  rw [wp_bind]
  refine wp_mono (reading_exact key false) ?_ ?_
  · rintro row _ ⟨rfl, hrow⟩
    split
    case isTrue => exact ⟨rfl, _, rfl⟩
    case isFalse hsame => exact ⟨rfl, hrow.symm.trans (not_not.mp hsame)⟩
  · rintro e _ ⟨rfl, he⟩
    exact ⟨rfl, he⟩

variable (context) in
/-- A row is written: it is in the place of the row of its key. -/
structure Wrote (key : RowKey) (row : Option Row) (s s' : RepairState rank) : Prop where
  visiting : s'.visiting = s.visiting
  foreignKeys : ForeignKeysHold context.foreignKeys s.target →
    ForeignKeysHold context.foreignKeys s'.target
  rows : ∀ k, rowOf s'.target k = if k = key then row else rowOf s.target k
  written : s'.written = s.written ++ (row.map (Prod.mk key)).toList

theorem wp_decided_table {α : Type} {result : Except String α} {c : Repair rank Unit}
    {Q : Unit → RepairState rank → Prop} (h : wp c Q (Stopped s) s) :
    wp (decided result >>= fun _ => c) Q (Stopped s) s := by
  rw [wp_bind]
  refine wp_mono (reading_decided result) ?_ ?_
  · rintro _ _ ⟨rfl, -⟩
    exact h
  · rintro e _ ⟨rfl, he⟩
    exact ⟨rfl, he⟩

/-- An accepted update that is read back has written its row. -/
theorem wrote_update {key : RowKey} {desired : Row} {target' : Database rank}
    (h : (Write.update key desired).apply context.foreignKeys s.target = .ok target')
    (hrow : rowOf target' key = some desired) :
    context.Wrote key (some desired) s { s with
      target := target'
      written := s.written ++ (Write.update key desired).rows s.target } := by
  have hpresent : (rowOf s.target key).isSome = true ∧ target' = s.target.put (key, desired) := by
    obtain ⟨hnone, rfl⟩ | ⟨old, hold, -, -, rfl⟩ := Write.apply_update h
    · rw [hnone] at hrow
      cases hrow
    · exact ⟨by rw [hold]; rfl, rfl⟩
  refine ⟨rfl, Write.apply_holds h, fun k => ?_, ?_⟩
  · rw [hpresent.2]
    exact rowOf_put s.target key k desired
  · simp [Write.rows, hpresent.1]

theorem wp_write (key : RowKey) (desired : Row) (insert : Bool) :
    wp (context.write key desired insert)
      (fun _ s' => context.Wrote key (some desired) s s') (Stopped s) s := by
  unfold write
  refine wp_decided_table ?_
  rw [wp_bind]
  cases insert with
  | true =>
    refine wp_mono (wp_executeStatement (.insert key desired)) ?_ fun _ _ h => h
    rintro _ s' ⟨target', happly, rfl⟩
    refine wp_mono (wp_verifyWritten key desired) ?_ fun _ _ h => h
    rintro _ _ ⟨rfl, -⟩
    obtain ⟨-, -, rfl⟩ := Write.apply_insert happly
    exact ⟨rfl, Write.apply_holds happly, fun k => rowOf_put s.target key k desired, rfl⟩
  | false =>
    refine wp_mono (wp_executeStatement (.update key desired)) ?_ fun _ _ h => h
    rintro _ s' ⟨target', happly, rfl⟩
    refine wp_mono (wp_verifyWritten key desired) ?_ fun _ _ h => h
    rintro _ _ ⟨rfl, hrow⟩
    exact wrote_update happly hrow

theorem wp_delete (key : RowKey) :
    wp (context.delete key) (fun _ s' => context.Wrote key none s s') (Stopped s) s := by
  unfold delete
  refine wp_decided_table ?_
  rw [wp_bind]
  refine wp_mono (wp_executeStatement (.delete key)) ?_ fun _ _ h => h
  rintro _ s' ⟨target', happly, rfl⟩
  rw [wp_bind]
  refine wp_mono (reading_exact key false) ?_ ?_
  · rintro row _ ⟨rfl, -⟩
    split
    case isTrue => exact ⟨rfl, _, rfl⟩
    case isFalse =>
      refine ⟨rfl, Write.apply_holds happly, fun k => ?_, rfl⟩
      obtain ⟨hnone, rfl⟩ | ⟨old, hold, -, rfl⟩ := Write.apply_delete happly
      · dsimp only
        split
        case isTrue hk => rw [hk, hnone]
        case isFalse => rfl
      · exact rowOf_erase s.target key k
  · rintro e _ ⟨rfl, he⟩
    exact ⟨rfl, he⟩

/-! ## Towards the source -/

variable (context) in
/-- What a repair has done so far: some rows are gone, some of them are back as the source has
them, and any other row is as it was or as the source has it. -/
structure Repaired (gone back : RowKey → Prop) (s s' : RepairState rank) : Prop where
  visiting : s'.visiting = s.visiting
  foreignKeys : ForeignKeysHold context.foreignKeys s.target →
    ForeignKeysHold context.foreignKeys s'.target
  written : ∃ new, s'.written = s.written ++ new ∧
    ∀ entry ∈ new, rowOf context.source entry.1 = some entry.2
  kept : ∀ k, ¬ gone k → rowOf s'.target k = rowOf s.target k ∨
    rowOf s'.target k = rowOf context.source k
  gone : ∀ k, gone k → rowOf s'.target k = none ∨ rowOf s'.target k = rowOf context.source k
  back : ∀ k, back k → rowOf s'.target k = rowOf context.source k

/-- No row is gone. -/
abbrev nothing : RowKey → Prop := fun _ => False

namespace Repaired

variable {gone back : RowKey → Prop} {s' s'' : RepairState rank}

theorem refl (s : RepairState rank) : context.Repaired nothing nothing s s :=
  ⟨rfl, id, ⟨[], by simp⟩, fun _ _ => Or.inl rfl, fun _ h => h.elim, fun _ h => h.elim⟩

/-- Another repair follows. -/
theorem trans (h : context.Repaired gone back s s')
    (h' : context.Repaired nothing nothing s' s'') : context.Repaired gone back s s'' where
  visiting := h'.visiting.trans h.visiting
  foreignKeys hold := h'.foreignKeys (h.foreignKeys hold)
  written := by
    obtain ⟨new, hnew, hrows⟩ := h.written
    obtain ⟨new', hnew', hrows'⟩ := h'.written
    refine ⟨new ++ new', by rw [hnew', hnew, List.append_assoc], fun entry hentry => ?_⟩
    exact (List.mem_append.mp hentry).elim (hrows entry) (hrows' entry)
  kept k hk := by
    rcases h'.kept k id with he | he
    · rw [he]
      exact h.kept k hk
    · exact Or.inr he
  gone k hk := by
    rcases h'.kept k id with he | he
    · rw [he]
      exact h.gone k hk
    · exact Or.inr he
  back k hk := by
    rcases h'.kept k id with he | he
    · rw [he]
      exact h.back k hk
    · exact he

/-- A row is deleted. -/
theorem delete (h : context.Repaired gone nothing s s') {key : RowKey}
    (hdelete : context.Wrote key none s' s'') :
    context.Repaired (fun k => gone k ∨ k = key) nothing s s'' where
  visiting := hdelete.visiting.trans h.visiting
  foreignKeys hold := hdelete.foreignKeys (h.foreignKeys hold)
  written := by
    obtain ⟨new, hnew, hrows⟩ := h.written
    exact ⟨new, by rw [hdelete.written, hnew]; simp, hrows⟩
  kept k hk := by
    rw [hdelete.rows k, if_neg fun hkey => hk (Or.inr hkey)]
    exact h.kept k fun hgone => hk (Or.inl hgone)
  gone k hk := by
    rw [hdelete.rows k]
    split
    case isTrue => exact Or.inl rfl
    case isFalse hkey => exact h.gone k (hk.resolve_right hkey)
  back k hk := hk.elim

/-- A row is written as the source has it. -/
theorem write (h : context.Repaired gone back s s') {key : RowKey} {row : Row}
    (hsource : rowOf context.source key = some row) (hwrite : context.Wrote key (some row) s' s'') :
    context.Repaired gone (fun k => back k ∨ k = key) s s'' := by
  have hrow : ∀ k, (k = key ∧ rowOf s''.target k = rowOf context.source k) ∨
      (k ≠ key ∧ rowOf s''.target k = rowOf s'.target k) := by
    intro k
    rw [hwrite.rows k]
    by_cases hkey : k = key
    · rw [if_pos hkey, hkey, hsource]
      exact Or.inl ⟨rfl, rfl⟩
    · rw [if_neg hkey]
      exact Or.inr ⟨hkey, rfl⟩
  refine ⟨hwrite.visiting.trans h.visiting, fun hold => hwrite.foreignKeys (h.foreignKeys hold), ?_,
    fun k hk => ?_, fun k hk => ?_, fun k hk => ?_⟩
  · obtain ⟨new, hnew, hrows⟩ := h.written
    refine ⟨new ++ [(key, row)], by rw [hwrite.written, hnew]; simp, fun entry hentry => ?_⟩
    rcases List.mem_append.mp hentry with hentry | hentry
    · exact hrows entry hentry
    · rw [List.mem_singleton.mp hentry]
      exact hsource
  · rcases hrow k with ⟨-, he⟩ | ⟨-, he⟩
    · exact Or.inr he
    · rw [he]
      exact h.kept k hk
  · rcases hrow k with ⟨-, he⟩ | ⟨-, he⟩
    · exact Or.inr he
    · rw [he]
      exact h.gone k hk
  · rcases hrow k with ⟨-, he⟩ | ⟨hkey, he⟩
    · exact he
    · rw [he]
      exact h.back k (hk.resolve_right hkey)

/-- A row that is gone is not in the source. -/
theorem skip (h : context.Repaired gone back s s') {key : RowKey} (hkey : gone key)
    (hsource : rowOf context.source key = none) :
    context.Repaired gone (fun k => back k ∨ k = key) s s' where
  visiting := h.visiting
  foreignKeys := h.foreignKeys
  written := h.written
  kept := h.kept
  gone := h.gone
  back k hk := by
    rcases hk with hk | rfl
    · exact h.back k hk
    · rcases h.gone k hkey with he | he
      · rw [he, hsource]
      · exact he

/-- Every row that was gone is back as the source has it. -/
theorem finish (h : context.Repaired gone back s s') (hback : ∀ k, gone k → back k) :
    context.Repaired nothing nothing s s' where
  visiting := h.visiting
  foreignKeys := h.foreignKeys
  written := h.written
  kept k _ := by
    by_cases hk : gone k
    · exact Or.inr (h.back k (hback k hk))
    · exact h.kept k hk
  gone k hk := hk.elim
  back k hk := hk.elim

theorem congr {gone' back' : RowKey → Prop} (h : context.Repaired gone back s s')
    (hgone : ∀ k, gone k ↔ gone' k) (hback : ∀ k, back k ↔ back' k) :
    context.Repaired gone' back' s s' := by
  obtain rfl : gone = gone' := funext fun k => propext (hgone k)
  obtain rfl : back = back' := funext fun k => propext (hback k)
  exact h

end Repaired

/-! ## Transitions of the session -/

/-- A transition that fails keeps the keys being repaired. -/
def Abandoned (s : RepairState rank) (e : Error RepairFailure) (s' : RepairState rank) : Prop :=
  s'.visiting = s.visiting ∧ (describeTransitionError e).Calm

variable {gone back : RowKey → Prop} {s₁ : RepairState rank} {H : Prop}

theorem wp_backendCall {α : Type} {c : Repair rank α} {Q : α → RepairState rank → Prop}
    (hs : s₁.visiting = s.visiting) (h : wp c Q (Stopped s₁) s₁) :
    wp (mapError Error.backend c) Q (Abandoned s) s₁ := by
  rw [Prog.wp_mapError]
  refine wp_mono h (fun _ _ h => h) ?_
  rintro e s' ⟨hs', he⟩
  exact ⟨hs'.trans hs, he⟩

variable (context) in
/-- The keys being repaired are kept, and under a condition the rest of a repair holds too. -/
def Tracks (H : Prop) (gone back : RowKey → Prop) (s s' : RepairState rank) : Prop :=
  s'.visiting = s.visiting ∧ (H → context.Repaired gone back s s')

theorem Repaired.tracks {s' : RepairState rank} (h : context.Repaired gone back s s') :
    context.Tracks H gone back s s' := ⟨h.visiting, fun _ => h⟩

theorem Tracks.trans {s' s'' : RepairState rank} (h : context.Tracks H gone back s s')
    (h' : context.Repaired nothing nothing s' s'') : context.Tracks H gone back s s'' :=
  ⟨h'.visiting.trans h.1, fun hH => (h.2 hH).trans h'⟩

theorem wp_detach (ensure : String → Row → Repair rank Nat) (order : List String)
    (keys : List RowKey) :
    wp (detach (context.backend ensure) order keys)
      (fun _ s' => context.Repaired (fun k => k ∈ keys ∧ k.table ∈ order) nothing s s')
      (Abandoned s) s := by
  refine wp_forEach (fun tables s' => context.Repaired (fun k => k ∈ keys ∧ k.table ∈ tables)
    nothing s s') order _ ?_ ((Repaired.refl s).congr (by simp [nothing]) fun _ => Iff.rfl)
  intro done table rest s₁ _ htables
  have hinner := wp_forEach (E := Abandoned s) (s := s₁)
    (fun deleted s' => context.Repaired
      (fun k => (k ∈ keys ∧ k.table ∈ done) ∨ k ∈ deleted) nothing s s')
    (keysOf keys table) (fun key => mapError Error.backend ((context.backend ensure).delete key)) ?_
    (htables.congr (by simp) fun _ => Iff.rfl)
  · refine wp_mono hinner ?_ fun _ _ h => h
    intro _ s₂ h
    refine h.congr (fun k => ?_) fun _ => Iff.rfl
    simp only [Memory.mem_keysOf, List.mem_append, List.mem_singleton]
    tauto
  · intro deleted key _ s₂ _ h
    refine wp_backendCall h.visiting (wp_mono (wp_delete key) ?_ fun _ _ h => h)
    intro _ s₃ hdelete
    refine (h.delete hdelete).congr (fun k => ?_) fun _ => Iff.rfl
    simp only [List.mem_append, List.mem_singleton]
    tauto

section Ensured

variable {ensure : String → Row → Repair rank Nat} {v : Finset RowKey}
  (hensure : ∀ table desired s, s.visiting = v → wp (ensure table desired)
    (fun _ s' => context.Repaired nothing nothing s s') (Stopped s) s)

include hensure

theorem wp_ensureParentRows (child : RowKey) (desired : Row) (hs : s.visiting = v)
    (hs₁ : s₁.visiting = s.visiting) :
    wp (ensureParentRows (context.backend ensure) child desired)
      (fun _ s' => context.Repaired nothing nothing s₁ s') (Abandoned s) s₁ := by
  have hparents : wp ((context.backend ensure).ensureParents child.table desired)
      (fun _ s' => context.Repaired nothing nothing s₁ s') (Stopped s₁) s₁ := by
    change wp (ensure child.table desired >>= fun _ => _) _ _ _
    rw [wp_bind]
    refine wp_mono (hensure child.table desired s₁ (hs₁.trans hs)) ?_ fun _ _ h => h
    intro _ s₂ h
    have hreading : Reading (context.readMissingParents child.table desired) s₂ _ :=
      reading_readMissingParents _ _
    refine wp_mono hreading ?_ ?_
    · rintro _ _ ⟨rfl, -⟩
      exact h
    · rintro e _ ⟨rfl, he⟩
      exact ⟨h.visiting, he⟩
  unfold ensureParentRows
  rw [wp_bind]
  refine wp_mono (wp_backendCall hs₁ hparents) ?_ fun _ _ h => h
  intro missing s₂ h
  cases missing with
  | nil => exact h
  | cons parent rest => exact ⟨h.visiting.trans hs₁, _, rfl⟩

/-- A row that is gone is put back if the source has it. -/
theorem wp_restoreKey (hs : s.visiting = v) (h : context.Tracks H gone back s s₁) {key : RowKey}
    (hkey : gone key) :
    wp (restoreKey (context.backend ensure) key)
      (fun _ s' => context.Tracks H gone (fun k => back k ∨ k = key) s s') (Abandoned s) s₁ := by
  have hread : wp ((context.backend ensure).sourceRow key)
      (fun row s' => s' = s₁ ∧ row = rowOf context.source key) (Stopped s₁) s₁ := by
    refine wp_mono (reading_exact key true) (fun _ _ h => h) ?_
    rintro e _ ⟨rfl, he⟩
    exact ⟨rfl, he⟩
  unfold restoreKey
  rw [wp_bind]
  refine wp_mono (wp_backendCall h.1 hread) ?_ fun _ _ h => h
  rintro row _ ⟨rfl, hrow⟩
  cases row with
  | none => exact ⟨h.1, fun hH => (h.2 hH).skip hkey hrow.symm⟩
  | some desired =>
    dsimp only
    rw [wp_bind]
    refine wp_mono (wp_ensureParentRows hensure key desired hs h.1) ?_ fun _ _ h => h
    intro _ s₂ hparents
    have h₂ := h.trans hparents
    refine wp_backendCall h₂.1 (wp_mono (wp_write key desired true) ?_ fun _ _ h => h)
    intro _ s₃ hwrite
    exact ⟨hwrite.visiting.trans h₂.1, fun hH => (h₂.2 hH).write hrow.symm hwrite⟩

theorem wp_restore (hs : s.visiting = v) (order : List String) (keys : List RowKey)
    (h : context.Tracks H (fun k => k ∈ keys ∧ k.table ∈ order) back s s₁) :
    wp (restore (context.backend ensure) order keys)
      (fun _ s' => context.Tracks H nothing nothing s s') (Abandoned s) s₁ := by
  have hall := wp_forEach (E := Abandoned s) (s := s₁)
    (fun tables s' => context.Tracks H (fun k => k ∈ keys ∧ k.table ∈ order)
      (fun k => back k ∨ k ∈ keys ∧ k.table ∈ tables) s s') order.reverse
    (fun table => forEach (keysOf keys table) (restoreKey (context.backend ensure))) ?_ ?_
  · refine wp_mono hall ?_ fun _ _ h => h
    rintro _ s' ⟨hvisiting, h⟩
    exact ⟨hvisiting, fun hH => (h hH).finish fun k hk => Or.inr ⟨hk.1, List.mem_reverse.mpr hk.2⟩⟩
  · intro done table rest s₂ hsplit h₂
    have htable : table ∈ order := by
      rw [← List.mem_reverse, ← hsplit]
      simp
    have hinner := wp_forEach (E := Abandoned s) (s := s₂)
      (fun restored s' => context.Tracks H (fun k => k ∈ keys ∧ k.table ∈ order)
        (fun k => (back k ∨ k ∈ keys ∧ k.table ∈ done) ∨ k ∈ restored) s s')
      (keysOf keys table) (restoreKey (context.backend ensure)) ?_ ?_
    · refine wp_mono hinner ?_ fun _ _ h => h
      rintro _ s₃ ⟨hvisiting, h₃⟩
      refine ⟨hvisiting, fun hH => (h₃ hH).congr (fun _ => Iff.rfl) fun k => ?_⟩
      simp only [Memory.mem_keysOf, List.mem_append, List.mem_singleton]
      tauto
    · intro restored key tail s₃ hsplit' h₃
      have hkey : key ∈ keys ∧ key.table ∈ order := by
        have hmem : key ∈ keysOf keys table := by
          rw [← hsplit']
          simp
        obtain ⟨hmem, htable'⟩ := Memory.mem_keysOf.mp hmem
        exact ⟨hmem, htable' ▸ htable⟩
      refine wp_mono (wp_restoreKey hensure hs h₃ hkey) ?_ fun _ _ h => h
      rintro _ s₄ ⟨hvisiting, h₄⟩
      refine ⟨hvisiting, fun hH => (h₄ hH).congr (fun _ => Iff.rfl) fun k => ?_⟩
      simp only [List.mem_append, List.mem_singleton]
      tauto
    · exact ⟨h₂.1, fun hH => (h₂.2 hH).congr (fun _ => Iff.rfl) (by simp)⟩
  · exact ⟨h.1, fun hH => (h.2 hH).congr (fun _ => Iff.rfl) (by simp)⟩

omit hensure in
theorem backend_readOnly (ensure : String → Row → Repair rank Nat) :
    (context.backend ensure).ReadOnly RepairFailure.Calm where
  incoming _ _ := rfl
  dependentPage relation old after limit byteLimit :=
    looks_dependentPage relation old after limit byteLimit
  targetRow key := Reading.looks fun _ => reading_exact key false

omit hensure in
theorem backend_namesOnly (ensure : String → Row → Repair rank Nat) (root : String) :
    (context.backend ensure).NamesOnly (root :: context.foreignKeys.map ForeignKey.table) := by
  intro table s relations s' h relation hrelation
  have hrelations : relations = (context.foreignKeys.filter fun key =>
      decide (key.referencedTable = table)).map ForeignKey.relation := by
    cases h
    rfl
  rw [hrelations] at hrelation
  obtain ⟨key, hkey, rfl⟩ := List.mem_map.mp hrelation
  exact List.mem_cons_of_mem _ (List.mem_map_of_mem (List.mem_of_mem_filter hkey))

/-- A transition keeps the keys being repaired; with a source row for the root it is a repair. -/
theorem wp_coordinate (hs : s.visiting = v) (label : String) (root : RowKey) (current old : Row) :
    wp (context.coordinate ensure label root current old)
      (fun _ s' => context.Tracks (rowOf context.source root = some current) nothing nothing s s')
      (Stopped s) s := by
  have hdiscover : wp (discoverTransition (context.backend ensure) context.searchBound root
      (some current) old limits) (fun _ s' => s' = s) (Abandoned s) s := by
    have hfuel : limits.maxKeys < context.searchBound := by
      change usizeMax < usizeMax + context.foreignKeys.length + 2
      omega
    have htables : (root.table :: context.foreignKeys.map ForeignKey.table).length <
        context.searchBound := by
      simp only [List.length_cons, List.length_map, searchBound, usizeMax]
      omega
    have hboth := wp_and (s := s) (wp_discoverTransition_looks (backend_readOnly ensure) context.searchBound
      root (some current) old) (wp_discoverTransition_ends (backend_namesOnly ensure root.table)
      hfuel htables List.mem_cons_self (some current) old)
    refine wp_mono hboth (fun _ _ h => h.1) ?_
    rintro e s' ⟨⟨rfl, hregular⟩, hends⟩
    exact ⟨rfl, describeTransitionError_calm hregular hends⟩
  have htransition : wp (transition (context.backend ensure) context.searchBound root current old
      limits) (fun _ s' => context.Tracks (rowOf context.source root = some current) nothing nothing
        s s') (Abandoned s) s := by
    unfold transition
    rw [wp_bind]
    refine wp_mono hdiscover ?_ fun _ _ h => h
    rintro plan _ rfl
    rw [wp_bind]
    refine wp_mono (wp_detach ensure plan.schema.order plan.keys) ?_ fun _ _ h => h
    intro _ s₁ h₁
    rw [wp_bind]
    refine wp_mono (wp_ensureParentRows hensure root current hs h₁.visiting) ?_ fun _ _ h => h
    intro _ s₂ hparents
    have h₂ := h₁.trans hparents
    rw [wp_bind]
    refine wp_backendCall h₂.visiting (wp_mono (wp_write root current false) ?_ fun _ _ h => h)
    intro _ s₃ hwrite
    exact wp_restore hensure hs plan.schema.order plan.keys
      ⟨hwrite.visiting.trans h₂.visiting, fun hsource => h₂.write hsource hwrite⟩
  unfold coordinate
  rw [Prog.wp_mapError]
  refine wp_mono htransition (fun _ _ h => h) ?_
  rintro e s' ⟨hs', he⟩
  exact ⟨hs', he.labelled label⟩

/-- A parent is brought to its source row. -/
theorem wp_updateRequiredParent (hs : s.visiting = v) {key : RowKey} {source : Row} (old : Row)
    (hsource : rowOf context.source key = some source) :
    wp (context.updateRequiredParent ensure key source old)
      (fun _ s' => context.Repaired nothing nothing s s') (Stopped s) s := by
  unfold updateRequiredParent
  refine wp_decided_table ?_
  rw [wp_bind]
  refine wp_mono (wp_send (.update key source)) ?_ fun _ _ h => h
  intro result s₁ hresult
  cases result with
  | ok _ =>
    obtain ⟨target', happly, rfl⟩ := hresult
    refine wp_mono (wp_verifyWritten key source) ?_ fun _ _ h => h
    rintro _ _ ⟨rfl, hrow⟩
    exact ((Repaired.refl s).write hsource (wrote_update happly hrow)).finish fun _ h => h.elim
  | error error =>
    obtain rfl : s₁ = s := hresult
    dsimp only
    split
    case isTrue =>
      refine wp_mono (wp_coordinate hensure hs _ key source old) ?_ fun _ _ h => h
      exact fun _ _ h => h.2 hsource
    case isFalse => exact ⟨rfl, _, rfl⟩

theorem wp_restoreParent (hs : s.visiting = v) {key : RowKey} {source : Row}
    (hsource : rowOf context.source key = some source) :
    wp (repairRequiredParent.restoreParent context ensure key source)
      (fun _ s' => context.Repaired nothing nothing s s') (Stopped s) s := by
  unfold repairRequiredParent.restoreParent
  rw [wp_bind]
  refine wp_mono (hensure key.table source s hs) ?_ fun _ _ h => h
  intro _ s₁ h₁
  rw [wp_bind]
  have hstopped : ∀ e s', Stopped s₁ e s' → Stopped s e s' := fun e s' h =>
    ⟨h.1.trans h₁.visiting, h.2⟩
  refine wp_mono (reading_exact key false) ?_ ?_
  · rintro row _ ⟨rfl, -⟩
    cases row with
    | none =>
      refine wp_mono (wp_write key source true) ?_ hstopped
      intro _ s₂ hwrite
      exact (h₁.write hsource hwrite).finish fun _ h => h.elim
    | some old =>
      dsimp only
      split
      case isTrue =>
        refine wp_mono (wp_updateRequiredParent hensure (h₁.visiting.trans hs) old hsource) ?_
          hstopped
        exact fun _ _ h => h₁.trans h
      case isFalse => exact h₁
  · rintro e _ ⟨rfl, he⟩
    exact ⟨h₁.visiting, he⟩

end Ensured

/-! ## Repairs -/

theorem Repaired.leave {key : RowKey} {s' : RepairState rank}
    (h : context.Repaired nothing nothing { s with visiting := insert key s.visiting } s')
    (hkey : key ∉ s.visiting) :
    context.Repaired nothing nothing s { s' with visiting := s'.visiting.erase key } where
  visiting := by
    rw [h.visiting]
    exact Finset.erase_insert hkey
  foreignKeys := h.foreignKeys
  written := h.written
  kept := h.kept
  gone := h.gone
  back := h.back

/-- A key is among those being repaired while a program runs, and not longer. -/
theorem wp_visit {α : Type} {c : Repair rank α} {key : RowKey} (hkey : key ∉ s.visiting)
    {Q : α → RepairState rank → Prop}
    (h : wp c (fun a s' => s'.visiting = insert key s.visiting →
        Q a { s' with visiting := s'.visiting.erase key })
      (Stopped { s with visiting := insert key s.visiting })
      { s with visiting := insert key s.visiting })
    (hvisiting : wp c (fun _ s' => s'.visiting = insert key s.visiting) (fun _ _ => True)
      { s with visiting := insert key s.visiting }) :
    wp (andThen c fun s => { s with visiting := s.visiting.erase key }) Q (Stopped s)
      { s with visiting := insert key s.visiting } := by
  rw [wp_andThen]
  refine wp_mono (wp_and h hvisiting) (fun a s' h => h.1 h.2) ?_
  rintro e s' ⟨⟨hs', he⟩, -⟩
  refine ⟨?_, he⟩
  dsimp only at hs' ⊢
  rw [hs', Finset.erase_insert hkey]

variable (context) in
/-- The keys of the source. -/
def sourceKeys : Finset RowKey := (context.source.rows.map Prod.fst).toFinset

theorem mem_sourceKeys {key : RowKey} {row : Row} (h : rowOf context.source key = some row) :
    key ∈ context.sourceKeys :=
  List.mem_toFinset.mpr (List.mem_map_of_mem (rowOf_eq_some.mp h))

/-- A missing parent is repaired: its key is one of the source that is not being repaired. -/
theorem wp_repairRequiredParent {ensure : String → Row → Repair rank Nat}
    (hensure : ∀ key ∈ context.sourceKeys, key ∉ s.visiting → ∀ table desired s₁,
      s₁.visiting = insert key s.visiting → wp (ensure table desired)
        (fun _ s' => context.Repaired nothing nothing s₁ s') (Stopped s₁) s₁)
    (reference : ParentReference) :
    wp (context.repairRequiredParent ensure reference)
      (fun _ s' => context.Repaired nothing nothing s s') (Stopped s) s := by
  unfold repairRequiredParent
  rw [wp_bind]
  refine wp_mono (reading_readParentReference reference true) ?_ ?_
  · rintro row s' ⟨hs', -, hrow⟩
    subst s'
    cases row with
    | none => exact ⟨rfl, _, rfl⟩
    | some source =>
      obtain ⟨hsource, htable, -⟩ := mem_relatedRows.mp (hrow source rfl)
      have hkey : (⟨reference.table, source.1.pk⟩ : RowKey) = source.1 := by rw [← htable]
      dsimp only
      rw [hkey, wp_bind, wp_reads]
      split
      case isTrue => exact ⟨rfl, _, rfl⟩
      case isFalse hnew =>
        have hrestore := wp_restoreParent (s := { s with visiting := insert source.1 s.visiting })
          (hensure source.1 (mem_sourceKeys hsource) hnew) rfl hsource
        rw [wp_bind, Prog.wp_update]
        refine wp_visit hnew (wp_mono hrestore (fun _ s' h _ => h.leave hnew) fun _ _ h => h)
          (wp_mono hrestore (fun _ _ h => h.visiting) fun _ _ _ => trivial)
  · rintro e _ ⟨rfl, he⟩
    exact ⟨rfl, he⟩

/-- The parents of a row are repaired within a depth: the keys of the source that are not being
repaired bound it. -/
theorem wp_ensureRequiredParents (depth : Nat) (table : String) (desired : Row)
    {s : RepairState rank} (hdepth : (context.sourceKeys \ s.visiting).card < depth) :
    wp (context.ensureRequiredParents depth table desired)
      (fun _ s' => context.Repaired nothing nothing s s' ∧
        HasParents context.foreignKeys s'.target table desired ∧
        (HasParents context.foreignKeys s.target table desired → s' = s)) (Stopped s) s := by
  induction depth generalizing table desired s with
  | zero => exact absurd hdepth (Nat.not_lt_zero _)
  | succ depth ih =>
    unfold ensureRequiredParents
    rw [wp_bind]
    refine wp_mono (reading_readMissingParents table desired) ?_ ?_
    · rintro missing s' ⟨hs', hmissing⟩
      subst s'
      rw [wp_bind]
      have hrepairs := wp_forEach (E := Stopped s)
        (fun done s' => context.Repaired nothing nothing s s' ∧ (done = [] → s' = s)) missing
        (context.repairRequiredParent (context.ensureRequiredParents depth)) ?_
        ⟨Repaired.refl s, fun _ => rfl⟩
      · refine wp_mono hrepairs ?_ fun _ _ h => h
        rintro _ s₁ ⟨h₁, hsame⟩
        rw [wp_bind]
        refine wp_mono (reading_readMissingParents table desired) ?_ ?_
        · rintro remaining _ ⟨rfl, hremaining⟩
          split
          case isTrue hempty =>
            exact ⟨h₁, hremaining.mp (List.isEmpty_iff.mp hempty),
              fun hparents => hsame (hmissing.mpr hparents)⟩
          case isFalse => exact ⟨h₁.visiting, _, rfl⟩
        · rintro e _ ⟨rfl, he⟩
          exact ⟨h₁.visiting, he⟩
      · rintro done reference rest s₁ - ⟨h₁, -⟩
        refine wp_mono (wp_repairRequiredParent ?_ reference) ?_ ?_
        · intro key hkey hnew table desired s₂ hs₂
          refine wp_mono (ih table desired ?_) (fun _ _ h => h.1) fun _ _ h => h
          have hmem : key ∈ context.sourceKeys \ s₁.visiting := Finset.mem_sdiff.mpr ⟨hkey, hnew⟩
          have hlt := Finset.card_erase_lt_of_mem hmem
          rw [hs₂, Finset.sdiff_insert]
          rw [h₁.visiting] at hlt ⊢
          omega
        · intro _ s₂ h₂
          exact ⟨h₁.trans h₂, fun h => absurd h (by simp)⟩
        · rintro e s₂ ⟨hs₂, he⟩
          exact ⟨hs₂.trans h₁.visiting, he⟩
    · rintro e _ ⟨rfl, he⟩
      exact ⟨rfl, he⟩

theorem card_lt_depthBound (v : Finset RowKey) :
    (context.sourceKeys \ v).card < context.depthBound := by
  have hkeys : context.sourceKeys.card ≤ context.source.rows.length := by
    have hlength := List.toFinset_card_le (context.source.rows.map Prod.fst)
    rwa [List.length_map] at hlength
  have hsdiff := Finset.card_le_card (Finset.sdiff_subset (s := context.sourceKeys) (t := v))
  unfold depthBound
  omega

theorem wp_repairRow (table : String) (row : DatabaseRow)
    (hrow : (⟨table, row.primaryKey.values⟩ : RowKey) ∉ s.visiting) :
    wp (context.repairRow table row)
      (fun _ s' => context.Repaired nothing nothing s s' ∧
        HasParents context.foreignKeys s'.target table row.values ∧
        (HasParents context.foreignKeys s.target table row.values → s' = s)) (Stopped s) s := by
  have hensure : wp (context.ensureRequiredParents context.depthBound table row.values) _ _
      { s with visiting := insert ⟨table, row.primaryKey.values⟩ s.visiting } :=
    wp_ensureRequiredParents context.depthBound table row.values (card_lt_depthBound _)
  unfold repairRow
  rw [wp_bind, Prog.wp_update]
  refine wp_visit hrow (wp_mono hensure ?_ fun _ _ h => h)
    (wp_mono hensure (fun _ _ h => h.1.visiting) fun _ _ _ => trivial)
  rintro _ s' ⟨h, hparents, hsame⟩ -
  refine ⟨h.leave hrow, hparents, fun hold => ?_⟩
  rw [hsame hold]
  simp [Finset.erase_insert hrow]

end TransitionContext

end BinlogCdc.FkTransition
