import BinlogCdc.Sync.TransitionWrites

/-!
# What a discovery leaves alone

A backend whose reads leave its state as it is keeps the state through a whole discovery. The
schema that is read is closed under its relations, so that the discovery never looks for a
table without an entry: it does not panic, and a failure is one of its own or one of the
calls.
-/

namespace BinlogCdc.FkTransition

open Prog

variable {σ ε : Type}

/-- The call leaves the state as it is, and its failures satisfy a property. -/
def Looks {α : Type} (P : ε → Prop) (c : Prog σ ε α) : Prop :=
  ∀ s, wp c (fun _ s' => s' = s) (fun e s' => s' = s ∧ P e) s

/-- The reads of the backend leave its state as it is. -/
structure Backend.ReadOnly (backend : Backend σ ε) (P : ε → Prop) : Prop where
  incoming : ∀ table, Looks P (backend.incoming table)
  dependentPage : ∀ relation old after limit byteLimit,
    Looks P (backend.dependentPage relation old after limit byteLimit)
  targetRow : ∀ key, Looks P (backend.targetRow key)

/-- The failure is no panic, and it is of the kind that the calls have. -/
def Error.Regular (P : ε → Prop) (e : Error ε) : Prop :=
  e ≠ .panicked ∧ ∀ f, e = .backend f → P f

theorem Error.Within.regular {P : ε → Prop} {e : Error ε} {bound : Prop} (h : e.Within bound)
    (hcall : ∀ f, e ≠ .backend f) : e.Regular P :=
  ⟨h.1, fun f hf => absurd hf (hcall f)⟩

/-- A table has an entry. -/
def Schema.Knows (schema : Schema) (table : String) : Prop :=
  (schema.relations.lookup table).isSome = true

/-- The tables that reference a table with an entry have entries too. -/
def Schema.Closed (schema : Schema) : Prop :=
  ∀ table relations, schema.relations.lookup table = some relations →
    ∀ relation ∈ relations, schema.Knows relation.childTable

theorem Schema.Knows.finish {schema : Schema} {table other : String} {relations : List Relation}
    {order : List String} (h : schema.Knows other) :
    Schema.Knows ⟨(table, relations) :: schema.relations, order⟩ other := by
  unfold Knows
  by_cases hother : other = table
  · simp [hother]
  · have hbeq : (other == table) = false := by simpa using hother
    rw [List.lookup_cons, hbeq]
    exact h

/-- A table whose referencing tables have entries can get one. -/
theorem Schema.Closed.finish {schema : Schema} (h : schema.Closed) {table : String}
    {relations : List Relation} {order : List String}
    (hchildren : ∀ relation ∈ relations, schema.Knows relation.childTable) :
    Schema.Closed ⟨(table, relations) :: schema.relations, order⟩ := by
  intro other relations' hlookup relation hrelation
  by_cases hother : other = table
  · obtain rfl : relations = relations' := by simpa [hother] using hlookup
    exact (hchildren relation hrelation).finish
  · have hbeq : (other == table) = false := by simpa using hother
    rw [List.lookup_cons, hbeq] at hlookup
    exact (h other relations' hlookup relation hrelation).finish

theorem Schema.Knows.index {schema : Schema} {table : String} (h : schema.Knows table) :
    ∃ relations, schema.relations.lookup table = some relations ∧
      schema.index (ε := ε) table = .ok relations := by
  obtain ⟨relations, hlookup⟩ := Option.isSome_iff_exists.mp h
  exact ⟨relations, hlookup, by simp [Schema.index, hlookup]⟩

section Discovery

variable {backend : Backend σ ε} {P : ε → Prop} {s : σ} {limits : Limits}

theorem wp_look {α : Type} {c : Prog σ ε α} (h : Looks P c) :
    wp (mapError Error.backend c) (fun _ s' => s' = s) (fun e s' => s' = s ∧ e.Regular P) s := by
  rw [Prog.wp_mapError]
  refine wp_mono (h s) (fun _ _ h => h) ?_
  rintro e s' ⟨hs', he⟩
  refine ⟨hs', nofun, ?_⟩
  rintro f ⟨⟩
  exact he

/-! ## The schema -/

/-- A visit keeps the entries, closed under their relations, and adds one for the table. -/
structure Schema.Grows (schema schema' : Schema) (tables : List String) : Prop where
  closed : schema'.Closed
  keeps : ∀ table, schema.Knows table → schema'.Knows table
  knows : ∀ table ∈ tables, schema'.Knows table

theorem wp_loadChildren_grows {visit : String → Schema → Prog σ (Error ε) Schema}
    (hvisit : ∀ table schema, schema.Closed → wp (visit table schema)
      (fun schema' s' => s' = s ∧ schema.Grows schema' [table])
      (fun e s' => s' = s ∧ e.Regular P) s)
    (relations : List Relation) {schema : Schema} (hclosed : schema.Closed) :
    wp (loadChildren visit relations schema)
      (fun schema' s' => s' = s ∧ schema.Grows schema' (relations.map Relation.childTable))
      (fun e s' => s' = s ∧ e.Regular P) s := by
  induction relations generalizing schema with
  | nil => exact ⟨rfl, hclosed, fun _ h => h, List.forall_mem_nil _⟩
  | cons relation relations ih =>
    unfold loadChildren
    split
    case isFalse => exact ⟨rfl, by rintro ⟨⟩, by rintro _ ⟨⟩⟩
    case isTrue =>
      rw [wp_bind]
      refine wp_mono (hvisit relation.childTable schema hclosed) ?_ fun _ _ h => h
      rintro schema' _ ⟨rfl, hgrows⟩
      refine wp_mono (ih hgrows.closed) ?_ fun _ _ h => h
      rintro schema'' _ ⟨rfl, hgrows'⟩
      refine ⟨rfl, hgrows'.closed, fun table h => hgrows'.keeps table (hgrows.keeps table h), ?_⟩
      rw [List.map_cons, List.forall_mem_cons]
      exact ⟨hgrows'.keeps _ (hgrows.knows _ (List.mem_singleton.mpr rfl)), hgrows'.knows⟩

theorem wp_loadSchema_grows (hreads : backend.ReadOnly P) (fuel : Nat) (visiting : List String)
    (table : String) {schema : Schema} (hclosed : schema.Closed) :
    wp (loadSchema backend fuel visiting table schema)
      (fun schema' s' => s' = s ∧ schema.Grows schema' [table])
      (fun e s' => s' = s ∧ e.Regular P) s := by
  induction fuel generalizing visiting table schema with
  | zero => exact ⟨rfl, by rintro ⟨⟩, by rintro _ ⟨⟩⟩
  | succ fuel ih =>
    unfold loadSchema
    split
    case isTrue => exact ⟨rfl, by rintro ⟨⟩, by rintro _ ⟨⟩⟩
    case isFalse =>
      split
      case isTrue hknown =>
        exact ⟨rfl, hclosed, fun _ h => h, List.forall_mem_singleton.mpr hknown⟩
      case isFalse =>
        rw [wp_bind]
        refine wp_mono (wp_look (hreads.incoming table)) ?_ fun _ _ h => h
        rintro relations _ rfl
        rw [wp_bind]
        refine wp_mono (wp_loadChildren_grows (fun child schema hschema => ih (table :: visiting)
          child hschema) relations hclosed) ?_ fun _ _ h => h
        rintro schema' _ ⟨rfl, hgrows⟩
        refine ⟨rfl, hgrows.closed.finish fun relation hrelation =>
          hgrows.knows _ (List.mem_map_of_mem hrelation),
          fun other h => (hgrows.keeps other h).finish, ?_⟩
        refine List.forall_mem_singleton.mpr ?_
        simp [Schema.Knows]

/-! ## The dependent keys -/

theorem collectPage_regular {relation : Relation} {maxKeys : Nat} {page seen : List Key}
    {found : Discovery} {e : Error ε}
    (h : collectPage relation maxKeys seen found page = .error e) : e.Regular P := by
  have hwithin : e.Within True := collectPage_error h
  refine hwithin.regular ?_
  rintro f rfl
  induction page generalizing seen found with
  | nil => cases h
  | cons pk page ih =>
    unfold collectPage at h
    split at h
    case isTrue => cases h
    case isFalse =>
      dsimp only at h
      split at h
      case isTrue => exact ih h
      case isFalse =>
        split at h
        case isTrue => cases h
        case isFalse => exact ih h

theorem detaches_regular {relation : Relation} {current : Option Row} {old : Row} {e : Error ε}
    (h : detaches relation current old = .error e) : e.Regular P := by
  have hwithin : e.Within True := detaches_error h
  refine hwithin.regular ?_
  rintro f rfl
  cases current with
  | none => cases h
  | some current =>
    have hcolumns : ∀ columns found,
        changed.differs (ε := ε) current old columns found ≠ .error (.backend f) := by
      intro columns
      induction columns with
      | nil => rintro _ ⟨⟩
      | cons column columns ih =>
        intro found
        unfold changed.differs
        split
        · rintro ⟨⟩
        · rintro ⟨⟩
        · exact ih _
    exact hcolumns _ _ h

/-- The keys that became pending are of the tables. -/
def Discovery.Pends (found found' : Discovery) (tables : List String) : Prop :=
  ∀ key ∈ found'.pending, key ∈ found.pending ∨ key.table ∈ tables

theorem Discovery.Pends.refl (found : Discovery) (tables : List String) :
    found.Pends found tables := fun _ h => Or.inl h

theorem Discovery.Pends.trans {found found' found'' : Discovery} {tables tables' : List String}
    (h : found.Pends found' tables) (h' : found'.Pends found'' tables') :
    found.Pends found'' (tables ++ tables') := by
  intro key hkey
  rw [List.mem_append]
  rcases h' key hkey with hkey | htable
  · rcases h key hkey with hkey | htable
    · exact Or.inl hkey
    · exact Or.inr (Or.inl htable)
  · exact Or.inr (Or.inr htable)

theorem wp_readPages_pends (hreads : backend.ReadOnly P) (relation : Relation) (old : Row)
    (fuel : Nat) {after : Option Key} {seen : List Key} {found : Discovery} :
    wp (readPages backend relation old limits after seen found fuel)
      (fun found' s' => s' = s ∧ found.Pends found' [relation.childTable])
      (fun e s' => s' = s ∧ e.Regular P) s := by
  induction fuel generalizing after seen found with
  | zero => exact ⟨rfl, by rintro ⟨⟩, by rintro _ ⟨⟩⟩
  | succ fuel ih =>
    unfold readPages
    rw [wp_bind]
    refine wp_mono (wp_look (hreads.dependentPage relation old after _ _)) ?_ fun _ _ h => h
    rintro page _ rfl
    split
    case isTrue => exact ⟨rfl, .refl found _⟩
    case isFalse =>
      split
      case isTrue => exact ⟨rfl, by rintro ⟨⟩, by rintro _ ⟨⟩⟩
      case isFalse =>
        rw [wp_bind]
        cases hcollect : collectPage (ε := ε) relation limits.maxKeys seen found page with
        | error e => exact ⟨rfl, collectPage_regular hcollect⟩
        | ok result =>
          rw [wp_ofExcept_ok]
          refine wp_mono ih ?_ fun _ _ h => h
          rintro found' _ ⟨rfl, hpends⟩
          refine ⟨rfl, fun key hkey => ?_⟩
          rcases hpends key hkey with hkey | htable
          · rcases ((extends_collectPage hcollect).pending key).mp hkey with hkey | ⟨⟨_, -, rfl⟩, -⟩
            · exact Or.inl hkey
            · exact Or.inr (List.mem_singleton.mpr rfl)
          · exact Or.inr htable

theorem wp_readDetached_pends (hreads : backend.ReadOnly P) (fuel : Nat) (current : Option Row)
    (old : Row) (relations : List Relation) {found : Discovery} :
    wp (readDetached backend fuel current old limits relations found)
      (fun found' s' => s' = s ∧ found.Pends found' (relations.map Relation.childTable))
      (fun e s' => s' = s ∧ e.Regular P) s := by
  induction relations generalizing found with
  | nil => exact ⟨rfl, .refl found _⟩
  | cons relation relations ih =>
    unfold readDetached
    rw [wp_bind]
    cases hdetaches : detaches (ε := ε) relation current old with
    | error e => exact ⟨rfl, detaches_regular hdetaches⟩
    | ok goes =>
      rw [wp_ofExcept_ok]
      cases goes with
      | true =>
        simp only [if_true, wp_bind]
        refine wp_mono (wp_readPages_pends hreads relation old fuel) ?_ fun _ _ h => h
        rintro found' _ ⟨rfl, hfirst⟩
        refine wp_mono ih ?_ fun _ _ h => h
        rintro found'' _ ⟨rfl, hrest⟩
        exact ⟨rfl, hfirst.trans hrest⟩
      | false =>
        simp only [Bool.false_eq_true, if_false]
        refine wp_mono ih ?_ fun _ _ h => h
        rintro found' _ ⟨rfl, hrest⟩
        exact ⟨rfl, (Discovery.Pends.refl found [relation.childTable]).trans hrest⟩

theorem wp_readAll_pends (hreads : backend.ReadOnly P) (fuel : Nat) (row : Row)
    (relations : List Relation) {found : Discovery} :
    wp (readAll backend fuel row limits relations found)
      (fun found' s' => s' = s ∧ found.Pends found' (relations.map Relation.childTable))
      (fun e s' => s' = s ∧ e.Regular P) s := by
  induction relations generalizing found with
  | nil => exact ⟨rfl, .refl found _⟩
  | cons relation relations ih =>
    unfold readAll
    rw [wp_bind]
    refine wp_mono (wp_readPages_pends hreads relation row fuel) ?_ fun _ _ h => h
    rintro found' _ ⟨rfl, hfirst⟩
    refine wp_mono ih ?_ fun _ _ h => h
    rintro found'' _ ⟨rfl, hrest⟩
    exact ⟨rfl, hfirst.trans hrest⟩

/-- New pending keys are of tables with entries. -/
theorem Schema.Closed.knows_pending {schema : Schema} (hclosed : schema.Closed) {table : String}
    {relations : List Relation} (hlookup : schema.relations.lookup table = some relations)
    {found found' : Discovery} (hpends : found.Pends found' (relations.map Relation.childTable))
    (hfound : ∀ key ∈ found.pending, schema.Knows key.table) :
    ∀ key ∈ found'.pending, schema.Knows key.table := by
  intro key hkey
  rcases hpends key hkey with hkey | htable
  · exact hfound key hkey
  · obtain ⟨relation, hrelation, hchild⟩ := List.mem_map.mp htable
    rw [← hchild]
    exact hclosed table relations hlookup relation hrelation

theorem wp_readPending_looks (hreads : backend.ReadOnly P) (fuel : Nat) {schema : Schema}
    (hclosed : schema.Closed) (steps : Nat) {found : Discovery}
    (hpending : ∀ key ∈ found.pending, schema.Knows key.table) :
    wp (readPending backend fuel limits schema steps found) (fun _ s' => s' = s)
      (fun e s' => s' = s ∧ e.Regular P) s := by
  induction steps generalizing found with
  | zero => exact ⟨rfl, by rintro ⟨⟩, by rintro _ ⟨⟩⟩
  | succ steps ih =>
    unfold readPending
    split
    case h_1 => exact rfl
    case h_2 key pending hfound =>
      rw [hfound, List.forall_mem_cons] at hpending
      rw [wp_bind]
      refine wp_mono (wp_look (hreads.targetRow key)) ?_ fun _ _ h => h
      rintro row _ rfl
      cases row with
      | none => exact ⟨rfl, by rintro ⟨⟩, by rintro _ ⟨⟩⟩
      | some row =>
        obtain ⟨relations, hlookup, hindex⟩ := hpending.1.index (ε := ε)
        dsimp only
        rw [wp_bind, hindex, wp_ofExcept_ok, wp_bind]
        refine wp_mono (wp_readAll_pends hreads fuel row relations) ?_ fun _ _ h => h
        rintro found' _ ⟨rfl, hpends⟩
        exact ih (hclosed.knows_pending hlookup hpends hpending.2)

/-- A discovery leaves the state as it is. -/
theorem wp_discoverTransition_looks (hreads : backend.ReadOnly P) (fuel : Nat) (root : RowKey)
    (current : Option Row) (old : Row) :
    wp (discoverTransition backend fuel root current old limits) (fun _ s' => s' = s)
      (fun e s' => s' = s ∧ e.Regular P) s := by
  unfold discoverTransition
  split
  case isTrue => exact ⟨rfl, by rintro ⟨⟩, by rintro _ ⟨⟩⟩
  case isFalse =>
    rw [wp_bind]
    have hempty : Schema.Closed ⟨[], []⟩ := fun _ _ hlookup => by cases hlookup
    refine wp_mono (wp_loadSchema_grows hreads fuel [] root.table hempty) ?_ fun _ _ h => h
    rintro schema _ ⟨rfl, hgrows⟩
    obtain ⟨relations, hlookup, hindex⟩ :=
      (hgrows.knows _ (List.mem_singleton.mpr rfl)).index (ε := ε)
    rw [wp_bind]
    unfold discover
    rw [wp_bind, hindex, wp_ofExcept_ok, wp_bind]
    refine wp_mono (wp_readDetached_pends hreads fuel current old relations) ?_ fun _ _ h => h
    rintro found _ ⟨rfl, hpends⟩
    have hpending := hgrows.closed.knows_pending hlookup hpends (List.forall_mem_nil _)
    rw [wp_bind]
    exact wp_mono (wp_readPending_looks hreads fuel hgrows.closed fuel hpending)
      (fun _ _ h => h) fun _ _ h => h

end Discovery

end BinlogCdc.FkTransition
