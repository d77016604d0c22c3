import BinlogCdc.Sync.FkTransition

/-!
# What a transition discovers

Before it writes, a transition reads the schema and the dependent rows. The tables come out
with the referencing tables before the referenced ones, and the keys found are exactly those
of the rows that depend on the root through a changed relation. The reads leave the target
as it is and end after a number of steps that the databases bound.
-/

namespace BinlogCdc.FkTransition

open Prog

variable {κ ε : Type} [LinearOrder κ] {rank : RowKey ↪ κ}

/-! ## Rows of a database -/

theorem rowOf_eq_some {database : Database rank} {key : RowKey} {row : Row} :
    rowOf database key = some row ↔ (key, row) ∈ database.rows := by
  constructor
  · intro h
    obtain ⟨entry, hentry, rfl⟩ := Option.map_eq_some_iff.mp h
    obtain ⟨hmem, hkey⟩ := KeyedTable.find_eq_some.mp hentry
    have hentryKey : entry.1 = key := rank.injective hkey
    rwa [← hentryKey]
  · intro h
    have hfind := KeyedTable.find_key h
    exact Option.map_eq_some_iff.mpr ⟨_, hfind, rfl⟩

theorem rowOf_erase (database : Database rank) (key k : RowKey) :
    rowOf (database.erase [rank key]) k = if k = key then none else rowOf database k := by
  unfold rowOf
  rw [KeyedTable.find_erase]
  by_cases hk : k = key
  · simp [hk]
  · have hrank : rank k ≠ rank key := fun h => hk (rank.injective h)
    simp [hk, hrank]

theorem rowOf_put (database : Database rank) (key k : RowKey) (row : Row) :
    rowOf (database.put (key, row)) k = if k = key then some row else rowOf database k := by
  unfold rowOf
  rw [KeyedTable.find_put]
  by_cases hk : k = key
  · simp [hk]
  · have hrank : rank k ≠ rank key := fun h => hk (rank.injective h)
    simp [hk, hrank]

/-- The row of the key references a row. -/
def Refers (target : Database rank) (relation : Relation) (old : Row) (key : RowKey) : Prop :=
  ∃ row, rowOf target key = some row ∧ key.table = relation.childTable ∧ relation.References row old

theorem mem_dependents {target : Database rank} {relation : Relation} {old : Row}
    {entry : RowKey × Row} : entry ∈ (dependents target relation old).rows ↔
      rowOf target entry.1 = some entry.2 ∧ entry.1.table = relation.childTable ∧
        relation.References entry.2 old := by
  rw [rowOf_eq_some]
  simp [dependents]

/-! ## Changed columns -/

/-- The error is no panic, and the loops only run out of steps within a bound. -/
def Error.Within (bound : Prop) (e : Error ε) : Prop := e ≠ .panicked ∧ (e = .diverged → bound)

theorem Error.Within.mono {bound bound' : Prop} {e : Error ε} (h : e.Within bound)
    (hbound : bound → bound') : e.Within bound' :=
  ⟨h.1, fun he => hbound (h.2 he)⟩

theorem Error.within_backend {bound : Prop} (e : ε) : (Error.backend e).Within bound :=
  ⟨nofun, nofun⟩

/-- A referenced column of the relation differs between the rows. -/
def Relation.Differs (relation : Relation) (current old : Row) : Prop :=
  ∃ column ∈ relation.parentColumns, current.value column ≠ old.value column

theorem changed_differs {current old : Row} {columns : List String} {found d : Bool}
    (h : changed.differs (ε := ε) current old columns found = .ok d) :
    d = true ↔ found = true ∨ ∃ column ∈ columns, current.value column ≠ old.value column := by
  induction columns generalizing found with
  | nil =>
    cases h
    simp
  | cons column columns ih =>
    unfold changed.differs at h
    cases hold : old.lookup column with
    | none =>
      rw [hold] at h
      cases h
    | some before =>
      cases hcurrent : current.lookup column with
      | none =>
        rw [hold, hcurrent] at h
        cases h
      | some after =>
        rw [hold, hcurrent] at h
        have hvalues : current.value column ≠ old.value column ↔ before ≠ after := by
          simp [Row.value, hold, hcurrent, eq_comm]
        rw [ih h]
        simp only [Bool.or_eq_true, decide_eq_true_eq, List.mem_cons, exists_eq_or_imp, hvalues]
        tauto

theorem changed_iff {relation : Relation} {current old : Row} {d : Bool}
    (h : changed (ε := ε) relation current old = .ok d) :
    d = true ↔ relation.Differs current old := by
  have hd := changed_differs h
  simpa [Relation.Differs] using hd

theorem changed_error {relation : Relation} {current old : Row} {e : Error ε} {bound : Prop}
    (h : changed relation current old = .error e) : e.Within bound := by
  have hcolumns : ∀ columns found,
      changed.differs (ε := ε) current old columns found = .error e → e.Within bound := by
    intro columns
    induction columns with
    | nil => exact fun _ h => by cases h
    | cons column columns ih =>
      intro found h
      unfold changed.differs at h
      split at h
      · cases h
        exact ⟨nofun, nofun⟩
      · cases h
        exact ⟨nofun, nofun⟩
      · exact ih _ h
  exact hcolumns _ _ h

/-- A row that references through unchanged columns references the new row too. -/
theorem Relation.References.of_not_differs {relation : Relation} {child current old : Row}
    (h : relation.References child old) (hsame : ¬ relation.Differs current old) :
    relation.References child current := by
  intro columns hcolumns
  obtain ⟨hnull, hvalue⟩ := h columns hcolumns
  have hcolumn : columns.2 ∈ relation.parentColumns := (List.of_mem_zip hcolumns).2
  have hold : current.value columns.2 = old.value columns.2 := by
    by_contra hne
    exact hsame ⟨_, hcolumn, hne⟩
  exact ⟨hnull, hvalue.trans hold.symm⟩

/-- Rows that reference the root through the relation have to go. -/
def Relation.Detaches (relation : Relation) (current : Option Row) (old : Row) : Prop :=
  ∀ row ∈ current, relation.Differs row old

theorem detaches_iff {relation : Relation} {current : Option Row} {old : Row} {d : Bool}
    (h : detaches (ε := ε) relation current old = .ok d) :
    d = true ↔ relation.Detaches current old := by
  cases current with
  | none =>
    obtain rfl := Except.ok.inj h
    simp [Relation.Detaches]
  | some current =>
    rw [changed_iff h]
    simp [Relation.Detaches]

theorem detaches_error {relation : Relation} {current : Option Row} {old : Row} {e : Error ε}
    {bound : Prop} (h : detaches relation current old = .error e) : e.Within bound := by
  cases current with
  | none => cases h
  | some current => exact changed_error h

/-! ## Calls of the backend -/

namespace Memory

variable (memory : Memory rank ε) {s : Database rank} {bound : Prop}

/-- A call that fails is no panic and no endless loop. -/
theorem wp_call {α : Type} {call : Prog (Database rank) ε α} {Q : α → Database rank → Prop}
    (h : wp call Q (fun _ _ => True) s) :
    wp (mapError Error.backend call) Q (fun e _ => e.Within bound) s := by
  rw [Prog.wp_mapError]
  exact wp_mono h (fun _ _ h => h) fun e _ _ => Error.within_backend e

/-- A call that is answered reads the target and leaves it as it is. -/
theorem wp_answer {α : Type} (call : Call) (value : Database rank → α) :
    wp (memory.answer call value) (fun a s' => a = value s ∧ s' = s) (fun _ _ => True) s := by
  unfold wp answer
  cases memory.refuses call s with
  | none => exact ⟨rfl, rfl⟩
  | some e => trivial

/-! ## The schema -/

/-- The tables visited so far have their relations, and the tables that reference a table stand
before it. -/
structure Loaded (schema : Schema) : Prop where
  nodup : schema.order.Nodup
  relations : ∀ table, schema.relations.lookup table =
    if table ∈ schema.order then some (memory.relations table) else none
  childrenFirst : ∀ before table after, schema.order = before ++ table :: after →
    ∀ relation ∈ memory.relations table, relation.childTable ∈ before

theorem loaded_empty : memory.Loaded ⟨[], []⟩ where
  nodup := List.nodup_nil
  relations _ := rfl
  childrenFirst before table after h := by simp at h

variable {memory}

theorem Loaded.index {schema : Schema} (h : memory.Loaded schema) {table : String}
    (htable : table ∈ schema.order) :
    schema.index (ε := ε) table = .ok (memory.relations table) := by
  simp [Schema.index, h.relations, htable]

/-- The table that is finished last is not among the earlier ones. -/
theorem Loaded.root_notMem {schema : Schema} (h : memory.Loaded schema) {before : List String}
    {table : String} (horder : schema.order = before ++ [table]) : table ∉ before := by
  have hnodup := h.nodup
  rw [horder] at hnodup
  exact fun hmem => List.disjoint_of_nodup_append hnodup hmem (List.mem_singleton.mpr rfl)

/-- A table can be finished once the tables that reference it are. -/
theorem Loaded.finish {schema : Schema} (h : memory.Loaded schema) {table : String}
    (hnew : table ∉ schema.order)
    (hchildren : ∀ relation ∈ memory.relations table, relation.childTable ∈ schema.order) :
    memory.Loaded ⟨(table, memory.relations table) :: schema.relations, schema.order ++ [table]⟩ where
  nodup := by
    refine List.nodup_append.mpr ⟨h.nodup, List.nodup_singleton table, ?_⟩
    rintro a ha b hb rfl
    rw [List.mem_singleton.mp hb] at ha
    exact hnew ha
  relations other := by
    by_cases hother : other = table
    · subst hother
      simp
    · have hbeq : (other == table) = false := by simpa using hother
      simp [List.lookup_cons, hbeq, h.relations, hother]
  childrenFirst before other after horder relation hrelation := by
    rcases List.eq_nil_or_concat after with rfl | ⟨after', last, rfl⟩
    · obtain ⟨hbefore, hlast⟩ := List.append_inj' horder rfl
      obtain rfl : table = other := by simpa using hlast
      exact hbefore ▸ hchildren relation hrelation
    · have hsplit : schema.order ++ [table] = (before ++ other :: after') ++ [last] := by
        simpa using horder
      obtain ⟨hschema, -⟩ := List.append_inj' hsplit rfl
      exact h.childrenFirst before other after' hschema relation hrelation

variable (memory) in
/-- What a visit does to the schema: it keeps the finished tables, and it finishes none of the
tables that are being visited. -/
structure Visits (visiting : List String) (schema schema' : Schema) : Prop where
  loaded : memory.Loaded schema'
  keeps : ∀ table ∈ schema.order, table ∈ schema'.order
  visiting : ∀ table ∈ visiting, table ∈ schema'.order → table ∈ schema.order

theorem Visits.refl {schema : Schema} (h : memory.Loaded schema) (visiting : List String) :
    memory.Visits visiting schema schema :=
  ⟨h, fun _ => id, fun _ _ => id⟩

theorem Visits.trans {visiting : List String} {schema schema' schema'' : Schema}
    (h : memory.Visits visiting schema schema') (h' : memory.Visits visiting schema' schema'') :
    memory.Visits visiting schema schema'' where
  loaded := h'.loaded
  keeps table htable := h'.keeps table (h.keeps table htable)
  visiting table hvisiting htable :=
    h.visiting table hvisiting (h'.visiting table hvisiting htable)

theorem wp_loadChildren {visiting : List String}
    {visit : String → Schema → Prog (Database rank) (Error ε) Schema}
    {relations : List Relation} {schema : Schema} (hloaded : memory.Loaded schema)
    (hvisit : ∀ relation ∈ relations, ∀ schema, memory.Loaded schema →
      wp (visit relation.childTable schema) (fun schema' s' => s' = s ∧
        memory.Visits visiting schema schema' ∧ relation.childTable ∈ schema'.order)
        (fun e _ => e.Within bound) s) :
    wp (loadChildren visit relations schema)
      (fun schema' s' => s' = s ∧ memory.Visits visiting schema schema' ∧
        ∀ relation ∈ relations, relation.childTable ∈ schema'.order)
      (fun e _ => e.Within bound) s := by
  induction relations generalizing schema with
  | nil => exact ⟨rfl, Visits.refl hloaded visiting, by simp⟩
  | cons relation rest ih =>
    unfold loadChildren
    split
    case isFalse => exact ⟨nofun, nofun⟩
    case isTrue =>
      rw [wp_bind]
      refine wp_mono (hvisit relation List.mem_cons_self schema hloaded) ?_ fun _ _ h => h
      rintro schema' _ ⟨rfl, hvisits, hchild⟩
      have hrest := ih hvisits.loaded fun other hother =>
        hvisit other (List.mem_cons_of_mem _ hother)
      refine wp_mono hrest ?_ fun _ _ h => h
      rintro schema'' _ ⟨rfl, hvisits', hall⟩
      refine ⟨rfl, hvisits.trans hvisits', ?_⟩
      intro other hother
      rcases List.mem_cons.mp hother with rfl | hother
      · exact hvisits'.keeps _ hchild
      · exact hall other hother

/-- A visit finishes the table after the tables that reference it. The depth of the visits is
bounded, since a table that is being visited is not visited again. -/
theorem wp_loadSchema (fuel : Nat) {visiting : List String} (table : String) {schema : Schema}
    (hloaded : memory.Loaded schema) (hnodup : visiting.Nodup)
    (hparents : ∀ table ∈ visiting, table ∈ memory.parents) :
    wp (loadSchema memory.backend fuel visiting table schema)
      (fun schema' s' => s' = s ∧ (memory.Visits visiting schema schema' ∧ table ∈ schema'.order) ∧
        (table ∉ schema.order → ∃ before, schema'.order = before ++ [table]))
      (fun e _ => e.Within (fuel + visiting.length ≤ memory.parents.length)) s := by
  induction fuel generalizing visiting table schema with
  | zero =>
    refine ⟨nofun, fun _ => ?_⟩
    rw [Nat.zero_add]
    exact (hnodup.subperm hparents).length_le
  | succ fuel ih =>
    unfold loadSchema
    split
    case isTrue => exact ⟨nofun, nofun⟩
    case isFalse hvisiting =>
      have hpresent : (schema.relations.lookup table).isSome ↔ table ∈ schema.order := by
        rw [hloaded.relations]
        split <;> simp_all
      split
      case isTrue hdone =>
        have htable := hpresent.mp hdone
        exact ⟨rfl, ⟨Visits.refl hloaded visiting, htable⟩, fun h => absurd htable h⟩
      case isFalse hnew =>
        have htable : table ∉ schema.order := fun h => hnew (hpresent.mpr h)
        rw [wp_bind]
        refine wp_mono (wp_call (memory.wp_answer _ _)) ?_ fun _ _ h => h
        rintro _ s ⟨rfl, rfl⟩
        rw [wp_bind]
        have hchildren : wp (loadChildren (loadSchema memory.backend fuel (table :: visiting))
            (memory.relations table) schema) (fun schema' s' => s' = s ∧
              memory.Visits (table :: visiting) schema schema' ∧
              ∀ relation ∈ memory.relations table, relation.childTable ∈ schema'.order)
            (fun e _ => e.Within (fuel + 1 + visiting.length ≤ memory.parents.length)) s := by
          apply wp_loadChildren hloaded
          intro relation hrelation schema hloaded
          have hparent : table ∈ memory.parents := by
            by_contra hnot
            rw [memory.relations_eq_nil table hnot] at hrelation
            cases hrelation
          have hvisit := ih relation.childTable hloaded (List.nodup_cons.mpr ⟨hvisiting, hnodup⟩)
            (List.forall_mem_cons.mpr ⟨hparent, hparents⟩)
          refine wp_mono hvisit ?_ fun _ _ h => h.mono fun hbound => ?_
          · rintro schema' _ ⟨hs, hvisits, -⟩
            exact ⟨hs, hvisits⟩
          · rw [List.length_cons] at hbound
            omega
        refine wp_mono hchildren ?_ fun _ _ h => h
        rintro schema' _ ⟨rfl, hvisits, hall⟩
        have hfresh : table ∉ schema'.order := fun h =>
          htable (hvisits.visiting table List.mem_cons_self h)
        refine ⟨rfl, ⟨⟨hvisits.loaded.finish hfresh hall, ?_, ?_⟩, by simp⟩, fun _ => ⟨_, rfl⟩⟩
        · intro other hother
          exact List.mem_append_left _ (hvisits.keeps other hother)
        · intro other hother hmem
          rcases List.mem_append.mp hmem with hmem | hmem
          · exact hvisits.visiting other (List.mem_cons_of_mem _ hother) hmem
          · obtain rfl := List.mem_singleton.mp hmem
            exact absurd hother hvisiting

end Memory

/-! ## The dependent keys -/

/-- The discovery with the keys that satisfy a property added: those that were not found before are
pending. -/
structure Discovery.Extends (maxKeys : Nat) (new : RowKey → Prop) (found found' : Discovery) :
    Prop where
  keys : ∀ key, key ∈ found'.keys ↔ key ∈ found.keys ∨ new key
  pending : ∀ key, key ∈ found'.pending ↔ key ∈ found.pending ∨ new key ∧ key ∉ found.keys
  length : found'.pending.length + found.keys.length = found.pending.length + found'.keys.length
  bounded : found.keys.length ≤ maxKeys → found'.keys.length ≤ maxKeys

namespace Discovery.Extends

variable {maxKeys : Nat} {new new' : RowKey → Prop} {found found' found'' : Discovery}

theorem refl (maxKeys : Nat) (found : Discovery) : Extends maxKeys (fun _ => False) found found where
  keys key := by simp
  pending key := by simp
  length := rfl
  bounded := id

theorem trans (h : Extends maxKeys new found found') (h' : Extends maxKeys new' found' found'') :
    Extends maxKeys (fun key => new key ∨ new' key) found found'' where
  keys key := by rw [h'.keys, h.keys, or_assoc]
  pending key := by
    rw [h'.pending, h.pending, h.keys]
    tauto
  length := by
    have hfirst := h.length
    have hsecond := h'.length
    omega
  bounded hbound := h'.bounded (h.bounded hbound)

theorem congr (h : Extends maxKeys new found found') (hnew : ∀ key, new key ↔ new' key) :
    Extends maxKeys new' found found' := by
  have heq : new = new' := funext fun key => propext (hnew key)
  exact heq ▸ h

end Discovery.Extends

theorem length_insertSorted {key : RowKey} {keys : List RowKey} (h : key ∉ keys) :
    (insertSorted key keys).length = keys.length + 1 := by
  simp [insertSorted, h, List.orderedInsert_length]

/-- A page adds its keys. -/
theorem extends_collectPage {relation : Relation} {maxKeys : Nat} {page seen : List Key}
    {found : Discovery} {result : List Key × Discovery}
    (h : collectPage (ε := ε) relation maxKeys seen found page = .ok result) :
    found.Extends maxKeys (fun key => ∃ pk ∈ page, key = ⟨relation.childTable, pk⟩) result.2 := by
  induction page generalizing seen found with
  | nil =>
    cases h
    exact (Discovery.Extends.refl maxKeys found).congr (by simp)
  | cons pk page ih =>
    unfold collectPage at h
    split at h
    case isTrue => cases h
    case isFalse =>
      dsimp only at h
      split at h
      case isTrue hmem =>
        have hnone : found.Extends maxKeys (fun key => key = ⟨relation.childTable, pk⟩) found :=
          { keys := by
              intro key
              constructor
              · exact Or.inl
              · rintro (hkey | rfl)
                · exact hkey
                · exact hmem
            pending := by
              intro key
              constructor
              · exact Or.inl
              · rintro (hkey | ⟨rfl, hnot⟩)
                · exact hkey
                · exact absurd hmem hnot
            length := rfl
            bounded := id }
        exact (hnone.trans (ih h)).congr (by simp)
      case isFalse hnew =>
        split at h
        case isTrue => cases h
        case isFalse hroom =>
          rw [length_insertSorted hnew] at hroom
          have hone : found.Extends maxKeys (fun key => key = ⟨relation.childTable, pk⟩)
              ⟨insertSorted ⟨relation.childTable, pk⟩ found.keys,
                ⟨relation.childTable, pk⟩ :: found.pending⟩ :=
            { keys := by
                intro key
                rw [mem_insertSorted, or_comm]
              pending := by
                intro key
                rw [List.mem_cons, or_comm]
                constructor
                · rintro (hkey | rfl)
                  · exact Or.inl hkey
                  · exact Or.inr ⟨rfl, hnew⟩
                · rintro (hkey | ⟨rfl, -⟩)
                  · exact Or.inl hkey
                  · exact Or.inr rfl
              length := by
                rw [length_insertSorted hnew, List.length_cons]
                omega
              bounded := by
                intro _
                rw [length_insertSorted hnew]
                omega }
          exact (hone.trans (ih h)).congr (by simp)

theorem collectPage_error {relation : Relation} {maxKeys : Nat} {page seen : List Key}
    {found : Discovery} {e : Error ε} {bound : Prop}
    (h : collectPage relation maxKeys seen found page = .error e) : e.Within bound := by
  induction page generalizing seen found with
  | nil => cases h
  | cons pk page ih =>
    unfold collectPage at h
    split at h
    case isTrue =>
      cases h
      exact ⟨nofun, nofun⟩
    case isFalse =>
      dsimp only at h
      split at h
      case isTrue => exact ih h
      case isFalse =>
        split at h
        case isTrue =>
          cases h
          exact ⟨nofun, nofun⟩
        case isFalse => exact ih h

namespace Memory

variable {memory : Memory rank ε} {s : Database rank} {limits : Limits} {maxKeys : Nat}

/-- The pages read to the end add every row that follows the cursor. -/
theorem wp_readPages (fuel : Nat) (relation : Relation) (old : Row) (hrows : limits.pageRows ≠ 0)
    {after : Option Key} {seen : List Key} {found : Discovery} {rest : List (RowKey × Row)}
    (hrest : (dependents s relation old).select
      (after.map fun pk => rank ⟨relation.childTable, pk⟩) none = rest) :
    wp (readPages memory.backend relation old limits after seen found fuel)
      (fun found' s' => s' = s ∧
        found.Extends limits.maxKeys (fun key => ∃ entry ∈ rest, entry.1 = key) found')
      (fun e _ => e.Within (fuel ≤ rest.length)) s := by
  induction fuel generalizing after seen found rest with
  | zero => exact ⟨nofun, fun _ => Nat.zero_le _⟩
  | succ fuel ih =>
    unfold readPages
    rw [wp_bind]
    refine wp_mono (wp_call (memory.wp_answer _ _)) ?_ fun _ _ h => h
    rintro page s ⟨rfl, rfl⟩
    obtain ⟨n, hn, hpage⟩ : ∃ n, (rest ≠ [] → 0 < n) ∧
        memory.page relation old after limits.pageRows pageBytes s =
          (rest.take n).map fun entry => entry.1.pk := by
      refine ⟨_, fun hne => memory.pageLength_pos limits.pageRows pageBytes
        (rest.map fun entry => entry.1.pk) (Nat.pos_of_ne_zero hrows) ?_, ?_⟩
      · simpa using hne
      · simp only [page, hrest, List.map_take]
    -- Each entry of the page belongs to the referencing table.
    have htable : ∀ entry ∈ rest, (⟨relation.childTable, entry.1.pk⟩ : RowKey) = entry.1 := by
      intro entry hentry
      rw [← hrest] at hentry
      have hmem := mem_dependents.mp (KeyedTable.mem_select.mp hentry).1
      rw [← hmem.2.1]
    rw [hpage]
    split
    case isTrue hempty =>
      have hnil : rest = [] := by
        by_contra hne
        have hpos := hn hne
        simp [List.take_eq_nil_iff] at hempty
        rcases hempty with h | h
        · omega
        · exact hne h
      subst hnil
      exact ⟨rfl, (Discovery.Extends.refl limits.maxKeys found).congr (by simp)⟩
    case isFalse hnonempty =>
      split
      case isTrue => exact ⟨nofun, nofun⟩
      case isFalse =>
        rw [wp_bind]
        cases hcollect : collectPage (ε := ε) relation limits.maxKeys seen found
            ((rest.take n).map fun entry => entry.1.pk) with
        | error e => exact collectPage_error hcollect
        | ok result =>
          rw [wp_ofExcept_ok]
          obtain ⟨last, hlast⟩ : ∃ last, (rest.take n).getLast? = some last := by
            rw [← Option.isSome_iff_exists, List.getLast?_isSome]
            exact fun h => hnonempty (by rw [h, List.map_nil])
          have hcursor : ((rest.take n).map fun entry => entry.1.pk).getLast? = some last.1.pk := by
            rw [List.getLast?_map, hlast]
            rfl
          have hlastMem : last ∈ rest.take n := List.mem_of_getLast? hlast
          have hnext : (dependents s relation old).select
              (Option.map (fun pk => rank ⟨relation.childTable, pk⟩)
                ((rest.take n).map fun entry => entry.1.pk).getLast?) none = rest.drop n := by
            rw [hcursor, Option.map_some, htable last (List.mem_of_mem_take hlastMem)]
            exact KeyedTable.select_after_page (hrest.trans (List.take_append_drop n rest).symm) hlast
          refine wp_mono (ih hnext) ?_ fun _ _ h => h.mono fun hbound => ?_
          · rintro found' _ ⟨rfl, hextends⟩
            refine ⟨rfl, ((extends_collectPage hcollect).trans hextends).congr fun key => ?_⟩
            have hsplit : (∃ entry ∈ rest, entry.1 = key) ↔
                (∃ entry ∈ rest.take n, entry.1 = key) ∨ ∃ entry ∈ rest.drop n, entry.1 = key := by
              conv_lhs => rw [← List.take_append_drop n rest]
              simp only [List.mem_append, or_and_right, exists_or]
            rw [hsplit]
            refine or_congr_left ?_
            constructor
            · rintro ⟨pk, hpk, rfl⟩
              obtain ⟨entry, hentry, rfl⟩ := List.mem_map.mp hpk
              exact ⟨entry, hentry, (htable entry (List.mem_of_mem_take hentry)).symm⟩
            · rintro ⟨entry, hentry, rfl⟩
              exact ⟨entry.1.pk, List.mem_map.mpr ⟨entry, hentry, rfl⟩,
                (htable entry (List.mem_of_mem_take hentry)).symm⟩
          · have hpos : 0 < (rest.take n).length := List.length_pos_of_mem hlastMem
            have hlength := congrArg List.length (List.take_append_drop n rest)
            rw [List.length_append] at hlength
            omega

/-- Reading through a relation adds the rows that reference the row. -/
theorem wp_readKeys (fuel : Nat) (relation : Relation) (old : Row) (hrows : limits.pageRows ≠ 0)
    (found : Discovery) :
    wp (readKeys memory.backend fuel relation old limits found)
      (fun found' s' => s' = s ∧ found.Extends limits.maxKeys (Refers s relation old) found')
      (fun e _ => e.Within (fuel ≤ s.rows.length)) s := by
  have hall : (dependents s relation old).select none none = (dependents s relation old).rows := by
    simp [KeyedTable.select, KeyedTable.InWindow]
  have hread : wp (readPages memory.backend relation old limits none [] found fuel) _ _ s :=
    wp_readPages fuel relation old hrows hall
  refine wp_mono hread ?_ fun _ _ h => h.mono fun hbound => ?_
  · rintro found' _ ⟨rfl, hextends⟩
    refine ⟨rfl, hextends.congr fun key => ?_⟩
    constructor
    · rintro ⟨entry, hentry, rfl⟩
      exact ⟨entry.2, mem_dependents.mp hentry⟩
    · rintro ⟨row, hrow⟩
      exact ⟨(key, row), mem_dependents.mpr hrow, rfl⟩
  · exact hbound.trans (List.length_filter_le _ _)

/-- Reading through the detached relations of the root. -/
theorem wp_readDetached (fuel : Nat) (current : Option Row) (old : Row)
    (hrows : limits.pageRows ≠ 0) (relations : List Relation) (found : Discovery) :
    wp (readDetached memory.backend fuel current old limits relations found)
      (fun found' s' => s' = s ∧ found.Extends limits.maxKeys (fun key => ∃ relation ∈ relations,
        relation.Detaches current old ∧ Refers s relation old key) found')
      (fun e _ => e.Within (fuel ≤ s.rows.length)) s := by
  induction relations generalizing found with
  | nil => exact ⟨rfl, (Discovery.Extends.refl limits.maxKeys found).congr (by simp)⟩
  | cons relation relations ih =>
    unfold readDetached
    rw [wp_bind]
    cases hdetaches : detaches (ε := ε) relation current old with
    | error e => exact detaches_error hdetaches
    | ok d =>
      have hiff := detaches_iff hdetaches
      rw [wp_ofExcept_ok]
      cases d with
      | true =>
        have hgoes := hiff.mp rfl
        simp only [if_true, wp_bind]
        refine wp_mono (wp_readKeys fuel relation old hrows found) ?_ fun _ _ h => h
        rintro found' _ ⟨rfl, hfirst⟩
        refine wp_mono (ih found') ?_ fun _ _ h => h
        rintro found'' _ ⟨rfl, hrest⟩
        exact ⟨rfl, (hfirst.trans hrest).congr (by simp [hgoes])⟩
      | false =>
        have hstays : ¬ relation.Detaches current old := fun h => by simpa using hiff.mpr h
        simp only [Bool.false_eq_true, if_false]
        refine wp_mono (ih found) ?_ fun _ _ h => h
        rintro found' _ ⟨rfl, hrest⟩
        exact ⟨rfl, hrest.congr (by simp [hstays])⟩

/-- Reading through all relations of a row. -/
theorem wp_readAll (fuel : Nat) (row : Row) (hrows : limits.pageRows ≠ 0)
    (relations : List Relation) (found : Discovery) :
    wp (readAll memory.backend fuel row limits relations found)
      (fun found' s' => s' = s ∧ found.Extends limits.maxKeys (fun key => ∃ relation ∈ relations,
        Refers s relation row key) found')
      (fun e _ => e.Within (fuel ≤ s.rows.length)) s := by
  induction relations generalizing found with
  | nil => exact ⟨rfl, (Discovery.Extends.refl limits.maxKeys found).congr (by simp)⟩
  | cons relation relations ih =>
    unfold readAll
    rw [wp_bind]
    refine wp_mono (wp_readKeys fuel relation row hrows found) ?_ fun _ _ h => h
    rintro found' _ ⟨rfl, hfirst⟩
    refine wp_mono (ih found') ?_ fun _ _ h => h
    rintro found'' _ ⟨rfl, hrest⟩
    exact ⟨rfl, (hfirst.trans hrest).congr (by simp)⟩

/-! ## The dependents of a row -/

variable (memory) in
/-- The keys whose rows depend on the root: they reference it through a relation whose columns
change, or they reference a row that depends on it. -/
inductive Dependent (target : Database rank) (root : RowKey) (current old : Row) : RowKey → Prop
  | changed {relation : Relation} {key : RowKey} (hrelation : relation ∈ memory.relations root.table)
      (hdiffers : relation.Differs current old) (hrefers : Refers target relation old key) :
      Dependent target root current old key
  | step {parent : RowKey} {row : Row} {relation : Relation} {key : RowKey}
      (hparent : Dependent target root current old parent)
      (hrow : rowOf target parent = some row) (hrelation : relation ∈ memory.relations parent.table)
      (hrefers : Refers target relation row key) : Dependent target root current old key

variable (memory) in
/-- The keys that references lead to from some first ones. -/
inductive Reached (target : Database rank) (first : RowKey → Prop) : RowKey → Prop
  | first {key : RowKey} (hfirst : first key) : Reached target first key
  | step {parent : RowKey} {row : Row} {relation : Relation} {key : RowKey}
      (hparent : Reached target first parent) (hrow : rowOf target parent = some row)
      (hrelation : relation ∈ memory.relations parent.table)
      (hrefers : Refers target relation row key) : Reached target first key

variable (memory) in
/-- The rows that reference the root through a detached relation. -/
def Referencing (target : Database rank) (root : RowKey) (current : Option Row) (old : Row)
    (key : RowKey) : Prop :=
  ∃ relation ∈ memory.relations root.table, relation.Detaches current old ∧
    Refers target relation old key

variable {root : RowKey} {current old : Row} {schema : Schema} {first new : RowKey → Prop}

theorem dependent_iff_reached {key : RowKey} : memory.Dependent s root current old key ↔
    memory.Reached s (memory.Referencing s root (some current) old) key := by
  constructor
  · intro h
    induction h with
    | changed hrelation hdiffers hrefers =>
      exact .first ⟨_, hrelation, by simpa [Relation.Detaches] using hdiffers, hrefers⟩
    | step _ hrow hrelation hrefers ih => exact .step ih hrow hrelation hrefers
  · intro h
    induction h with
    | first hfirst =>
      obtain ⟨relation, hrelation, hdetaches, hrefers⟩ := hfirst
      exact .changed hrelation (hdetaches current rfl) hrefers
    | step _ hrow hrelation hrefers ih => exact .step ih hrow hrelation hrefers

theorem Reached.mono {key : RowKey} (h : memory.Reached s first key)
    (hfirst : ∀ key, first key → new key) : memory.Reached s new key := by
  induction h with
  | first h => exact .first (hfirst _ h)
  | step _ hrow hrelation hrefers ih => exact .step ih hrow hrelation hrefers

theorem Reached.congr {key : RowKey} (hfirst : ∀ key, first key ↔ new key) :
    memory.Reached s first key ↔ memory.Reached s new key :=
  ⟨fun h => h.mono fun key => (hfirst key).mp, fun h => h.mono fun key => (hfirst key).mpr⟩

/-- References lead to tables that are finished earlier. -/
theorem Reached.table_mem {key : RowKey} (h : memory.Reached s first key)
    (hloaded : memory.Loaded schema) {before : List String} {table : String}
    (horder : schema.order = before ++ [table])
    (hfirst : ∀ key, first key → key.table ∈ before) : key.table ∈ before := by
  induction h with
  | first h => exact hfirst _ h
  | @step parent row relation key _ _ hrelation hrefers ih =>
    obtain ⟨row, -, htable, -⟩ := hrefers
    rw [htable]
    obtain ⟨front, back, hbefore⟩ := List.append_of_mem ih
    have hsplit : schema.order = front ++ parent.table :: (back ++ [table]) := by
      rw [horder, hbefore]
      simp
    have hchild := hloaded.childrenFirst front parent.table _ hsplit relation hrelation
    rw [hbefore]
    exact List.mem_append_left _ hchild

/-- Rows that reference the root are in tables that are finished earlier. -/
theorem Referencing.table_mem {row : Option Row} {key : RowKey}
    (h : memory.Referencing s root row old key) (hloaded : memory.Loaded schema)
    {before : List String} (horder : schema.order = before ++ [root.table]) :
    key.table ∈ before := by
  obtain ⟨relation, hrelation, -, row, -, htable, -⟩ := h
  rw [htable]
  exact hloaded.childrenFirst before root.table [] horder relation hrelation

variable (memory) in
/-- The keys found are reached from the first ones, and so far only the dependents of pending keys
are missing. -/
structure Discovering (target : Database rank) (first : RowKey → Prop) (found : Discovery) :
    Prop where
  sound : ∀ key ∈ found.keys, memory.Reached target first key
  pending : ∀ key ∈ found.pending, key ∈ found.keys
  first : ∀ key, first key → key ∈ found.keys
  next : ∀ parent ∈ found.keys, parent ∉ found.pending → ∀ row, rowOf target parent = some row →
    ∀ relation ∈ memory.relations parent.table, ∀ key, Refers target relation row key →
      key ∈ found.keys

theorem Discovering.empty : memory.Discovering s (fun _ => False) ⟨[], []⟩ where
  sound _ h := by cases h
  pending _ h := by cases h
  first _ h := h.elim
  next _ h := by cases h

/-- More first keys are found; those that were not known are pending. -/
theorem Discovering.start {keys : List RowKey} {found : Discovery} {maxKeys : Nat}
    (h : memory.Discovering s first ⟨keys, []⟩)
    (hextends : Discovery.Extends maxKeys new ⟨keys, []⟩ found) :
    memory.Discovering s (fun key => first key ∨ new key) found where
  sound key hkey := by
    rcases (hextends.keys key).mp hkey with hold | hnew
    · exact (h.sound key hold).mono fun _ => Or.inl
    · exact .first (.inr hnew)
  pending key hkey := by
    have hnew := ((hextends.pending key).mp hkey).resolve_left List.not_mem_nil
    exact (hextends.keys key).mpr (Or.inr hnew.1)
  first key hkey := (hextends.keys key).mpr (hkey.imp_left (h.first key))
  next parent hparent hnot row hrow relation hrelation key hrefers := by
    have hold : parent ∈ keys := by
      by_contra hunknown
      have hnew := ((hextends.keys parent).mp hparent).resolve_left hunknown
      exact hnot ((hextends.pending parent).mpr (Or.inr ⟨hnew, hunknown⟩))
    exact (hextends.keys key).mpr
      (Or.inl (h.next parent hold List.not_mem_nil row hrow relation hrelation key hrefers))

/-- Reading the dependents of a pending key settles it. -/
theorem Discovering.settle {found found' : Discovery} {key : RowKey} {pending : List RowKey}
    {row : Row} {maxKeys : Nat} (h : memory.Discovering s first found)
    (hpending : found.pending = key :: pending) (hrow : rowOf s key = some row)
    (hextends : Discovery.Extends maxKeys (fun child => ∃ relation ∈ memory.relations key.table,
      Refers s relation row child) ⟨found.keys, pending⟩ found') :
    memory.Discovering s first found' where
  sound child hchild := by
    rcases (hextends.keys child).mp hchild with hold | ⟨relation, hrelation, hrefers⟩
    · exact h.sound child hold
    · have hkey := h.sound key (h.pending key (by simp [hpending]))
      exact .step hkey hrow hrelation hrefers
  pending child hchild := by
    rcases (hextends.pending child).mp hchild with hold | ⟨hnew, -⟩
    · have hmem := h.pending child (by simp [hpending, hold])
      exact (hextends.keys child).mpr (Or.inl hmem)
    · exact (hextends.keys child).mpr (Or.inr hnew)
  first child hchild := (hextends.keys child).mpr (Or.inl (h.first child hchild))
  next parent hparent hnot prow hprow relation hrelation child hrefers := by
    by_cases hkey : parent = key
    · subst hkey
      obtain rfl : row = prow := Option.some.inj (hrow.symm.trans hprow)
      exact (hextends.keys child).mpr (Or.inr ⟨relation, hrelation, hrefers⟩)
    · -- A key that was found now is still pending.
      have hold : parent ∈ found.keys := by
        by_contra hnew
        have hadded := ((hextends.keys parent).mp hparent).resolve_left hnew
        exact hnot ((hextends.pending parent).mpr (Or.inr ⟨hadded, hnew⟩))
      have hsettled : parent ∉ found.pending := by
        rw [hpending, List.mem_cons]
        rintro (heq | hmem)
        · exact hkey heq
        · exact hnot ((hextends.pending parent).mpr (Or.inl hmem))
      exact (hextends.keys child).mpr
        (Or.inl (h.next parent hold hsettled prow hprow relation hrelation child hrefers))

/-- Without pending keys the keys found are exactly those that are reached. -/
theorem Discovering.complete {found : Discovery} (h : memory.Discovering s first found)
    (hpending : found.pending = []) (key : RowKey) :
    key ∈ found.keys ↔ memory.Reached s first key := by
  refine ⟨h.sound key, fun hreached => ?_⟩
  induction hreached with
  | first hfirst => exact h.first _ hfirst
  | step _ hrow hrelation hrefers ih =>
    exact h.next _ ih (by simp [hpending]) _ hrow _ hrelation _ hrefers

/-- The pending keys are read until the dependent keys are found. A key is pending once, and their
number is bounded. -/
theorem wp_readPending (fuel steps : Nat) (hrows : limits.pageRows ≠ 0) {found : Discovery}
    (hloaded : memory.Loaded schema)
    (htables : ∀ key, memory.Reached s first key → key.table ∈ schema.order)
    (hfound : memory.Discovering s first found)
    (hbounded : found.keys.length ≤ limits.maxKeys) :
    wp (readPending memory.backend fuel limits schema steps found)
      (fun found' s' => s' = s ∧ memory.Discovering s first ⟨found'.keys, []⟩ ∧
        found'.keys.length ≤ limits.maxKeys)
      (fun e _ => e.Within (fuel ≤ s.rows.length ∨
        steps + found.keys.length ≤ found.pending.length + limits.maxKeys)) s := by
  induction steps generalizing found with
  | zero => exact ⟨nofun, fun _ => Or.inr (by omega)⟩
  | succ steps ih =>
    unfold readPending
    split
    case h_1 hpending =>
      refine ⟨rfl, ?_, hbounded⟩
      rw [← hpending]
      exact hfound
    case h_2 key pending hpending =>
      have hkey := hfound.sound key (hfound.pending key (by simp [hpending]))
      rw [wp_bind]
      refine wp_mono (wp_call (memory.wp_answer _ _)) ?_ fun _ _ h => h
      rintro _ s ⟨rfl, rfl⟩
      cases hrow : rowOf s key with
      | none => exact ⟨nofun, nofun⟩
      | some row =>
        dsimp only
        rw [wp_bind, hloaded.index (htables key hkey), wp_ofExcept_ok, wp_bind]
        refine wp_mono (wp_readAll fuel row hrows (memory.relations key.table)
          ⟨found.keys, pending⟩) ?_ fun _ _ h => h.mono Or.inl
        rintro found' s ⟨rfl, hextends⟩
        have hlength := hextends.length
        have hpendingLength : found.pending.length = pending.length + 1 := by simp [hpending]
        have hnext := ih (hfound.settle hpending hrow hextends) (hextends.bounded hbounded)
        refine wp_mono hnext (fun _ _ h => h) fun _ _ h => h.mono fun hbound => ?_
        rcases hbound with hbound | hbound
        · exact Or.inl hbound
        · refine Or.inr ?_
          dsimp only at hlength
          omega

/-- A discovery adds what is reached from the rows that reference the root. -/
theorem wp_discover (fuel : Nat) (root : RowKey) (row : Option Row) (old : Row)
    (hrows : limits.pageRows ≠ 0) (hloaded : memory.Loaded schema) {before : List String}
    (horder : schema.order = before ++ [root.table]) {keys : List RowKey}
    (hkeys : memory.Discovering s first ⟨keys, []⟩) (hbounded : keys.length ≤ limits.maxKeys)
    (hfirst : ∀ key, first key → key.table ∈ before) :
    wp (discover memory.backend fuel root row old limits schema keys)
      (fun keys' s' => s' = s ∧ memory.Discovering s
        (fun key => first key ∨ memory.Referencing s root row old key) ⟨keys', []⟩ ∧
        keys'.length ≤ limits.maxKeys)
      (fun e _ => e.Within (fuel ≤ s.rows.length + limits.maxKeys)) s := by
  have hroot : root.table ∈ schema.order := by simp [horder]
  unfold discover
  simp only [wp_bind]
  rw [hloaded.index hroot, wp_ofExcept_ok]
  refine wp_mono (wp_readDetached fuel row old hrows _ _) ?_ fun _ _ h => h.mono fun hbound => ?_
  case refine_2 => omega
  rintro found s ⟨rfl, hextends⟩
  have hlength := hextends.length
  have htables : ∀ key, memory.Reached s
      (fun key => first key ∨ memory.Referencing s root row old key) key →
      key.table ∈ schema.order := by
    intro key hreached
    rw [horder]
    refine List.mem_append_left _ (hreached.table_mem hloaded horder fun key hkey => ?_)
    rcases hkey with hkey | hkey
    · exact hfirst key hkey
    · exact hkey.table_mem hloaded horder
  have hpending := wp_readPending (s := s) fuel fuel hrows hloaded htables (hkeys.start hextends)
    (hextends.bounded hbounded)
  refine wp_mono hpending ?_ fun _ _ h => h.mono fun hbound => ?_
  case refine_2 =>
    dsimp only [List.length_nil] at hlength
    omega
  rintro found' s ⟨rfl, hdone, hbounded'⟩
  exact ⟨rfl, hdone, hbounded'⟩

variable (memory) in
/-- The number of steps after which the reads are done. -/
def readBound (limits : Limits) (target : Database rank) : Nat :=
  memory.parents.length + target.rows.length + limits.maxKeys

/-- The plan of a transition: the tables in an order that ends with the root's, referencing tables
first, and exactly the dependent keys. -/
theorem wp_discoverTransition (fuel : Nat) (root : RowKey) (row : Option Row) (old : Row)
    (limits : Limits) :
    wp (discoverTransition memory.backend fuel root row old limits)
      (fun plan s' => s' = s ∧ limits.pageRows ≠ 0 ∧ memory.Loaded plan.schema ∧
        (∃ before, plan.schema.order = before ++ [root.table]) ∧
        memory.Discovering s (memory.Referencing s root row old) ⟨plan.keys, []⟩ ∧
        plan.keys.length ≤ limits.maxKeys)
      (fun e _ => e.Within (fuel ≤ memory.readBound limits s)) s := by
  unfold discoverTransition
  split
  case isTrue => exact ⟨nofun, nofun⟩
  case isFalse hlimits =>
    have hrows : limits.pageRows ≠ 0 := fun h => hlimits (Or.inl h)
    rw [wp_bind]
    have hschema := wp_loadSchema (s := s) fuel root.table memory.loaded_empty List.nodup_nil
      (by simp)
    refine wp_mono hschema ?_ fun _ _ h => h.mono fun hbound => ?_
    case refine_2 =>
      simp only [List.length_nil] at hbound
      unfold readBound
      omega
    rintro schema s ⟨rfl, ⟨hvisits, -⟩, hlast⟩
    obtain ⟨before, horder⟩ := hlast (by simp)
    rw [wp_bind]
    have hdiscover := wp_discover (s := s) fuel root row old hrows hvisits.loaded horder
      Discovering.empty (Nat.zero_le _) fun _ h => h.elim
    refine wp_mono hdiscover ?_ fun _ _ h => h.mono fun hbound => ?_
    case refine_2 =>
      unfold readBound
      omega
    rintro keys s ⟨rfl, hkeys, hbounded⟩
    simp only [false_or] at hkeys
    exact ⟨rfl, hrows, hvisits.loaded, ⟨before, horder⟩, hkeys, hbounded⟩

end Memory

end BinlogCdc.FkTransition
