import BinlogCdc.Core.BatchOrder

/-!
# Tables in key order

The rows of a table under a linearly ordered key, at most one row for each key. A table
is determined by its lookups; deleting and writing rows are read through the lookups of
the result. A reader takes the rows after a cursor and up to a bound, page by page: the
rows after the last key of a page are the rows that the page left.
-/

namespace BinlogCdc

attribute [local instance] lawfulBEq_of_linearOrder

/-- The rows of a table, in strict key order. -/
structure KeyedTable {κ ρ : Type} [LinearOrder κ] (key : ρ → κ) where
  /-- The rows. -/
  rows : List ρ
  /-- Every row has a larger key than the rows before it. -/
  sorted : rows.Pairwise (key · < key ·)

namespace KeyedTable

variable {κ ρ : Type} [LinearOrder κ] {key : ρ → κ} {t t' : KeyedTable key}

/-! ## Lookups -/

/-- The row of a key. -/
def find (t : KeyedTable key) (k : κ) : Option ρ := t.rows.find? fun row => decide (key row = k)

theorem keys_nodup (t : KeyedTable key) : (t.rows.map key).Nodup :=
  List.pairwise_map.mpr (t.sorted.imp fun h => h.ne)

theorem rows_nodup (t : KeyedTable key) : t.rows.Nodup := t.keys_nodup.of_map key

/-- Two rows of a table with the same key are the same row. -/
theorem eq_of_key_eq (t : KeyedTable key) {r r' : ρ} (hr : r ∈ t.rows) (hr' : r' ∈ t.rows)
    (hkey : key r = key r') : r = r' :=
  List.inj_on_of_nodup_map t.keys_nodup hr hr' hkey

theorem find_eq_some {k : κ} {r : ρ} : t.find k = some r ↔ r ∈ t.rows ∧ key r = k := by
  constructor
  · intro h
    exact ⟨List.mem_of_find?_eq_some h, by simpa using List.find?_some h⟩
  · rintro ⟨hr, rfl⟩
    cases hfind : t.find (key r) with
    | none =>
      have := List.find?_eq_none.mp hfind r hr
      simp at this
    | some r' =>
      have hkey : key r' = key r := by simpa using List.find?_some hfind
      rw [t.eq_of_key_eq (List.mem_of_find?_eq_some hfind) hr hkey]

theorem find_eq_none {k : κ} : t.find k = none ↔ ∀ r ∈ t.rows, key r ≠ k := by
  simp [find, List.find?_eq_none]

theorem find_key {r : ρ} (hr : r ∈ t.rows) : t.find (key r) = some r :=
  find_eq_some.mpr ⟨hr, rfl⟩

theorem key_of_find {k : κ} {r : ρ} (h : t.find k = some r) : key r = k := (find_eq_some.mp h).2

theorem mem_of_find {k : κ} {r : ρ} (h : t.find k = some r) : r ∈ t.rows := (find_eq_some.mp h).1

/-- A key is present exactly when it is the key of a row. -/
theorem find_isSome {k : κ} : (t.find k).isSome = true ↔ k ∈ t.rows.map key := by
  constructor
  · intro h
    obtain ⟨r, hr⟩ := Option.isSome_iff_exists.mp h
    exact List.mem_map.mpr ⟨r, mem_of_find hr, key_of_find hr⟩
  · intro h
    obtain ⟨r, hr, rfl⟩ := List.mem_map.mp h
    rw [find_key hr]
    rfl

/-- A table is determined by its rows. -/
theorem eq_of_mem_iff (h : ∀ r, r ∈ t.rows ↔ r ∈ t'.rows) : t = t' := by
  have hperm : t.rows.Perm t'.rows :=
    (List.perm_ext_iff_of_nodup t.rows_nodup t'.rows_nodup).mpr h
  have hrows : t.rows = t'.rows :=
    hperm.eq_of_pairwise (fun _ _ _ _ h h' => absurd h' h.not_gt) t.sorted t'.sorted
  cases t
  cases t'
  cases hrows
  rfl

/-- A table is determined by its lookups. -/
@[ext] theorem ext_find (h : ∀ k, t.find k = t'.find k) : t = t' := by
  apply eq_of_mem_iff
  intro r
  constructor
  · intro hr
    exact mem_of_find ((h (key r)).symm.trans (find_key hr))
  · intro hr
    exact mem_of_find ((h (key r)).trans (find_key hr))

/-! ## Changes -/

/-- Delete the rows of some keys. -/
def erase (t : KeyedTable key) (keys : List κ) : KeyedTable key where
  rows := t.rows.filter fun row => decide (key row ∉ keys)
  sorted := t.sorted.filter _

/-- Write a row in the place of the row of its key. -/
def put (t : KeyedTable key) (row : ρ) : KeyedTable key where
  rows := (t.rows.filter fun r => decide (key r < key row)) ++
    row :: t.rows.filter fun r => decide (key row < key r)
  sorted := by
    refine List.pairwise_append.mpr ⟨t.sorted.filter _, ?_, ?_⟩
    · refine List.pairwise_cons.mpr ⟨?_, t.sorted.filter _⟩
      intro r hr
      exact of_decide_eq_true (List.mem_filter.mp hr).2
    · intro r hr r' hr'
      have hlt : key r < key row := of_decide_eq_true (List.mem_filter.mp hr).2
      rcases List.mem_cons.mp hr' with rfl | hr'
      · exact hlt
      · exact hlt.trans (of_decide_eq_true (List.mem_filter.mp hr').2)

/-- Write some rows, one after the other. -/
def putAll (t : KeyedTable key) (rows : List ρ) : KeyedTable key := rows.foldl put t

theorem mem_erase {keys : List κ} {r : ρ} :
    r ∈ (t.erase keys).rows ↔ r ∈ t.rows ∧ key r ∉ keys := by
  simp [erase]

theorem mem_put {row r : ρ} : r ∈ (t.put row).rows ↔ r = row ∨ r ∈ t.rows ∧ key r ≠ key row := by
  simp only [put, List.mem_append, List.mem_cons, List.mem_filter, decide_eq_true_eq]
  constructor
  · rintro (⟨hr, hlt⟩ | rfl | ⟨hr, hlt⟩)
    · exact Or.inr ⟨hr, hlt.ne⟩
    · exact Or.inl rfl
    · exact Or.inr ⟨hr, hlt.ne'⟩
  · rintro (rfl | ⟨hr, hne⟩)
    · exact Or.inr (Or.inl rfl)
    · rcases hne.lt_or_gt with hlt | hlt
      · exact Or.inl ⟨hr, hlt⟩
      · exact Or.inr (Or.inr ⟨hr, hlt⟩)

theorem find_erase (keys : List κ) (k : κ) :
    (t.erase keys).find k = if k ∈ keys then none else t.find k := by
  by_cases hk : k ∈ keys
  · rw [if_pos hk]
    refine find_eq_none.mpr fun r hr hkey => ?_
    exact (mem_erase.mp hr).2 (hkey ▸ hk)
  · rw [if_neg hk]
    ext r
    rw [find_eq_some, find_eq_some, mem_erase]
    constructor
    · rintro ⟨⟨hr, -⟩, hkey⟩
      exact ⟨hr, hkey⟩
    · rintro ⟨hr, hkey⟩
      exact ⟨⟨hr, hkey ▸ hk⟩, hkey⟩

theorem find_put (row : ρ) (k : κ) :
    (t.put row).find k = if k = key row then some row else t.find k := by
  by_cases hk : k = key row
  · rw [if_pos hk]
    exact find_eq_some.mpr ⟨mem_put.mpr (Or.inl rfl), hk.symm⟩
  · rw [if_neg hk]
    ext r
    rw [find_eq_some, find_eq_some, mem_put]
    constructor
    · rintro ⟨rfl | ⟨hr, -⟩, hkey⟩
      · exact absurd hkey.symm hk
      · exact ⟨hr, hkey⟩
    · rintro ⟨hr, hkey⟩
      exact ⟨Or.inr ⟨hr, hkey ▸ hk⟩, hkey⟩

/-- A key that none of the written rows has keeps its row. -/
theorem find_putAll_of_notMem {rows : List ρ} {k : κ} (hk : k ∉ rows.map key) :
    (t.putAll rows).find k = t.find k := by
  induction rows generalizing t with
  | nil => rfl
  | cons row rows ih =>
    rw [List.map_cons, List.mem_cons, not_or] at hk
    change ((t.put row).putAll rows).find k = _
    rw [ih hk.2, find_put, if_neg hk.1]

/-- Each of the written rows is found, if no two of them share a key. -/
theorem find_putAll_of_mem {rows : List ρ} (hnodup : (rows.map key).Nodup) {r : ρ}
    (hr : r ∈ rows) : (t.putAll rows).find (key r) = some r := by
  induction rows generalizing t with
  | nil => cases hr
  | cons row rows ih =>
    rw [List.map_cons, List.nodup_cons] at hnodup
    change ((t.put row).putAll rows).find (key r) = _
    rcases List.mem_cons.mp hr with rfl | hr
    · rw [find_putAll_of_notMem hnodup.1, find_put, if_pos rfl]
    · exact ih hnodup.2 hr

/-! ## Pulling a table towards another -/

/-- A change of a table towards another one: the keys of the first set have the rows of the other
table, and any key that changed is in the second set and has the row of the other table too. -/
def Pulls (other : KeyedTable key) (must may : κ → Prop) (t t' : KeyedTable key) : Prop :=
  ∀ k, (must k → t'.find k = other.find k) ∧
    (t'.find k = t.find k ∨ may k ∧ t'.find k = other.find k)

variable {other : KeyedTable key} {must may must' may' : κ → Prop}

theorem Pulls.refl (t : KeyedTable key) : Pulls other (fun _ => False) may t t :=
  fun _ => ⟨False.elim, Or.inl rfl⟩

/-- Two changes one after the other are one change with both their keys. -/
theorem Pulls.trans {t'' : KeyedTable key} (h : Pulls other must may t t')
    (h' : Pulls other must' may' t' t'') :
    Pulls other (fun k => must k ∨ must' k) (fun k => may k ∨ may' k) t t'' := by
  intro k
  refine ⟨?_, ?_⟩
  · rintro (hk | hk)
    · rcases (h' k).2 with he | ⟨-, he⟩
      · exact he.trans ((h k).1 hk)
      · exact he
    · exact (h' k).1 hk
  · rcases (h' k).2 with he | ⟨hk, he⟩
    · rcases (h k).2 with he' | ⟨hk, he'⟩
      · exact Or.inl (he.trans he')
      · exact Or.inr ⟨Or.inl hk, he.trans he'⟩
    · exact Or.inr ⟨Or.inr hk, he⟩

theorem Pulls.mono (h : Pulls other must may t t') (hmust : ∀ k, must' k → must k)
    (hmay : ∀ k, may k → may' k) : Pulls other must' may' t t' := by
  intro k
  refine ⟨fun hk => (h k).1 (hmust k hk), ?_⟩
  rcases (h k).2 with he | ⟨hk, he⟩
  · exact Or.inl he
  · exact Or.inr ⟨hmay k hk, he⟩

/-- A key that already agrees keeps agreeing. -/
theorem Pulls.agrees (h : Pulls other must may t t') {k : κ} (hk : t.find k = other.find k) :
    t'.find k = other.find k := by
  rcases (h k).2 with he | ⟨-, he⟩
  · exact he.trans hk
  · exact he

/-- Deleting keys that the other table does not have. -/
theorem pulls_erase {keys : List κ} (hkeys : ∀ k ∈ keys, other.find k = none) :
    Pulls other (· ∈ keys) (· ∈ keys) t (t.erase keys) := by
  intro k
  rw [find_erase]
  by_cases hk : k ∈ keys
  · rw [if_pos hk, hkeys k hk]
    exact ⟨fun _ => rfl, Or.inr ⟨hk, rfl⟩⟩
  · rw [if_neg hk]
    exact ⟨fun h => absurd h hk, Or.inl rfl⟩

/-- Writing rows of the other table. -/
theorem pulls_putAll {rows : List ρ} (hrows : ∀ r ∈ rows, r ∈ other.rows)
    (hnodup : (rows.map key).Nodup) :
    Pulls other (· ∈ rows.map key) (· ∈ rows.map key) t (t.putAll rows) := by
  intro k
  by_cases hk : k ∈ rows.map key
  · obtain ⟨r, hr, rfl⟩ := List.mem_map.mp hk
    have he : (t.putAll rows).find (key r) = other.find (key r) := by
      rw [find_putAll_of_mem hnodup hr, find_key (hrows r hr)]
    exact ⟨fun _ => he, Or.inr ⟨hk, he⟩⟩
  · exact ⟨fun h => absurd h hk, Or.inl (find_putAll_of_notMem hk)⟩

/-! ## Windows and pages -/

/-- The key is after the cursor and not after the bound. -/
def InWindow (after upto : Option κ) (k : κ) : Prop := (∀ c ∈ after, c < k) ∧ ∀ e ∈ upto, k ≤ e

instance (after upto : Option κ) (k : κ) : Decidable (InWindow after upto k) :=
  inferInstanceAs (Decidable (_ ∧ _))

/-- The rows after a cursor and up to a bound. -/
def select (t : KeyedTable key) (after upto : Option κ) : List ρ :=
  t.rows.filter fun row => decide (InWindow after upto (key row))

theorem mem_select {after upto : Option κ} {r : ρ} :
    r ∈ t.select after upto ↔ r ∈ t.rows ∧ InWindow after upto (key r) := by
  simp [select]

theorem select_sorted (t : KeyedTable key) (after upto : Option κ) :
    (t.select after upto).Pairwise (key · < key ·) := t.sorted.filter _

/-- The rows after the last key of a page are the rows that follow the page. -/
theorem select_after_page {after upto : Option κ} {page rest : List ρ} {last : ρ}
    (hpage : t.select after upto = page ++ rest) (hlast : page.getLast? = some last) :
    t.select (some (key last)) upto = rest := by
  have hmem : last ∈ page := List.mem_of_getLast? hlast
  have hsorted := t.select_sorted after upto
  rw [hpage] at hsorted
  obtain ⟨hbefore, -, hbetween⟩ := List.pairwise_append.mp hsorted
  have hin : InWindow after upto (key last) := by
    refine (mem_select.mp (?_ : last ∈ t.select after upto)).2
    rw [hpage]
    exact List.mem_append_left _ hmem
  -- The later selection is the filter of the earlier one by the new cursor.
  have hfilter : t.select (some (key last)) upto =
      (t.select after upto).filter fun row => decide (key last < key row) := by
    unfold select
    rw [List.filter_filter]
    refine List.filter_congr fun r _ => ?_
    rw [← Bool.decide_and]
    refine decide_eq_decide.mpr ⟨fun h => ⟨h.1 _ rfl, fun c hc => ?_, h.2⟩, fun h => ⟨?_, h.2.2⟩⟩
    · exact (hin.1 c hc).trans (h.1 _ rfl)
    · intro c hc
      cases hc
      exact h.1
  have hle : ∀ r ∈ page, ¬ key last < key r := by
    intro r hr hlt
    obtain ⟨init, rfl⟩ := List.getLast?_eq_some_iff.mp hlast
    rcases List.mem_append.mp hr with hr | hr
    · exact hlt.not_gt ((List.pairwise_append.mp hbefore).2.2 r hr last (List.mem_singleton.mpr rfl))
    · cases List.mem_singleton.mp hr
      exact lt_irrefl _ hlt
  rw [hfilter, hpage, List.filter_append]
  have hnil : page.filter (fun row => decide (key last < key row)) = [] :=
    List.filter_eq_nil_iff.mpr fun r hr => by simpa using hle r hr
  have hall : rest.filter (fun row => decide (key last < key row)) = rest :=
    List.filter_eq_self.mpr fun r hr => decide_eq_true (hbetween last hmem r hr)
  rw [hnil, hall, List.nil_append]

/-- The rows up to the last key of a page are the rows of the page. -/
theorem select_upto_page {after upto : Option κ} {page rest : List ρ} {last : ρ}
    (hpage : t.select after upto = page ++ rest) (hlast : page.getLast? = some last) :
    t.select after (some (key last)) = page := by
  have hsorted := t.select_sorted after upto
  rw [hpage] at hsorted
  obtain ⟨hbefore, -, hbetween⟩ := List.pairwise_append.mp hsorted
  have hmem : last ∈ page := List.mem_of_getLast? hlast
  obtain ⟨init, rfl⟩ := List.getLast?_eq_some_iff.mp hlast
  have htables : (⟨t.select after (some (key last)), t.select_sorted _ _⟩ : KeyedTable key) =
      ⟨init ++ [last], hbefore⟩ := by
    apply eq_of_mem_iff
    intro r
    change r ∈ t.select after (some (key last)) ↔ r ∈ init ++ [last]
    have hin : last ∈ t.select after upto := hpage ▸ List.mem_append_left _ hmem
    constructor
    · intro hr
      obtain ⟨hrow, hafter, hupto⟩ := mem_select.mp hr
      have hle : key r ≤ key last := hupto _ rfl
      have hr' : r ∈ t.select after upto :=
        mem_select.mpr ⟨hrow, hafter, fun e he => hle.trans ((mem_select.mp hin).2.2 e he)⟩
      rw [hpage] at hr'
      rcases List.mem_append.mp hr' with hr' | hr'
      · exact hr'
      · exact absurd hle (hbetween last hmem r hr').not_ge
    · intro hr
      have hr' : r ∈ t.select after upto := hpage ▸ List.mem_append_left _ hr
      obtain ⟨hrow, hafter, -⟩ := mem_select.mp hr'
      refine mem_select.mpr ⟨hrow, hafter, ?_⟩
      intro e he
      cases he
      rcases List.mem_append.mp hr with hr | hr
      · exact ((List.pairwise_append.mp hbefore).2.2 r hr last (List.mem_singleton.mpr rfl)).le
      · rw [List.mem_singleton.mp hr]
  exact congrArg rows htables

/-- The rows of a window depend only on the lookups in the window. -/
theorem select_congr {after upto : Option κ}
    (h : ∀ k, InWindow after upto k → t'.find k = t.find k) :
    t'.select after upto = t.select after upto := by
  have htables : (⟨t'.select after upto, t'.select_sorted after upto⟩ : KeyedTable key) =
      ⟨t.select after upto, t.select_sorted after upto⟩ := by
    apply eq_of_mem_iff
    intro r
    change r ∈ t'.select after upto ↔ r ∈ t.select after upto
    rw [mem_select, mem_select]
    constructor
    · rintro ⟨hr, hin⟩
      exact ⟨mem_of_find ((h _ hin).symm.trans (find_key hr)), hin⟩
    · rintro ⟨hr, hin⟩
      exact ⟨mem_of_find ((h _ hin).trans (find_key hr)), hin⟩
  exact congrArg rows htables

end KeyedTable

end BinlogCdc
