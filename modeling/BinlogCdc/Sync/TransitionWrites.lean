import BinlogCdc.Core.Recording
import BinlogCdc.Sync.TransitionDiscovery

/-!
# Transitions against any backend

Nothing is assumed here about the answers of the backend: its pages may stand still, repeat
keys or name unknown tables. A transition or a replacement makes no write before it has
found the whole set of dependent keys, and an error of the discovery leaves the target as it
was. The loops over pages and over pending keys end on every sequence of pages, since a page
that is accepted has keys that were not seen before and their number is bounded.
-/

namespace BinlogCdc.FkTransition

open Prog

variable {σ ε : Type}

/-! ## The calls of a discovery -/

/-- The call changes the target. -/
def Call.Writes : Call → Prop
  | .delete _ | .update _ _ | .insert _ _ => True
  | .incoming _ | .dependentPage _ _ _ | .targetRow _ | .sourceRow _ | .ensureParents _ _ => False

/-- The call is one that a discovery makes. -/
def Call.Discovers : Call → Prop
  | .incoming _ | .dependentPage _ _ _ | .targetRow _ => True
  | .sourceRow _ | .ensureParents _ _ | .delete _ | .update _ _ | .insert _ _ => False

theorem Call.Discovers.not_writes {call : Call} (h : call.Discovers) : ¬ call.Writes := by
  cases call <;> simp_all [Call.Discovers, Call.Writes]

/-- The backend with a record of its calls. -/
def Backend.recorded (backend : Backend σ ε) : Backend (σ × List Call) ε where
  incoming table := logged (.incoming table) (backend.incoming table)
  dependentPage relation old after limit byteLimit :=
    logged (.dependentPage relation old after) (backend.dependentPage relation old after limit byteLimit)
  targetRow key := logged (.targetRow key) (backend.targetRow key)
  sourceRow key := logged (.sourceRow key) (backend.sourceRow key)
  ensureParents table desired :=
    logged (.ensureParents table desired) (backend.ensureParents table desired)
  delete key := logged (.delete key) (backend.delete key)
  update key desired := logged (.update key desired) (backend.update key desired)
  insert key desired := logged (.insert key desired) (backend.insert key desired)

section Discovery

variable (backend : Backend σ ε)

theorem records_loadChildren {visit : String → Schema → Prog σ (Error ε) Schema}
    {visit' : String → Schema → Prog (σ × List Call) (Error ε) Schema}
    (hvisit : ∀ table schema, Records Call.Discovers (visit table schema) (visit' table schema))
    (relations : List Relation) (schema : Schema) :
    Records Call.Discovers (loadChildren visit relations schema)
      (loadChildren visit' relations schema) := by
  induction relations generalizing schema with
  | nil => exact .pure schema
  | cons relation relations ih =>
    unfold loadChildren
    split
    case isTrue => exact (hvisit _ _).bind ih
    case isFalse => exact .fail _

theorem records_loadSchema (fuel : Nat) (visiting : List String) (table : String)
    (schema : Schema) :
    Records Call.Discovers (loadSchema backend fuel visiting table schema)
      (loadSchema backend.recorded fuel visiting table schema) := by
  induction fuel generalizing visiting table schema with
  | zero => exact .fail _
  | succ fuel ih =>
    unfold loadSchema
    split
    case isTrue => exact .fail _
    case isFalse =>
      split
      case isTrue => exact .pure _
      case isFalse =>
        have hincoming := (Records.of_logged (P := Call.Discovers) (.incoming table) trivial
          (backend.incoming table)).mapError Error.backend
        refine hincoming.bind fun relations => ?_
        exact (records_loadChildren (ih (table :: visiting)) relations schema).bind fun _ => .pure _

theorem records_readPages (relation : Relation) (old : Row) (limits : Limits) (fuel : Nat)
    (after : Option Key) (seen : List Key) (found : Discovery) :
    Records Call.Discovers (readPages backend relation old limits after seen found fuel)
      (readPages backend.recorded relation old limits after seen found fuel) := by
  induction fuel generalizing after seen found with
  | zero => exact .fail _
  | succ fuel ih =>
    unfold readPages
    have hpage := (Records.of_logged (P := Call.Discovers) (.dependentPage relation old after) trivial
      (backend.dependentPage relation old after limits.pageRows pageBytes)).mapError Error.backend
    refine hpage.bind fun page => ?_
    split
    case isTrue => exact .pure _
    case isFalse =>
      split
      case isTrue => exact .fail _
      case isFalse => exact (Records.ofExcept _).bind fun _ => ih _ _ _

theorem records_readDetached (fuel : Nat) (current : Option Row) (old : Row) (limits : Limits)
    (relations : List Relation) (found : Discovery) :
    Records Call.Discovers (readDetached backend fuel current old limits relations found)
      (readDetached backend.recorded fuel current old limits relations found) := by
  induction relations generalizing found with
  | nil => exact .pure _
  | cons relation relations ih =>
    unfold readDetached
    refine (Records.ofExcept _).bind fun goes => ?_
    split
    case isTrue => exact (records_readPages backend relation old limits fuel none [] found).bind ih
    case isFalse => exact ih found

theorem records_readAll (fuel : Nat) (row : Row) (limits : Limits) (relations : List Relation)
    (found : Discovery) :
    Records Call.Discovers (readAll backend fuel row limits relations found)
      (readAll backend.recorded fuel row limits relations found) := by
  induction relations generalizing found with
  | nil => exact .pure _
  | cons relation relations ih =>
    unfold readAll
    exact (records_readPages backend relation row limits fuel none [] found).bind ih

theorem records_readPending (fuel : Nat) (limits : Limits) (schema : Schema) (steps : Nat)
    (found : Discovery) :
    Records Call.Discovers (readPending backend fuel limits schema steps found)
      (readPending backend.recorded fuel limits schema steps found) := by
  induction steps generalizing found with
  | zero => exact .fail _
  | succ steps ih =>
    unfold readPending
    split
    case h_1 => exact .pure _
    case h_2 key pending _ =>
      have htarget := (Records.of_logged (P := Call.Discovers) (.targetRow key) trivial
        (backend.targetRow key)).mapError Error.backend
      refine htarget.bind fun row => ?_
      cases row with
      | none => exact .fail _
      | some row =>
        refine (Records.ofExcept _).bind fun relations => ?_
        exact (records_readAll backend fuel row limits relations _).bind ih

theorem records_discover (fuel : Nat) (root : RowKey) (current : Option Row) (old : Row)
    (limits : Limits) (schema : Schema) (keys : List RowKey) :
    Records Call.Discovers (discover backend fuel root current old limits schema keys)
      (discover backend.recorded fuel root current old limits schema keys) := by
  unfold discover
  refine (Records.ofExcept _).bind fun relations => ?_
  refine (records_readDetached backend fuel current old limits relations _).bind fun found => ?_
  exact (records_readPending backend fuel limits schema fuel found).bind fun _ => .pure _

theorem records_discoverTransition (fuel : Nat) (root : RowKey) (current : Option Row) (old : Row)
    (limits : Limits) :
    Records Call.Discovers (discoverTransition backend fuel root current old limits)
      (discoverTransition backend.recorded fuel root current old limits) := by
  unfold discoverTransition
  split
  case isTrue => exact .fail _
  case isFalse =>
    refine (records_loadSchema backend fuel [] root.table _).bind fun schema => ?_
    exact (records_discover backend fuel root current old limits schema []).bind fun _ => .pure _

theorem records_discoverReplacement (fuel : Nat) (oldOwner intended : RowKey × Row)
    (intendedExists : Bool) (limits : Limits) :
    Records Call.Discovers (discoverReplacement backend fuel oldOwner intended intendedExists limits)
      (discoverReplacement backend.recorded fuel oldOwner intended intendedExists limits) := by
  unfold discoverReplacement
  refine (records_discoverTransition backend fuel _ none _ limits).bind fun plan => ?_
  cases intendedExists with
  | false => exact .pure _
  | true =>
    have htarget := (Records.of_logged (P := Call.Discovers) (.targetRow intended.1) trivial
      (backend.targetRow intended.1)).mapError Error.backend
    refine htarget.bind fun row => ?_
    cases row with
    | none => exact .fail _
    | some row =>
      exact (records_discover backend fuel _ _ row limits plan.schema plan.keys).bind fun _ =>
        .pure _

end Discovery

/-! ## The end of the loops -/

section Termination

variable {backend : Backend σ ε} {s : σ} {limits : Limits}

/-- Whatever a call answers, the loops go on or stop with its error. -/
theorem wp_anyCall {α : Type} (c : Prog σ ε α) :
    wp (mapError Error.backend c) (fun _ _ => True) (fun e _ => e ≠ .diverged) s := by
  rw [Prog.wp_mapError]
  unfold wp
  split
  · trivial
  · rintro ⟨⟩

theorem ne_diverged_of_within {e : Error ε} (h : e.Within False) : e ≠ .diverged := h.2

/-- The keys seen in the pages of a relation are different, and they are found. -/
structure Seen (relation : Relation) (seen : List Key) (found : Discovery) : Prop where
  nodup : seen.Nodup
  found : ∀ pk ∈ seen, (⟨relation.childTable, pk⟩ : RowKey) ∈ found.keys

theorem Seen.length_le {relation : Relation} {seen : List Key} {found : Discovery}
    (h : Seen relation seen found) : seen.length ≤ found.keys.length := by
  have hinjective : Function.Injective fun pk : Key => (⟨relation.childTable, pk⟩ : RowKey) :=
    fun _ _ heq => congrArg RowKey.pk heq
  have hsubset : seen.map (fun pk => (⟨relation.childTable, pk⟩ : RowKey)) ⊆ found.keys := by
    intro key hkey
    obtain ⟨pk, hpk, rfl⟩ := List.mem_map.mp hkey
    exact h.found pk hpk
  have hlength := ((h.nodup.map hinjective).subperm hsubset).length_le
  rwa [List.length_map] at hlength

/-- A page that is accepted has only keys that were not seen before. -/
theorem Seen.collectPage {relation : Relation} {maxKeys : Nat} {page seen : List Key}
    {found : Discovery} {result : List Key × Discovery} (h : Seen relation seen found)
    (hcollect : FkTransition.collectPage (ε := ε) relation maxKeys seen found page = .ok result) :
    Seen relation result.1 result.2 ∧ result.1.length = seen.length + page.length := by
  induction page generalizing seen found with
  | nil =>
    cases hcollect
    exact ⟨h, rfl⟩
  | cons pk page ih =>
    unfold FkTransition.collectPage at hcollect
    split at hcollect
    case isTrue => cases hcollect
    case isFalse hfresh =>
      rw [not_or] at hfresh
      have hnodup : (pk :: seen).Nodup := List.nodup_cons.mpr ⟨hfresh.2, h.nodup⟩
      dsimp only at hcollect
      split at hcollect
      case isTrue hmem =>
        obtain ⟨hseen, hlength⟩ := ih ⟨hnodup, List.forall_mem_cons.mpr ⟨hmem, h.found⟩⟩ hcollect
        exact ⟨hseen, by simp only [List.length_cons] at hlength ⊢; omega⟩
      case isFalse =>
        split at hcollect
        case isTrue => cases hcollect
        case isFalse =>
          have hfound : ∀ other ∈ pk :: seen, (⟨relation.childTable, other⟩ : RowKey) ∈
              insertSorted ⟨relation.childTable, pk⟩ found.keys := by
            intro other hother
            rw [mem_insertSorted]
            rcases List.mem_cons.mp hother with rfl | hother
            · exact Or.inl rfl
            · exact Or.inr (h.found other hother)
          obtain ⟨hseen, hlength⟩ := ih ⟨hnodup, hfound⟩ hcollect
          exact ⟨hseen, by simp only [List.length_cons] at hlength ⊢; omega⟩

/-- The pages come to an end: each one that is accepted shows at least one more key, and at most
as many are shown as may be found. -/
theorem wp_readPages_ends (fuel : Nat) (relation : Relation) (old : Row) {after : Option Key}
    {seen : List Key} {found : Discovery} (hseen : Seen relation seen found)
    (hbounded : found.keys.length ≤ limits.maxKeys) (hfuel : limits.maxKeys < fuel + seen.length) :
    wp (readPages backend relation old limits after seen found fuel)
      (fun found' _ => ∃ new, found.Extends limits.maxKeys new found') (fun e _ => e ≠ .diverged)
      s := by
  induction fuel generalizing after seen found s with
  | zero =>
    have hlength := hseen.length_le
    omega
  | succ fuel ih =>
    unfold readPages
    rw [wp_bind]
    refine wp_mono (wp_anyCall _) ?_ fun _ _ h => h
    intro page s _
    split
    case isTrue => exact ⟨_, .refl limits.maxKeys found⟩
    case isFalse hpage =>
      split
      case isTrue => rintro ⟨⟩
      case isFalse =>
        rw [wp_bind]
        cases hcollect : FkTransition.collectPage (ε := ε) relation limits.maxKeys seen found page with
        | error e => exact ne_diverged_of_within (collectPage_error hcollect)
        | ok result =>
          rw [wp_ofExcept_ok]
          have hextends := extends_collectPage hcollect
          obtain ⟨hseen', hlength⟩ := hseen.collectPage hcollect
          have hpos := List.length_pos_of_ne_nil hpage
          refine wp_mono (ih hseen' (hextends.bounded hbounded) (by omega)) ?_ fun _ _ h => h
          rintro found' _ ⟨new, hnew⟩
          exact ⟨_, hextends.trans hnew⟩

theorem wp_readKeys_ends {fuel : Nat} (hfuel : limits.maxKeys < fuel) (relation : Relation)
    (old : Row) {found : Discovery} (hbounded : found.keys.length ≤ limits.maxKeys) :
    wp (readKeys backend fuel relation old limits found)
      (fun found' _ => ∃ new, found.Extends limits.maxKeys new found') (fun e _ => e ≠ .diverged)
      s :=
  wp_readPages_ends fuel relation old ⟨List.nodup_nil, List.forall_mem_nil _⟩ hbounded hfuel

theorem wp_readDetached_ends {fuel : Nat} (hfuel : limits.maxKeys < fuel) (current : Option Row)
    (old : Row) (relations : List Relation) {found : Discovery}
    (hbounded : found.keys.length ≤ limits.maxKeys) :
    wp (readDetached backend fuel current old limits relations found)
      (fun found' _ => ∃ new, found.Extends limits.maxKeys new found') (fun e _ => e ≠ .diverged)
      s := by
  induction relations generalizing found s with
  | nil => exact ⟨_, .refl limits.maxKeys found⟩
  | cons relation relations ih =>
    unfold readDetached
    rw [wp_bind]
    cases hdetaches : detaches (ε := ε) relation current old with
    | error e => exact ne_diverged_of_within (detaches_error hdetaches)
    | ok goes =>
      rw [wp_ofExcept_ok]
      split
      case isFalse => exact ih hbounded
      case isTrue =>
        rw [wp_bind]
        refine wp_mono (wp_readKeys_ends hfuel relation old hbounded) ?_ fun _ _ h => h
        rintro found' s ⟨new, hfirst⟩
        refine wp_mono (ih (hfirst.bounded hbounded)) ?_ fun _ _ h => h
        rintro found'' _ ⟨new', hrest⟩
        exact ⟨_, hfirst.trans hrest⟩

theorem wp_readAll_ends {fuel : Nat} (hfuel : limits.maxKeys < fuel) (row : Row)
    (relations : List Relation) {found : Discovery}
    (hbounded : found.keys.length ≤ limits.maxKeys) :
    wp (readAll backend fuel row limits relations found)
      (fun found' _ => ∃ new, found.Extends limits.maxKeys new found') (fun e _ => e ≠ .diverged)
      s := by
  induction relations generalizing found s with
  | nil => exact ⟨_, .refl limits.maxKeys found⟩
  | cons relation relations ih =>
    unfold readAll
    rw [wp_bind]
    refine wp_mono (wp_readKeys_ends hfuel relation row hbounded) ?_ fun _ _ h => h
    rintro found' s ⟨new, hfirst⟩
    refine wp_mono (ih (hfirst.bounded hbounded)) ?_ fun _ _ h => h
    rintro found'' _ ⟨new', hrest⟩
    exact ⟨_, hfirst.trans hrest⟩

theorem index_ne_diverged {schema : Schema} {table : String} {e : Error ε}
    (h : schema.index table = .error e) : e ≠ .diverged := by
  unfold Schema.index at h
  split at h
  · cases h
  · cases h
    rintro ⟨⟩

/-- The pending keys come to an end: a key becomes pending only when it is found, and each step
settles one. -/
theorem wp_readPending_ends {fuel : Nat} (hfuel : limits.maxKeys < fuel) (schema : Schema)
    (steps : Nat) {found : Discovery} (hbounded : found.keys.length ≤ limits.maxKeys)
    (hsteps : found.pending.length + limits.maxKeys < steps + found.keys.length) :
    wp (readPending backend fuel limits schema steps found)
      (fun found' _ => found'.keys.length ≤ limits.maxKeys) (fun e _ => e ≠ .diverged) s := by
  induction steps generalizing found s with
  | zero => omega
  | succ steps ih =>
    unfold readPending
    split
    case h_1 => exact hbounded
    case h_2 key pending hpending =>
      rw [wp_bind]
      refine wp_mono (wp_anyCall _) ?_ fun _ _ h => h
      intro row s _
      cases row with
      | none => rintro ⟨⟩
      | some row =>
        dsimp only
        rw [wp_bind]
        cases hindex : schema.index (ε := ε) key.table with
        | error e => exact index_ne_diverged hindex
        | ok relations =>
          rw [wp_ofExcept_ok, wp_bind]
          have hread : wp (readAll backend fuel row limits relations ⟨found.keys, pending⟩) _ _ s :=
            wp_readAll_ends hfuel row relations hbounded
          refine wp_mono hread ?_ fun _ _ h => h
          rintro found' s ⟨new, hextends⟩
          have hlength := hextends.length
          have hpendingLength : found.pending.length = pending.length + 1 := by simp [hpending]
          refine ih (hextends.bounded hbounded) ?_
          dsimp only at hlength
          omega

theorem wp_discover_ends {fuel : Nat} (hfuel : limits.maxKeys < fuel) (root : RowKey)
    (current : Option Row) (old : Row) (schema : Schema) {keys : List RowKey}
    (hbounded : keys.length ≤ limits.maxKeys) :
    wp (discover backend fuel root current old limits schema keys)
      (fun keys' _ => keys'.length ≤ limits.maxKeys) (fun e _ => e ≠ .diverged) s := by
  unfold discover
  rw [wp_bind]
  cases hindex : schema.index (ε := ε) root.table with
  | error e => exact index_ne_diverged hindex
  | ok relations =>
    rw [wp_ofExcept_ok, wp_bind]
    have hread : wp (readDetached backend fuel current old limits relations ⟨keys, []⟩) _ _ s :=
      wp_readDetached_ends hfuel current old relations hbounded
    refine wp_mono hread ?_ fun _ _ h => h
    rintro found s ⟨new, hextends⟩
    have hlength := hextends.length
    rw [wp_bind]
    refine wp_mono (wp_readPending_ends hfuel schema fuel (hextends.bounded hbounded) ?_)
      (fun _ _ h => h) fun _ _ h => h
    dsimp only [List.length_nil] at hlength
    omega

/-- Every answer about the foreign keys names only these tables. -/
def Backend.NamesOnly (backend : Backend σ ε) (tables : List String) : Prop :=
  ∀ table s relations s', backend.incoming table s = (.ok relations, s') →
    ∀ relation ∈ relations, relation.childTable ∈ tables

theorem wp_loadChildren_ends {visit : String → Schema → Prog σ (Error ε) Schema}
    {relations : List Relation} {schema : Schema}
    (hvisit : ∀ relation ∈ relations, ∀ schema s,
      wp (visit relation.childTable schema) (fun _ _ => True) (fun e _ => e ≠ .diverged) s) :
    wp (loadChildren visit relations schema) (fun _ _ => True) (fun e _ => e ≠ .diverged) s := by
  induction relations generalizing schema s with
  | nil => trivial
  | cons relation relations ih =>
    unfold loadChildren
    split
    case isFalse => rintro ⟨⟩
    case isTrue =>
      rw [wp_bind]
      refine wp_mono (hvisit relation List.mem_cons_self schema s) ?_ fun _ _ h => h
      intro schema s _
      exact ih fun other hother => hvisit other (List.mem_cons_of_mem _ hother)

/-- The visits come to an end when there are finitely many tables: those that are being visited are
different. -/
theorem wp_loadSchema_ends {tables : List String} (hnames : backend.NamesOnly tables) (fuel : Nat)
    {visiting : List String} (hnodup : visiting.Nodup) (hvisiting : visiting ⊆ tables)
    {table : String} (htable : table ∈ tables) (schema : Schema)
    (hfuel : tables.length < fuel + visiting.length) :
    wp (loadSchema backend fuel visiting table schema) (fun _ _ => True) (fun e _ => e ≠ .diverged)
      s := by
  induction fuel generalizing visiting table schema s with
  | zero =>
    have hlength := (hnodup.subperm hvisiting).length_le
    omega
  | succ fuel ih =>
    unfold loadSchema
    split
    case isTrue => rintro ⟨⟩
    case isFalse hnew =>
      split
      case isTrue => trivial
      case isFalse =>
        rw [wp_bind]
        have hincoming : wp (mapError Error.backend (backend.incoming table))
            (fun relations _ => ∀ relation ∈ relations, relation.childTable ∈ tables)
            (fun e _ => e ≠ .diverged) s := by
          rw [Prog.wp_mapError]
          unfold wp
          split
          · exact hnames table s _ _ ‹_›
          · rintro ⟨⟩
        refine wp_mono hincoming ?_ fun _ _ h => h
        intro relations s hrelations
        rw [wp_bind]
        have hchildren : wp (loadChildren (loadSchema backend fuel (table :: visiting)) relations
            schema) (fun _ _ => True) (fun e _ => e ≠ .diverged) s := by
          refine wp_loadChildren_ends fun relation hrelation schema s => ?_
          refine ih (List.nodup_cons.mpr ⟨hnew, hnodup⟩) (List.cons_subset.mpr ⟨htable, hvisiting⟩)
            (hrelations relation hrelation) schema ?_
          rw [List.length_cons]
          omega
        exact wp_mono hchildren (fun _ _ _ => trivial) fun _ _ h => h

theorem wp_discoverTransition_ends {tables : List String} (hnames : backend.NamesOnly tables)
    {fuel : Nat} (hfuel : limits.maxKeys < fuel) (htables : tables.length < fuel) {root : RowKey}
    (hroot : root.table ∈ tables) (current : Option Row) (old : Row) :
    wp (discoverTransition backend fuel root current old limits)
      (fun plan _ => plan.keys.length ≤ limits.maxKeys) (fun e _ => e ≠ .diverged) s := by
  unfold discoverTransition
  split
  case isTrue => rintro ⟨⟩
  case isFalse =>
    rw [wp_bind]
    refine wp_mono (wp_loadSchema_ends hnames fuel List.nodup_nil (List.nil_subset _) hroot _
      (by simpa using htables)) ?_ fun _ _ h => h
    intro schema s _
    rw [wp_bind]
    have hdiscover : wp (discover backend fuel root current old limits schema []) _ _ s :=
      wp_discover_ends hfuel root current old schema (Nat.zero_le _)
    exact wp_mono hdiscover (fun _ _ h => h) fun _ _ h => h

theorem wp_discoverReplacement_ends {tables : List String} (hnames : backend.NamesOnly tables)
    {fuel : Nat} (hfuel : limits.maxKeys < fuel) (htables : tables.length < fuel)
    {oldOwner intended : RowKey × Row} (hroot : oldOwner.1.table ∈ tables) (intendedExists : Bool) :
    wp (discoverReplacement backend fuel oldOwner intended intendedExists limits)
      (fun _ _ => True) (fun e _ => e ≠ .diverged) s := by
  unfold discoverReplacement
  rw [wp_bind]
  refine wp_mono (wp_discoverTransition_ends hnames hfuel htables hroot none _) ?_ fun _ _ h => h
  intro plan s hbounded
  cases intendedExists with
  | false => trivial
  | true =>
    simp only [if_true, wp_bind]
    refine wp_mono (wp_anyCall _) ?_ fun _ _ h => h
    intro row s _
    cases row with
    | none => rintro ⟨⟩
    | some row =>
      dsimp only
      rw [wp_bind]
      refine wp_mono (wp_discover_ends hfuel intended.1 _ row plan.schema hbounded) ?_
        fun _ _ h => h
      exact fun _ _ _ => trivial

end Termination

/-! ## What follows a discovery -/

/-- The errors that only a discovery has. -/
def Error.FromDiscovery : Error ε → Prop
  | .cycle _ | .workLimit | .invalidPage | .invalidRelation | .missingColumn _ | .missingTarget _
  | .panicked | .diverged => True
  | .backend _ | .missingParent _ _ => False

section Application

variable {backend : Backend σ ε} {s : σ}

/-- The program has no error of a discovery. -/
def Applies (c : Prog σ (Error ε) Unit) : Prop :=
  ∀ s, wp c (fun _ _ => True) (fun e _ => ¬ e.FromDiscovery) s

theorem Applies.call (c : Prog σ ε Unit) : Applies (mapError Error.backend c) := by
  intro s
  rw [Prog.wp_mapError]
  unfold wp
  split
  · trivial
  · exact id

theorem Applies.bind {c d : Prog σ (Error ε) Unit} (hc : Applies c) (hd : Applies d) :
    Applies (c >>= fun _ => d) := by
  intro s
  rw [wp_bind]
  exact wp_mono (hc s) (fun _ s _ => hd s) fun _ _ h => h

theorem Applies.forEach {β : Type} (xs : List β) {body : β → Prog σ (Error ε) Unit}
    (h : ∀ x, Applies (body x)) : Applies (Prog.forEach xs body) := by
  intro s
  exact wp_forEach (fun _ _ => True) xs body (fun _ x _ s _ _ => h x s) trivial

theorem applies_detach (order : List String) (keys : List RowKey) :
    Applies (detach backend order keys) :=
  .forEach order fun table => .forEach (keysOf keys table) fun _ => .call _

theorem applies_ensureParentRows (child : RowKey) (desired : Row) :
    Applies (ensureParentRows backend child desired) := by
  intro s
  unfold ensureParentRows
  rw [wp_bind, Prog.wp_mapError]
  unfold wp
  split
  · next missing _ _ =>
    cases missing with
    | nil => trivial
    | cons parent rest => exact id
  · exact id

theorem applies_restore (order : List String) (keys : List RowKey) :
    Applies (restore backend order keys) := by
  refine .forEach order.reverse fun table => .forEach (keysOf keys table) fun key s => ?_
  unfold restoreKey
  rw [wp_bind, Prog.wp_mapError]
  unfold wp
  split
  · next row s _ =>
    cases row with
    | none => trivial
    | some desired => exact (applies_ensureParentRows key desired).bind (.call _) s
  · exact id

theorem applies_writeIntended (intended : RowKey × Row) (intendedExists : Bool) :
    Applies (writeIntended backend intended intendedExists) := by
  cases intendedExists with
  | true => exact .call _
  | false => exact .call _

/-- A recorded run has no write unless the discovery succeeded, and none if it ends with an error
of the discovery. -/
structure Guarded (discovered : Prop) (run : Except (Error ε) Unit × σ × List Call) : Prop where
  discovered : ∀ call ∈ run.2.2, call.Writes → discovered
  unwritten : ∀ e, run.1 = .error e → e.FromDiscovery → ∀ call ∈ run.2.2, ¬ call.Writes

/-- A discovery and what follows it are guarded. -/
theorem guarded_bind {α : Type} {c : Prog σ (Error ε) α} {c' : Prog (σ × List Call) (Error ε) α}
    (hrecords : Records Call.Discovers c c') {rest : α → Prog (σ × List Call) (Error ε) Unit}
    (hrest : ∀ plan, Applies (rest plan)) (s : σ) :
    Guarded (∃ plan, (c s).1 = .ok plan) ((c' >>= rest) (s, [])) := by
  obtain ⟨calls, hcalls, hrun⟩ := hrecords s []
  obtain ⟨r, s', hc⟩ : ∃ r s', c s = (r, s') := ⟨_, _, rfl⟩
  rw [hc] at hrun ⊢
  cases r with
  | error e =>
    rw [bind_of_error hrun]
    have hreads : ∀ call ∈ [] ++ calls, ¬ call.Writes := fun call hcall =>
      (hcalls call hcall).not_writes
    exact ⟨fun call hcall hwrites => absurd hwrites (hreads call hcall), fun _ _ _ => hreads⟩
  | ok plan =>
    rw [bind_of_ok hrun]
    refine ⟨fun _ _ _ => ⟨plan, rfl⟩, fun e he hdiscovery => ?_⟩
    have herror := wp_error (hrest plan _) (Prod.ext he rfl)
    exact absurd hdiscovery herror

end Application

/-- Against every backend, a transition and a replacement write only after the whole discovery has
succeeded, and a discovery whose number of keys is bounded ends on every sequence of pages. With
finitely many tables the whole run ends. -/
theorem writes_follow_discovery (backend : Backend σ ε) (limits : Limits) (s : σ) :
    (∀ fuel root current old,
      Guarded (∃ plan, (discoverTransition backend fuel root (some current) old limits s).1 = .ok plan)
        (transition backend.recorded fuel root current old limits (s, []))) ∧
    (∀ fuel oldOwner intended intendedExists,
      Guarded (∃ plan,
          (discoverReplacement backend fuel oldOwner intended intendedExists limits s).1 = .ok plan)
        (replaceSourceAbsentOwner backend.recorded fuel oldOwner intended intendedExists limits
          (s, []))) ∧
    (∀ fuel root current old schema keys, limits.maxKeys < fuel → keys.length ≤ limits.maxKeys →
      (discover backend fuel root current old limits schema keys s).1 ≠ .error .diverged) ∧
    ∀ tables, backend.NamesOnly tables → ∀ fuel, limits.maxKeys < fuel → tables.length < fuel →
      (∀ root current old, root.table ∈ tables →
        (discoverTransition backend fuel root current old limits s).1 ≠ .error .diverged) ∧
      ∀ oldOwner intended intendedExists, oldOwner.1.table ∈ tables →
        (discoverReplacement backend fuel oldOwner intended intendedExists limits s).1 ≠
          .error .diverged := by
  have hends : ∀ {α : Type} {c : Prog σ (Error ε) α} {Q : α → σ → Prop},
      wp c Q (fun e _ => e ≠ .diverged) s → (c s).1 ≠ .error .diverged := fun h he =>
    wp_error h (Prod.ext he rfl) rfl
  refine ⟨?_, ?_, ?_, ?_⟩
  · intro fuel root current old
    refine guarded_bind (records_discoverTransition backend fuel root (some current) old limits)
      (fun plan => ?_) s
    refine (applies_detach _ _).bind ((applies_ensureParentRows root current).bind ?_)
    exact (Applies.call _).bind (applies_restore _ _)
  · intro fuel oldOwner intended intendedExists
    refine guarded_bind (records_discoverReplacement backend fuel oldOwner intended intendedExists
      limits) (fun plan => ?_) s
    refine (applies_detach _ _).bind ((Applies.call _).bind ?_)
    refine (applies_ensureParentRows intended.1 intended.2).bind ?_
    exact (applies_writeIntended intended intendedExists).bind (applies_restore _ _)
  · intro fuel root current old schema keys hfuel hbounded
    exact hends (wp_discover_ends hfuel root current old schema hbounded)
  · intro tables hnames fuel hfuel htables
    refine ⟨fun root current old hroot => ?_, fun oldOwner intended intendedExists hroot => ?_⟩
    · exact hends (wp_discoverTransition_ends hnames hfuel htables hroot current old)
    · exact hends (wp_discoverReplacement_ends hnames hfuel htables hroot intendedExists)

/-- A backend whose pages stand still. -/
def stuckBackend : Backend Unit String where
  incoming table := pure (if table = "parent" then [⟨"child", ["value"], ["value"]⟩] else [])
  dependentPage _ _ _ _ _ := pure [["2"]]
  targetRow _ := pure none
  sourceRow _ := pure none
  ensureParents _ _ := pure []
  delete _ := pure ()
  update _ _ := pure ()
  insert _ _ := pure ()

/-- The parent changes its value while the pages stand still. -/
def stuckRun : Except (Error String) Unit × Unit × List Call :=
  transition stuckBackend.recorded 10 ⟨"parent", ["1"]⟩ [("value", some "new")]
    [("value", some "old")] ⟨1, 5⟩ ((), [])

/-- The page that repeats a key is refused before any write. -/
theorem writes_follow_discovery_stuck :
    stuckRun.1 = .error .invalidPage ∧ stuckRun.2.2.length = 4 ∧
      ∀ call ∈ stuckRun.2.2, ¬ call.Writes := by
  have hrefused : stuckRun.1 = .error .invalidPage := by decide
  have hguarded := (writes_follow_discovery stuckBackend ⟨1, 5⟩ ()).1 10 ⟨"parent", ["1"]⟩
    [("value", some "new")] [("value", some "old")]
  exact ⟨hrefused, by decide, hguarded.unwritten .invalidPage hrefused trivial⟩

end BinlogCdc.FkTransition
