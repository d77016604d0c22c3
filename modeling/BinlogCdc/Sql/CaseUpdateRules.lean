import BinlogCdc.Sql.CaseUpdate

/-!
# Rules for updates by cases

The tokens of an update are read as the update. The effect of its assignments on a row: assignments
that test other columns than they set do not see each other.
-/

namespace BinlogCdc

/-! ## Reading the tokens of an update -/

section Reading

variable {V : Type}

/-- A list has a token for each of its items. -/
theorem length_le_intercalate {α : Type} (tokensOf : α → List (BoundToken V)) {items : List α}
    (h : ∀ item ∈ items, tokensOf item ≠ []) :
    items.length ≤ ([commaToken].intercalate (items.map tokensOf)).length := by
  induction items with
  | nil => exact Nat.zero_le _
  | cons item items ih =>
    have hitem := List.length_pos_iff.mpr (h item List.mem_cons_self)
    have hrest := ih fun other hother => h other (List.mem_cons_of_mem item hother)
    cases items with
    | nil =>
      rw [List.map_cons, List.map_nil, List.intercalate_singleton]
      exact hitem
    | cons other items =>
      rw [List.map_cons, List.map_cons, List.intercalate_cons_cons]
      simp only [List.map_cons, List.length_append, List.length_cons, List.length_nil] at hrest ⊢
      omega

variable {α : Type} {readItem : List (BoundToken V) → Option (α × List (BoundToken V))}
  {tokensOf : α → List (BoundToken V)} {items : List α}

theorem readList_tokens (hitems : items ≠ [])
    (hread : ∀ item ∈ items, ∀ rest, readItem (tokensOf item ++ rest) = some (item, rest))
    {rest : List (BoundToken V)} (hrest : rest.head? ≠ some commaToken) {fuel : Nat}
    (hfuel : items.length ≤ fuel) :
    readList readItem fuel ([commaToken].intercalate (items.map tokensOf) ++ rest) =
      some (items, rest) := by
  induction items generalizing fuel with
  | nil => exact absurd rfl hitems
  | cons item items ih =>
    obtain ⟨fuel, rfl⟩ : ∃ more, fuel = more + 1 := ⟨fuel - 1, by simp at hfuel; omega⟩
    have hitem := hread item List.mem_cons_self
    cases items with
    | nil =>
      rw [List.map_cons, List.map_nil, List.intercalate_singleton, readList, hitem]
      simp only [Option.bind_eq_bind, Option.bind_some, Option.pure_def]
      cases rest with
      | nil => rfl
      | cons token rest =>
        have hcomma : token ≠ .token (.symbol ',') := fun h => hrest (by rw [h]; rfl)
        split
        · next heq =>
          exact absurd (List.cons.inj heq).1 hcomma
        · rfl
    | cons other items =>
      have hmore := ih (by simp) (fun later hlater => hread later (List.mem_cons_of_mem item hlater))
        (Nat.le_of_succ_le_succ hfuel)
      simp only [List.map_cons] at hmore ⊢
      rw [List.intercalate_cons_cons, List.append_assoc, List.append_assoc, readList, hitem]
      simp only [Option.bind_eq_bind, Option.bind_some, List.singleton_append, commaToken] at hmore ⊢
      rw [hmore]
      rfl

/-- A list has enough fuel in its own tokens. -/
theorem readList_enough (hitems : items ≠ []) (htokens : ∀ item ∈ items, tokensOf item ≠ [])
    (hread : ∀ item ∈ items, ∀ rest, readItem (tokensOf item ++ rest) = some (item, rest))
    {rest : List (BoundToken V)} (hrest : rest.head? ≠ some commaToken) :
    readList readItem ([commaToken].intercalate (items.map tokensOf) ++ rest).length
      ([commaToken].intercalate (items.map tokensOf) ++ rest) = some (items, rest) := by
  have hlength := length_le_intercalate tokensOf htokens
  apply readList_tokens hitems hread hrest
  rw [List.length_append]
  omega

theorem readGroup_tokens (hitems : items ≠ []) (htokens : ∀ item ∈ items, tokensOf item ≠ [])
    (hread : ∀ item ∈ items, ∀ rest, readItem (tokensOf item ++ rest) = some (item, rest))
    (rest : List (BoundToken V)) :
    readGroup readItem (groupTokens ([commaToken].intercalate (items.map tokensOf)) ++ rest) =
      some (items, rest) := by
  have hclosing : (BoundToken.token (V := V) (.symbol ')') :: rest).head? ≠ some commaToken := by
    simp [commaToken]
  have hlist := readList_enough hitems htokens hread hclosing
  rw [groupTokens, List.cons_append, List.append_assoc, List.singleton_append, readGroup, hlist]
  rfl

theorem readGroup_values {values : List V} (hvalues : values ≠ []) (rest : List (BoundToken V)) :
    readGroup readValue (groupTokens (valueTokens values) ++ rest) = some (values, rest) :=
  readGroup_tokens hvalues (fun _ _ => List.cons_ne_nil _ _) (fun _ _ _ => rfl) rest

theorem readTests_tokens {tests : List (KeyTest V)} (htests : tests ≠ [])
    (rest : List (BoundToken V)) :
    readTests (testTokens tests ++ .token thenWord :: rest) =
      some (tests, .token thenWord :: rest) := by
  induction tests with
  | nil => exact absurd rfl htests
  | cons test tests ih =>
    cases tests with
    | nil =>
      have hword : thenWord ≠ andWord := by decide
      simp only [testTokens, List.map_cons, List.map_nil, List.intercalate_singleton,
        KeyTest.tokens, List.cons_append, List.nil_append]
      rw [readTests, if_neg hword]
    | cons other tests =>
      have hrest := ih (by simp)
      unfold testTokens at hrest ⊢
      rw [List.map_cons, List.map_cons, List.intercalate_cons_cons, ← List.map_cons]
      simp only [KeyTest.tokens, List.cons_append, List.nil_append, List.append_assoc]
      rw [readTests, if_pos rfl, hrest]
      rfl

theorem length_le_flatMap (branches : List (CaseBranch V)) :
    branches.length ≤ (branches.flatMap CaseBranch.tokens).length := by
  induction branches with
  | nil => exact Nat.zero_le _
  | cons branch branches ih =>
    rw [List.flatMap_cons, List.length_append, List.length_cons, CaseBranch.tokens, List.length_cons]
    omega

theorem readBranches_tokens {branches : List (CaseBranch V)}
    (hbranches : ∀ branch ∈ branches, branch.tests ≠ []) (otherwise : Text)
    (rest : List (BoundToken V)) {fuel : Nat} (hfuel : branches.length < fuel) :
    readBranches fuel (branches.flatMap CaseBranch.tokens ++ .token elseWord ::
      .token (.name otherwise) :: .token endWord :: rest) = some (branches, otherwise, rest) := by
  induction branches generalizing fuel with
  | nil =>
    obtain ⟨fuel, rfl⟩ : ∃ more, fuel = more + 1 := ⟨fuel - 1, by simp at hfuel; omega⟩
    have hword : beginsWith whenWord (.token elseWord :: .token (.name otherwise) ::
        .token endWord :: rest) = false := beq_eq_false_iff_ne.mpr (by decide)
    rw [List.flatMap_nil, List.nil_append, readBranches, hword, if_neg Bool.false_ne_true, readElse,
      if_pos ⟨rfl, rfl⟩]
    rfl
  | cons branch branches ih =>
    obtain ⟨fuel, rfl⟩ : ∃ more, fuel = more + 1 := ⟨fuel - 1, by simp at hfuel; omega⟩
    have htests := hbranches branch List.mem_cons_self
    have hrest := ih (fun other hother => hbranches other (List.mem_cons_of_mem branch hother))
      (Nat.lt_of_succ_lt_succ hfuel)
    simp only [List.flatMap_cons, CaseBranch.tokens, List.cons_append, List.append_assoc,
      List.nil_append]
    rw [readBranches, beginsWith, beq_self_eq_true, if_pos rfl, List.tail_cons,
      readTests_tokens htests]
    simp only [Option.bind_eq_bind, Option.bind_some, if_true]
    rw [hrest]
    rfl

/-- A CASE has a branch, and every branch a test. -/
structure CaseAssignment.Readable (assignment : CaseAssignment V) : Prop where
  branches : assignment.branches ≠ []
  tests : ∀ branch ∈ assignment.branches, branch.tests ≠ []

theorem readAssignment_tokens {assignment : CaseAssignment V} (h : assignment.Readable)
    (rest : List (BoundToken V)) :
    readAssignment (assignment.tokens ++ rest) = some (assignment, rest) := by
  have hlength := length_le_flatMap assignment.branches
  have hfuel : assignment.branches.length < (assignment.branches.flatMap CaseBranch.tokens ++
      .token elseWord :: .token (.name assignment.otherwise) :: .token endWord :: rest).length := by
    rw [List.length_append, List.length_cons]
    omega
  have hread := readBranches_tokens h.tests assignment.otherwise rest hfuel
  simp only [CaseAssignment.tokens, List.cons_append, List.append_assoc, List.nil_append]
  rw [readAssignment, if_pos rfl, hread]
  simp [h.branches]

/-- The lists of a filter are not empty and as wide as the columns. -/
def RowFilter.Readable : RowFilter V → Prop
  | .single _ values => values ≠ []
  | .several columns values => columns ≠ [] ∧ values ≠ [] ∧
    ∀ row ∈ values, row ≠ [] ∧ row.length = columns.length

theorem readFilter_tokens {filter : RowFilter V} (h : filter.Readable)
    (rest : List (BoundToken V)) : readFilter (filter.tokens ++ rest) = some (filter, rest) := by
  cases filter with
  | single column values =>
    simp only [RowFilter.tokens, List.cons_append]
    rw [readFilter, if_pos rfl, readGroup_values h]
    rfl
  | several columns values =>
    obtain ⟨hcolumns, hvalues, hrows⟩ := h
    have hnames : ∀ rest : List (BoundToken V),
        readGroup readName (groupTokens (nameTokens columns) ++ rest) = some (columns, rest) :=
      readGroup_tokens hcolumns (fun _ _ => List.cons_ne_nil _ _) fun _ _ _ => rfl
    have hgroups : readGroup (readGroup readValue) (groupTokens ([commaToken].intercalate
        (values.map fun row => groupTokens (valueTokens row))) ++ rest) = some (values, rest) :=
      readGroup_tokens hvalues (fun _ _ => List.cons_ne_nil _ _)
        (fun row hrow => readGroup_values (hrows row hrow).1) rest
    have hwidth : values.all (·.length == columns.length) = true := by
      rw [List.all_eq_true]
      exact fun row hrow => by simpa using (hrows row hrow).2
    have htokens : RowFilter.tokens (.several columns values) ++ rest =
        groupTokens (nameTokens columns) ++ .token inWord :: (groupTokens ([commaToken].intercalate
          (values.map fun row => groupTokens (valueTokens row))) ++ rest) := by
      simp [RowFilter.tokens]
    have hfilter : readFilter (groupTokens (nameTokens columns) ++ .token inWord ::
        (groupTokens ([commaToken].intercalate (values.map fun row => groupTokens (valueTokens row))) ++
          rest)) = readSeveral (groupTokens (nameTokens columns) ++ .token inWord ::
        (groupTokens ([commaToken].intercalate (values.map fun row => groupTokens (valueTokens row))) ++
          rest)) := rfl
    rw [htokens, hfilter, readSeveral, hnames]
    simp only [Option.bind_eq_bind, Option.bind_some, if_true]
    rw [hgroups]
    simp only [Option.bind_some]
    rw [if_pos hwidth]

/-- An update that can be read back. -/
structure CaseUpdate.Readable (update : CaseUpdate V) : Prop where
  assignments : update.assignments ≠ []
  assignment : ∀ assignment ∈ update.assignments, assignment.Readable
  filter : update.filter.Readable
  order : update.order ≠ []

/-- The tokens of an update are read as the update. -/
theorem readUpdate_tokens {update : CaseUpdate V} (h : update.Readable) :
    readUpdate update.tokens = some update := by
  have hnames : readList readName (nameTokens (V := V) update.order ++ []).length
      (nameTokens (V := V) update.order ++ []) = some (update.order, []) :=
    readList_enough h.order (fun _ _ => List.cons_ne_nil _ _) (fun _ _ _ => rfl) (by simp)
  have hwhere : ∀ rest, (BoundToken.token (V := V) whereWord :: rest).head? ≠ some commaToken := by
    simp [commaToken, whereWord]
  have htokens : ∀ assignment ∈ update.assignments, CaseAssignment.tokens assignment ≠ [] :=
    fun _ _ => List.cons_ne_nil _ _
  have hlist := fun rest => readList_enough h.assignments htokens
    (fun assignment hassignment => readAssignment_tokens (h.assignment assignment hassignment))
    (hwhere rest)
  rw [List.append_nil] at hnames
  rw [CaseUpdate.tokens, readUpdate, if_pos ⟨rfl, rfl⟩, hlist]
  simp only [Option.bind_eq_bind, Option.bind_some, if_true]
  rw [readFilter_tokens h.filter]
  simp only [Option.bind_some, true_and, if_true]
  rw [hnames]
  rfl

end Reading

/-! ## The effect on a row -/

section Effect

variable {V Cell : Type} {server : UpdateServer V Cell} {row row' : StoredRow Cell}

/-- A branch depends on the columns it tests. -/
theorem CaseBranch.holds_congr {branch : CaseBranch V}
    (h : ∀ test ∈ branch.tests, row test.column = row' test.column) :
    branch.holds server row = branch.holds server row' := by
  rw [Bool.eq_iff_iff, CaseBranch.holds, CaseBranch.holds, List.all_eq_true, List.all_eq_true]
  refine forall₂_congr fun test htest => ?_
  rw [KeyTest.holds, KeyTest.holds, h test htest]

/-- The value of an assignment depends on the columns of its tests and of its ELSE. -/
theorem CaseAssignment.value_congr {assignment : CaseAssignment V}
    (htests : ∀ branch ∈ assignment.branches, ∀ test ∈ branch.tests,
      row test.column = row' test.column)
    (hotherwise : row assignment.otherwise = row' assignment.otherwise) :
    assignment.value server row = assignment.value server row' := by
  have hfind : assignment.branches.find? (CaseBranch.holds server row) =
      assignment.branches.find? (CaseBranch.holds server row') := by
    have hholds : ∀ branch ∈ assignment.branches, branch.holds server row = branch.holds server row' :=
      fun branch hbranch => CaseBranch.holds_congr (htests branch hbranch)
    clear htests
    revert hholds
    induction assignment.branches with
    | nil => exact fun _ => rfl
    | cons branch branches ih =>
      intro hholds
      rw [List.find?_cons, List.find?_cons, hholds branch List.mem_cons_self,
        ih fun other hother => hholds other (List.mem_cons_of_mem branch hother)]
  rw [CaseAssignment.value, CaseAssignment.value, hfind, hotherwise]

/-- Assignments to different columns that test none of them and otherwise keep their column. -/
structure Independent (assignments : List (CaseAssignment V)) : Prop where
  nodup : (assignments.map CaseAssignment.target).Nodup
  tests : ∀ assignment ∈ assignments, ∀ branch ∈ assignment.branches, ∀ test ∈ branch.tests,
    test.column ∉ assignments.map CaseAssignment.target
  otherwise : ∀ assignment ∈ assignments, assignment.otherwise = assignment.target

theorem Independent.tail {assignment : CaseAssignment V} {assignments : List (CaseAssignment V)}
    (h : Independent (assignment :: assignments)) : Independent assignments where
  nodup := (List.nodup_cons.mp h.nodup).2
  tests other hother branch hbranch test htest hmem :=
    h.tests other (List.mem_cons_of_mem _ hother) branch hbranch test htest
      (List.mem_cons_of_mem _ hmem)
  otherwise other hother := h.otherwise other (List.mem_cons_of_mem _ hother)

/-- Columns that are not set stay. -/
theorem foldl_assign_of_not_mem {assignments : List (CaseAssignment V)} {column : Text}
    (h : column ∉ assignments.map CaseAssignment.target) :
    assignments.foldl (CaseAssignment.assign server) row column = row column := by
  induction assignments generalizing row with
  | nil => rfl
  | cons assignment assignments ih =>
    rw [List.map_cons, List.mem_cons, not_or] at h
    rw [List.foldl_cons, ih h.2, CaseAssignment.assign, Function.update_of_ne h.1]

/-- Every assignment sets its column to its value on the row before. -/
theorem Independent.foldl_assign {assignments : List (CaseAssignment V)}
    (h : Independent assignments) {assignment : CaseAssignment V}
    (hassignment : assignment ∈ assignments) :
    assignments.foldl (CaseAssignment.assign server) row assignment.target =
      assignment.value server row := by
  induction assignments generalizing row with
  | nil => cases hassignment
  | cons first assignments ih =>
    have hfirst := (List.nodup_cons.mp h.nodup).1
    rw [List.foldl_cons]
    by_cases hsame : assignment = first
    · rw [hsame, foldl_assign_of_not_mem hfirst, CaseAssignment.assign, Function.update_self]
    · have hmem := (List.mem_cons.mp hassignment).resolve_left hsame
      have htarget : assignment.target ≠ first.target := by
        intro heq
        exact hfirst (heq ▸ List.mem_map_of_mem hmem)
      rw [ih h.tail hmem]
      apply CaseAssignment.value_congr
      · intro branch hbranch test htest
        rw [CaseAssignment.assign, Function.update_of_ne]
        intro heq
        exact h.tests assignment hassignment branch hbranch test htest
          (heq ▸ List.mem_cons_self)
      · rw [h.otherwise assignment hassignment, CaseAssignment.assign,
          Function.update_of_ne htarget]

/-- The first branch that holds gives the value. -/
theorem CaseAssignment.value_of_branch {assignment : CaseAssignment V} {branch : CaseBranch V}
    (hbranch : branch ∈ assignment.branches) (hholds : branch.holds server row = true)
    (hother : ∀ other ∈ assignment.branches, other.holds server row = true →
      other.value = branch.value) :
    assignment.value server row = server.assigned assignment.target branch.value := by
  rw [CaseAssignment.value]
  cases hfind : assignment.branches.find? (CaseBranch.holds server row) with
  | none => exact absurd hholds (by simpa using List.find?_eq_none.mp hfind branch hbranch)
  | some found =>
    have hvalue := hother found (List.mem_of_find?_eq_some hfind) (List.find?_some hfind)
    dsimp only
    rw [hvalue]

end Effect

end BinlogCdc
