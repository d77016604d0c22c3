import BinlogCdc.Sync.BoundPredicate

/-!
# What the bounds mean

The condition that the server reads from the text of a bound, and its truth: the key of the row is
greater than the bound in the lexicographic order of the columns.
-/

namespace BinlogCdc

/-! ## Branches -/

namespace KeyField

def equalCondition (field : KeyField) : SearchCondition :=
  .equal (.column field.column.toList) (.literal field.value.toList)

def greaterCondition (field : KeyField) : SearchCondition :=
  .greater (orderOperand field.column field.ordering) (boundOperand field.value field.ordering)

theorem factor_equalTokens (field : KeyField) : Factor field.equalTokens := by
  refine factor_of_plain fun token htoken => ?_
  simp only [equalTokens, List.mem_cons, List.not_mem_nil, or_false] at htoken
  rcases htoken with rfl | rfl | rfl <;> simp [conjunctionWord, disjunctionWord]

end KeyField

/-- The tokens of an argument list are no parentheses and no words. -/
theorem arguments_plain {value : TextToken} {labels : List String}
    (hvalue : (∃ name, value = .name name) ∨ ∃ text, value = .literal text) :
    ∀ token ∈ value :: .symbol ',' :: labelTokens labels, token = .symbol ',' ∨
      (∃ name, token = .name name) ∨ ∃ text, token = .literal text := by
  have hlabels : ∀ token ∈ labelTokens labels, token = .symbol ',' ∨
      ∃ text, token = .literal text := by
    intro token htoken
    unfold labelTokens at htoken
    induction labels with
    | nil => cases htoken
    | cons label labels ih =>
      cases labels with
      | nil => exact .inr ⟨label.toList, by simpa using htoken⟩
      | cons other labels =>
        rw [List.map_cons, List.map_cons, List.intercalate_cons_cons, List.append_assoc] at htoken
        rcases List.mem_append.mp htoken with hfirst | hrest
        · exact .inr ⟨label.toList, List.mem_singleton.mp hfirst⟩
        · rcases List.mem_append.mp hrest with hcomma | hrest
          · exact .inl (List.mem_singleton.mp hcomma)
          · exact ih hrest
  intro token htoken
  rcases List.mem_cons.mp htoken with rfl | htoken
  · exact .inr hvalue
  · rcases List.mem_cons.mp htoken with rfl | htoken
    · exact .inl rfl
    · rcases hlabels token htoken with hcomma | hliteral
      · exact .inl hcomma
      · exact .inr (.inr hliteral)

theorem factor_fieldTokens {value : TextToken} {labels : List String}
    (hvalue : (∃ name, value = .name name) ∨ ∃ text, value = .literal text) :
    Factor (fieldTokens value labels) := by
  have hplain : ∀ token ∈ value :: .symbol ',' :: labelTokens labels, token ≠ .symbol '(' ∧
      token ≠ .symbol ')' ∧ token ≠ conjunctionWord ∧ token ≠ disjunctionWord := by
    intro token htoken
    rcases arguments_plain hvalue token htoken with rfl | ⟨name, rfl⟩ | ⟨text, rfl⟩ <;>
      simp [conjunctionWord, disjunctionWord]
  have hword : Factor [.word "FIELD".toList] := factor_of_plain (by decide)
  exact hword.append (factor_group fun depth => factor_of_plain hplain (depth + 1))

theorem factor_orderTokens (column : String) (ordering : PrimaryKeyOrdering) :
    Factor (orderTokens column ordering) := by
  cases ordering with
  | native =>
    refine factor_of_plain fun token htoken => ?_
    obtain rfl := List.mem_singleton.mp htoken
    simp [conjunctionWord, disjunctionWord]
  | enum labels => exact factor_fieldTokens (.inl ⟨_, rfl⟩)

/-- Commas in an order expression are inside parentheses. -/
theorem unsplit_orderTokens (column : String) (ordering : PrimaryKeyOrdering) :
    Unsplit (.symbol ',') 0 (orderTokens column ordering) := by
  cases ordering with
  | native =>
    refine unsplit_of_plain fun token htoken => ?_
    obtain rfl := List.mem_singleton.mp htoken
    simp
  | enum labels =>
    have hinner : Unsplit (.symbol ',') 1
        (.name column.toList :: .symbol ',' :: labelTokens labels) := by
      refine unsplit_inside fun token htoken => ?_
      rcases arguments_plain (.inl ⟨_, rfl⟩) token htoken with rfl | ⟨name, rfl⟩ | ⟨text, rfl⟩ <;>
        simp
    have hword : Unsplit (.symbol ',') 0 [.word "FIELD".toList] := unsplit_of_plain (by decide)
    exact hword.append (unsplit_group (by decide) hinner)

theorem factor_boundTokens (value : String) (ordering : PrimaryKeyOrdering) :
    Factor (boundTokens value ordering) := by
  cases ordering with
  | native =>
    refine factor_of_plain fun token htoken => ?_
    obtain rfl := List.mem_singleton.mp htoken
    simp [conjunctionWord, disjunctionWord]
  | enum labels => exact factor_fieldTokens (.inr ⟨_, rfl⟩)

namespace KeyField

theorem factor_greaterTokens (field : KeyField) : Factor field.greaterTokens := by
  have hsymbol : Factor [.symbol '>'] := factor_of_plain (by decide)
  exact (factor_orderTokens _ _).append (hsymbol.append (factor_boundTokens _ _))

variable {readInner : List TextToken → Option SearchCondition}

theorem readFactor_equal (field : KeyField) :
    readFactor readInner field.equalTokens = some field.equalCondition := rfl

theorem readFactor_greater {field : KeyField} (h : Labelled field.ordering) :
    readFactor readInner field.greaterTokens = some field.greaterCondition := by
  have hcomparison : readComparison field.greaterTokens = some field.greaterCondition := by
    have hbound := @readOperand_bound field.value field.ordering h []
    rw [List.append_nil] at hbound
    simp [readComparison, greaterTokens, readOperand_order h, hbound, greaterCondition]
  rw [← hcomparison]
  unfold greaterTokens
  cases field.ordering with
  | native => rfl
  | enum labels =>
    simp only [orderTokens, fieldTokens, List.cons_append]
    rw [readFactor, if_neg (by decide)]

/-- The comparison of a row with the bound of a field. -/
def compareRow (order : Text → Text → Text → Ordering) (row : Text → Text) (field : KeyField) :
    Ordering :=
  columnCompare order field.column field.ordering (row field.column.toList) field.value.toList

variable {order : Text → Text → Text → Ordering} {row : Text → Text}

theorem holds_greater (field : KeyField) :
    field.greaterCondition.holds order row = some (field.compareRow order row == .gt) := by
  obtain ⟨column, ordering, value⟩ := field
  cases ordering with
  | native => rfl
  | enum labels => rfl

/-- The server's equality of a column is that of its order on the values of the column. -/
def EqualAgrees (order : Text → Text → Text → Ordering) (row : Text → Text) (field : KeyField) :
    Prop :=
  order field.column.toList (row field.column.toList) field.value.toList = .eq ↔
    field.compareRow order row = .eq

theorem holds_equal {field : KeyField} (h : field.EqualAgrees order row) :
    field.equalCondition.holds order row = some (field.compareRow order row == .eq) := by
  simp only [equalCondition, SearchCondition.holds, compareOperands, Option.map_some,
    Option.some.injEq]
  rw [Bool.eq_iff_iff, beq_iff_eq, beq_iff_eq]
  exact h

end KeyField

/-- The condition of a branch. -/
def branchCondition (branch : List KeyField × KeyField) : SearchCondition :=
  branch.1.foldr (fun field condition => .and field.equalCondition condition)
    branch.2.greaterCondition

theorem joined_branchCondition (earlier : List KeyField) (field : KeyField) :
    joined .and (earlier.map KeyField.equalCondition ++ [field.greaterCondition]) =
      some (branchCondition (earlier, field)) := by
  induction earlier with
  | nil => rfl
  | cons first earlier ih =>
    rw [List.map_cons, List.cons_append]
    have hmore : joined .and (first.equalCondition :: (earlier.map KeyField.equalCondition ++
        [field.greaterCondition])) = (joined .and (earlier.map KeyField.equalCondition ++
          [field.greaterCondition])).map (.and first.equalCondition) := by
      cases earlier <;> rfl
    rw [hmore, ih]
    rfl

theorem factor_branchTokens (branch : List KeyField × KeyField) : Factor (branchTokens branch) := by
  refine factor_group_joined (.inl rfl) fun part hpart => ?_
  rcases List.mem_append.mp hpart with hpart | hpart
  · obtain ⟨field, -, rfl⟩ := List.mem_map.mp hpart
    exact field.factor_equalTokens
  · obtain rfl := List.mem_singleton.mp hpart
    exact branch.2.factor_greaterTokens

/-- A branch is read as the conjunction of its comparisons. -/
theorem readFactor_branch {branch : List KeyField × KeyField} (h : Labelled branch.2.ordering)
    (depth : Nat) :
    readFactor (readCondition (depth + 1)) (branchTokens branch) =
      some (branchCondition branch) := by
  rw [branchTokens, readFactor_group]
  have hread : readCondition (depth + 1) ([conjunctionWord].intercalate
      (branch.1.map KeyField.equalTokens ++ [branch.2.greaterTokens])) =
      joined .and (branch.1.map KeyField.equalCondition ++ [branch.2.greaterCondition]) := by
    refine readCondition_conjunction (by simp) (List.rel_append ?_ (.cons ⟨?_, ?_⟩ .nil))
    · rw [List.forall₂_map_left_iff, List.forall₂_map_right_iff, List.forall₂_same]
      exact fun field _ => ⟨field.factor_equalTokens, field.readFactor_equal⟩
    · exact branch.2.factor_greaterTokens
    · exact KeyField.readFactor_greater h
  rw [hread, joined_branchCondition]

section Truth

variable {order : Text → Text → Text → Ordering} {row : Text → Text}

/-- The truth of a branch. -/
def branchHolds (order : Text → Text → Text → Ordering) (row : Text → Text)
    (branch : List KeyField × KeyField) : Bool :=
  (branch.1.all fun field => field.compareRow order row == .eq) &&
    branch.2.compareRow order row == .gt

theorem holds_branchCondition {branch : List KeyField × KeyField}
    (h : ∀ field ∈ branch.1, field.EqualAgrees order row) :
    (branchCondition branch).holds order row = some (branchHolds order row branch) := by
  obtain ⟨earlier, field⟩ := branch
  induction earlier with
  | nil => exact field.holds_greater
  | cons first earlier ih =>
    have hrest := ih fun other hother => h other (List.mem_cons_of_mem first hother)
    have hfirst := KeyField.holds_equal (h first List.mem_cons_self)
    have hcons : branchCondition (first :: earlier, field) =
        .and first.equalCondition (branchCondition (earlier, field)) := rfl
    rw [hcons, SearchCondition.holds, hfirst, hrest]
    simp [branchHolds, Bool.and_assoc]

/-- The key of the row compared with the bound. -/
def fieldsCompare (order : Text → Text → Text → Ordering) (row : Text → Text) :
    List KeyField → Ordering
  | [] => .eq
  | field :: fields => (field.compareRow order row).then (fieldsCompare order row fields)

/-- Some branch holds exactly when the key is greater. -/
theorem any_withEarlier (fields : List KeyField) :
    (withEarlier fields).any (branchHolds order row) =
      (fieldsCompare order row fields == .gt) := by
  induction fields with
  | nil => rfl
  | cons first fields ih =>
    rw [withEarlier, List.any_cons, List.any_map, fieldsCompare]
    have hrest : ∀ branches : List (List KeyField × KeyField),
        branches.any (branchHolds order row ∘ fun branch => (first :: branch.1, branch.2)) =
          branches.any fun branch =>
            first.compareRow order row == .eq && branchHolds order row branch := by
      intro branches
      refine congrArg branches.any (funext fun branch => ?_)
      simp [branchHolds, Bool.and_assoc]
    refine (congrArg _ (hrest _)).trans ?_
    cases hfirst : first.compareRow order row with
    | lt => simp [branchHolds, hfirst]
    | gt => simp [branchHolds, hfirst]
    | eq =>
      have hself : branchHolds order row ([], first) = false := by simp [branchHolds, hfirst]
      rw [hself]
      simpa using ih

theorem mem_withEarlier {α : Type} {items : List α} {pair : List α × α}
    (h : pair ∈ withEarlier items) : (∀ item ∈ pair.1, item ∈ items) ∧ pair.2 ∈ items := by
  induction items generalizing pair with
  | nil => cases h
  | cons first items ih =>
    rcases List.mem_cons.mp h with rfl | h
    · exact ⟨fun _ hnone => absurd hnone List.not_mem_nil, List.mem_cons_self⟩
    · obtain ⟨inner, hinner, rfl⟩ := List.mem_map.mp h
      obtain ⟨hearlier, hitem⟩ := ih hinner
      refine ⟨fun item hmem => ?_, List.mem_cons_of_mem first hitem⟩
      rcases List.mem_cons.mp hmem with rfl | hmem
      · exact List.mem_cons_self
      · exact List.mem_cons_of_mem first (hearlier item hmem)

end Truth

/-! ## Predicates -/

/-- The tokens of a predicate. -/
def predicateTokens (fields : List KeyField) : List TextToken :=
  if fields.length < 2 then [disjunctionWord].intercalate ((withEarlier fields).map branchTokens)
  else .symbol '(' :: ([disjunctionWord].intercalate ((withEarlier fields).map branchTokens) ++
    [.symbol ')'])

/-- What the server reads from a predicate text. -/
structure ReadsPredicate (fields : List KeyField) (text : Text) (condition : SearchCondition) :
    Prop where
  tokens : ReadsAs text (predicateTokens fields)
  factor : Factor (predicateTokens fields)
  long : 3 ≤ (predicateTokens fields).length
  read : ∀ depth, readFactor (readCondition (depth + 2)) (predicateTokens fields) = some condition
  holds : ∀ order row, (∀ field ∈ fields, field.EqualAgrees order row) →
    condition.holds order row = some (fieldsCompare order row fields == .gt)

theorem length_branchTokens (branch : List KeyField × KeyField) :
    3 ≤ (branchTokens branch).length := by
  have hinner : [conjunctionWord].intercalate (branch.1.map KeyField.equalTokens ++
      [branch.2.greaterTokens]) ≠ [] := by
    cases branch.1 with
    | nil => simp [KeyField.greaterTokens]
    | cons first earlier => cases earlier <;> simp [KeyField.equalTokens, List.intercalate_cons_cons]
  have hlength := List.length_pos_iff.mpr hinner
  simp only [branchTokens, List.length_cons, List.length_append, List.length_nil]
  omega

/-- The predicate of a bound is read as the comparison of the key with the bound. -/
theorem readsPredicate {fields : List KeyField} (hfields : fields ≠ [])
    (hlabelled : ∀ field ∈ fields, Labelled field.ordering) :
    ∃ text condition, primaryKeyBoundPredicate (fields.map KeyField.column)
      (fields.map KeyField.ordering) (fields.map KeyField.value) ">".toList = some text ∧
      ReadsPredicate fields text condition := by
  have hbranches : ∀ branch ∈ withEarlier fields, Labelled branch.2.ordering :=
    fun branch hbranch => hlabelled _ (mem_withEarlier hbranch).2
  have hne : withEarlier fields ≠ [] := by
    rw [← List.length_pos_iff, length_withEarlier]
    exact List.length_pos_iff.mpr hfields
  have hreads : ReadsAs (" OR ".toList.intercalate ((withEarlier fields).map branchText))
      ([disjunctionWord].intercalate ((withEarlier fields).map branchTokens)) := by
    refine ReadsAs.intercalate (by decide) readsAs_or ?_
    rw [List.forall₂_map_left_iff, List.forall₂_map_right_iff, List.forall₂_same]
    exact fun branch _ => readsAs_branch branch
  have hholds : ∀ order row, (∀ field ∈ fields, field.EqualAgrees order row) →
      ∃ condition, joined .or ((withEarlier fields).map branchCondition) = some condition ∧
        condition.holds order row = some (fieldsCompare order row fields == .gt) := by
    intro order row hagrees
    have hvalues : List.Forall₂ (fun condition value => condition.holds order row = some value)
        ((withEarlier fields).map branchCondition)
        ((withEarlier fields).map (branchHolds order row)) := by
      rw [List.forall₂_map_left_iff, List.forall₂_map_right_iff, List.forall₂_same]
      exact fun branch hbranch => holds_branchCondition fun field hfield =>
        hagrees field ((mem_withEarlier hbranch).1 field hfield)
    obtain ⟨condition, hjoined, hcondition⟩ := holds_joined_or (by simpa using hne) hvalues
    refine ⟨condition, hjoined, ?_⟩
    rw [hcondition, ← any_withEarlier, List.any_map]
    rfl
  obtain ⟨condition, hjoined⟩ : ∃ condition,
      joined .or ((withEarlier fields).map branchCondition) = some condition :=
    exists_joined (by simpa using hne)
  refine ⟨_, condition, primaryKeyBoundPredicate_fields fields, ?_⟩
  have hmeaning : ∀ order row, (∀ field ∈ fields, field.EqualAgrees order row) →
      condition.holds order row = some (fieldsCompare order row fields == .gt) := by
    intro order row hagrees
    obtain ⟨condition', hjoined', hcondition⟩ := hholds order row hagrees
    obtain rfl : condition' = condition := Option.some.inj (hjoined'.symm.trans hjoined)
    exact hcondition
  by_cases hshort : fields.length < 2
  · -- A single branch stands alone.
    obtain ⟨field, rfl⟩ : ∃ field, fields = [field] := by
      have hpos := List.length_pos_iff.mpr hfields
      exact List.length_eq_one_iff.mp (by omega)
    have htokens : predicateTokens [field] = branchTokens ([], field) := by
      simp [predicateTokens, withEarlier]
    rw [if_pos hshort]
    refine ⟨?_, ?_, ?_, fun depth => ?_, hmeaning⟩
    · rw [predicateTokens, if_pos hshort]
      exact hreads
    · rw [htokens]
      exact factor_branchTokens _
    · rw [htokens]
      exact length_branchTokens _
    · rw [htokens, readFactor_branch (hlabelled field List.mem_cons_self)]
      exact hjoined
  · rw [if_neg hshort]
    refine ⟨?_, ?_, ?_, fun depth => ?_, hmeaning⟩
    · rw [predicateTokens, if_neg hshort]
      exact hreads.group
    · rw [predicateTokens, if_neg hshort]
      refine factor_group_joined (.inr rfl) fun part hpart => ?_
      obtain ⟨branch, -, rfl⟩ := List.mem_map.mp hpart
      exact factor_branchTokens branch
    · obtain ⟨branch, branches, hcons⟩ := List.exists_cons_of_ne_nil hne
      have hlength := length_branchTokens branch
      rw [predicateTokens, if_neg hshort, hcons, List.map_cons]
      cases branches with
      | nil =>
        simp only [List.map_nil, List.intercalate_singleton, List.length_cons, List.length_append,
          List.length_nil]
        omega
      | cons other branches =>
        simp only [List.map_cons, List.intercalate_cons_cons, List.length_cons,
          List.length_append, List.length_nil]
        omega
    · rw [predicateTokens, if_neg hshort, readFactor_group, readCondition_disjunction
        (by simpa using hne) (List.forall₂_map_left_iff.mpr (List.forall₂_map_right_iff.mpr
          (List.forall₂_same.mpr fun branch hbranch =>
            ⟨factor_branchTokens branch, readFactor_branch (hbranches branch hbranch) depth⟩)))]
      exact hjoined

end BinlogCdc
