import Mathlib

/-!
# Batches in dependency order

Nodes with successors are scheduled in batches of bounded size. A node becomes ready when
its last predecessor has been scheduled, and a batch takes ready nodes in their order. The
schedule has every node after its predecessors, and it has all nodes exactly when nothing
depends on itself.
-/

namespace BinlogCdc

/-- A node is directly before another. -/
def DependsOn {α : Type} (nodes : List α) (successors : α → List α) (before after : α) : Prop :=
  before ∈ nodes ∧ after ∈ nodes ∧ after ∈ successors before

/-- No node comes before itself. -/
def Acyclic {α : Type} (nodes : List α) (successors : α → List α) : Prop :=
  ∀ node, ¬ Relation.TransGen (DependsOn nodes successors) node node

/-- A rank that grows along the edges leaves no cycle. -/
theorem Acyclic.of_rank {α : Type} {nodes : List α} {successors : α → List α} (rank : α → Nat)
    (hrank : ∀ before ∈ nodes, ∀ after ∈ nodes, after ∈ successors before →
      rank before < rank after) : Acyclic nodes successors := by
  have hgrows : ∀ a b, Relation.TransGen (DependsOn nodes successors) a b → rank a < rank b := by
    intro a b h
    induction h with
    | single h => exact hrank _ h.1 _ h.2.1 h.2.2
    | tail _ h ih => exact ih.trans (hrank _ h.1 _ h.2.1 h.2.2)
  exact fun node h => lt_irrefl _ (hgrows node node h)

theorem lawfulBEq_of_linearOrder {α : Type} [LinearOrder α] : LawfulBEq α := inferInstance

attribute [local instance] lawfulBEq_of_linearOrder

/-- Insert into a set that is kept as a sorted list. -/
def insertSorted {α : Type} [LinearOrder α] (a : α) (set : List α) : List α :=
  if a ∈ set then set else set.orderedInsert (· ≤ ·) a

section Schedule

variable {α : Type} [LinearOrder α]

theorem mem_insertSorted {a b : α} {set : List α} : b ∈ insertSorted a set ↔ b = a ∨ b ∈ set := by
  unfold insertSorted
  split
  case isTrue ha =>
    constructor
    · exact Or.inr
    · rintro (rfl | hb)
      · exact ha
      · exact hb
  case isFalse => rw [List.mem_orderedInsert]

theorem mem_foldl_insertSorted {γ : Type} (f : γ → α) (values : List γ) (set : List α) (a : α) :
    a ∈ values.foldl (fun set value => insertSorted (f value) set) set ↔
      a ∈ set ∨ a ∈ values.map f := by
  induction values generalizing set with
  | nil => simp
  | cons value values ih =>
    rw [List.foldl_cons, ih, mem_insertSorted, List.map_cons, List.mem_cons]
    tauto

theorem nodup_insertSorted {a : α} {set : List α} (h : set.Nodup) : (insertSorted a set).Nodup := by
  unfold insertSorted
  split
  case isTrue => exact h
  case isFalse ha =>
    exact (List.perm_orderedInsert _ _ _).nodup_iff.mpr (List.nodup_cons.mpr ⟨ha, h⟩)

/-- A set stays strictly sorted. -/
theorem pairwise_insertSorted {a : α} {set : List α} (h : set.Pairwise (· < ·)) :
    (insertSorted a set).Pairwise (· < ·) := by
  have hnodup : (insertSorted a set).Nodup := nodup_insertSorted (h.imp ne_of_lt)
  have hsorted : (insertSorted a set).Pairwise (· ≤ ·) := by
    unfold insertSorted
    split
    case isTrue => exact h.imp le_of_lt
    case isFalse => exact List.Pairwise.orderedInsert a set (h.imp le_of_lt)
  exact hsorted.imp₂ (fun _ _ hle hne => lt_of_le_of_ne hle hne) hnodup

/-! ## The schedule -/

/-- How many predecessors each node still waits for, and the nodes that wait for none. -/
structure Waiting (α : Type) where
  /-- The predecessors that a node waits for. -/
  counts : α → Nat
  /-- The nodes that are ready, in order. -/
  ready : List α

/-- A node waits for one predecessor less. -/
def Waiting.release (w : Waiting α) (after : α) : Waiting α :=
  let counts := Function.update w.counts after (w.counts after - 1)
  if counts after = 0 then ⟨counts, insertSorted after w.ready⟩ else ⟨counts, w.ready⟩

/-- Take a batch of ready nodes and release their successors. -/
def Waiting.advance (successors : α → List α) (w : Waiting α) (batch : List α) : Waiting α :=
  batch.foldl (fun w node => (successors node).foldl Waiting.release w)
    ⟨w.counts, w.ready.filter (· ∉ batch)⟩

/-- Schedule batches until no node is ready. -/
def scheduleLoop (successors : α → List α) (maxParallelism : Nat) :
    Nat → Waiting α → List (List α) → List (List α)
  | 0, _, batches => batches
  | fuel + 1, w, batches =>
    if w.ready.isEmpty then batches
    else
      let batch := w.ready.take maxParallelism
      scheduleLoop successors maxParallelism fuel (w.advance successors batch) (batches ++ [batch])

/-- The number of predecessors of each node. -/
def countDependencies (nodes : List α) (successors : α → List α) (node : α) : Nat :=
  (nodes.filter fun before => decide (node ∈ successors before)).length

/-- Before the first batch. -/
def Waiting.initial (nodes : List α) (successors : α → List α) : Waiting α where
  counts := countDependencies nodes successors
  ready := nodes.filter fun node => countDependencies nodes successors node = 0

/-- All batches; every batch takes at least one node, so that there are at most as many batches as
nodes. -/
def schedule (nodes : List α) (successors : α → List α) (maxParallelism : Nat) : List (List α) :=
  scheduleLoop successors maxParallelism (nodes.length + 1) (.initial nodes successors) []

/-! ## Invariant -/

variable {nodes : List α} {successors : α → List α}

/-- The nodes whose successors are released, and the nodes that are taken, account for the counts
and the ready nodes. -/
structure Waiting.Accounts (nodes : List α) (successors : α → List α) (released taken : α → Prop)
    [DecidablePred released] (w : Waiting α) : Prop where
  /-- A node waits for its predecessors that are not released. -/
  counts : ∀ node, w.counts node =
    (nodes.filter fun before => decide (node ∈ successors before ∧ ¬ released before)).length
  /-- The ready nodes are those that wait for nothing and are not taken. -/
  ready : ∀ node, node ∈ w.ready ↔ node ∈ nodes ∧ ¬ taken node ∧ w.counts node = 0
  /-- No node is ready twice. -/
  nodup : w.ready.Nodup
  /-- What is taken waits for nothing. -/
  taken : ∀ node, taken node → w.counts node = 0

theorem Waiting.initial_accounts (hnodup : nodes.Nodup) :
    (Waiting.initial nodes successors).Accounts nodes successors (fun _ => False)
      (fun _ => False) where
  counts := by
    intro node
    simp [Waiting.initial, countDependencies]
  ready := by
    intro node
    simp [Waiting.initial]
  nodup := hnodup.filter _
  taken := fun _ h => h.elim

theorem Waiting.counts_release (w : Waiting α) (after node : α) :
    (w.release after).counts node =
      if node = after then w.counts node - 1 else w.counts node := by
  have hcounts : (w.release after).counts = Function.update w.counts after (w.counts after - 1) := by
    unfold Waiting.release
    dsimp only
    split <;> rfl
  rw [hcounts, Function.update_apply]
  split
  case isTrue h => rw [h]
  case isFalse => rfl

theorem Waiting.mem_ready_release (w : Waiting α) (after node : α) :
    node ∈ (w.release after).ready ↔
      node ∈ w.ready ∨ node = after ∧ (w.release after).counts after = 0 := by
  rw [Waiting.counts_release, if_pos rfl]
  unfold Waiting.release
  simp only [Function.update_self]
  split
  case isTrue h => simp [mem_insertSorted, h, or_comm]
  case isFalse h => simp [h]

/-- Releasing some different nodes. -/
theorem Waiting.release_all (afters : List α) (hnodup : afters.Nodup) (w : Waiting α) :
    (∀ node, (afters.foldl Waiting.release w).counts node =
      if node ∈ afters then w.counts node - 1 else w.counts node) ∧
    (∀ node, node ∈ (afters.foldl Waiting.release w).ready ↔
      node ∈ w.ready ∨ node ∈ afters ∧ (afters.foldl Waiting.release w).counts node = 0) ∧
    (w.ready.Nodup → (afters.foldl Waiting.release w).ready.Nodup) := by
  induction afters generalizing w with
  | nil => simp
  | cons after afters ih =>
    obtain ⟨hafter, hnodup⟩ := List.nodup_cons.mp hnodup
    obtain ⟨hcounts, hready, hready'⟩ := ih hnodup (w.release after)
    rw [List.foldl_cons]
    refine ⟨fun node => ?_, fun node => ?_, fun h => hready' ?_⟩
    · rw [hcounts, Waiting.counts_release]
      by_cases hnode : node = after
      · subst hnode
        simp [hafter]
      · simp [hnode]
    · rw [hready, Waiting.mem_ready_release, List.mem_cons, or_assoc]
      refine or_congr_right ?_
      by_cases hnode : node = after
      · subst hnode
        have hsame := hcounts node
        rw [if_neg hafter] at hsame
        simp [hafter, hsame]
      · simp [hnode]
    · unfold Waiting.release
      dsimp only
      split
      case isTrue => exact nodup_insertSorted h
      case isFalse => exact h

/-- The successors of a taken node are released. -/
theorem Waiting.Accounts.release {released taken : α → Prop} [DecidablePred released]
    {w : Waiting α} (h : w.Accounts nodes successors released taken) (hnodes : nodes.Nodup)
    {node : α} (hnode : node ∈ nodes) (hreleased : ¬ released node)
    (hsuccessors : (successors node).Nodup) (hsub : ∀ after ∈ successors node, after ∈ nodes) :
    ((successors node).foldl Waiting.release w).Accounts nodes successors
      (fun b => b = node ∨ released b) taken := by
  obtain ⟨hcounts, hready, hnodup⟩ := Waiting.release_all (successors node) hsuccessors w
  -- A successor of the node waits for the node.
  have hwaits : ∀ after, w.counts after =
      (if after ∈ successors node then 1 else 0) +
        (nodes.filter fun before =>
          decide (after ∈ successors before ∧ ¬ (before = node ∨ released before))).length := by
    intro after
    rw [h.counts]
    obtain ⟨l, l', hsplit⟩ := List.append_of_mem hnode
    rw [hsplit] at hnodes ⊢
    have hout : ∀ b ∈ l ++ l', b ≠ node := by
      intro b hb he
      have hnot := (List.nodup_middle.mp hnodes)
      rw [List.nodup_cons] at hnot
      exact hnot.1 (he ▸ hb)
    have hsame : ∀ l₀ : List α, (∀ b ∈ l₀, b ≠ node) →
        l₀.filter (fun before => decide (after ∈ successors before ∧ ¬ released before)) =
          l₀.filter fun before =>
            decide (after ∈ successors before ∧ ¬ (before = node ∨ released before)) := by
      intro l₀ hl₀
      refine List.filter_congr fun b hb => ?_
      have hne := hl₀ b hb
      simp [hne]
    rw [List.filter_append, List.filter_append, List.filter_cons, List.filter_cons,
      hsame l fun b hb => hout b (List.mem_append_left _ hb),
      hsame l' fun b hb => hout b (List.mem_append_right _ hb)]
    by_cases hmem : after ∈ successors node
    · simp [hmem, hreleased]
      omega
    · simp [hmem]
  have hcounts' : ∀ after, ((successors node).foldl Waiting.release w).counts after =
      (nodes.filter fun before =>
        decide (after ∈ successors before ∧ ¬ (before = node ∨ released before))).length := by
    intro after
    have hwait := hwaits after
    rw [hcounts]
    split
    case isTrue hmem =>
      rw [if_pos hmem] at hwait
      omega
    case isFalse hmem =>
      rw [if_neg hmem] at hwait
      omega
  refine ⟨hcounts', fun after => ?_, hnodup h.nodup, fun after hafter => ?_⟩
  · rw [hready, h.ready]
    constructor
    · rintro (⟨hmem, htaken, hzero⟩ | ⟨hmem, hzero⟩)
      · refine ⟨hmem, htaken, ?_⟩
        rw [hcounts]
        split <;> omega
      · refine ⟨hsub after hmem, fun htaken => ?_, hzero⟩
        have hwait := hwaits after
        rw [if_pos hmem, h.taken after htaken] at hwait
        omega
    · rintro ⟨hmem, htaken, hzero⟩
      by_cases hafter : after ∈ successors node
      · exact Or.inr ⟨hafter, hzero⟩
      · rw [hcounts, if_neg hafter] at hzero
        exact Or.inl ⟨hmem, htaken, hzero⟩
  · rw [hcounts, h.taken after hafter]
    split <;> rfl

/-- A batch of ready nodes is taken and its successors are released. -/
theorem Waiting.Accounts.advance {done : List α} {w : Waiting α}
    (h : w.Accounts nodes successors (· ∈ done) (· ∈ done)) (hnodes : nodes.Nodup)
    (hsuccessors : ∀ node, (successors node).Nodup)
    (hsub : ∀ node, ∀ after ∈ successors node, after ∈ nodes) {batch : List α}
    (hbatch : ∀ node ∈ batch, node ∈ w.ready) (hnodup : batch.Nodup) :
    (w.advance successors batch).Accounts nodes successors (· ∈ done ++ batch)
      (· ∈ done ++ batch) := by
  have htaken : (⟨w.counts, w.ready.filter (· ∉ batch)⟩ : Waiting α).Accounts nodes successors
      (· ∈ done) (· ∈ done ++ batch) := by
    refine ⟨h.counts, fun node => ?_, h.nodup.filter _, fun node hnode => ?_⟩
    · rw [List.mem_filter, h.ready, List.mem_append]
      simp only [decide_eq_true_eq]
      tauto
    · rcases List.mem_append.mp hnode with hnode | hnode
      · exact h.taken node hnode
      · exact ((h.ready node).mp (hbatch node hnode)).2.2
  have hfold : ∀ (rest : List α) (released : List α) (w' : Waiting α),
      (∀ node ∈ rest, node ∈ nodes ∧ node ∉ released) → rest.Nodup →
      w'.Accounts nodes successors (· ∈ released) (· ∈ done ++ batch) →
      (rest.foldl (fun w node => (successors node).foldl Waiting.release w) w').Accounts nodes
        successors (· ∈ released ++ rest) (· ∈ done ++ batch) := by
    intro rest
    induction rest with
    | nil =>
      intro released w' _ _ hw'
      simpa using hw'
    | cons node rest ih =>
      intro released w' hrest hnodup hw'
      obtain ⟨hnode, hnodup⟩ := List.nodup_cons.mp hnodup
      obtain ⟨hmem, hreleased⟩ := hrest node List.mem_cons_self
      have hnext := hw'.release hnodes hmem hreleased (hsuccessors node) (hsub node)
      have hlist : ∀ b, (b = node ∨ b ∈ released) ↔ b ∈ released ++ [node] := by
        intro b
        rw [List.mem_append, List.mem_singleton, or_comm]
      have hnext' : ((successors node).foldl Waiting.release w').Accounts nodes successors
          (· ∈ released ++ [node]) (· ∈ done ++ batch) := by
        refine ⟨fun b => ?_, hnext.ready, hnext.nodup, hnext.taken⟩
        rw [hnext.counts]
        simp only [hlist]
      have hresult := ih (released ++ [node]) _ (fun b hb => ⟨(hrest b (List.mem_cons_of_mem _ hb)).1,
        fun hin => ?_⟩) hnodup hnext'
      · rw [List.append_assoc, List.singleton_append] at hresult
        exact hresult
      · rcases List.mem_append.mp hin with hin | hin
        · exact (hrest b (List.mem_cons_of_mem _ hb)).2 hin
        · exact hnode (List.mem_singleton.mp hin ▸ hb)
  refine hfold batch done _ (fun node hnode => ?_) hnodup htaken
  obtain ⟨hmem, hdone, -⟩ := (h.ready node).mp (hbatch node hnode)
  exact ⟨hmem, hdone⟩

/-! ## Whole schedules -/

/-- Every node of a batch has its predecessors in the batches before. -/
def InOrder (nodes : List α) (successors : α → List α) (batches : List (List α)) : Prop :=
  ∀ earlier batch later, batches = earlier ++ batch :: later → ∀ node ∈ batch, ∀ before ∈ nodes,
    node ∈ successors before → before ∈ earlier.flatten

/-- Batches of different nodes, each after its predecessors, and no more of them than there may be
at once. -/
structure Batched (nodes : List α) (successors : α → List α) (maxParallelism : Nat)
    (batches : List (List α)) : Prop where
  /-- Predecessors come before. -/
  inOrder : InOrder nodes successors batches
  /-- No node is scheduled twice. -/
  nodup : batches.flatten.Nodup
  /-- Only nodes are scheduled. -/
  nodes : ∀ node ∈ batches.flatten, node ∈ nodes
  /-- The size of a batch. -/
  bounded : ∀ batch ∈ batches, batch ≠ [] ∧ batch.length ≤ maxParallelism

/-- Another batch of ready nodes. -/
theorem Batched.append {maxParallelism : Nat} {batches : List (List α)} {w : Waiting α}
    (h : Batched nodes successors maxParallelism batches)
    (hw : w.Accounts nodes successors (· ∈ batches.flatten) (· ∈ batches.flatten))
    (hmax : 0 < maxParallelism) (hready : w.ready ≠ []) :
    Batched nodes successors maxParallelism (batches ++ [w.ready.take maxParallelism]) := by
  have hmem : ∀ node ∈ w.ready.take maxParallelism,
      node ∈ nodes ∧ node ∉ batches.flatten ∧ w.counts node = 0 :=
    fun node hnode => (hw.ready node).mp (List.mem_of_mem_take hnode)
  have hflatten : (batches ++ [w.ready.take maxParallelism]).flatten =
      batches.flatten ++ w.ready.take maxParallelism := by simp
  refine ⟨?_, ?_, ?_, ?_⟩
  · intro earlier batch later hsplit node hnode before hbefore hafter
    rcases List.eq_nil_or_concat' later with rfl | ⟨later, last, rfl⟩
    · -- The new batch waits for nothing, so that its predecessors are scheduled.
      obtain ⟨rfl, hbatch⟩ := List.append_inj' hsplit rfl
      rw [List.singleton_inj] at hbatch
      subst hbatch
      obtain ⟨-, -, hzero⟩ := hmem node hnode
      rw [hw.counts, List.length_eq_zero_iff, List.filter_eq_nil_iff] at hzero
      have hnot := hzero before hbefore
      simp only [decide_eq_true_eq, not_and, not_not] at hnot
      exact hnot hafter
    · have hsplit' : batches ++ [w.ready.take maxParallelism] =
          (earlier ++ batch :: later) ++ [last] := by
        rw [hsplit]
        simp
      obtain ⟨hold, -⟩ := List.append_inj' hsplit' rfl
      exact h.inOrder earlier batch later hold node hnode before hbefore hafter
  · rw [hflatten]
    refine h.nodup.append (hw.nodup.sublist (List.take_sublist _ _)) ?_
    intro node hold hnew
    exact (hmem node hnew).2.1 hold
  · rw [hflatten]
    intro node hnode
    rcases List.mem_append.mp hnode with hnode | hnode
    · exact h.nodes node hnode
    · exact (hmem node hnode).1
  · intro batch hbatch
    rcases List.mem_append.mp hbatch with hbatch | hbatch
    · exact h.bounded batch hbatch
    · rw [List.mem_singleton.mp hbatch]
      refine ⟨?_, List.length_take_le _ _⟩
      rw [Ne, List.take_eq_nil_iff, not_or]
      exact ⟨by omega, hready⟩

/-- Every node that is not scheduled has a predecessor that is not scheduled. -/
def Exhausted (nodes : List α) (successors : α → List α) (batches : List (List α)) : Prop :=
  ∀ node ∈ nodes, node ∉ batches.flatten →
    ∃ before ∈ nodes, node ∈ successors before ∧ before ∉ batches.flatten

/-- The loop schedules batches until all that is left waits. -/
theorem scheduleLoop_spec (hnodes : nodes.Nodup) (hsuccessors : ∀ node, (successors node).Nodup)
    (hsub : ∀ node, ∀ after ∈ successors node, after ∈ nodes) {maxParallelism : Nat}
    (hmax : 0 < maxParallelism) (fuel : Nat) {w : Waiting α} {batches : List (List α)}
    (hw : w.Accounts nodes successors (· ∈ batches.flatten) (· ∈ batches.flatten))
    (h : Batched nodes successors maxParallelism batches)
    (hfuel : nodes.length < fuel + batches.flatten.length) :
    Batched nodes successors maxParallelism
        (scheduleLoop successors maxParallelism fuel w batches) ∧
      Exhausted nodes successors (scheduleLoop successors maxParallelism fuel w batches) := by
  induction fuel generalizing w batches with
  | zero =>
    have hle := (List.subperm_of_subset h.nodup h.nodes).length_le
    omega
  | succ fuel ih =>
    rw [scheduleLoop]
    by_cases hempty : w.ready.isEmpty = true
    · rw [if_pos hempty]
      refine ⟨h, fun node hnode hout => ?_⟩
      by_contra hnone
      have hready : node ∈ w.ready := by
        refine (hw.ready node).mpr ⟨hnode, hout, ?_⟩
        rw [hw.counts, List.length_eq_zero_iff, List.filter_eq_nil_iff]
        intro before hbefore hwaits
        obtain ⟨hafter, hleft⟩ := of_decide_eq_true hwaits
        exact hnone ⟨before, hbefore, hafter, hleft⟩
      rw [List.isEmpty_iff.mp hempty] at hready
      cases hready
    · rw [if_neg hempty]
      have hready : w.ready ≠ [] := by simpa using hempty
      have hnext := h.append hw hmax hready
      have hflatten : (batches ++ [w.ready.take maxParallelism]).flatten =
          batches.flatten ++ w.ready.take maxParallelism := by simp
      have hpos := (hnext.bounded _ (List.mem_append_right _ (List.mem_singleton.mpr rfl))).1
      refine ih ?_ hnext ?_
      · rw [hflatten]
        exact hw.advance hnodes hsuccessors hsub (fun node hnode => List.mem_of_mem_take hnode)
          (hw.nodup.sublist (List.take_sublist _ _))
      · have hlength := List.length_pos_iff.mpr hpos
        rw [hflatten, List.length_append]
        omega

/-- The schedule of some nodes. -/
theorem schedule_spec (hnodes : nodes.Nodup) (hsuccessors : ∀ node, (successors node).Nodup)
    (hsub : ∀ node, ∀ after ∈ successors node, after ∈ nodes) {maxParallelism : Nat}
    (hmax : 0 < maxParallelism) :
    Batched nodes successors maxParallelism (schedule nodes successors maxParallelism) ∧
      Exhausted nodes successors (schedule nodes successors maxParallelism) := by
  refine scheduleLoop_spec hnodes hsuccessors hsub hmax _ ?_ ?_ (by simp)
  · have hinitial : (Waiting.initial nodes successors).Accounts nodes successors (fun _ => False)
        (fun _ => False) := Waiting.initial_accounts hnodes
    refine ⟨fun node => ?_, fun node => ?_, hinitial.nodup, fun _ h => by cases h⟩
    · rw [hinitial.counts]
      simp
    · rw [hinitial.ready]
      simp
  · refine ⟨fun earlier batch later hsplit => ?_, List.nodup_nil, fun node hnode => ?_,
      fun batch hbatch => ?_⟩
    · simp at hsplit
    · cases hnode
    · cases hbatch

/-- Without cycles nothing is left waiting. -/
theorem Exhausted.all {batches : List (List α)} (h : Exhausted nodes successors batches)
    (hacyclic : Acyclic nodes successors) : ∀ node ∈ nodes, node ∈ batches.flatten := by
  let before : { node // node ∈ nodes } → { node // node ∈ nodes } → Prop :=
    fun a b => Relation.TransGen (DependsOn nodes successors) a.1 b.1
  have htrans : IsTrans _ before := ⟨fun _ _ _ h h' => Relation.TransGen.trans h h'⟩
  have hirrefl : Std.Irrefl before := ⟨fun a => hacyclic a.1⟩
  have hfinite : Finite { node // node ∈ nodes } := (List.finite_toSet nodes).to_subtype
  have hwf : WellFounded before := Finite.wellFounded_of_trans_of_irrefl before
  intro node hnode
  by_contra hout
  -- A first node among those left would have a predecessor that is left.
  obtain ⟨⟨first, hfirst⟩, hleft, hmin⟩ := hwf.has_min
    { a : { node // node ∈ nodes } | a.1 ∉ batches.flatten } ⟨⟨node, hnode⟩, hout⟩
  obtain ⟨earlier, hearlier, hafter, hleft'⟩ := h first hfirst hleft
  exact hmin ⟨earlier, hearlier⟩ hleft' (Relation.TransGen.single ⟨hearlier, hfirst, hafter⟩)

/-- If all nodes are scheduled, none comes before itself: the batches grow along the edges. -/
theorem Batched.acyclic {maxParallelism : Nat} {batches : List (List α)}
    (h : Batched nodes successors maxParallelism batches)
    (hall : ∀ node ∈ nodes, node ∈ batches.flatten) : Acyclic nodes successors := by
  refine Acyclic.of_rank (fun node => batches.findIdx fun batch => decide (node ∈ batch)) ?_
  intro before hbefore after hafter hedge
  have hfound : batches.findIdx (fun batch => decide (after ∈ batch)) < batches.length := by
    obtain ⟨batch, hbatch, hin⟩ := List.mem_flatten.mp (hall after hafter)
    exact List.findIdx_lt_length_of_exists ⟨batch, hbatch, decide_eq_true hin⟩
  have hin : after ∈ batches[batches.findIdx fun batch => decide (after ∈ batch)] :=
    of_decide_eq_true (List.findIdx_getElem (w := hfound))
  have hsplit := (List.take_append_drop (batches.findIdx fun batch => decide (after ∈ batch))
    batches).symm
  rw [List.drop_eq_getElem_cons hfound] at hsplit
  have hearlier := h.inOrder _ _ _ hsplit after hin before hbefore hedge
  obtain ⟨batch, hbatch, hmem⟩ := List.mem_flatten.mp hearlier
  obtain ⟨position, hposition, rfl⟩ := List.mem_take_iff_getElem.mp hbatch
  have hle : batches.findIdx (fun batch => decide (before ∈ batch)) ≤ position := by
    by_contra hlater
    have hnot := List.not_of_lt_findIdx (Nat.lt_of_not_le hlater)
    simp [hmem] at hnot
  omega

end Schedule

end BinlogCdc
