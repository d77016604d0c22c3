import BinlogCdc.Core.BatchOrder

/-!
# Reachable nodes by a worklist

A stack of pending nodes is worked off: a node that is allowed and new is visited and its
neighbours are pushed. The visited nodes are those that a path through allowed nodes leads to.
Every step takes a node off the stack, and a node pushes its neighbours only once, so that the
number of edges bounds the steps.
-/

namespace BinlogCdc

attribute [local instance] lawfulBEq_of_linearOrder

variable {α : Type} [LinearOrder α]

/-- Work off the pending nodes, the last one pushed first. -/
def visitLoop (allowed : List α) (neighbors : α → List α) : Nat → List α → List α → List α
  | 0, visited, _ => visited
  | _ + 1, visited, [] => visited
  | fuel + 1, visited, node :: pending =>
    if node ∈ allowed ∧ node ∉ visited then
      visitLoop allowed neighbors fuel (insertSorted node visited)
        ((neighbors node).reverse ++ pending)
    else visitLoop allowed neighbors fuel visited pending

/-- The neighbours that the nodes not yet visited will push. -/
def pushesLeft (allowed : List α) (neighbors : α → List α) (visited : List α) : Nat :=
  ((allowed.filter (· ∉ visited)).map fun node => (neighbors node).length).sum

/-- The nodes visited from a start. -/
def visit (allowed : List α) (neighbors : α → List α) (start : α) : List α :=
  visitLoop allowed neighbors (pushesLeft allowed neighbors [] + 1) [] [start]

/-- A path through allowed nodes leads from the start to the node. -/
def Reaches (allowed : List α) (neighbors : α → List α) (start node : α) : Prop :=
  Relation.ReflTransGen (DependsOn allowed neighbors) start node

variable {allowed visited pending : List α} {neighbors : α → List α} {start node : α}

/-- A visited node takes its neighbours out of those left to push. -/
theorem pushesLeft_insertSorted (hallowed : node ∈ allowed) (hnew : node ∉ visited) :
    pushesLeft allowed neighbors (insertSorted node visited) + (neighbors node).length ≤
      pushesLeft allowed neighbors visited := by
  unfold pushesLeft
  induction allowed with
  | nil => cases hallowed
  | cons first allowed ih =>
    by_cases hfirst : first = node
    · subst hfirst
      have hmono : ∀ nodes : List α,
          ((nodes.filter (· ∉ insertSorted first visited)).map
            fun node => (neighbors node).length).sum ≤
          ((nodes.filter (· ∉ visited)).map fun node => (neighbors node).length).sum := by
        intro nodes
        induction nodes with
        | nil => exact le_rfl
        | cons other nodes ih =>
          by_cases hother : other ∈ visited
          · have hnow : other ∈ insertSorted first visited := mem_insertSorted.mpr (.inr hother)
            simpa [hother, hnow] using ih
          · simp only [List.filter_cons, hother, not_false_eq_true, decide_true, if_true,
              List.map_cons, List.sum_cons]
            split
            · rw [List.map_cons, List.sum_cons]
              exact Nat.add_le_add_left ih _
            · exact ih.trans (Nat.le_add_left _ _)
      have hold : (first :: allowed).filter (· ∉ visited) =
          first :: allowed.filter (· ∉ visited) := by simp [hnew]
      have hnow : (first :: allowed).filter (· ∉ insertSorted first visited) =
          allowed.filter (· ∉ insertSorted first visited) := by simp [mem_insertSorted]
      rw [hold, hnow, List.map_cons, List.sum_cons]
      have h := hmono allowed
      omega
    · have hrest : node ∈ allowed := (List.mem_cons.mp hallowed).resolve_left (Ne.symm hfirst)
      have h := ih hrest
      have hsame : first ∉ insertSorted node visited ↔ first ∉ visited := by
        simp [mem_insertSorted, hfirst]
      by_cases hvisited : first ∈ visited
      · have hnow : first ∈ insertSorted node visited := mem_insertSorted.mpr (.inr hvisited)
        simpa [hvisited, hnow] using h
      · have hnow : first ∉ insertSorted node visited := hsame.mpr hvisited
        simp only [List.filter_cons, hvisited, hnow, not_false_eq_true, decide_true, if_true,
          List.map_cons, List.sum_cons]
        omega

/-- Between two steps: what is visited or pending can be reached, and every allowed neighbour of a
visited node is visited or pending. -/
structure Explored (allowed : List α) (neighbors : α → List α) (start : α)
    (visited pending : List α) : Prop where
  reached : ∀ node ∈ visited, node ∈ allowed ∧ Reaches allowed neighbors start node
  reachable : ∀ node ∈ pending, node ∈ allowed → Reaches allowed neighbors start node
  closed : ∀ node ∈ visited, ∀ next ∈ neighbors node, next ∈ allowed →
    next ∈ visited ∨ next ∈ pending
  started : start ∈ visited ∨ start ∈ pending
  sorted : visited.Pairwise (· < ·)

theorem Explored.initial : Explored allowed neighbors start [] [start] where
  reached _ h := by cases h
  reachable node h _ := by
    rw [List.mem_singleton.mp h]
    exact .refl
  closed _ h := by cases h
  started := .inr List.mem_cons_self
  sorted := .nil

/-- A node that is not allowed or not new is passed over. -/
theorem Explored.skip (hstart : start ∈ allowed)
    (h : Explored allowed neighbors start visited (node :: pending))
    (hnode : ¬(node ∈ allowed ∧ node ∉ visited)) :
    Explored allowed neighbors start visited pending where
  reached := h.reached
  reachable next hnext := h.reachable next (List.mem_cons_of_mem node hnext)
  closed first hfirst next hnext hallowed := by
    rcases h.closed first hfirst next hnext hallowed with hvisited | hpending
    · exact .inl hvisited
    · rcases List.mem_cons.mp hpending with rfl | hpending
      · exact .inl (not_not.mp (not_and.mp hnode hallowed))
      · exact .inr hpending
  started := by
    rcases h.started with hvisited | hpending
    · exact .inl hvisited
    · rcases List.mem_cons.mp hpending with rfl | hpending
      · exact .inl (not_not.mp (not_and.mp hnode hstart))
      · exact .inr hpending
  sorted := h.sorted

/-- A new node is visited and its neighbours are pushed. -/
theorem Explored.push (h : Explored allowed neighbors start visited (node :: pending))
    (hallowed : node ∈ allowed) :
    Explored allowed neighbors start (insertSorted node visited)
      ((neighbors node).reverse ++ pending) where
  reached other hother := by
    rcases mem_insertSorted.mp hother with rfl | hother
    · exact ⟨hallowed, h.reachable other List.mem_cons_self hallowed⟩
    · exact h.reached other hother
  reachable next hnext hallowed' := by
    rcases List.mem_append.mp hnext with hnext | hnext
    · refine (h.reachable node List.mem_cons_self hallowed).tail ⟨hallowed, hallowed', ?_⟩
      exact List.mem_reverse.mp hnext
    · exact h.reachable next (List.mem_cons_of_mem node hnext) hallowed'
  closed first hfirst next hnext hallowed' := by
    rcases mem_insertSorted.mp hfirst with rfl | hfirst
    · exact .inr (List.mem_append_left _ (List.mem_reverse.mpr hnext))
    · rcases h.closed first hfirst next hnext hallowed' with hvisited | hpending
      · exact .inl (mem_insertSorted.mpr (.inr hvisited))
      · rcases List.mem_cons.mp hpending with rfl | hpending
        · exact .inl (mem_insertSorted.mpr (.inl rfl))
        · exact .inr (List.mem_append_right _ hpending)
  started := by
    rcases h.started with hvisited | hpending
    · exact .inl (mem_insertSorted.mpr (.inr hvisited))
    · rcases List.mem_cons.mp hpending with rfl | hpending
      · exact .inl (mem_insertSorted.mpr (.inl rfl))
      · exact .inr (List.mem_append_right _ hpending)
  sorted := pairwise_insertSorted h.sorted

/-- With nothing pending the visited nodes are those that can be reached. -/
theorem Explored.mem_iff (h : Explored allowed neighbors start visited []) :
    node ∈ visited ↔ Reaches allowed neighbors start node := by
  constructor
  · intro hnode
    exact (h.reached node hnode).2
  · intro hreach
    induction hreach with
    | refl => exact h.started.resolve_right List.not_mem_nil
    | tail _ hedge ih => exact (h.closed _ ih _ hedge.2.2 hedge.2.1).resolve_right List.not_mem_nil

/-- The loop ends with nothing pending. -/
theorem visitLoop_spec (hstart : start ∈ allowed) (fuel : Nat)
    (h : Explored allowed neighbors start visited pending)
    (hfuel : pending.length + pushesLeft allowed neighbors visited ≤ fuel) :
    Explored allowed neighbors start (visitLoop allowed neighbors fuel visited pending) [] := by
  induction fuel generalizing visited pending with
  | zero =>
    obtain rfl : pending = [] := List.length_eq_zero_iff.mp (by omega)
    exact h
  | succ fuel ih =>
    cases pending with
    | nil => exact h
    | cons node pending =>
      rw [List.length_cons] at hfuel
      rw [visitLoop]
      split
      case isTrue hnode =>
        have hpushes : pushesLeft allowed neighbors (insertSorted node visited) +
            (neighbors node).length ≤ pushesLeft allowed neighbors visited :=
          pushesLeft_insertSorted hnode.1 hnode.2
        refine ih (h.push hnode.1) ?_
        rw [List.length_append, List.length_reverse]
        omega
      case isFalse hnode => exact ih (h.skip hstart hnode) (by omega)

/-- The visited nodes are those that a path through allowed nodes leads to, in order. -/
theorem visit_spec (hstart : start ∈ allowed) :
    (visit allowed neighbors start).Pairwise (· < ·) ∧
      ∀ node, node ∈ visit allowed neighbors start ↔ Reaches allowed neighbors start node := by
  have h : Explored allowed neighbors start (visit allowed neighbors start) [] :=
    visitLoop_spec hstart _ Explored.initial (by
      rw [List.length_singleton]
      omega)
  exact ⟨h.sorted, fun _ => h.mem_iff⟩

omit [LinearOrder α] in
/-- Where every edge leads back, so does every path. -/
theorem Reaches.symm (hback : ∀ node next, next ∈ neighbors node → node ∈ neighbors next)
    (h : Reaches allowed neighbors start node) : Reaches allowed neighbors node start := by
  induction h with
  | refl => exact .refl
  | tail _ hedge ih =>
    obtain ⟨hfirst, hsecond, hedge⟩ := hedge
    exact .head ⟨hsecond, hfirst, hback _ _ hedge⟩ ih

/-- Where every edge leads back, two starts visit the same nodes or no common one. -/
theorem visit_eq_or_disjoint {other : α}
    (hback : ∀ node next, next ∈ neighbors node → node ∈ neighbors next)
    (hstart : start ∈ allowed) (hother : other ∈ allowed) :
    visit allowed neighbors start = visit allowed neighbors other ∨
      (visit allowed neighbors start).Disjoint (visit allowed neighbors other) := by
  obtain ⟨hsorted, hmem⟩ := @visit_spec _ _ allowed neighbors start hstart
  obtain ⟨hsorted', hmem'⟩ := @visit_spec _ _ allowed neighbors other hother
  by_cases hconnected : Reaches allowed neighbors start other
  · left
    refine hsorted.eq_of_mem_iff hsorted' fun node => ?_
    rw [hmem, hmem']
    constructor
    · exact fun h => (hconnected.symm hback).trans h
    · exact fun h => hconnected.trans h
  · right
    intro node hnode hnode'
    exact hconnected (((hmem node).mp hnode).trans (((hmem' node).mp hnode').symm hback))

end BinlogCdc
