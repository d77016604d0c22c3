import Mathlib

/-!
# Results of fallible computations

What a successful computation was made of: a sequence has results of its parts, and a traversal of a
list has one result for each element.
-/

namespace BinlogCdc

variable {ε α β : Type}

/-- A sequence succeeds with the result of its second part on the result of its first. -/
theorem bind_eq_ok {first : Except ε α} {next : α → Except ε β} {result : β} :
    first >>= next = .ok result ↔ ∃ value, first = .ok value ∧ next value = .ok result := by
  cases first with
  | error error => simp [bind, Except.bind]
  | ok value => simp [bind, Except.bind]

/-- A computation goes on with the value it has. -/
@[simp] theorem ok_bind (value : α) (next : α → Except ε β) : Except.ok value >>= next = next value :=
  rfl

@[simp] theorem pure_eq_ok {value result : α} :
    (pure value : Except ε α) = .ok result ↔ value = result := by
  constructor
  · exact Except.ok.inj
  · rintro rfl
    rfl

/-- A traversal succeeds if each of its elements does. -/
theorem mapM_eq_ok {f : α → Except ε β} {list : List α} {results : List β} :
    list.mapM f = .ok results ↔ List.Forall₂ (fun element result => f element = .ok result) list
      results := by
  induction list generalizing results with
  | nil =>
    rw [List.mapM_nil]
    constructor
    · intro h
      obtain rfl := Except.ok.inj h
      exact .nil
    · rintro ⟨⟩
      rfl
  | cons element list ih =>
    rw [List.mapM_cons, bind_eq_ok]
    constructor
    · rintro ⟨result, helement, h⟩
      obtain ⟨rest, hrest, h⟩ := bind_eq_ok.mp h
      obtain rfl := Except.ok.inj h
      exact .cons helement (ih.mp hrest)
    · rintro (_ | ⟨helement, hrest⟩)
      exact ⟨_, helement, bind_eq_ok.mpr ⟨_, ih.mpr hrest, rfl⟩⟩

theorem exists_of_mapM_eq_ok {f : α → Except ε β} {list : List α} {results : List β}
    (h : list.mapM f = .ok results) : ∀ element ∈ list, ∃ result, f element = .ok result := by
  have hall := mapM_eq_ok.mp h
  clear h
  induction hall with
  | nil => exact fun _ hnone => by cases hnone
  | cons hfirst _ ih => exact List.forall_mem_cons.mpr ⟨⟨_, hfirst⟩, ih⟩

/-- A traversal whose results are known. -/
theorem mapM_eq_ok_map {f : α → Except ε β} {g : α → β} {list : List α}
    (h : ∀ element ∈ list, f element = .ok (g element)) : list.mapM f = .ok (list.map g) := by
  rw [mapM_eq_ok, List.forall₂_map_right_iff, List.forall₂_same]
  exact h

end BinlogCdc
