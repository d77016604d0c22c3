import BinlogCdc.Core.Program

/-!
# Programs with a record of their calls

A program that calls an outside system can be run with a record of the calls it makes. The
recorded program returns what the plain one returns and reaches the same state; a property
of all the calls it can make is proved along the structure of the program.
-/

namespace BinlogCdc.Prog

variable {σ ε ε' γ α β : Type}

/-- Note a call and make it. -/
def logged (call : γ) (c : Prog σ ε α) : Prog (σ × List γ) ε α := fun s =>
  ((c s.1).1, ((c s.1).2, s.2 ++ [call]))

/-- The recorded program does what the plain one does, and the calls it notes satisfy a property. -/
def Records (P : γ → Prop) (c : Prog σ ε α) (c' : Prog (σ × List γ) ε α) : Prop :=
  ∀ s log, ∃ calls, (∀ call ∈ calls, P call) ∧ c' (s, log) = ((c s).1, ((c s).2, log ++ calls))

namespace Records

variable {P : γ → Prop} {c : Prog σ ε α} {c' : Prog (σ × List γ) ε α}

theorem of_logged (call : γ) (h : P call) (c : Prog σ ε α) : Records P c (logged call c) := by
  intro s log
  exact ⟨[call], List.forall_mem_singleton.mpr h, rfl⟩

theorem pure (a : α) : Records (σ := σ) (ε := ε) P (Pure.pure a) (Pure.pure a) := by
  intro s log
  exact ⟨[], List.forall_mem_nil _, by simp [Pure.pure]⟩

theorem ofExcept (r : Except ε α) : Records (σ := σ) P (Prog.ofExcept r) (Prog.ofExcept r) := by
  intro s log
  exact ⟨[], List.forall_mem_nil _, by simp [Prog.ofExcept]⟩

theorem fail (e : ε) : Records (σ := σ) (α := α) P (Prog.fail e) (Prog.fail e) :=
  ofExcept (.error e)

theorem mapError (h : Records P c c') (f : ε → ε') :
    Records P (Prog.mapError f c) (Prog.mapError f c') := by
  intro s log
  obtain ⟨calls, hcalls, hrun⟩ := h s log
  refine ⟨calls, hcalls, ?_⟩
  unfold Prog.mapError
  rw [hrun]
  cases c s with
  | mk r s' => cases r <;> rfl

/-- The calls of a sequence are those of the first program and then those of the second. -/
theorem bind {f : α → Prog σ ε β} {f' : α → Prog (σ × List γ) ε β} (h : Records P c c')
    (hf : ∀ a, Records P (f a) (f' a)) : Records P (c >>= f) (c' >>= f') := by
  intro s log
  obtain ⟨calls, hcalls, hrun⟩ := h s log
  obtain ⟨r, s', hc⟩ : ∃ r s', c s = (r, s') := ⟨_, _, rfl⟩
  rw [hc] at hrun
  cases r with
  | error e =>
    rw [bind_of_error hc, bind_of_error hrun]
    exact ⟨calls, hcalls, rfl⟩
  | ok a =>
    rw [bind_of_ok hc, bind_of_ok hrun]
    obtain ⟨more, hmore, hrest⟩ := hf a s' (log ++ calls)
    refine ⟨calls ++ more, ?_, ?_⟩
    · intro call hcall
      rcases List.mem_append.mp hcall with hcall | hcall
      · exact hcalls call hcall
      · exact hmore call hcall
    · simpa using hrest

end Records

end BinlogCdc.Prog
