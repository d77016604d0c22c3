import BinlogCdc.Core.Program

/-!
# What a program respects

A relation between the state before and after a program, for example that a part of the state is
left alone. If it is reflexive and transitive, then the programs that respect it are closed under
sequencing, choice and iteration, whether they fail or not.
-/

namespace BinlogCdc.Prog

variable {σ ε α β : Type} {R : σ → σ → Prop}

/-- Wherever the program ends, its final state is related to the first one. -/
def Respects (R : σ → σ → Prop) (c : Prog σ ε α) : Prop := ∀ s, R s (c s).2

/-- A relation that holds of nothing done and of one thing after the other. -/
structure Frame (R : σ → σ → Prop) : Prop where
  refl : ∀ s, R s s
  trans : ∀ {s s' s''}, R s s' → R s' s'' → R s s''

/-- The respected relation holds of both kinds of ends. -/
theorem Respects.wp {c : Prog σ ε α} (h : Respects R c) (s : σ) :
    wp c (fun _ s' => R s s') (fun _ s' => R s s') s := by
  have hs := h s
  unfold Prog.wp
  cases hc : c s with
  | mk r s' =>
    rw [hc] at hs
    cases r <;> exact hs

namespace Frame

variable (hR : Frame R)
include hR

theorem pure (a : α) : Respects R (Pure.pure a : Prog σ ε α) := hR.refl

theorem fail (e : ε) : Respects R (Prog.fail e : Prog σ ε α) := hR.refl

theorem reads (f : σ → α) : Respects R (Prog.reads f : Prog σ ε α) := hR.refl

theorem bind {c : Prog σ ε β} {f : β → Prog σ ε α} (hc : Respects R c)
    (hf : ∀ b, Respects R (f b)) : Respects R (c >>= f) := by
  intro s
  have hs := hc s
  cases hrun : c s with
  | mk r s' =>
    rw [hrun] at hs
    cases r with
    | error e =>
      rw [bind_of_error hrun]
      exact hs
    | ok b =>
      rw [bind_of_ok hrun]
      exact hR.trans hs (hf b s')

theorem andThen {c : Prog σ ε α} {f : σ → σ} (hc : Respects R c) (hf : ∀ s, R s (f s)) :
    Respects R (Prog.andThen c f) :=
  fun s => hR.trans (hc s) (hf _)

theorem forEach {body : β → Prog σ ε Unit} (hbody : ∀ x, Respects R (body x)) (xs : List β) :
    Respects R (Prog.forEach xs body) := by
  induction xs with
  | nil => exact hR.pure ()
  | cons x xs ih => exact hR.bind (hbody x) fun _ => ih

end Frame

/-- Both postconditions may use how the program ended. -/
theorem wp_of_run {c : Prog σ ε α} {Q : α → σ → Prop} {E : ε → σ → Prop} {s : σ}
    (hQ : ∀ a s', c s = (.ok a, s') → Q a s') (hE : ∀ e s', c s = (.error e, s') → E e s') :
    wp c Q E s := by
  unfold wp
  cases hc : c s with
  | mk r s' =>
    cases r with
    | ok a => exact hQ a s' hc
    | error e => exact hE e s' hc

end BinlogCdc.Prog
