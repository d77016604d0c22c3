import Mathlib

/-!
# Fallible programs over an explicit state

A program reads a state and returns either a value or a failure together with the
state it reached: a failure never undoes what was done before it. Weakest
preconditions carry two postconditions, one for the value and one for the failure,
so that an assertion about a stopped run is stated next to the one about a
finished run. Operations on an outside system are steps under an outcome: they take
effect, they are refused without effect, or the process dies before they are issued.
-/

namespace BinlogCdc

/-- A fallible program: the state reached survives a failure. -/
def Prog (σ ε α : Type) : Type := σ → Except ε α × σ

namespace Prog

variable {σ ε α β : Type}

instance : Monad (Prog σ ε) where
  pure a := fun s => (.ok a, s)
  bind c f := fun s =>
    match c s with
    | (.ok a, s') => f a s'
    | (.error e, s') => (.error e, s')

/-- Stop with a failure. -/
def fail (e : ε) : Prog σ ε α := fun s => (.error e, s)

/-- Read a component of the state. -/
def reads (f : σ → α) : Prog σ ε α := fun s => (.ok (f s), s)

/-- Change the state without any way to fail. -/
def update (f : σ → σ) : Prog σ ε Unit := fun s => (.ok (), f s)

/-- Turn a computed result into a program. -/
def ofExcept (r : Except ε α) : Prog σ ε α := fun s => (r, s)

/-- Report the failures of a program under another type of errors. -/
def mapError {ε' : Type} (f : ε → ε') (c : Prog σ ε α) : Prog σ ε' α := fun s =>
  match c s with
  | (.ok a, s') => (.ok a, s')
  | (.error e, s') => (.error (f e), s')

/-- Run the handler on the failures it accepts; the others pass through. -/
def onFailure (c : Prog σ ε α) (handler : ε → Option (Prog σ ε α)) : Prog σ ε α := fun s =>
  match c s with
  | (.ok a, s') => (.ok a, s')
  | (.error e, s') =>
    match handler e with
    | some h => h s'
    | none => (.error e, s')

/-- Change the state after a program, whether it succeeds or fails. -/
def andThen (c : Prog σ ε α) (f : σ → σ) : Prog σ ε α := fun s => ((c s).1, f (c s).2)

/-- Run a body on every element, stopping at the first failure. -/
def forEach (xs : List β) (body : β → Prog σ ε Unit) : Prog σ ε Unit :=
  match xs with
  | [] => pure ()
  | x :: xs => do
    body x
    forEach xs body

/-- The weakest precondition for a value postcondition and a failure postcondition. -/
def wp (c : Prog σ ε α) (Q : α → σ → Prop) (E : ε → σ → Prop) (s : σ) : Prop :=
  match c s with
  | (.ok a, s') => Q a s'
  | (.error e, s') => E e s'

variable {Q : α → σ → Prop} {E : ε → σ → Prop} {s : σ}

@[simp] theorem wp_pure (a : α) : wp (pure a : Prog σ ε α) Q E s ↔ Q a s := Iff.rfl

@[simp] theorem wp_fail (e : ε) : wp (fail e : Prog σ ε α) Q E s ↔ E e s := Iff.rfl

@[simp] theorem wp_reads (f : σ → α) : wp (reads f : Prog σ ε α) Q E s ↔ Q (f s) s := Iff.rfl

@[simp] theorem wp_update (f : σ → σ) (Q : Unit → σ → Prop) :
    wp (update f : Prog σ ε Unit) Q E s ↔ Q () (f s) := Iff.rfl

@[simp] theorem wp_ofExcept_ok (a : α) :
    wp (ofExcept (.ok a) : Prog σ ε α) Q E s ↔ Q a s := Iff.rfl

@[simp] theorem wp_ofExcept_error (e : ε) :
    wp (ofExcept (.error e) : Prog σ ε α) Q E s ↔ E e s := Iff.rfl

/-- Sequencing asks the continuation's precondition of the first program's value. -/
@[simp] theorem wp_bind (c : Prog σ ε β) (f : β → Prog σ ε α) :
    wp (c >>= f) Q E s ↔ wp c (fun b s' => wp (f b) Q E s') E s := by
  change (match (match c s with
    | (.ok b, s') => f b s'
    | (.error e, s') => (.error e, s')) with
    | (.ok a, s') => Q a s'
    | (.error e, s') => E e s') ↔ _
  unfold wp
  cases c s with
  | mk r s' => cases r <;> rfl

@[simp] theorem wp_mapError {ε' : Type} {E : ε' → σ → Prop} (f : ε → ε') (c : Prog σ ε α) :
    wp (mapError f c) Q E s ↔ wp c Q (fun e s' => E (f e) s') s := by
  unfold wp mapError
  cases c s with
  | mk r s' => cases r <;> rfl

/-- A conditional has the precondition of the branch it takes. -/
theorem wp_ite (b : Prop) [Decidable b] (c d : Prog σ ε α) :
    wp (if b then c else d) Q E s ↔ (b → wp c Q E s) ∧ (¬b → wp d Q E s) := by
  by_cases h : b
  · simp only [h, ite_true, true_imp_iff, not_true_eq_false, false_imp_iff, and_true]
  · simp only [h, ite_false, false_imp_iff, not_false_eq_true, true_imp_iff, true_and]

/-- Consequence: both postconditions may be weakened. -/
theorem wp_mono {Q' : α → σ → Prop} {E' : ε → σ → Prop} {c : Prog σ ε α}
    (h : wp c Q E s) (hq : ∀ a s', Q a s' → Q' a s') (he : ∀ e s', E e s' → E' e s') :
    wp c Q' E' s := by
  unfold wp at h ⊢
  cases hc : c s with
  | mk r s' =>
    rw [hc] at h
    cases r with
    | error e => exact he e s' h
    | ok a => exact hq a s' h

/-- Two preconditions of one program hold together. -/
theorem wp_and {Q' : α → σ → Prop} {E' : ε → σ → Prop} {c : Prog σ ε α}
    (h : wp c Q E s) (h' : wp c Q' E' s) :
    wp c (fun a s' => Q a s' ∧ Q' a s') (fun e s' => E e s' ∧ E' e s') s := by
  unfold wp at h h' ⊢
  cases hc : c s with
  | mk r s' =>
    rw [hc] at h h'
    cases r <;> exact ⟨h, h'⟩

/-- A handled failure continues with the handler, an unhandled one stays. -/
theorem wp_onFailure (c : Prog σ ε α) (handler : ε → Option (Prog σ ε α)) :
    wp (onFailure c handler) Q E s ↔
      wp c Q (fun e s' => match handler e with
        | some h => wp h Q E s'
        | none => E e s') s := by
  unfold wp onFailure
  cases c s with
  | mk r s' =>
    cases r with
    | ok a => exact Iff.rfl
    | error e =>
      cases he : handler e with
      | none => simp only [he]
      | some h => simp only [he]

/-- A change made in any case is seen by both postconditions. -/
theorem wp_andThen (c : Prog σ ε α) (f : σ → σ) :
    wp (andThen c f) Q E s ↔ wp c (fun a s' => Q a (f s')) (fun e s' => E e (f s')) s := by
  unfold wp andThen
  cases c s with
  | mk r s' => cases r <;> exact Iff.rfl

/-- The invariant rule of iteration: the invariant is indexed by the elements already done,
and a failure leaves the loop with the body's failure postcondition. -/
theorem wp_forEach (I : List β → σ → Prop) (xs : List β) (body : β → Prog σ ε Unit)
    (hstep : ∀ done x rest s, done ++ x :: rest = xs → I done s →
      wp (body x) (fun _ s' => I (done ++ [x]) s') E s)
    (h0 : I [] s) : wp (forEach xs body) (fun _ s' => I xs s') E s := by
  -- Generalise over the processed part so that the induction is on what remains.
  have key : ∀ rest done s, done ++ rest = xs → I done s →
      wp (forEach rest body) (fun _ s' => I xs s') E s := by
    intro rest
    induction rest with
    | nil =>
      intro done s hxs hI
      have he : done = xs := by simpa using hxs
      exact he ▸ hI
    | cons x rest ih =>
      intro done s hxs hI
      simp only [forEach, wp_bind]
      refine wp_mono (hstep done x rest s hxs hI) ?_ (fun _ _ h => h)
      intro _ s' hI'
      exact ih (done ++ [x]) s' (by simpa using hxs) hI'
  exact key xs [] s rfl h0

/-- Two lists one after the other are run one after the other. -/
theorem wp_forEach_append (xs ys : List β) (body : β → Prog σ ε Unit) {Q : Unit → σ → Prop} :
    wp (forEach (xs ++ ys) body) Q E s ↔
      wp (forEach xs body) (fun _ s' => wp (forEach ys body) Q E s') E s := by
  induction xs generalizing s with
  | nil => exact Iff.rfl
  | cons x xs ih =>
    simp only [List.cons_append, forEach, wp_bind]
    constructor
    · intro h
      exact wp_mono h (fun _ s' => (ih (s := s')).mp) (fun _ _ h => h)
    · intro h
      exact wp_mono h (fun _ s' => (ih (s := s')).mpr) (fun _ _ h => h)

/-- The program ran to its end and reached the state. -/
def Reaches (c : Prog σ ε Unit) (s s' : σ) : Prop := c s = (.ok (), s')

/-- A run without a failure reaches its final state. -/
theorem reaches_of_ok {c : Prog σ ε Unit} (h : (c s).1.toBool = true) : c.Reaches s (c s).2 := by
  unfold Reaches
  cases hc : c s with
  | mk r s' =>
    rw [hc] at h
    cases r with
    | error e => cases h
    | ok a => rfl

/-- A value postcondition may use that its state was reached. -/
theorem wp_reaches {c : Prog σ ε Unit} {Q : Unit → σ → Prop}
    (h : wp c (fun _ s' => c.Reaches s s' → Q () s') E s) : wp c Q E s := by
  unfold wp at h ⊢
  cases hc : c s with
  | mk r s' =>
    rw [hc] at h
    cases r with
    | error e => exact h
    | ok a => exact h hc

/-- A sequence continues with the value of its first program. -/
theorem bind_of_ok {c : Prog σ ε β} {f : β → Prog σ ε α} {b : β} {s' : σ}
    (h : c s = (.ok b, s')) : (c >>= f) s = f b s' := by
  simp only [Bind.bind, h]

theorem bind_of_error {c : Prog σ ε β} {f : β → Prog σ ε α} {s' : σ} {e : ε}
    (h : c s = (.error e, s')) : (c >>= f) s = (.error e, s') := by
  simp only [Bind.bind, h]

/-- A sequence reaches what its second program reaches after the first. -/
theorem reaches_bind {c : Prog σ ε β} {f : β → Prog σ ε Unit} {s'' : σ} :
    (c >>= f).Reaches s s'' ↔ ∃ b s', c s = (.ok b, s') ∧ (f b).Reaches s' s'' := by
  unfold Reaches
  change (match c s with
    | (.ok b, s') => f b s'
    | (.error e, s') => (.error e, s')) = (Except.ok (), s'') ↔ _
  cases c s with
  | mk r s' => cases r <;> simp

/-- One more element is reached from where the elements before it led. -/
theorem Reaches.snoc {xs : List β} {x : β} {body : β → Prog σ ε Unit} {s' s'' : σ}
    (h : (forEach xs body).Reaches s s') (h' : (body x).Reaches s' s'') :
    (forEach (xs ++ [x]) body).Reaches s s'' := by
  induction xs generalizing s with
  | nil =>
    cases h
    exact reaches_bind.mpr ⟨(), s'', h', rfl⟩
  | cons y ys ih =>
    obtain ⟨_, t, hy, hys⟩ := reaches_bind.mp h
    exact reaches_bind.mpr ⟨(), t, hy, ih hys⟩

/-- After the elements of a first list were reached, the run over both lists is the run over the
second one. -/
theorem Reaches.forEach_append {xs : List β} {body : β → Prog σ ε Unit} {s' : σ}
    (h : (forEach xs body).Reaches s s') (ys : List β) :
    forEach (xs ++ ys) body s = forEach ys body s' := by
  induction xs generalizing s with
  | nil =>
    cases h
    rfl
  | cons x xs ih =>
    obtain ⟨_, t, hx, hxs⟩ := reaches_bind.mp h
    rw [← ih hxs]
    exact bind_of_ok hx

/-- A value reached under a precondition satisfies the value postcondition. -/
theorem wp_value {c : Prog σ ε α} {a : α} {s' : σ} (h : wp c Q E s)
    (hc : c s = (.ok a, s')) : Q a s' := by
  simpa only [wp, hc] using h

/-- A failure under a precondition satisfies the failure postcondition. -/
theorem wp_error {c : Prog σ ε α} {e : ε} {s' : σ} (h : wp c Q E s)
    (hc : c s = (.error e, s')) : E e s' := by
  simpa only [wp, hc] using h

/-- The state reached satisfies what both postconditions have in common. -/
theorem wp_final {c : Prog σ ε α} {R : σ → Prop}
    (h : wp c (fun _ s' => R s') (fun _ s' => R s') s) : R (c s).2 := by
  unfold wp at h
  cases hc : c s with
  | mk r s' =>
    rw [hc] at h
    cases r <;> exact h

/-- The state a failed program reached satisfies the failure postcondition. -/
theorem wp_failure {c : Prog σ ε α} {R : σ → Prop} (h : wp c Q (fun _ s' => R s') s)
    (hfailed : (c s).1.toBool = false) : R (c s).2 := by
  unfold wp at h
  cases hc : c s with
  | mk r s' =>
    rw [hc] at h hfailed
    cases r with
    | ok a => cases hfailed
    | error e => exact h

end Prog

/-- What becomes of one operation on an outside system. -/
inductive Outcome where
  /-- The operation takes effect. -/
  | done
  /-- The operation is refused and has no effect. -/
  | refused (message : String)
  /-- The process dies before the operation is issued. -/
  | crashed
  deriving DecidableEq, Repr

/-- Why a run stopped: an error the program sees, or the death of the process. -/
inductive Stop (ε : Type) where
  /-- An error returned to the caller. -/
  | error (e : ε)
  /-- The process died; no handler of the program runs. -/
  | crash
  deriving DecidableEq, Repr

namespace Prog

variable {σ ε α : Type}

/-- Recover from an error of the program; the death of the process is not recovered from. -/
def onError (c : Prog σ (Stop ε) α) (handler : ε → Prog σ (Stop ε) α) : Prog σ (Stop ε) α :=
  onFailure c fun
    | .error e => some (handler e)
    | .crash => none

/-- An error continues with the handler, a crash keeps its own postcondition. -/
theorem wp_onError {Q : α → σ → Prop} {E : Stop ε → σ → Prop} {s : σ}
    (c : Prog σ (Stop ε) α) (handler : ε → Prog σ (Stop ε) α) :
    wp (onError c handler) Q E s ↔
      wp c Q (fun e s' => match e with
        | .error e => wp (handler e) Q E s'
        | .crash => E .crash s') s := by
  unfold onError
  rw [wp_onFailure]
  constructor
  · intro h
    exact wp_mono h (fun _ _ h => h) (fun e s' h => by cases e <;> exact h)
  · intro h
    exact wp_mono h (fun _ _ h => h) (fun e s' h => by cases e <;> exact h)

end Prog

end BinlogCdc
