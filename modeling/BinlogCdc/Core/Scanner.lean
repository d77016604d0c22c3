import Mathlib

/-!
# Scanners

A scanner reads a text one step at a time. A step looks at the head of the text, may put
something out and says where the next step starts; it may also fail. What a run puts out
does not depend on the fuel as long as every step consumes its head, so a run is unfolded
step by step.
-/

namespace BinlogCdc.Core

variable {α β ε : Type}

/-- The outputs of the steps over a text, as many steps as the fuel allows. -/
def scanFrom (step : α → List α → Except ε (Option β × List α)) :
    Nat → List α → Except ε (List β)
  | fuel + 1, head :: rest => do
    let (out, next) ← step head rest
    let outs ← scanFrom step fuel next
    return out.toList ++ outs
  | _, _ => .ok []

/-- The outputs of the steps over a whole text. -/
def scan (step : α → List α → Except ε (Option β × List α)) (text : List α) :
    Except ε (List β) :=
  scanFrom step text.length text

/-- Every step that succeeds consumes the head. -/
def Consumes (step : α → List α → Except ε (Option β × List α)) : Prop :=
  ∀ head rest out next, step head rest = .ok (out, next) → next.length ≤ rest.length

variable {step : α → List α → Except ε (Option β × List α)}

/-- Fuel for the whole text is enough. -/
theorem scanFrom_eq_scan (hstep : Consumes step) :
    ∀ {fuel : Nat} {text : List α}, text.length ≤ fuel → scanFrom step fuel text = scan step text := by
  have hfuels : ∀ (fuel more : Nat) (text : List α), text.length ≤ fuel → text.length ≤ more →
      scanFrom step fuel text = scanFrom step more text := by
    intro fuel
    induction fuel with
    | zero =>
      intro more text hfuel _
      rw [List.length_eq_zero_iff.mp (Nat.le_zero.mp hfuel)]
      cases more <;> rfl
    | succ fuel ih =>
      intro more text hfuel hmore
      cases text with
      | nil => cases more <;> rfl
      | cons head rest =>
        cases more with
        | zero => exact absurd hmore (by simp)
        | succ more =>
          rw [List.length_cons] at hfuel hmore
          rw [scanFrom, scanFrom]
          cases hread : step head rest with
          | error failure => rfl
          | ok read =>
            have hnext := hstep head rest read.1 read.2 hread
            show (do let outs ← scanFrom step fuel read.2; _) = do let outs ← scanFrom step more read.2; _
            rw [ih more read.2 (by omega) (by omega)]
  intro fuel text hfuel
  exact hfuels fuel text.length text hfuel (Nat.le_refl _)

theorem scan_nil : scan step [] = .ok [] := rfl

/-- A run is its first step and the run from where that one ends. -/
theorem scan_cons (hstep : Consumes step) {head : α} {rest next : List α} {out : Option β}
    (h : step head rest = .ok (out, next)) :
    scan step (head :: rest) = (scan step next).map (out.toList ++ ·) := by
  rw [scan, List.length_cons, scanFrom, h]
  show (do let outs ← scanFrom step rest.length next; _) = _
  rw [scanFrom_eq_scan hstep (hstep head rest out next h)]
  cases scan step next <;> rfl

/-- A run that succeeds starts with a step that does. -/
theorem exists_of_scan_cons (hstep : Consumes step) {head : α} {rest : List α} {outs : List β}
    (h : scan step (head :: rest) = .ok outs) :
    ∃ out next more, step head rest = .ok (out, next) ∧ scan step next = .ok more ∧
      outs = out.toList ++ more := by
  cases hread : step head rest with
  | error failure =>
    rw [scan, List.length_cons, scanFrom, hread] at h
    exact absurd h (by simp [bind, Except.bind])
  | ok read =>
    rw [scan_cons hstep hread] at h
    cases hmore : scan step read.2 with
    | error failure => rw [hmore] at h; exact absurd h (by simp [Except.map])
    | ok more =>
      rw [hmore] at h
      exact ⟨read.1, read.2, more, rfl, hmore, (Except.ok.inj h).symm⟩

/-- What holds of the empty text, and of a text whenever it holds where its first step ends, holds
of every text that a run gets through. -/
theorem scan_induction (hstep : Consumes step) {motive : List α → List β → Prop}
    (nil : motive [] [])
    (cons : ∀ head rest out next outs, step head rest = .ok (out, next) →
      scan step next = .ok outs → motive next outs → motive (head :: rest) (out.toList ++ outs))
    {text : List α} {outs : List β} (h : scan step text = .ok outs) : motive text outs := by
  induction hlength : text.length using Nat.strongRecOn generalizing text outs with
  | _ length ih =>
    cases text with
    | nil =>
      rw [← Except.ok.inj h]
      exact nil
    | cons head rest =>
      obtain ⟨out, next, more, hread, hmore, rfl⟩ := exists_of_scan_cons hstep h
      have hnext : next.length < length := by
        rw [← hlength, List.length_cons]
        exact Nat.lt_succ_of_le (hstep head rest out next hread)
      exact cons head rest out next more hread hmore (ih next.length hnext hmore rfl)

end BinlogCdc.Core
