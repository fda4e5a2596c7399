import Mathlib.Logic.Basic

/-
  Runs of a machine that takes the events it can take.

  A property of steps holds along a run when it holds of
  every step the run takes.  An invariant that the good
  steps keep makes two properties agree along every run, if
  they agree on the steps from the states it holds in.
-/

-- Properties of the steps of a run

namespace EventRun

variable {σ ε : Type}

/-
  A property of every step of a run.  An event that cannot happen is not taken, and ends the run.
-/
def Along (step : σ → ε → Option σ) (Good : σ → ε → σ → Prop) : σ → List ε → Prop
| _, [] => True
| state, event :: events =>
  match step state event with
  | none => True
  | some next => Good state event next ∧ Along step Good next events

variable {step : σ → ε → Option σ} {Good Safe : σ → ε → σ → Prop} {Inv : σ → Prop}

variable
    {state : σ} {events : List ε}

theorem along_cons {next : σ} {event : ε} (hStep : step state event = some next) :
  Along step Good state (event :: events) ↔
    Good state event next ∧ Along step Good next events := by
  simp only [Along, hStep]

/- A run can be tested, if its steps can. -/
instance decidableAlong [∀ state event next, Decidable (Good state event next)] :
  ∀ (state : σ) (events : List ε), Decidable (Along step Good state events)
| _, [] => isTrue trivial
| state, event :: events =>
  match hStep : step state event with
  | none => isTrue (by simp only [Along, hStep])
  | some next =>
    have : Decidable (Along step Good next events) := decidableAlong next events
    decidable_of_iff _ (along_cons hStep).symm

theorem along_append {later : List ε} {middle : σ} (hRun : events.foldlM step state = some middle) :
  Along step Good state (events ++ later) ↔
    Along step Good state events ∧ Along step Good middle later := by
  induction events generalizing state with
  | nil =>
    cases hRun
    exact (and_iff_right trivial).symm
  | cons event events ih =>
    rw [List.foldlM_cons] at hRun
    rcases Option.bind_eq_some_iff.mp hRun with ⟨next, hStep, hRest⟩
    rw [List.cons_append, along_cons hStep, along_cons hStep, ih hRest, and_assoc]

theorem along_cons_of {event : ε} (hGood :
    ∀ next, step state event = some next → Good state event next ∧ Along step Good next events) :
  Along step Good state (event :: events) := by
  cases hStep : step state event with
  | none => simp only [Along, hStep]
  | some next => exact (along_cons hStep).mpr (hGood next hStep)

/-
  Two properties of steps hold along the same runs, if they
  agree where an invariant holds that the steps keep.
-/
theorem along_iff (hAgree : ∀ state event next, Inv state → step state event = some next →
        (Good state event next ↔ Safe state event next))
  (hKeep : ∀ state event next, Inv state → step state event = some next →
        Safe state event next → Inv next)
  (events : List ε) {state : σ} (hInv : Inv state) :
  Along step Good state events ↔ Along step Safe state events := by
  induction events generalizing state with
  | nil => exact Iff.rfl
  | cons event events ih =>
    cases hStep : step state event with
    | none => simp only [Along, hStep]
    | some next =>
      rw [along_cons hStep, along_cons hStep, hAgree state event next hInv hStep]
      apply and_congr_right
      intro hSafe
      exact ih (hKeep state event next hInv hStep hSafe)

theorem inv_of_along (hKeep : ∀ state event next, Inv state → step state event = some next →
        Good state event next → Inv next)
  (events : List ε) {last : σ} (hInv : Inv state) (hRun : events.foldlM step state = some last)
  (hGood : Along step Good state events) : Inv last := by
  induction events generalizing state with
  | nil =>
    cases hRun
    exact hInv
  | cons event events ih =>
    rw [List.foldlM_cons] at hRun
    cases hStep : step state event with
    | none =>
      rw [hStep] at hRun
      cases hRun
    | some next =>
      rw [hStep] at hRun
      rcases (along_cons hStep).mp hGood with ⟨hFst, hRest⟩
      exact ih (hKeep state event next hInv hStep hFst) hRun hRest

theorem inv_of_run (hKeep : ∀ state event next, Inv state → step state event = some next → Inv next)
  (events : List ε) {last : σ} (hInv : Inv state) (hRun : events.foldlM step state = some last) :
  Inv last := by
  induction events generalizing state with
  | nil =>
    cases hRun
    exact hInv
  | cons event events ih =>
    rw [List.foldlM_cons] at hRun
    rcases Option.bind_eq_some_iff.mp hRun with ⟨next, hStep, hRest⟩
    exact ih (hKeep state event next hInv hStep) hRest

end EventRun
